import ChipEight.Text.Numeral

namespace ChipEight.Text

def digits : List Char := "0123456789abcdef".toList

def numeralChars : List Char := '-' :: digits

def digitValue (c : Char) : Nat := digits.idxOf c

def value (base : Nat) (ds : List Char) : Nat := ds.foldl (fun n c => base * n + digitValue c) 0

def number (base : Nat) : List Char → Int
  | '-' :: ds => -(value base ds : Int)
  | ds => value base ds

variable {base w m n : Nat} {i j : Int} {c : Char} {ds : List Char}

theorem digitValue_digitChar (h : n < 16) : digitValue n.digitChar = n := by
  have hd : ∀ d : Fin 16, digitValue d.val.digitChar = d.val := by decide
  exact hd ⟨n, h⟩

theorem digitChar_mem_digits (h : n < 16) : n.digitChar ∈ digits := by
  have hd : ∀ d : Fin 16, d.val.digitChar ∈ digits := by decide
  exact hd ⟨n, h⟩

theorem value_concat (base : Nat) (ds : List Char) (c : Char) :
    value base (ds ++ [c]) = base * value base ds + digitValue c := by
  simp only [value, List.foldl_append, List.foldl_cons, List.foldl_nil]

theorem value_singleton (base : Nat) (c : Char) : value base [c] = digitValue c :=
  Nat.zero_add _

theorem value_zeros_append (base k : Nat) (ds : List Char) :
    value base (List.replicate k '0' ++ ds) = value base ds := by
  induction k with
  | zero => rfl
  | succ k ih => exact ih

/-- The numeral of a number is a digit, or the numeral of a smaller number and a digit behind it. -/
theorem toDigits_induction {P : Nat → List Char → Prop} (hb : 1 < base)
    (digit : ∀ d < base, P d [d.digitChar])
    (concat : ∀ n, ∀ d < base, P n (Nat.toDigits base n) →
      P (base * n + d) (Nat.toDigits base n ++ [d.digitChar])) (n : Nat) :
    P n (Nat.toDigits base n) := by
  induction n using Nat.strongRecOn with
  | ind n ih =>
    -- the last digit is taken off, since the equation of `Nat.toDigits` does so
    rw [Nat.toDigits_eq_if hb]
    by_cases hn : n < base
    · rw [if_pos hn]
      exact digit n hn
    · have hq : n / base < n := Nat.div_lt_self (by omega) hb
      have hc := concat (n / base) (n % base) (Nat.mod_lt n (by omega)) (ih _ hq)
      rw [Nat.div_add_mod] at hc
      rwa [if_neg hn]

theorem value_toDigits (hlo : 1 < base) (hhi : base ≤ 16) (n : Nat) :
    value base (Nat.toDigits base n) = n := by
  apply toDigits_induction (P := fun n ds => value base ds = n) hlo
  · intro d hd
    rw [value_singleton, digitValue_digitChar (by omega)]
  · intro n d hd ih
    rw [value_concat, ih, digitValue_digitChar (by omega)]

theorem mem_digits_of_mem_toDigits (hlo : 1 < base) (hhi : base ≤ 16) :
    c ∈ Nat.toDigits base n → c ∈ digits := by
  apply toDigits_induction (P := fun _ ds => c ∈ ds → c ∈ digits) hlo
  · intro d hd hc
    rw [List.mem_singleton.mp hc]
    exact digitChar_mem_digits (by omega)
  · intro n d hd ih hc
    rcases List.mem_append.mp hc with hc | hc
    · exact ih hc
    · rw [List.mem_singleton.mp hc]
      exact digitChar_mem_digits (by omega)

theorem number_of_not_mem (h : '-' ∉ ds) : number base ds = value base ds := by
  cases ds with
  | nil => rfl
  | cons c ds =>
    have hc : c ≠ '-' := fun he => h (he ▸ List.mem_cons_self)
    rw [number]
    rintro ds' he
    cases he
    exact hc rfl

theorem number_sign_append (i : Int) (h : ∀ c ∈ ds, c ∈ digits) (hv : value base ds = i.natAbs) :
    number base (sign i ++ ds) = i := by
  by_cases hi : 0 ≤ i
  · have hds : '-' ∉ ds := fun hm => absurd (h _ hm) (by decide)
    rw [sign_of_nonneg hi, List.nil_append, number_of_not_mem hds, hv]
    omega
  · rw [sign_of_neg (by omega), List.singleton_append, number, hv]
    omega

theorem mem_digits_of_mem_padded (h : c ∈ List.replicate m '0' ++ Nat.toDigits 16 n) :
    c ∈ digits := by
  rcases List.mem_append.mp h with hc | hc
  · rw [List.eq_of_mem_replicate hc]
    decide
  · exact mem_digits_of_mem_toDigits (by decide) (by decide) hc

/-- A hexadecimal numeral of any width stands for its number. -/
theorem number_hexDigits (w : Nat) (i : Int) : number 16 (hexDigits w i) = i := by
  rw [hexDigits, List.append_assoc]
  refine number_sign_append i (fun _ => mem_digits_of_mem_padded) ?_
  rw [value_zeros_append, value_toDigits (by decide) (by decide)]

theorem number_decimalDigits (i : Int) : number 10 (decimalDigits i) = i :=
  number_sign_append i (fun _ => mem_digits_of_mem_toDigits (by decide) (by decide))
    (value_toDigits (by decide) (by decide) _)

theorem hex_inj : hex w i = hex w j ↔ i = j := by
  refine ⟨fun h => ?_, congrArg (hex w)⟩
  have hd : hexDigits w i = hexDigits w j := String.ofList_inj.mp h
  rw [← number_hexDigits w i, hd, number_hexDigits]

theorem decimal_inj : decimal i = decimal j ↔ i = j := by
  refine ⟨fun h => ?_, congrArg decimal⟩
  have hd : decimalDigits i = decimalDigits j := String.ofList_inj.mp h
  rw [← number_decimalDigits i, hd, number_decimalDigits]

theorem address_inj : address i = address j ↔ i = j := by
  rw [address, address, ← String.toList_inj, String.toList_append, String.toList_append,
    List.append_cancel_left_eq, String.toList_inj, hex_inj]

theorem mem_numeralChars_of_mem_sign (h : c ∈ sign i) : c ∈ numeralChars := by
  rw [sign] at h
  split at h
  · rw [List.mem_singleton.mp h]
    decide
  · exact absurd h List.not_mem_nil

theorem not_mem_hex (h : c ∉ numeralChars) (w : Nat) (i : Int) : c ∉ (hex w i).toList := by
  rw [hex, String.toList_ofList, hexDigits, List.append_assoc]
  exact List.not_mem_append (fun hs => h (mem_numeralChars_of_mem_sign hs))
    fun hd => h (List.mem_cons_of_mem _ (mem_digits_of_mem_padded hd))

theorem not_mem_decimal (h : c ∉ numeralChars) (i : Int) : c ∉ (decimal i).toList := by
  rw [decimal, String.toList_ofList]
  exact List.not_mem_append (fun hs => h (mem_numeralChars_of_mem_sign hs))
    fun hd => h (List.mem_cons_of_mem _ (mem_digits_of_mem_toDigits (by decide) (by decide) hd))

def markedChars : List Char := 'x' :: numeralChars

theorem not_mem_marked (h : c ∉ markedChars) (w : Nat) (i : Int) :
    c ∉ ("0x" ++ hex w i).toList := by
  have hx : ['0', 'x'].all (· ∈ markedChars) = true := by decide
  have hmark : "0x".toList = ['0', 'x'] := rfl
  rw [String.toList_append, hmark]
  exact List.not_mem_append (fun hm => h (of_decide_eq_true (List.all_eq_true.mp hx c hm)))
    (not_mem_hex (fun hm => h (List.mem_cons_of_mem _ hm)) w i)

theorem not_mem_address (h : c ∉ markedChars) (i : Int) : c ∉ (address i).toList :=
  not_mem_marked h 4 i

theorem length_hexDigits (hn : (Nat.toDigits 16 n).length ≤ w) : (hexDigits w n).length = w := by
  rw [hexDigits, sign_of_nonneg (Int.natCast_nonneg n)]
  simp only [Int.natAbs_natCast, List.length_append, List.length_replicate, List.length_nil]
  omega

theorem value_hexDigits (w n : Nat) : value 16 (hexDigits w n) = n := by
  rw [hexDigits, sign_of_nonneg (Int.natCast_nonneg n), List.nil_append, Int.natAbs_natCast,
    value_zeros_append, value_toDigits (by decide) (by decide)]

end ChipEight.Text
