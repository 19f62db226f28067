namespace ChipEight.Text

theorem append_cons_inj {c : Char} {as bs xs ys : List Char} (ha : c ∉ as) (hb : c ∉ bs)
    (h : as ++ c :: xs = bs ++ c :: ys) : as = bs ∧ xs = ys := by
  induction as generalizing bs with
  | nil =>
    cases bs with
    | nil => exact ⟨rfl, List.tail_eq_of_cons_eq h⟩
    | cons d bs => exact absurd (List.head_eq_of_cons_eq h ▸ List.mem_cons_self) hb
  | cons d as ih =>
    cases bs with
    | nil => exact absurd (List.head_eq_of_cons_eq h ▸ List.mem_cons_self) ha
    | cons e bs =>
      obtain ⟨rfl, hrest⟩ := List.cons.inj h
      rw [List.mem_cons, not_or] at ha hb
      exact (ih ha.2 hb.2 hrest).imp_left (congrArg (d :: ·))

variable {mark : Char} {sep : String} {a b x y : String}

/-- The mark that is found first is the one in the separator. -/
theorem append_sep_inj (hs : mark ∈ sep.toList) (ha : mark ∉ a.toList) (hb : mark ∉ b.toList)
    (h : a ++ (sep ++ x) = b ++ (sep ++ y)) : a = b ∧ x = y := by
  obtain ⟨front, back, hsep, hfront⟩ := List.eq_append_cons_of_mem hs
  have hna : mark ∉ a.toList ++ front := List.not_mem_append ha hfront
  have hnb : mark ∉ b.toList ++ front := List.not_mem_append hb hfront
  have hsplit : ∀ cs zs : List Char, cs ++ (front ++ mark :: back ++ zs) =
      (cs ++ front) ++ mark :: (back ++ zs) := by simp
  simp only [← String.toList_inj, String.toList_append, hsep] at h ⊢
  rw [hsplit, hsplit] at h
  obtain ⟨hl, hr⟩ := append_cons_inj hna hnb h
  exact ⟨List.append_cancel_right hl, List.append_cancel_left hr⟩

theorem ne_append_sep (hs : mark ∈ sep.toList) (ha : mark ∉ a.toList) (b x : String) :
    a ≠ b ++ (sep ++ x) := by
  rintro rfl
  simp [hs] at ha

theorem field_inj {label : String} (hs : mark ∈ sep.toList) (ha : mark ∉ a.toList)
    (hb : mark ∉ b.toList) (h : label ++ (a ++ (sep ++ x)) = label ++ (b ++ (sep ++ y))) :
    a = b ∧ sep ++ x = sep ++ y :=
  (append_sep_inj hs ha hb ((String.append_right_inj label).mp h)).imp_right (congrArg (sep ++ ·))

/-- The text can be an item of a list whose separators hold the mark. -/
def IsItem (mark : Char) (s : String) : Prop := s ≠ "" ∧ mark ∉ s.toList

instance (mark : Char) (s : String) : Decidable (IsItem mark s) :=
  inferInstanceAs (Decidable (_ ∧ _))

theorem intercalate_cons_ne_empty (h : IsItem mark a) (as : List String) :
    sep.intercalate (a :: as) ≠ "" := by
  cases as with
  | nil =>
    rw [String.intercalate_singleton]
    exact h.1
  | cons b as =>
    rw [String.intercalate_cons_cons, String.append_assoc]
    exact fun he => h.1 (String.append_eq_empty_iff.mp he).1

theorem ne_intercalate_cons_cons (hs : mark ∈ sep.toList) (h : IsItem mark a) (b c : String)
    (bs : List String) : a ≠ sep.intercalate (b :: c :: bs) := by
  rw [String.intercalate_cons_cons, String.append_assoc]
  exact ne_append_sep hs h.2 b _

theorem intercalate_inj (hs : mark ∈ sep.toList) {as bs : List String}
    (ha : ∀ a ∈ as, IsItem mark a) (hb : ∀ b ∈ bs, IsItem mark b)
    (h : sep.intercalate as = sep.intercalate bs) : as = bs := by
  induction as generalizing bs with
  | nil =>
    cases bs with
    | nil => rfl
    | cons b bs => exact absurd h.symm (intercalate_cons_ne_empty (hb b List.mem_cons_self) bs)
  | cons a as ih =>
    have ha₁ := ha a List.mem_cons_self
    cases bs with
    | nil => exact absurd h (intercalate_cons_ne_empty ha₁ as)
    | cons b bs =>
      have hb₁ := hb b List.mem_cons_self
      -- a separator follows unless the item is the last one, so both lists go on or both end
      match as, bs with
      | [], [] =>
        rw [String.intercalate_singleton, String.intercalate_singleton] at h
        rw [h]
      | [], c :: bs =>
        rw [String.intercalate_singleton] at h
        exact absurd h (ne_intercalate_cons_cons hs ha₁ b c bs)
      | c :: as, [] =>
        rw [String.intercalate_singleton] at h
        exact absurd h.symm (ne_intercalate_cons_cons hs hb₁ a c as)
      | c :: as, d :: bs =>
        rw [String.intercalate_cons_cons, String.intercalate_cons_cons, String.append_assoc,
          String.append_assoc] at h
        obtain ⟨rfl, hrest⟩ := append_sep_inj hs ha₁.2 hb₁.2 h
        have htail := ih (fun e he => ha e (List.mem_cons_of_mem a he))
          (fun e he => hb e (List.mem_cons_of_mem a he)) hrest
        rw [htail]

section

variable {α : Type} {f g : α → String} {as bs : List α}

theorem isItem_of_mem_map (hf : ∀ a, IsItem mark (f a)) : ∀ s ∈ as.map f, IsItem mark s := by
  intro s hs
  obtain ⟨a, -, rfl⟩ := List.mem_map.mp hs
  exact hf a

theorem map_eq_of_intercalate_eq (hs : mark ∈ sep.toList) (hf : ∀ a, IsItem mark (f a))
    (hg : ∀ a, IsItem mark (g a)) (h : sep.intercalate (as.map f) = sep.intercalate (bs.map g)) :
    as.map f = bs.map g :=
  intercalate_inj hs (isItem_of_mem_map hf) (isItem_of_mem_map hg) h

theorem intercalate_map_inj (hs : mark ∈ sep.toList) (hf : ∀ a, IsItem mark (f a))
    (hinj : ∀ a b, f a = f b → a = b)
    (h : sep.intercalate (as.map f) = sep.intercalate (bs.map f)) : as = bs :=
  (List.map_inj_right hinj).mp (map_eq_of_intercalate_eq hs hf hf h)

end

theorem not_mem_intercalate {c : Char} (hs : c ∉ sep.toList) {as : List String}
    (ha : ∀ a ∈ as, c ∉ a.toList) : c ∉ (sep.intercalate as).toList := by
  induction as with
  | nil => simp
  | cons a as ih =>
    have ha₁ := ha a List.mem_cons_self
    cases as with
    | nil => rwa [String.intercalate_singleton]
    | cons b as =>
      have hrest := ih fun d hd => ha d (List.mem_cons_of_mem a hd)
      rw [String.intercalate_cons_cons, String.toList_append, String.toList_append]
      exact List.not_mem_append (List.not_mem_append ha₁ hs) hrest

theorem not_mem_intercalate_map {α : Type} {f : α → String} {c : Char} (hs : c ∉ sep.toList)
    (hf : ∀ a, c ∉ (f a).toList) (as : List α) : c ∉ (sep.intercalate (as.map f)).toList := by
  apply not_mem_intercalate hs
  intro s hm
  obtain ⟨a, -, rfl⟩ := List.mem_map.mp hm
  exact hf a

end ChipEight.Text
