import ChipEight.Machine.Dump
import ChipEight.Proofs.Numerals
import ChipEight.Proofs.Punctuation

namespace ChipEight

namespace RegisterFile

variable {v w : RegisterFile}

def entry (v : RegisterFile) (r : Register) : String := r.name ++ ":" ++ Text.hex 2 v[r].toNat

theorem text_eq (v : RegisterFile) : v.text = " ".intercalate (Register.all.map v.entry) := rfl

theorem entry_inj {r : Register} : v.entry r = w.entry r ↔ v[r] = w[r] := by
  rw [entry, entry, String.append_right_inj, Text.hex_inj, Int.natCast_inj, UInt8.toNat_inj]

theorem not_mem_entry {c : Char} (hname : ∀ r : Register, c ∉ (r.name ++ ":").toList)
    (hc : c ∉ Text.numeralChars) (v : RegisterFile) (r : Register) : c ∉ (v.entry r).toList := by
  rw [entry, String.toList_append]
  exact List.not_mem_append (hname r) (Text.not_mem_hex hc 2 _)

theorem isItem_entry (v : RegisterFile) (r : Register) : Text.IsItem ' ' (v.entry r) :=
  ⟨by simp [entry], not_mem_entry (by decide +kernel) (by decide) v r⟩

theorem newline_not_mem_text (v : RegisterFile) : '\n' ∉ v.text.toList :=
  Text.not_mem_intercalate_map (by decide) (not_mem_entry (by decide +kernel) (by decide) v) _

theorem text_inj : v.text = w.text ↔ ∀ r : Register, v[r] = w[r] := by
  constructor
  · intro h r
    have hlist := Text.map_eq_of_intercalate_eq (by decide) v.isItem_entry w.isItem_entry h
    exact entry_inj.mp (List.map_inj_left.mp hlist r (List.mem_finRange r))
  · intro h
    rw [text_eq, text_eq, List.map_congr_left fun r _ => entry_inj.mpr (h r)]

end RegisterFile

namespace CallStack

variable {s t : CallStack}

theorem isItem_address (i : Int) : Text.IsItem ',' (Text.address i) :=
  ⟨by simp [Text.address], Text.not_mem_address (by decide) i⟩

theorem newline_not_mem_text (s : CallStack) : '\n' ∉ s.text.toList := by
  have hlist : '\n' ∉ (", ".intercalate (s.addresses.map Text.address)).toList :=
    Text.not_mem_intercalate_map (by decide) (Text.not_mem_address (by decide)) _
  rw [text, String.toList_append, String.toList_append]
  exact List.not_mem_append (List.not_mem_append (by decide) hlist) (by decide)

theorem text_inj : s.text = t.text ↔ s.addresses = t.addresses := by
  constructor
  · intro h
    unfold text at h
    rw [String.append_left_inj, String.append_right_inj] at h
    exact Text.intercalate_map_inj (by decide) isItem_address (fun _ _ => Text.address_inj.mp) h
  · intro h
    unfold text
    rw [h]

end CallStack

namespace Keypad

variable {p q : Keypad}

theorem isItem_face (k : Key) : Text.IsItem ',' k.face := by
  decide +revert +kernel

theorem face_inj (k l : Key) (h : k.face = l.face) : k = l := by
  apply Option.some.inj
  rw [← Key.ofText?_face k, h, Key.ofText?_face]

theorem text_inj : p.text = q.text ↔ ∀ k : Key, p.isDown k = q.isDown k := by
  constructor
  · intro h k
    unfold text at h
    rw [String.append_left_inj, String.append_right_inj] at h
    have hpressed : p.pressed = q.pressed :=
      Text.intercalate_map_inj (by decide) isItem_face face_inj h
    rw [Bool.eq_iff_iff, ← mem_pressed, ← mem_pressed, hpressed]
  · intro h
    have hpressed : p.pressed = q.pressed := List.filter_congr fun k _ => h k
    unfold text
    rw [hpressed]

end Keypad

namespace Machine

theorem waitingText_some (r : Register) : waitingText (some r) =
    "WaitingOnKeyUp(register=<DataRegister." ++
      (r.name ++ (": " ++ (Text.decimal r.val ++ ">)"))) := by
  unfold waitingText
  simp only [String.append_assoc]

theorem waitingText_ne_none (r : Register) : waitingText (some r) ≠ waitingText none := by
  have hnone : waitingText none = "None" := rfl
  rw [waitingText_some, hnone]
  simp [← String.toList_inj]

theorem waitingText_some_inj {r s : Register} (h : waitingText (some r) = waitingText (some s)) :
    r = s := by
  have hname : ∀ r : Register, ':' ∉ r.name.toList := by decide +kernel
  rw [waitingText_some, waitingText_some, String.append_right_inj] at h
  obtain ⟨-, hnumber⟩ := Text.append_sep_inj (by decide) (hname r) (hname s) h
  rw [String.append_left_inj, Text.decimal_inj, Int.natCast_inj] at hnumber
  exact Fin.ext hnumber

theorem waitingText_inj {v w : Option Register} : waitingText v = waitingText w ↔ v = w := by
  refine ⟨fun h => ?_, congrArg waitingText⟩
  cases v with
  | none =>
    cases w with
    | none => rfl
    | some s => exact absurd h.symm (waitingText_ne_none s)
  | some r =>
    cases w with
    | none => exact absurd h (waitingText_ne_none r)
    | some s => rw [waitingText_some_inj h]

theorem bar_not_mem_waitingText (w : Option Register) : '|' ∉ (waitingText w).toList := by
  cases w with
  | none => decide
  | some r =>
    have hname : ∀ r : Register, '|' ∉ r.name.toList := by decide +kernel
    have hnumber : '|' ∉ (Text.decimal r.val).toList := Text.not_mem_decimal (by decide) _
    rw [waitingText_some]
    simp [hname r, hnumber]

/-- The machines have in common all that a dump shows. -/
structure LooksLike (m n : Machine) : Prop where
  pc : m.pc = n.pc
  index : m.index = n.index
  registers : ∀ r : Register, m.registers[r] = n.registers[r]
  addresses : m.stack.addresses = n.stack.addresses
  delay : m.delay = n.delay
  sound : m.sound = n.sound
  waiting : m.waiting = n.waiting
  keys : ∀ k : Key, m.keypad.isDown k = n.keypad.isDown k

theorem dump_eq (m : Machine) : m.dump =
    "PC_REGISTER:" ++ (Text.address m.pc ++ (" | IDX_REGISTER:" ++ (Text.address m.index ++
      (" | VARIABLE_REGISTERS:" ++ (m.registers.text ++ ("\nSTACK:" ++ (m.stack.text ++
        ("\nDT:" ++ (Text.decimal m.delay ++ (" | ST:" ++ (Text.decimal m.sound ++
          ("\nBLOCKED:" ++ (waitingText m.waiting ++ (" | " ++ m.keypad.text)))))))))))))) := by
  unfold dump
  simp only [String.append_assoc]

/-- Machines have the same dump only if they have in common all that a dump shows. -/
theorem dump_eq_iff (m n : Machine) : m.dump = n.dump ↔ m.LooksLike n := by
  have haddress : ∀ i : Int, '|' ∉ (Text.address i).toList := Text.not_mem_address (by decide)
  have hbar : ∀ i : Int, '|' ∉ (Text.decimal i).toList := Text.not_mem_decimal (by decide)
  have hnewline : ∀ i : Int, '\n' ∉ (Text.decimal i).toList := Text.not_mem_decimal (by decide)
  constructor
  · intro h
    rw [dump_eq, dump_eq] at h
    obtain ⟨hpc, h⟩ := Text.field_inj (by decide) (haddress m.pc) (haddress n.pc) h
    obtain ⟨hindex, h⟩ := Text.field_inj (by decide) (haddress m.index) (haddress n.index) h
    obtain ⟨hregisters, h⟩ := Text.field_inj (by decide) m.registers.newline_not_mem_text
      n.registers.newline_not_mem_text h
    obtain ⟨hstack, h⟩ := Text.field_inj (by decide) m.stack.newline_not_mem_text
      n.stack.newline_not_mem_text h
    obtain ⟨hdelay, h⟩ := Text.field_inj (by decide) (hbar m.delay) (hbar n.delay) h
    obtain ⟨hsound, h⟩ := Text.field_inj (by decide) (hnewline m.sound) (hnewline n.sound) h
    obtain ⟨hwaiting, h⟩ := Text.field_inj (by decide) (bar_not_mem_waitingText m.waiting)
      (bar_not_mem_waitingText n.waiting) h
    have hkeys := (String.append_right_inj " | ").mp h
    exact {
      pc := Text.address_inj.mp hpc
      index := Text.address_inj.mp hindex
      registers := RegisterFile.text_inj.mp hregisters
      addresses := CallStack.text_inj.mp hstack
      delay := Text.decimal_inj.mp hdelay
      sound := Text.decimal_inj.mp hsound
      waiting := waitingText_inj.mp hwaiting
      keys := Keypad.text_inj.mp hkeys }
  · intro h
    rw [dump_eq, dump_eq, h.pc, h.index, RegisterFile.text_inj.mpr h.registers,
      CallStack.text_inj.mpr h.addresses, h.delay, h.sound, h.waiting,
      Keypad.text_inj.mpr h.keys]

end Machine

end ChipEight
