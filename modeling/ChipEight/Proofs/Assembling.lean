import ChipEight.Instruction.Disassembly
import ChipEight.Proofs.Numerals
import ChipEight.Proofs.Punctuation

namespace ChipEight

inductive Operand where
  | register (r : Register)
  | address (a : Fin 4096)
  | byte (b : UInt8)
  | count (n : Fin 16)
  | index
  | block
  | delay | sound | key
  | glyph
  | digits
  deriving DecidableEq

namespace Operand

def text : Operand → String
  | register r => r.name
  | address a => Instruction.addressText a
  | byte b => Instruction.byteText b
  | count n => Text.decimal n.val
  | index => "I"
  | block => "[I]"
  | delay => "DT"
  | sound => "ST"
  | key => "K"
  | glyph => "F"
  | digits => "B"

def ofAddress (n : Nat) : Operand := address ⟨n % 4096, Nat.mod_lt n (by decide)⟩

/-- The operand of a text. An address has one digit more than a byte. -/
def ofChars : List Char → Operand
  | ['I'] => index
  | ['[', 'I', ']'] => block
  | ['D', 'T'] => delay
  | ['S', 'T'] => sound
  | ['K'] => key
  | ['F'] => glyph
  | ['B'] => digits
  | 'V' :: cs => register (Fin.ofNat 16 (Text.value 16 (cs.map Char.toLower)))
  | '0' :: 'x' :: cs =>
    if cs.length = 2 then byte (UInt8.ofNat (Text.value 16 cs))
    else ofAddress (Text.value 16 cs)
  | cs => count (Fin.ofNat 16 (Text.value 10 cs))

theorem ofChars_register (r : Register) : ofChars r.name.toList = register r := by
  decide +revert +kernel

theorem ofChars_count (n : Fin 16) : ofChars (Text.decimal n.val).toList = count n := by
  decide +revert +kernel

theorem ofChars_hex (cs : List Char) : ofChars ('0' :: 'x' :: cs) =
    if cs.length = 2 then byte (UInt8.ofNat (Text.value 16 cs))
    else ofAddress (Text.value 16 cs) := rfl

theorem ofChars_text (o : Operand) : ofChars o.text.toList = o := by
  cases o with
  | register r => exact ofChars_register r
  | count n => exact ofChars_count n
  | address a =>
    have hlen : (Text.hexDigits 3 a.val).length = 3 :=
      Text.length_hexDigits ((Nat.length_toDigits_le_iff (by decide) (by decide)).mpr a.isLt)
    have ht : (address a).text.toList = '0' :: 'x' :: Text.hexDigits 3 a.val := by
      simp [text, Instruction.addressText, Text.hex]
    rw [ht, ofChars_hex, hlen, if_neg (by decide), Text.value_hexDigits]
    exact congrArg address (Fin.ext (Nat.mod_eq_of_lt a.isLt))
  | byte b =>
    have hlen : (Text.hexDigits 2 b.toNat).length = 2 :=
      Text.length_hexDigits ((Nat.length_toDigits_le_iff (by decide) (by decide)).mpr b.toNat_lt)
    have ht : (byte b).text.toList = '0' :: 'x' :: Text.hexDigits 2 b.toNat := by
      simp [text, Instruction.byteText, Text.hex]
    rw [ht, ofChars_hex, hlen, if_pos rfl, Text.value_hexDigits, UInt8.ofNat_toNat]
  | _ => rfl

theorem text_inj {o p : Operand} : o.text = p.text ↔ o = p := by
  refine ⟨fun h => ?_, congrArg text⟩
  rw [← ofChars_text o, h, ofChars_text]

theorem isItem_text (o : Operand) : Text.IsItem ',' o.text := by
  cases o with
  | register r => decide +revert +kernel
  | count n => decide +revert +kernel
  | address a =>
    exact ⟨by simp [text, Instruction.addressText], Text.not_mem_marked (by decide) 3 a.val⟩
  | byte b =>
    exact ⟨by simp [text, Instruction.byteText], Text.not_mem_marked (by decide) 2 b.toNat⟩
  | _ => decide

end Operand

def Opcode.mnemonic : Opcode → String
  | sys => "SYS"
  | cls => "CLS"
  | ret => "RET"
  | jump | jumpOffset => "JP"
  | call => "CALL"
  | skipEqByte | skipEq => "SE"
  | skipNeByte | skipNe => "SNE"
  | setByte | set | setIndex | readDelay | awaitKey | setDelay | setSound | selectGlyph
  | storeDigits | storeRegisters | loadRegisters => "LD"
  | addByte | add | addIndex => "ADD"
  | or => "OR"
  | and => "AND"
  | xor => "XOR"
  | sub => "SUB"
  | shiftRight => "SHR"
  | subFrom => "SUBN"
  | shiftLeft => "SHL"
  | random => "RND"
  | draw => "DRW"
  | skipDown => "SKP"
  | skipUp => "SKNP"

namespace Instruction

def operands : Instruction → List Operand
  | sys a | jump a | call a => [.address a]
  | cls | ret => []
  | skipEqByte x b | skipNeByte x b | setByte x b | addByte x b | random x b =>
    [.register x, .byte b]
  | skipEq x y | set x y | or x y | and x y | xor x y | add x y | sub x y | shiftRight x y
  | subFrom x y | shiftLeft x y | skipNe x y => [.register x, .register y]
  | setIndex a => [.index, .address a]
  | jumpOffset a => [.register 0, .address a]
  | draw x y n => [.register x, .register y, .count n]
  | skipDown x | skipUp x => [.register x]
  | readDelay x => [.register x, .delay]
  | awaitKey x => [.register x, .key]
  | setDelay x => [.delay, .register x]
  | setSound x => [.sound, .register x]
  | addIndex x => [.index, .register x]
  | selectGlyph x => [.glyph, .register x]
  | storeDigits x => [.digits, .register x]
  | storeRegisters x => [.block, .register x]
  | loadRegisters x => [.register x, .block]

def assemble? : String → List Operand → Option Instruction
  | "SYS", [.address a] => some (sys a)
  | "CLS", [] => some cls
  | "RET", [] => some ret
  | "JP", [.address a] => some (jump a)
  | "JP", [.register 0, .address a] => some (jumpOffset a)
  | "CALL", [.address a] => some (call a)
  | "SE", [.register x, .byte b] => some (skipEqByte x b)
  | "SE", [.register x, .register y] => some (skipEq x y)
  | "SNE", [.register x, .byte b] => some (skipNeByte x b)
  | "SNE", [.register x, .register y] => some (skipNe x y)
  | "LD", [.register x, .byte b] => some (setByte x b)
  | "LD", [.register x, .register y] => some (set x y)
  | "LD", [.index, .address a] => some (setIndex a)
  | "LD", [.register x, .delay] => some (readDelay x)
  | "LD", [.register x, .key] => some (awaitKey x)
  | "LD", [.delay, .register x] => some (setDelay x)
  | "LD", [.sound, .register x] => some (setSound x)
  | "LD", [.glyph, .register x] => some (selectGlyph x)
  | "LD", [.digits, .register x] => some (storeDigits x)
  | "LD", [.block, .register x] => some (storeRegisters x)
  | "LD", [.register x, .block] => some (loadRegisters x)
  | "ADD", [.register x, .byte b] => some (addByte x b)
  | "ADD", [.register x, .register y] => some (add x y)
  | "ADD", [.index, .register x] => some (addIndex x)
  | "OR", [.register x, .register y] => some (or x y)
  | "AND", [.register x, .register y] => some (and x y)
  | "XOR", [.register x, .register y] => some (xor x y)
  | "SUB", [.register x, .register y] => some (sub x y)
  | "SHR", [.register x, .register y] => some (shiftRight x y)
  | "SUBN", [.register x, .register y] => some (subFrom x y)
  | "SHL", [.register x, .register y] => some (shiftLeft x y)
  | "RND", [.register x, .byte b] => some (random x b)
  | "DRW", [.register x, .register y, .count n] => some (draw x y n)
  | "SKP", [.register x] => some (skipDown x)
  | "SKNP", [.register x] => some (skipUp x)
  | _, _ => none

theorem assemble?_operands (i : Instruction) :
    assemble? i.opcode.mnemonic i.operands = some i := by
  cases i <;> rfl

def lineOf (mnemonic : String) : List Operand → String
  | [] => mnemonic
  | o :: os => mnemonic ++ (" " ++ ", ".intercalate ((o :: os).map Operand.text))

theorem text_eq_lineOf (i : Instruction) : i.text = lineOf i.opcode.mnemonic i.operands := by
  have hzero : (Register.name 0).toList = ['V', '0'] := rfl
  cases i <;>
    simp [text, pair, lineOf, opcode, Opcode.mnemonic, operands, Operand.text, hzero,
      ← String.toList_inj]

theorem space_not_mem_mnemonic (o : Opcode) : ' ' ∉ o.mnemonic.toList := by
  cases o <;> decide

theorem lineOf_inj {s t : String} {os ps : List Operand} (hs : ' ' ∉ s.toList) (ht : ' ' ∉ t.toList)
    (h : lineOf s os = lineOf t ps) : s = t ∧ os = ps := by
  have hspace : ' ' ∈ " ".toList := by decide
  have hcomma : ',' ∈ ", ".toList := by decide
  cases os with
  | nil =>
    cases ps with
    | nil => exact ⟨h, rfl⟩
    | cons p ps => exact absurd h (Text.ne_append_sep hspace hs t _)
  | cons o os =>
    cases ps with
    | nil => exact absurd h.symm (Text.ne_append_sep hspace ht s _)
    | cons p ps =>
      obtain ⟨hst, hlist⟩ := Text.append_sep_inj hspace hs ht h
      exact ⟨hst, Text.intercalate_map_inj hcomma Operand.isItem_text
        (fun _ _ => Operand.text_inj.mp) hlist⟩

/-- No two instructions are written alike. -/
theorem text_inj {i j : Instruction} : i.text = j.text ↔ i = j := by
  refine ⟨fun h => ?_, congrArg text⟩
  rw [text_eq_lineOf, text_eq_lineOf] at h
  obtain ⟨hm, ho⟩ := lineOf_inj (space_not_mem_mnemonic _) (space_not_mem_mnemonic _) h
  apply Option.some.inj
  rw [← assemble?_operands i, hm, ho, assemble?_operands]

end Instruction

end ChipEight
