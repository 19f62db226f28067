import ChipEight.Instruction.Disassembly

namespace ChipEight

inductive Piece where
  | text (s : String)
  | x
  | y
  | address
  | byte
  | count
  deriving DecidableEq

namespace Opcode

def template : Opcode → List Piece
  | sys => [.text "SYS 0x", .address]
  | cls => [.text "CLS"]
  | ret => [.text "RET"]
  | jump => [.text "JP 0x", .address]
  | call => [.text "CALL 0x", .address]
  | skipEqByte => [.text "SE ", .x, .text ", 0x", .byte]
  | skipNeByte => [.text "SNE ", .x, .text ", 0x", .byte]
  | skipEq => [.text "SE ", .x, .text ", ", .y]
  | setByte => [.text "LD ", .x, .text ", 0x", .byte]
  | addByte => [.text "ADD ", .x, .text ", 0x", .byte]
  | set => [.text "LD ", .x, .text ", ", .y]
  | or => [.text "OR ", .x, .text ", ", .y]
  | and => [.text "AND ", .x, .text ", ", .y]
  | xor => [.text "XOR ", .x, .text ", ", .y]
  | add => [.text "ADD ", .x, .text ", ", .y]
  | sub => [.text "SUB ", .x, .text ", ", .y]
  | shiftRight => [.text "SHR ", .x, .text ", ", .y]
  | subFrom => [.text "SUBN ", .x, .text ", ", .y]
  | shiftLeft => [.text "SHL ", .x, .text ", ", .y]
  | skipNe => [.text "SNE ", .x, .text ", ", .y]
  | setIndex => [.text "LD I, 0x", .address]
  | jumpOffset => [.text "JP V0, 0x", .address]
  | random => [.text "RND ", .x, .text ", 0x", .byte]
  | draw => [.text "DRW ", .x, .text ", ", .y, .text ", ", .count]
  | skipDown => [.text "SKP ", .x]
  | skipUp => [.text "SKNP ", .x]
  | readDelay => [.text "LD ", .x, .text ", DT"]
  | awaitKey => [.text "LD ", .x, .text ", K"]
  | setDelay => [.text "LD DT, ", .x]
  | setSound => [.text "LD ST, ", .x]
  | addIndex => [.text "ADD I, ", .x]
  | selectGlyph => [.text "LD F, ", .x]
  | storeDigits => [.text "LD B, ", .x]
  | storeRegisters => [.text "LD [I], ", .x]
  | loadRegisters => [.text "LD ", .x, .text ", [I]"]

end Opcode

/-- The text of an operand that need not be there. -/
def Piece.orNone (operand : Option String) : String := operand.getD "None"

def Piece.write? (i : Instruction) : Piece → Option String
  | text s => some s
  | x => some (orNone (i.x?.map Register.name))
  | y => some (orNone (i.y?.map Register.name))
  | address => i.address?.map fun a => Text.hex 3 a.val
  | byte => i.number?.map fun n => Text.hex 2 n
  | count => some (orNone (i.number?.map fun n => Text.decimal n))

namespace Instruction

def line? (i : Instruction) : Option String :=
  (i.opcode.template.mapM (Piece.write? i)).map String.join

/-- Every line can be written, and it is the assembly of its instruction. -/
theorem line?_eq_some (i : Instruction) : i.line? = some i.text := by
  cases i <;>
    simp [line?, opcode, Opcode.template, Piece.write?, Piece.orNone, text, pair, addressText,
      byteText, address?, x?, y?, number?, ← String.toList_inj, String.join_cons]

end Instruction

end ChipEight
