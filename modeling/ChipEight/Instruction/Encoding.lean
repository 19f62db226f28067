import ChipEight.Instruction.Decoding

namespace ChipEight

namespace Opcode

/-- The four hexadecimal digits of the operation's words. A small letter stands for the digits of an
operand: `n` for those of an address or a count, `k` for those of a byte, `x` and `y` for those of
register numbers. -/
def shape : Opcode → String
  | sys => "0nnn"
  | cls => "00E0"
  | ret => "00EE"
  | jump => "1nnn"
  | call => "2nnn"
  | skipEqByte => "3xkk"
  | skipNeByte => "4xkk"
  | skipEq => "5xy0"
  | setByte => "6xkk"
  | addByte => "7xkk"
  | set => "8xy0"
  | or => "8xy1"
  | and => "8xy2"
  | xor => "8xy3"
  | add => "8xy4"
  | sub => "8xy5"
  | shiftRight => "8xy6"
  | subFrom => "8xy7"
  | shiftLeft => "8xyE"
  | skipNe => "9xy0"
  | setIndex => "Annn"
  | jumpOffset => "Bnnn"
  | random => "Cxkk"
  | draw => "Dxyn"
  | skipDown => "Ex9E"
  | skipUp => "ExA1"
  | readDelay => "Fx07"
  | awaitKey => "Fx0A"
  | setDelay => "Fx15"
  | setSound => "Fx18"
  | addIndex => "Fx1E"
  | selectGlyph => "Fx29"
  | storeDigits => "Fx33"
  | storeRegisters => "Fx55"
  | loadRegisters => "Fx65"

end Opcode

namespace Instruction

private def withAddress (base : Nat) (a : Fin 4096) : UInt16 := UInt16.ofNat (base + a.val)

private def withX (base : Nat) (x : Register) : UInt16 := UInt16.ofNat (base + 256 * x.val)

private def withByte (base : Nat) (x : Register) (b : UInt8) : UInt16 :=
  UInt16.ofNat (base + 256 * x.val + b.toNat)

private def withXY (base : Nat) (x y : Register) : UInt16 :=
  UInt16.ofNat (base + 256 * x.val + 16 * y.val)

def word : Instruction → UInt16
  | sys a => withAddress 0x0000 a
  | cls => 0x00E0
  | ret => 0x00EE
  | jump a => withAddress 0x1000 a
  | call a => withAddress 0x2000 a
  | skipEqByte x b => withByte 0x3000 x b
  | skipNeByte x b => withByte 0x4000 x b
  | skipEq x y => withXY 0x5000 x y
  | setByte x b => withByte 0x6000 x b
  | addByte x b => withByte 0x7000 x b
  | set x y => withXY 0x8000 x y
  | or x y => withXY 0x8001 x y
  | and x y => withXY 0x8002 x y
  | xor x y => withXY 0x8003 x y
  | add x y => withXY 0x8004 x y
  | sub x y => withXY 0x8005 x y
  | shiftRight x y => withXY 0x8006 x y
  | subFrom x y => withXY 0x8007 x y
  | shiftLeft x y => withXY 0x800E x y
  | skipNe x y => withXY 0x9000 x y
  | setIndex a => withAddress 0xA000 a
  | jumpOffset a => withAddress 0xB000 a
  | random x b => withByte 0xC000 x b
  | draw x y n => withXY (0xD000 + n.val) x y
  | skipDown x => withX 0xE09E x
  | skipUp x => withX 0xE0A1 x
  | readDelay x => withX 0xF007 x
  | awaitKey x => withX 0xF00A x
  | setDelay x => withX 0xF015 x
  | setSound x => withX 0xF018 x
  | addIndex x => withX 0xF01E x
  | selectGlyph x => withX 0xF029 x
  | storeDigits x => withX 0xF033 x
  | storeRegisters x => withX 0xF055 x
  | loadRegisters x => withX 0xF065 x

end Instruction

end ChipEight
