import ChipEight.Instruction
import ChipEight.Text.Numeral

namespace ChipEight.Instruction

def addressText (a : Fin 4096) : String := "0x" ++ Text.hex 3 a.val

def byteText (b : UInt8) : String := "0x" ++ Text.hex 2 b.toNat

def pair (mnemonic first second : String) : String :=
  mnemonic ++ " " ++ first ++ ", " ++ second

def text : Instruction → String
  | sys a => "SYS " ++ addressText a
  | cls => "CLS"
  | ret => "RET"
  | jump a => "JP " ++ addressText a
  | call a => "CALL " ++ addressText a
  | skipEqByte x b => pair "SE" x.name (byteText b)
  | skipNeByte x b => pair "SNE" x.name (byteText b)
  | skipEq x y => pair "SE" x.name y.name
  | setByte x b => pair "LD" x.name (byteText b)
  | addByte x b => pair "ADD" x.name (byteText b)
  | set x y => pair "LD" x.name y.name
  | or x y => pair "OR" x.name y.name
  | and x y => pair "AND" x.name y.name
  | xor x y => pair "XOR" x.name y.name
  | add x y => pair "ADD" x.name y.name
  | sub x y => pair "SUB" x.name y.name
  | shiftRight x y => pair "SHR" x.name y.name
  | subFrom x y => pair "SUBN" x.name y.name
  | shiftLeft x y => pair "SHL" x.name y.name
  | skipNe x y => pair "SNE" x.name y.name
  | setIndex a => pair "LD" "I" (addressText a)
  | jumpOffset a => pair "JP" "V0" (addressText a)
  | random x b => pair "RND" x.name (byteText b)
  | draw x y n => pair "DRW" x.name y.name ++ ", " ++ Text.decimal n.val
  | skipDown x => "SKP " ++ x.name
  | skipUp x => "SKNP " ++ x.name
  | readDelay x => pair "LD" x.name "DT"
  | awaitKey x => pair "LD" x.name "K"
  | setDelay x => pair "LD" "DT" x.name
  | setSound x => pair "LD" "ST" x.name
  | addIndex x => pair "ADD" "I" x.name
  | selectGlyph x => pair "LD" "F" x.name
  | storeDigits x => pair "LD" "B" x.name
  | storeRegisters x => pair "LD" "[I]" x.name
  | loadRegisters x => pair "LD" x.name "[I]"

end ChipEight.Instruction
