import ChipEight.Register

namespace ChipEight

inductive Opcode where
  | sys | cls | ret | jump | call
  | skipEqByte | skipNeByte | skipEq
  | setByte | addByte
  | set | or | and | xor | add | sub | shiftRight | subFrom | shiftLeft
  | skipNe
  | setIndex | jumpOffset | random | draw
  | skipDown | skipUp
  | readDelay | awaitKey | setDelay | setSound | addIndex | selectGlyph
  | storeDigits | storeRegisters | loadRegisters
  deriving DecidableEq

inductive Instruction where
  /-- A routine in the machine language of the host, which is ignored. -/
  | sys (address : Fin 4096)
  | cls
  | ret
  | jump (address : Fin 4096)
  | call (address : Fin 4096)
  | skipEqByte (x : Register) (byte : UInt8)
  | skipNeByte (x : Register) (byte : UInt8)
  | skipEq (x y : Register)
  | setByte (x : Register) (byte : UInt8)
  | addByte (x : Register) (byte : UInt8)
  | set (x y : Register)
  | or (x y : Register)
  | and (x y : Register)
  | xor (x y : Register)
  | add (x y : Register)
  | sub (x y : Register)
  /-- Vx becomes half of Vy. -/
  | shiftRight (x y : Register)
  /-- Vx becomes Vy less Vx. -/
  | subFrom (x y : Register)
  /-- Vx becomes twice Vy. -/
  | shiftLeft (x y : Register)
  | skipNe (x y : Register)
  | setIndex (address : Fin 4096)
  /-- Jumps to the address plus V0. -/
  | jumpOffset (address : Fin 4096)
  | random (x : Register) (mask : UInt8)
  /-- Draws the sprite at I, that many rows high, at column Vx and row Vy. -/
  | draw (x y : Register) (count : Fin 16)
  | skipDown (x : Register)
  | skipUp (x : Register)
  | readDelay (x : Register)
  /-- Waits for the release of a key, whose number goes into Vx. -/
  | awaitKey (x : Register)
  | setDelay (x : Register)
  | setSound (x : Register)
  | addIndex (x : Register)
  | selectGlyph (x : Register)
  /-- Stores the three decimal digits of Vx at I. -/
  | storeDigits (x : Register)
  | storeRegisters (x : Register)
  | loadRegisters (x : Register)
  deriving DecidableEq

namespace Instruction

def size : Int := 2

def opcode : Instruction → Opcode
  | sys _ => .sys
  | cls => .cls
  | ret => .ret
  | jump _ => .jump
  | call _ => .call
  | skipEqByte _ _ => .skipEqByte
  | skipNeByte _ _ => .skipNeByte
  | skipEq _ _ => .skipEq
  | setByte _ _ => .setByte
  | addByte _ _ => .addByte
  | set _ _ => .set
  | or _ _ => .or
  | and _ _ => .and
  | xor _ _ => .xor
  | add _ _ => .add
  | sub _ _ => .sub
  | shiftRight _ _ => .shiftRight
  | subFrom _ _ => .subFrom
  | shiftLeft _ _ => .shiftLeft
  | skipNe _ _ => .skipNe
  | setIndex _ => .setIndex
  | jumpOffset _ => .jumpOffset
  | random _ _ => .random
  | draw _ _ _ => .draw
  | skipDown _ => .skipDown
  | skipUp _ => .skipUp
  | readDelay _ => .readDelay
  | awaitKey _ => .awaitKey
  | setDelay _ => .setDelay
  | setSound _ => .setSound
  | addIndex _ => .addIndex
  | selectGlyph _ => .selectGlyph
  | storeDigits _ => .storeDigits
  | storeRegisters _ => .storeRegisters
  | loadRegisters _ => .loadRegisters

def address? : Instruction → Option (Fin 4096)
  | sys a | jump a | call a | setIndex a | jumpOffset a => some a
  | _ => none

def x? : Instruction → Option Register
  | skipEqByte x _ | skipNeByte x _ | skipEq x _ | setByte x _ | addByte x _ | set x _ | or x _
  | and x _ | xor x _ | add x _ | sub x _ | shiftRight x _ | subFrom x _ | shiftLeft x _
  | skipNe x _ | random x _ | draw x _ _ | skipDown x | skipUp x | readDelay x | awaitKey x
  | setDelay x | setSound x | addIndex x | selectGlyph x | storeDigits x | storeRegisters x
  | loadRegisters x => some x
  | _ => none

def y? : Instruction → Option Register
  | skipEq _ y | set _ y | or _ y | and _ y | xor _ y | add _ y | sub _ y | shiftRight _ y
  | subFrom _ y | shiftLeft _ y | skipNe _ y | draw _ y _ => some y
  | _ => none

/-- The byte or the count, if there is one. -/
def number? : Instruction → Option Nat
  | skipEqByte _ b | skipNeByte _ b | setByte _ b | addByte _ b | random _ b => some b.toNat
  | draw _ _ n => some n.val
  | _ => none

end Instruction

end ChipEight
