import ChipEight.Fault
import ChipEight.Instruction

namespace ChipEight

namespace Opcode

/-- The operation of the words that show `pattern` under `mask`. -/
structure Row where
  mask : UInt16
  pattern : UInt16
  opcode : Opcode
  deriving DecidableEq

def Row.covers (row : Row) (w : UInt16) : Bool := w &&& row.mask == row.pattern

/-- The instruction set. The two words 00E0 and 00EE stand in front of the row that covers them
too. -/
def table : List Row := [
  ⟨0xFFFF, 0x00E0, cls⟩,
  ⟨0xFFFF, 0x00EE, ret⟩,
  ⟨0xF000, 0x0000, sys⟩,
  ⟨0xF000, 0x1000, jump⟩,
  ⟨0xF000, 0x2000, call⟩,
  ⟨0xF000, 0x3000, skipEqByte⟩,
  ⟨0xF000, 0x4000, skipNeByte⟩,
  ⟨0xF00F, 0x5000, skipEq⟩,
  ⟨0xF000, 0x6000, setByte⟩,
  ⟨0xF000, 0x7000, addByte⟩,
  ⟨0xF00F, 0x8000, set⟩,
  ⟨0xF00F, 0x8001, or⟩,
  ⟨0xF00F, 0x8002, and⟩,
  ⟨0xF00F, 0x8003, xor⟩,
  ⟨0xF00F, 0x8004, add⟩,
  ⟨0xF00F, 0x8005, sub⟩,
  ⟨0xF00F, 0x8006, shiftRight⟩,
  ⟨0xF00F, 0x8007, subFrom⟩,
  ⟨0xF00F, 0x800E, shiftLeft⟩,
  ⟨0xF00F, 0x9000, skipNe⟩,
  ⟨0xF000, 0xA000, setIndex⟩,
  ⟨0xF000, 0xB000, jumpOffset⟩,
  ⟨0xF000, 0xC000, random⟩,
  ⟨0xF000, 0xD000, draw⟩,
  ⟨0xF0FF, 0xE09E, skipDown⟩,
  ⟨0xF0FF, 0xE0A1, skipUp⟩,
  ⟨0xF0FF, 0xF007, readDelay⟩,
  ⟨0xF0FF, 0xF00A, awaitKey⟩,
  ⟨0xF0FF, 0xF015, setDelay⟩,
  ⟨0xF0FF, 0xF018, setSound⟩,
  ⟨0xF0FF, 0xF01E, addIndex⟩,
  ⟨0xF0FF, 0xF029, selectGlyph⟩,
  ⟨0xF0FF, 0xF033, storeDigits⟩,
  ⟨0xF0FF, 0xF055, storeRegisters⟩,
  ⟨0xF0FF, 0xF065, loadRegisters⟩]

def ofWordBy? (rows : List Row) (w : UInt16) : Option Opcode :=
  (rows.find? (·.covers w)).map Row.opcode

end Opcode

namespace Instruction

def addressField (w : UInt16) : Fin 4096 := Fin.ofNat 4096 (w &&& 0x0FFF).toNat

def xField (w : UInt16) : Register := Fin.ofNat 16 ((w &&& 0x0F00) >>> 8).toNat

def yField (w : UInt16) : Register := Fin.ofNat 16 ((w &&& 0x00F0) >>> 4).toNat

def byteField (w : UInt16) : UInt8 := (w &&& 0x00FF).toUInt8

def countField (w : UInt16) : Fin 16 := Fin.ofNat 16 (w &&& 0x000F).toNat

def withOperands (w : UInt16) : Opcode → Instruction
  | .sys => sys (addressField w)
  | .cls => cls
  | .ret => ret
  | .jump => jump (addressField w)
  | .call => call (addressField w)
  | .skipEqByte => skipEqByte (xField w) (byteField w)
  | .skipNeByte => skipNeByte (xField w) (byteField w)
  | .skipEq => skipEq (xField w) (yField w)
  | .setByte => setByte (xField w) (byteField w)
  | .addByte => addByte (xField w) (byteField w)
  | .set => set (xField w) (yField w)
  | .or => or (xField w) (yField w)
  | .and => and (xField w) (yField w)
  | .xor => xor (xField w) (yField w)
  | .add => add (xField w) (yField w)
  | .sub => sub (xField w) (yField w)
  | .shiftRight => shiftRight (xField w) (yField w)
  | .subFrom => subFrom (xField w) (yField w)
  | .shiftLeft => shiftLeft (xField w) (yField w)
  | .skipNe => skipNe (xField w) (yField w)
  | .setIndex => setIndex (addressField w)
  | .jumpOffset => jumpOffset (addressField w)
  | .random => random (xField w) (byteField w)
  | .draw => draw (xField w) (yField w) (countField w)
  | .skipDown => skipDown (xField w)
  | .skipUp => skipUp (xField w)
  | .readDelay => readDelay (xField w)
  | .awaitKey => awaitKey (xField w)
  | .setDelay => setDelay (xField w)
  | .setSound => setSound (xField w)
  | .addIndex => addIndex (xField w)
  | .selectGlyph => selectGlyph (xField w)
  | .storeDigits => storeDigits (xField w)
  | .storeRegisters => storeRegisters (xField w)
  | .loadRegisters => loadRegisters (xField w)

@[simp] theorem opcode_withOperands (w : UInt16) (o : Opcode) : (withOperands w o).opcode = o := by
  cases o <;> rfl

def decodeBy (rows : List Opcode.Row) (w : UInt16) : Except Fault Instruction :=
  match Opcode.ofWordBy? rows w with
  | some o => .ok (withOperands w o)
  | none => .error (.invalidInstruction w)

def decode (w : UInt16) : Except Fault Instruction := decodeBy Opcode.table w

def decodeNumber (n : Int) : Except Fault Instruction :=
  if 0 ≤ n ∧ n < 0x10000 then decode (UInt16.ofNat n.toNat) else .error (.wideWord n)

def wordOf (upper lower : UInt8) : UInt16 := upper.toUInt16 <<< 8 ||| lower.toUInt16

def decodeBytes : List UInt8 → Except Fault Instruction
  | [upper, lower] => decode (wordOf upper lower)
  | bytes => .error (.wordLength bytes.length)

/-- What a mask leaves of a number. A negative number has the bits of its two's complement, which
goes on with ones to the left. -/
def masked (n : Int) (mask : Nat) : Nat :=
  match n with
  | .ofNat k => k &&& mask
  | .negSucc k => (k ^^^ mask) &&& mask

theorem masked_le (n : Int) (mask : Nat) : masked n mask ≤ mask := by
  cases n with
  | ofNat k => exact Nat.and_le_right
  | negSucc k => exact Nat.and_le_right

theorem masked_shiftRight_lt (n : Int) {mask shift : Nat} (h : mask >>> shift < 16) :
    masked n mask >>> shift < 16 := by
  rw [Nat.shiftRight_eq_div_pow] at h ⊢
  exact Nat.lt_of_le_of_lt (Nat.div_le_div_right (masked_le n mask)) h

def maskedDigit (n : Int) (mask shift : Nat) (h : mask >>> shift < 16) : Fin 16 :=
  ⟨masked n mask >>> shift, masked_shiftRight_lt n h⟩

def nibbles (n : Int) : Fin 16 × Fin 16 × Fin 16 × Fin 16 :=
  (maskedDigit n 0xF000 12 (by decide), maskedDigit n 0x0F00 8 (by decide),
    maskedDigit n 0x00F0 4 (by decide), maskedDigit n 0x000F 0 (by decide))

end Instruction

end ChipEight
