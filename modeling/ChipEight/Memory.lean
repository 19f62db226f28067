import ChipEight.Capacity
import ChipEight.Instruction.Decoding
import ChipEight.Sprite

namespace ChipEight

structure Memory where
  bytes : Array UInt8
  deriving DecidableEq

namespace Memory

/-- The first address that is not protected. -/
def programStart : Int := 0x200

def blank (size : Nat) : Memory := ⟨Array.replicate size 0⟩

def ofSize (size : Int) : Except Fault Memory :=
  match Capacity.fault? size with
  | some f => .error f
  | none => if size < 0 then .error .negativeSize else .ok (blank size.toNat)

def size (m : Memory) : Nat := m.bytes.size

def clear (m : Memory) : Memory := blank m.size

/-- The byte at an address; zero outside of the memory. -/
def byteAt (m : Memory) (a : Nat) : UInt8 := m.bytes.getD a 0

/-- The byte at an address, which may be counted from the end. -/
def get (m : Memory) (address : Int) : Except Fault UInt8 :=
  match Stretch.position? m.size address with
  | some a => .ok (m.byteAt a)
  | none => .error .indexOutside

def put (m : Memory) (address : Int) (byte : UInt8) : Except Fault Memory :=
  match Stretch.position? m.size address with
  | some a => .ok ⟨m.bytes.setIfInBounds a byte⟩
  | none => .error .indexOutside

def isByte (n : Int) : Bool := 0 ≤ n && n < 256

def byteOf (n : Int) : UInt8 := UInt8.ofNat n.toNat

def overlay (m : Memory) (address : Int) (data : List UInt8) : Memory :=
  ⟨Stretch.replace m.bytes address (address + data.length) data⟩

/-- Stores numbers from `address` on. They have to lie inside of the memory and to be bytes. -/
def write (m : Memory) (data : List Int) (address : Int) : Except Fault Memory :=
  if address < 0 ∨ (m.size : Int) < address + data.length then
    .error (.writeOutside address (address + data.length))
  else if data.all isByte then .ok (m.overlay address (data.map byteOf))
  else .error .byteRange

def writeProgram (m : Memory) (data : List Int) (address : Int) : Except Fault Memory :=
  if address < programStart then .error (.protectedWrite address (address + data.length))
  else m.write data address

def wordAt (m : Memory) (a : Nat) : UInt16 := Instruction.wordOf (m.byteAt a) (m.byteAt (a + 1))

def fetch (m : Memory) (address : Int) : Except Fault Instruction :=
  if address < programStart then .error (.protectedFetch address)
  else if (m.size : Int) < address + Instruction.size then .error (.fetchOutside address)
  else Instruction.decode (m.wordAt address.toNat)

/-- The sprite of `count` bytes at an address, if it lies inside of the memory. -/
def sprite? (m : Memory) (address count : Int) : Option Sprite :=
  if address < 0 ∨ (m.size : Int) < address + count then none
  else some ⟨Stretch.items m.bytes address (address + count)⟩

@[simp] theorem size_blank (n : Nat) : (blank n).size = n := by simp [size, blank]

@[simp] theorem size_clear (m : Memory) : m.clear.size = m.size := by simp [clear]

@[simp] theorem byteAt_blank (n a : Nat) : (blank n).byteAt a = 0 := by
  simp only [byteAt, blank, Array.getD_eq_getD_getElem?, Array.getElem?_replicate]
  split <;> rfl

@[simp] theorem byteAt_clear (m : Memory) (a : Nat) : m.clear.byteAt a = 0 := byteAt_blank _ _

theorem toNat_byteOf {n : Int} (h : 0 ≤ n ∧ n ≤ 255) : ((byteOf n).toNat : Int) = n := by
  rw [byteOf, UInt8.toNat_ofNat', Nat.mod_eq_of_lt (by omega)]
  omega

theorem size_overlay {m : Memory} {address : Int} {data : List UInt8} (h : 0 ≤ address)
    (hm : address + data.length ≤ m.size) : (m.overlay address data).size = m.size :=
  Stretch.size_replace h hm

theorem byteAt_overlay {m : Memory} {address : Int} {data : List UInt8} (h : 0 ≤ address)
    (hm : address + data.length ≤ m.size) (a : Nat) :
    (m.overlay address data).byteAt a =
      if address ≤ a ∧ (a : Int) < address + data.length then data.getD (a - address.toNat) 0
      else m.byteAt a := by
  simp only [byteAt, Array.getD_eq_getD_getElem?, List.getD_eq_getElem?_getD]
  rw [overlay, Stretch.getElem?_replace h hm]
  split <;> rfl

theorem size_write {m n : Memory} {data : List Int} {address : Int}
    (h : m.write data address = .ok n) : n.size = m.size := by
  simp only [write] at h
  split at h
  · cases h
  · next hr =>
    rw [not_or] at hr
    split at h
    · cases h
      exact size_overlay (by omega) (by simp only [List.length_map]; exact Int.not_lt.mp hr.2)
    · cases h

theorem writeProgram_eq_ok {m n : Memory} {data : List Int} {address : Int}
    (h : m.writeProgram data address = .ok n) :
    0x200 ≤ address ∧ address + data.length ≤ m.size ∧ n.size = m.size := by
  by_cases hlo : address < programStart
  · rw [writeProgram, if_pos hlo] at h
    cases h
  · rw [writeProgram, if_neg hlo] at h
    refine ⟨Int.not_lt.mp hlo, ?_, size_write h⟩
    by_cases hm : address < 0 ∨ (m.size : Int) < address + data.length
    · rw [write, if_pos hm] at h
      cases h
    · exact Int.not_lt.mp (not_or.mp hm).2

theorem writeProgram_of_fits {m : Memory} {data : List Int} {address : Int} (hlo : 0x200 ≤ address)
    (hhi : address + data.length ≤ m.size) (hb : data.all isByte = true) :
    m.writeProgram data address = .ok (m.overlay address (data.map byteOf)) := by
  have hp : ¬ address < programStart := Int.not_lt.mpr hlo
  have hr : ¬ (address < 0 ∨ (m.size : Int) < address + data.length) := by omega
  rw [writeProgram, if_neg hp, write, if_neg hr, if_pos hb]

theorem writeProgram_of_long {m : Memory} {data : List Int} {address : Int} (hlo : 0x200 ≤ address)
    (hhi : m.size < address + data.length) :
    m.writeProgram data address = .error (.writeOutside address (address + data.length)) := by
  have hp : ¬ address < programStart := Int.not_lt.mpr hlo
  rw [writeProgram, if_neg hp, write, if_pos (.inr hhi)]

theorem get_of_lt {m : Memory} {address : Int} (h : 0 ≤ address) (hm : address < m.size) :
    m.get address = .ok (m.byteAt address.toNat) := by
  simp only [get, Stretch.position?_of_lt h hm]

theorem exists_put {m : Memory} {address : Int} (h : 0 ≤ address) (hm : address < m.size)
    (byte : UInt8) : ∃ n, m.put address byte = .ok n ∧ n.size = m.size ∧
      ∀ a : Nat, n.byteAt a = if (a : Int) = address then byte else m.byteAt a := by
  refine ⟨⟨m.bytes.setIfInBounds address.toNat byte⟩, ?_, ?_, fun a => ?_⟩
  · simp only [put, Stretch.position?_of_lt h hm]
  · simp [size]
  · simp only [size] at hm
    simp only [byteAt, Array.getD_eq_getD_getElem?, Array.getElem?_setIfInBounds]
    by_cases ha : (a : Int) = address
    · rw [if_pos (by omega), if_pos (by omega), if_pos ha, Option.getD_some]
    · rw [if_neg (by omega), if_neg ha]

end Memory

end ChipEight
