import ChipEight.CallStack
import ChipEight.Event
import ChipEight.Font
import ChipEight.Framebuffer
import ChipEight.Keypad
import ChipEight.RegisterFile

namespace ChipEight

/-- A supply of random bytes, and how many of them have been drawn. -/
structure Draws where
  stream : Nat → UInt8
  used : Nat

namespace Draws

def next (d : Draws) : UInt8 := d.stream d.used

def advance (d : Draws) : Draws := { d with used := d.used + 1 }

end Draws

structure Machine where
  memory : Memory
  registers : RegisterFile
  index : Int
  pc : Int
  stack : CallStack
  screen : Framebuffer
  keypad : Keypad
  delay : Int
  sound : Int
  /-- An instruction has just set the program counter, which therefore is not advanced. -/
  jumped : Bool
  /-- While the machine waits for a key, the register that its number goes into. -/
  waiting : Option Register
  draws : Draws
  /-- Which numbers the faults of the machine can quote. -/
  digitLimit : Text.DigitLimit

/-- A machine after an activity, the fault that ended the activity early, and what it reported. What
was done before the fault stays done. -/
structure Outcome where
  machine : Machine
  fault : Option Fault
  events : List Event

namespace Outcome

def done (m : Machine) : Outcome := ⟨m, none, []⟩

def failed (m : Machine) (f : Fault) : Outcome := ⟨m, some f, []⟩

def after (o : Outcome) (events : List Event) : Outcome := { o with events := events ++ o.events }

def andThen (o : Outcome) (next : Machine → Outcome) : Outcome :=
  match o.fault with
  | some _ => o
  | none => (next o.machine).after o.events

theorem andThen_of_some {o : Outcome} {f : Fault} (h : o.fault = some f)
    (next : Machine → Outcome) : o.andThen next = o := by
  simp only [andThen, h]

theorem andThen_of_none {o : Outcome} (h : o.fault = none) (next : Machine → Outcome) :
    o.andThen next = (next o.machine).after o.events := by
  simp only [andThen, h]

end Outcome

namespace Machine

def memorySize : Nat := 4096

def stackSize : Int := 16

def screenWidth : Int := 64

def screenHeight : Int := 32

def fresh (stream : Nat → UInt8) : Machine where
  memory := .blank memorySize
  registers := .zero
  index := 0
  pc := Memory.programStart
  stack := .empty stackSize
  screen := .blank screenWidth screenHeight
  keypad := .released
  delay := 0
  sound := 0
  jumped := false
  waiting := none
  draws := ⟨stream, 0⟩
  digitLimit := .usual

def isBlocked (m : Machine) : Bool := m.waiting.isSome

def isSounding (m : Machine) : Bool := 0 < m.sound

/-- Forgets everything but the keys that are down and the random bytes drawn. -/
def reset (m : Machine) : Machine :=
  { m with
    memory := m.memory.clear
    registers := .zero
    index := 0
    pc := Memory.programStart
    stack := m.stack.clear
    screen := m.screen.clear.markSeen
    delay := 0
    sound := 0
    jumped := false
    waiting := none }

def prepared (m : Machine) : Machine :=
  { m.reset with memory := m.reset.memory.overlay 0 Font.image }

/-- Resets the machine and puts a program at an address, where it is going to start. -/
def load (m : Machine) (program : List Int) (address : Int) : Outcome :=
  match m.prepared.memory.writeProgram program address with
  | .ok memory =>
    ⟨{ m.prepared with memory, pc := address }, none, [.loaded program.length address]⟩
  | .error f => .failed m.prepared f

/-- Lets a sixtieth of a second pass, unless the machine waits for a key. -/
def tick (m : Machine) : Machine :=
  if m.isBlocked then m
  else { m with delay := countDown m.delay, sound := countDown m.sound }
where
  countDown (timer : Int) : Int := if 0 < timer then timer - 1 else timer

def markSeen (m : Machine) : Machine := { m with screen := m.screen.markSeen }

/-- Ends a wait for a key by a number, which has to fit into the register waiting for it. -/
def interrupt (m : Machine) (key : Int) : Outcome :=
  match m.waiting with
  | none => .done m
  | some r =>
    match m.registers.store m.digitLimit r key with
    | .ok registers => ⟨{ m with registers, waiting := none }, none, [.keyStored key r]⟩
    | .error f => .failed m f

def press (m : Machine) (key : Int) : Outcome :=
  match Key.ofValue m.digitLimit key with
  | .ok k => .done { m with keypad := m.keypad.press k }
  | .error f => .failed m f

def release (m : Machine) (key : Int) : Outcome :=
  match Key.ofValue m.digitLimit key with
  | .ok k => { m with keypad := m.keypad.release k }.interrupt k.val
  | .error f => .failed m f

theorem markSeen_eq {m : Machine} (h : m.screen.dirty = false) : m.markSeen = m := by
  rw [markSeen, Framebuffer.markSeen, ← h]

theorem fault_press (m : Machine) (k : Key) : (m.press k.val).fault = none := by
  rw [press, Key.ofValue_of_lt _ k.isLt]
  rfl

/-- The number of a key fits into the register that waits for it. -/
theorem fault_release (m : Machine) (k : Key) : (m.release k.val).fault = none := by
  rw [release, Key.ofValue_of_lt _ k.isLt]
  cases hw : m.waiting with
  | none => simp [interrupt, Outcome.done]
  | some r =>
    have hk : 0 ≤ (k.val : Int) ∧ (k.val : Int) < 256 := by omega
    simp [interrupt, RegisterFile.store, hk.1, hk.2]

end Machine

end ChipEight
