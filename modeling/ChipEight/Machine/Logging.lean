import ChipEight.Instruction.Template
import ChipEight.Machine.Command

namespace ChipEight

inductive Reporter where
  | processor | memory | machine | host
  deriving DecidableEq

def Event.reporter : Event → Reporter
  | executed _ _ => .processor
  | spriteOutside _ _ => .memory
  | loaded _ _ | keyStored _ _ => .machine
  | stopped _ => .host

structure Entry where
  reporter : Reporter
  line : String
  deriving DecidableEq

def Event.entry (e : Event) : Entry := ⟨e.reporter, e.line⟩

inductive Halt where
  | fault (f : Fault)
  | unwritten (i : Instruction)
  deriving DecidableEq

/-- A machine after an activity, why the activity ended early, and what the log holds of it. -/
structure Account where
  machine : Machine
  halt : Option Halt
  entries : List Entry

namespace Account

def ofOutcome (level : Level) (o : Outcome) : Account :=
  ⟨o.machine, o.fault.map .fault, (o.events.filter (Event.reaches level)).map Event.entry⟩

def after (a : Account) (e : Entry) : Account := { a with entries := e :: a.entries }

def proceed (a : Account) : Account :=
  match a.halt with
  | some _ => a
  | none => { a with machine := a.machine.advance }

def result (a : Account) : Machine × Option Halt := (a.machine, a.halt)

def trace (a : Account) : List String :=
  (a.entries.filter fun e => e.reporter = .processor).map Entry.line

end Account

namespace Instruction

def recorded? (address : Int) (i : Instruction) : Option Entry :=
  i.line?.map fun line => ⟨.processor, Level.debug.name ++ " " ++
    ("mem_addr: " ++ Text.address address ++ "    instruction: " ++ line)⟩

theorem recorded?_eq_some (address : Int) (i : Instruction) :
    i.recorded? address = some (Event.executed address i).entry := by
  rw [recorded?, line?_eq_some]
  rfl

example : (setByte 10 42).recorded? 0x200 =
    some ⟨.processor, "DEBUG mem_addr: 0x0200    instruction: LD VA, 0x2a"⟩ := rfl

end Instruction

namespace Machine

/-- Writes the line of an instruction, if the log holds such lines, and executes the instruction.
Were there a line that cannot be written, the instruction would not be executed. -/
def executeLogged (level : Level) (m : Machine) (i : Instruction) : Account :=
  if Event.reaches level (.executed m.pc i) then
    match i.recorded? m.pc with
    | some e => (Account.ofOutcome level (m.effect i)).after e
    | none => ⟨m, some (.unwritten i), []⟩
  else Account.ofOutcome level (m.effect i)

def cycleLogged (level : Level) (m : Machine) : Account :=
  if m.isBlocked then ⟨m, none, []⟩
  else
    match m.memory.fetch m.pc with
    | .ok i => (m.executeLogged level i).proceed
    | .error f => ⟨m, some (.fault f), []⟩

def performLogged (level : Level) (m : Machine) : Command → Account
  | .cycle => m.cycleLogged level
  | c => .ofOutcome level (m.perform c)

def accounts (level : Level) (m : Machine) : List Command → List Account
  | [] => []
  | c :: cs => m.performLogged level c :: (m.performLogged level c).machine.accounts level cs

end Machine

end ChipEight
