import ChipEight.CommandLine
import ChipEight.Display
import ChipEight.Machine.Command
import ChipEight.Machine.Dump

namespace ChipEight

inductive HostKey where
  | escape
  | keypad (key : Key)
  | other
  deriving DecidableEq

/-- The host key of a given name. A key of the keypad has its face, in small letters, for a name. -/
def HostKey.ofName (name : String) : HostKey :=
  if name = "ESCAPE" then escape
  else
    match Key.all.find? fun k => k.face.toLower = name with
    | some k => keypad k
    | none => other

inductive Input where
  | down (key : HostKey)
  | up (key : HostKey)
  | quit
  | other
  deriving DecidableEq

namespace Input

def isQuit : Input → Bool
  | quit | down .escape => true
  | _ => false

def command? : Input → Option Command
  | down (.keypad k) => some (.press k.val)
  | up (.keypad k) => some (.release k.val)
  | _ => none

/-- The commands of a batch of inputs, of which those behind a request to quit are dropped. -/
def commands (batch : List Input) : List Command :=
  (batch.takeWhile fun i => !i.isQuit).filterMap command?

end Input

inductive Unreadable where
  | missing
  | directory
  | notDirectory
  | longName
  | nullCharacter
  deriving DecidableEq

structure Pass (Surface : Type) where
  /-- The number of passes in a second that the clock is asked for. -/
  tick : Int
  before : Machine
  after : Machine
  window : Surface
  shown : Bool
  events : List Event
  /-- The fault that stopped the machine. The rest of the pass did not take place. -/
  fault : Option Fault

inductive Exit (Refusal : Type) where
  | refused (r : CommandLine.Refusal)
  | withheld (s : CommandLine.Switch)
  | untitled (r : Refusal)
  | unreadable (u : Unreadable)
  | unloadable (f : Fault)
  | noWindow (r : Refusal)
  | crashed (m : Machine)

def crashText (m : Machine) : String :=
  "********** THE EMULATOR CRASHED WITH THE FOLLOWING STATE\n" ++ m.dump

namespace Session

variable {Surface Refusal : Type}

def passHz : Int := 60

/-- The share of a pass in the cycles of a second, at least one. -/
def cyclesPerPass (cpuHz : Int) : Nat := (max 1 (cpuHz / passHz)).toNat

/-- One pass: the inputs are forwarded, the machine runs for its share of cycles, the timers are
counted down, and the picture is shown if it may have changed. -/
def pass (d : Display Surface Refusal) (scale : Int) (share : Nat) (batch : List Input)
    (m : Machine) (window : Surface) : Pass Surface :=
  let ran := (m.performEach (Input.commands batch)).andThen (Machine.burst share)
  match ran.fault with
  | some f => ⟨passHz, m, ran.machine, window, false, ran.events ++ [.stopped f], some f⟩
  | none =>
    let ticked := ran.machine.tick
    if ticked.screen.dirty then
      ⟨passHz, m, ticked.markSeen, d.render scale window ticked.screen, true, ran.events, none⟩
    else ⟨passHz, m, ticked, window, false, ran.events, none⟩

/-- The passes of a session, one for every batch of inputs up to one that asks to quit or a fault.
After the last batch the session is asked to quit. -/
def passes (d : Display Surface Refusal) (scale : Int) (share : Nat) :
    List (List Input) → Machine → Surface → List (Pass Surface)
  | [], m, window => [pass d scale share [.quit] m window]
  | batch :: rest, m, window =>
    let p := pass d scale share batch m window
    if p.fault.isSome || batch.any Input.isQuit then [p]
    else p :: passes d scale share rest p.after p.window

structure Report (Surface Refusal : Type) where
  level : Level
  opening : List Event
  passes : List (Pass Surface)
  final : Option Machine
  exit : Option (Exit Refusal)

namespace Report

variable (r : Report Surface Refusal)

def events : List Event := r.opening ++ r.passes.flatMap Pass.events

def log : List String := Event.log r.level r.events

def ticks : List Int := r.passes.map Pass.tick

end Report

def stillborn (level : Level) (events : List Event) (m : Option Machine) (exit : Exit Refusal) :
    Report Surface Refusal :=
  ⟨level, events, [], m, some exit⟩

def exitOf (p : Pass Surface) : Option (Exit Refusal) := p.fault.map fun _ => .crashed p.after

variable (d : Display Surface Refusal)

def play (scale cpuHz : Int) (batches : List (List Input)) (level : Level) (loaded : Outcome)
    (window : Surface) : Report Surface Refusal :=
  let ps := passes d scale (cyclesPerPass cpuHz) batches loaded.machine window
  ⟨level, loaded.events, ps, ps.getLast?.map Pass.after, ps.getLast?.bind exitOf⟩

def openWindow (o : Options) (batches : List (List Input)) (level : Level) (loaded : Outcome) :
    Report Surface Refusal :=
  let stop := stillborn level loaded.events (some loaded.machine)
  match o.scale with
  | .withheld => stop (.withheld .scale)
  | .given scale =>
    match d.create loaded.machine.screen scale with
    | .error r => stop (.noWindow r)
    | .ok window =>
      match o.cpuHz with
      | .withheld => stop (.withheld .cpuHz)
      | .given cpuHz => play d scale cpuHz batches level loaded window

def boot (o : Options) (batches : List (List Input)) (level : Level) (m : Machine) :
    Except Unreadable (List UInt8) → Report Surface Refusal
  | .error u => stillborn level [] (some m) (.unreadable u)
  | .ok rom =>
    let loaded := m.load (rom.map fun b => (b.toNat : Int)) Memory.programStart
    match loaded.fault with
    | some f => stillborn level loaded.events (some loaded.machine) (.unloadable f)
    | none => openWindow d o batches level loaded

/-- The last part of a path, which is the title of the window. -/
def title (path : String) : List Char :=
  (path.toList.reverse.takeWhile (· != '/')).reverse

/-- A session with given options. `read` is the contents of a file, `draws` the random bytes. -/
def start (o : Options) (read : String → Except Unreadable (List UInt8)) (draws : Nat → UInt8)
    (batches : List (List Input)) : Report Surface Refusal :=
  let level := if o.debug then Level.debug else Level.info
  match o.file with
  | .withheld => stillborn level [] none (.withheld .file)
  | .given file =>
    match d.titleRefusal? (title file) with
    | some r => stillborn level [] none (.untitled r)
    | none =>
      if o.seed = some .withheld then stillborn level [] none (.withheld .seed)
      else boot d o batches level (Machine.fresh draws) (read file)

/-- A session by command line. One that is refused leaves no log. -/
def run (debug : Bool) (arguments : List String)
    (read : String → Except Unreadable (List UInt8)) (draws : Nat → UInt8)
    (batches : List (List Input)) : Report Surface Refusal :=
  match CommandLine.parse debug arguments with
  | .error r => ⟨.warning, [], [], none, some (.refused r)⟩
  | .ok o => start d o read draws batches

end Session

end ChipEight
