import ChipEight.Noise
import ChipEight.Session
import ChipEight.Window

/-!
The command line program. It plays a program file without a window of its own: every line of
standard input holds the inputs of a pass, and the pictures that are shown go to standard output as
text. A word of a line names a key behind a plus sign when it goes down and behind a minus sign when
it goes up; the word `quit` ends the session, and so does the end of the input.
-/

namespace ChipEight.Main

def usage : String :=
  "usage: chip8 [-h] -f FILE [--cpu-hz CPU_HZ] [--scale SCALE] [--seed SEED] [--debug]"

def inputOfWord (word : String) : Input :=
  match word.toList with
  | '+' :: name => .down (HostKey.ofName (String.ofList name))
  | '-' :: name => .up (HostKey.ofName (String.ofList name))
  | _ => if word = "quit" then .quit else .other

def batchOfLine (line : String) : List Input :=
  ((line.splitOn " ").filter fun word => word ≠ "").map inputOfWord

def pictures {Refusal : Type} (r : Session.Report Window Refusal) : List String :=
  (r.passes.filter Pass.shown).flatMap fun p =>
    p.window.gridText Machine.screenWidth.toNat Machine.screenHeight.toNat ++ [""]

def unreadableText : Unreadable → String
  | .missing => "the file cannot be read"
  | .directory => "the file is a directory"
  | .notDirectory => "a part of the path is no directory"
  | .longName => "the name of the file is too long"
  | .nullCharacter => "the name of the file holds a null character"

def failed (text : String) : List String × UInt8 := (["chip8: error: " ++ text], 1)

def farewell {Surface Refusal : Type} (d : Display Surface Refusal) :
    Option (Exit Refusal) → List String × UInt8
  | none => ([], 0)
  | some (.refused .help) => ([usage], 0)
  | some (.refused (.complaint c)) => ([usage, "chip8: error: " ++ c.text], 2)
  | some (.withheld s) => failed ("argument " ++ s.label ++ ": no value")
  | some (.untitled r) => failed (d.explain r)
  | some (.unreadable u) => failed (unreadableText u)
  | some (.unloadable f) => ([f.message], 1)
  | some (.noWindow r) => failed (d.explain r)
  | some (.crashed m) => ([crashText m], 1)

partial def readLines (input : IO.FS.Stream) : IO (List String) := do
  let line ← input.getLine
  if line.isEmpty then return []
  else return line.trimAsciiEnd.toString :: (← readLines input)

def readProgram (file : String) : IO (Except Unreadable (List UInt8)) := do
  try
    let contents ← IO.FS.readBinFile file
    return .ok contents.toList
  catch
    | .inappropriateType _ _ _ => return .error .directory
    | _ => return .error .missing

def contentsOf : Value String → IO (Except Unreadable (List UInt8))
  | .given file => readProgram file
  | .withheld => return .error .missing

def seedOf (chance : Int) : Option (Value Int) → Int
  | some (.given seed) => seed
  | _ => chance

def play (o : Options) : IO UInt32 := do
  let contents ← contentsOf o.file
  let chance ← IO.rand 0 0xFFFFFFFF
  let draws := noise (UInt64.ofInt (seedOf chance o.seed))
  let batches := (← readLines (← IO.getStdin)).map batchOfLine
  let r := Session.start Window.screenless o (fun _ => contents) draws batches
  for line in pictures r do
    IO.println line
  for line in r.log do
    IO.eprintln line
  let (lines, code) := farewell Window.screenless r.exit
  for line in lines do
    IO.eprintln line
  return code.toUInt32

def program (arguments : List String) : IO UInt32 := do
  match CommandLine.debugSetting (← IO.getEnv "DEBUG") with
  | .error e =>
    IO.eprintln e.message
    return 1
  | .ok debug =>
    match CommandLine.parse debug arguments with
    | .ok o => play o
    | .error r =>
      let (lines, code) := farewell Window.screenless (some (.refused r))
      for line in lines do
        IO.eprintln line
      return code.toUInt32

end ChipEight.Main

def main (arguments : List String) : IO UInt32 := ChipEight.Main.program arguments
