import ChipEight.Text.IntegerLiteral

/-!
The command line. Every argument is classified by itself: it is the name of a switch, perhaps with a
value attached, or a plain word, or the separator behind which all arguments are plain words. Then
the switches are obeyed in order, those that need a value taking a plain word behind them if none
is attached. A long name may be shortened as long as it remains unambiguous.

These are the conventions of argparse before the versions 3.11.9 and 3.12.3: a separator that is
attached as in `--seed=--` gives no value, and what is attached to `-h` is read as more letters, also
behind an equals sign.
-/

namespace ChipEight

inductive Value (α : Type) where
  | given (a : α)
  /-- The separator was attached in the place of a value. -/
  | withheld
  deriving DecidableEq

structure Options where
  file : Value String
  cpuHz : Value Int
  scale : Value Int
  seed : Option (Value Int)
  debug : Bool
  deriving DecidableEq

namespace CommandLine

inductive Switch where
  | help | file | cpuHz | scale | seed | debug
  deriving DecidableEq

namespace Switch

def names : Switch → List String
  | help => ["-h", "--help"]
  | file => ["-f", "--file"]
  | cpuHz => ["--cpu-hz"]
  | scale => ["--scale"]
  | seed => ["--seed"]
  | debug => ["--debug"]

def label (s : Switch) : String := "/".intercalate s.names

def all : List Switch := [help, file, cpuHz, scale, seed, debug]

def byName : List (String × Switch) := all.flatMap fun s => s.names.map fun n => (n, s)

def ofName? (name : String) : Option Switch :=
  (byName.find? fun entry => entry.1 == name).map Prod.snd

end Switch

inductive Complaint where
  | ambiguous (word : String) (candidates : List String)
  | missingValue (switch : Switch)
  | superfluousValue (switch : Switch) (value : String)
  | notInteger (switch : Switch) (value : String)
  | missingFile
  | unrecognized (words : List String)
  deriving DecidableEq

def Complaint.text : Complaint → String
  | ambiguous word candidates =>
    "ambiguous option: " ++ word ++ " could match " ++ ", ".intercalate candidates
  | missingValue switch => "argument " ++ switch.label ++ ": expected one argument"
  | superfluousValue switch value =>
    "argument " ++ switch.label ++ ": ignored explicit argument " ++ Text.quoted value
  | notInteger switch value =>
    "argument " ++ switch.label ++ ": invalid int value: " ++ Text.quoted value
  | missingFile => "the following arguments are required: " ++ Switch.file.label
  | unrecognized words => "unrecognized arguments: " ++ " ".intercalate words

inductive Refusal where
  | help
  | complaint (c : Complaint)
  deriving DecidableEq

def Refusal.message? : Refusal → Option String
  | help => none
  | complaint c => some ("chip8: error: " ++ c.text)

inductive Word where
  | plain
  | separator
  /-- The name of a switch, with the text attached to it if there is one. The name is short if it is
  a single letter. -/
  | switch (switch : Switch) (short : Bool) (attached : Option (List Char))
  | unknown
  deriving DecidableEq

/-- The text up to the first equals sign, and the text behind it. -/
def splitAssigned (cs : List Char) : List Char × Option (List Char) :=
  match cs.span (· != '=') with
  | (name, _ :: value) => (name, some value)
  | (name, []) => (name, none)

def isShort (name : List Char) : Bool := name.length == 2

def isDigit (c : Char) : Bool := (Text.digitValue? c).isSome

/-- Whether the text is a decimal number, with or without a fraction; a final line feed is
ignored. -/
def isUnsignedNumber (cs : List Char) : Bool :=
  let body := if cs.getLast? = some '\n' then cs.dropLast else cs
  match body.dropWhile isDigit with
  | [] => !body.isEmpty
  | '.' :: fraction => !fraction.isEmpty && fraction.all isDigit
  | _ => false

/-- A word that starts with a hyphen and names no switch. Negative numbers and texts with a space
are plain words. -/
def classifyOther (cs : List Char) : Word :=
  if isUnsignedNumber cs.tail || cs.contains ' ' then .plain else .unknown

/-- Classifies a word that starts with two hyphens by the names that it shortens. -/
def classifyLong (cs : List Char) : Except Complaint Word :=
  let (stem, attached) := splitAssigned cs
  match Switch.byName.filter fun entry => stem.isPrefixOf entry.1.toList with
  | [] => .ok (classifyOther cs)
  | [(_, s)] => .ok (.switch s false attached)
  | candidates => .error (.ambiguous (String.ofList cs) (candidates.map Prod.fst))

/-- Classifies a word that starts with one hyphen by its first letter, to which the rest is
attached. -/
def classifyShort (cs : List Char) : Word :=
  match Switch.ofName? (String.ofList (cs.take 2)) with
  | some s => .switch s true (some (cs.drop 2))
  | none => classifyOther cs

def classifyHyphened (cs : List Char) : Except Complaint Word :=
  let (name, attached) := splitAssigned cs
  match Switch.ofName? (String.ofList name) with
  | some s => .ok (.switch s (isShort name) attached)
  | none =>
    match cs with
    | [_] => .ok .plain
    | _ :: '-' :: _ => classifyLong cs
    | _ => .ok (classifyShort cs)

def classify (word : String) : Except Complaint Word :=
  if word = "--" then .ok .separator
  else
    match word.toList with
    | '-' :: cs => classifyHyphened ('-' :: cs)
    | _ => .ok .plain

def classifyAll : List String → Except Complaint (List (String × Word))
  | [] => .ok []
  | word :: rest =>
    match classify word with
    | .error c => .error c
    | .ok .separator => .ok ((word, .separator) :: rest.map fun w => (w, .plain))
    | .ok kind =>
      match classifyAll rest with
      | .ok kinds => .ok ((word, kind) :: kinds)
      | .error c => .error c

structure Draft where
  file : Option (Value String)
  cpuHz : Value Int
  scale : Value Int
  seed : Option (Value Int)
  debug : Bool
  extras : List String

namespace Draft

def start (debug : Bool) : Draft := ⟨none, .given 500, .given 15, none, debug, []⟩

def addExtra (d : Draft) (word : String) : Draft := { d with extras := word :: d.extras }

/-- The value that a text stands for. The separator stands for none. -/
def readText (value : String) : Value String := if value = "--" then .withheld else .given value

def readNumber (switch : Switch) (value : String) : Except Complaint (Value Int) :=
  match readText value with
  | .withheld => .ok .withheld
  | .given text =>
    match Text.readInteger text with
    | .ok n => .ok (.given n)
    | .error _ => .error (.notInteger switch text)

def assign (d : Draft) (switch : Switch) (value : String) : Except Complaint Draft :=
  match switch with
  | .file => .ok { d with file := some (readText value) }
  | .cpuHz => (readNumber switch value).map fun n => { d with cpuHz := n }
  | .scale => (readNumber switch value).map fun n => { d with scale := n }
  | .seed => (readNumber switch value).map fun n => { d with seed := some n }
  | .help | .debug => .error (.superfluousValue switch value)

def finish (d : Draft) : Except Complaint Options :=
  match d.file with
  | none => .error .missingFile
  | some file =>
    if d.extras.isEmpty then .ok ⟨file, d.cpuHz, d.scale, d.seed, d.debug⟩
    else .error (.unrecognized d.extras.reverse)

end Draft

/-- Help was asked for by a letter, and this is attached to it: more letters, of which the one that
needs a value takes the rest, or a word behind the argument if there is no rest. -/
def helpAndMore (wordFollows : Bool) : List Char → Refusal
  | [] => .help
  | 'h' :: rest => helpAndMore wordFollows rest
  | 'f' :: rest =>
    if rest.isEmpty && !wordFollows then .complaint (.missingValue .file) else .help
  | rest => .complaint (.superfluousValue .help (String.ofList rest))

/-- The refusal of a command line that asks for help. A text may be attached to the short name only,
and only one that consists of more letters. -/
def helpRefusal (wordFollows short : Bool) : Option (List Char) → Refusal
  | none => .help
  | some attached =>
    if short && !attached.isEmpty then helpAndMore wordFollows attached
    else .complaint (.superfluousValue .help (String.ofList attached))

def orComplain {α : Type} : Except Complaint α → Except Refusal α
  | .ok a => .ok a
  | .error c => .error (.complaint c)

def plainFollows : List (String × Word) → Bool
  | (_, .plain) :: _ => true
  | _ => false

def obey (d : Draft) : List (String × Word) → Except Refusal Draft
  | [] => .ok d
  | (_, .switch .help short attached) :: rest =>
    .error (helpRefusal (plainFollows rest) short attached)
  | (_, .switch .debug _ none) :: rest => obey { d with debug := true } rest
  | (_, .switch s _ (some value)) :: rest =>
    match d.assign s (String.ofList value) with
    | .ok e => obey e rest
    | .error c => .error (.complaint c)
  | (_, .switch s _ none) :: (value, .plain) :: rest =>
    match d.assign s value with
    | .ok e => obey e rest
    | .error c => .error (.complaint c)
  | (_, .switch s _ none) :: _ => .error (.complaint (.missingValue s))
  | (word, _) :: rest => obey (d.addExtra word) rest

/-- Reads a command line. `debug` holds where nothing else is said. -/
def parse (debug : Bool) (arguments : List String) : Except Refusal Options := do
  let words ← orComplain (classifyAll arguments)
  let draft ← obey (.start debug) words
  orComplain draft.finish

/-- Whether an environment variable, if it is set, asks for debugging: by a positive number. -/
def debugSetting : Option String → Except Text.NotInteger Bool
  | none => .ok false
  | some value => (Text.readInteger value).map fun n => decide (1 ≤ n)

end CommandLine

end ChipEight
