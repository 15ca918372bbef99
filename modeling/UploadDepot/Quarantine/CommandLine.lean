/-
The command line of the sweep: `[-h] [--root ROOT] [--max-age MAX_AGE]`.

A switch may be cut short as long as it is told from the others, and its
value may follow it or be joined to it by an equals sign. A word that looks
like a negative number is a value. Of a switch given twice the last one
counts. Two dashes as a word end the switches; joined to a switch they leave
it without a value.
-/
import UploadDepot.Number.Numeral
import UploadDepot.Quarantine.Options
import UploadDepot.Text.Quoted

namespace UploadDepot.Quarantine

/-- A switch. -/
inductive Switch where
  | help
  | root
  | maxAge
  deriving DecidableEq, Repr

/-- The spellings of the switches. -/
def Switch.spellings : List (String × Switch) :=
  [("-h", .help), ("--help", .help), ("--root", .root), ("--max-age", .maxAge)]

/-- The name of a switch in a complaint. -/
def Switch.label : Switch → String
  | .help => "-h/--help"
  | .root => "--root"
  | .maxAge => "--max-age"

/-- What is wrong with a command line. -/
inductive Complaint where
  | ambiguous (word : String) (spellings : List String)
  | noValue (switch : Switch)
  /-- A switch that takes no value was given one. -/
  | needlessValue (switch : Switch) (value : String)
  | notNumber (switch : Switch) (value : String)
  | unknownWords (words : List String)
  deriving DecidableEq, Repr

/-- What the user is told. -/
def Complaint.message : Complaint → String
  | .ambiguous word spellings =>
    "ambiguous option: " ++ word ++ " could match " ++ ", ".intercalate spellings
  | .noValue switch => "argument " ++ switch.label ++ ": expected one argument"
  | .needlessValue switch value =>
    "argument " ++ switch.label ++ ": ignored explicit argument " ++ Text.quote value
  | .notNumber switch value =>
    "argument " ++ switch.label ++ ": invalid float value: " ++ Text.quote value
  | .unknownWords words => "unrecognized arguments: " ++ " ".intercalate words

/-! ## Words -/

/-- What a word of the command line is. -/
inductive Word where
  | value
  /-- A switch in its full or shortened spelling, with a value if one is joined to it. -/
  | switch (switch : Switch) (joined : Option String)
  /-- The short help switch with something joined to it. -/
  | cluster (joined : List Char)
  /-- A switch that there is not. -/
  | unknown
  deriving DecidableEq, Repr

/-- Whether a text is made of decimal digits, of which there is at least one. A line feed may
follow. -/
def isDigits : List Char → Bool
  | [] => false
  | [c] => (Text.digitValue? c).isSome
  | [c, '\n'] => (Text.digitValue? c).isSome
  | c :: cs => (Text.digitValue? c).isSome && isDigits cs

/-- Whether what follows a minus sign makes a number: digits, or a point and digits with or without
digits before. -/
def isUnsigned (cs : List Char) : Bool :=
  isDigits cs ||
    match cs.dropWhile fun c => (Text.digitValue? c).isSome with
    | '.' :: decimals => isDigits decimals
    | _ => false

/-- A word cut at its first equals sign. -/
def cutAtEquals (cs : List Char) : List Char × Option String :=
  match cs.dropWhile (· != '=') with
  | [] => (cs, none)
  | _ :: value => (cs.takeWhile (· != '='), some (String.ofList value))

/-- A word that is no switch in full: a number, or something with a blank in it, is a value. -/
def otherWord (cs : List Char) : Word :=
  if isUnsigned (cs.drop 1) ∨ ' ' ∈ cs then .value else .unknown

/-- Tells what a word is. -/
def classify (word : String) : Except Complaint Word :=
  let cs := word.toList
  let (before, joined) := cutAtEquals cs
  let spelled (spelling : List Char) : Option Switch :=
    (Switch.spellings.find? fun entry => entry.1.toList = spelling).map (·.2)
  match cs, spelled cs, spelled before with
  | '-' :: _ :: _, some switch, _ => .ok (.switch switch none)
  | '-' :: 'h' :: '=' :: value, none, _ => .ok (.cluster value)
  | '-' :: 'h' :: letters, none, _ => .ok (.cluster letters)
  | '-' :: _ :: _, none, some switch => .ok (.switch switch joined)
  | '-' :: '-' :: _, none, none =>
    match Switch.spellings.filter fun entry => before.isPrefixOf entry.1.toList with
    | [] => .ok (otherWord cs)
    | [(_, switch)] => .ok (.switch switch joined)
    | several => .error (.ambiguous word (several.map (·.1)))
  | '-' :: _ :: _, none, none => .ok (otherWord cs)
  | _, _, _ => .ok .value

/-- Tells what the words are; after two dashes alone all are values. -/
def classifyAll : List String → Except Complaint (List (String × Word))
  | [] => .ok []
  | "--" :: words => .ok (("--", .unknown) :: words.map fun w => (w, .value))
  | word :: words => do
    let kind ← classify word
    let kinds ← classifyAll words
    return (word, kind) :: kinds

/-! ## The command -/

/-- What a command line asks for. -/
inductive Command where
  | sweep (options : Options)
  | help

/-- What is joined to the short help switch: more of the same, if it is letters of the switch to its
end, or else, from the first other character on, a value, which is refused. -/
def helpCluster : List Char → Except Complaint Command
  | ['h'] => .ok .help
  | 'h' :: joined => helpCluster joined
  | joined => .error (.needlessValue .help (String.ofList joined))

/-- Takes the value of a switch; two dashes are none. -/
def Options.put (o : Options) (switch : Switch) (value : String) : Except Complaint Options :=
  match switch, value with
  | .help, value => .error (.needlessValue .help value)
  | .root, "--" => .ok { o with root := none }
  | .root, value => .ok { o with root := some value }
  | .maxAge, "--" => .ok { o with maxAge := none }
  | .maxAge, value =>
    match Numeral.readDouble? value with
    | some maxAge => .ok { o with maxAge := some maxAge }
    | none => .error (.notNumber .maxAge value)

/-- Goes through the words. `strangers` holds those that belong to nothing, latest first. -/
def Options.read (o : Options) (strangers : List String) :
    List (String × Word) → Except Complaint Command
  | [] => if strangers = [] then .ok (.sweep o) else .error (.unknownWords strangers.reverse)
  | (word, .value) :: words => o.read (word :: strangers) words
  | (word, .unknown) :: words => o.read (word :: strangers) words
  | (_, .cluster joined) :: _ => helpCluster joined
  | (_, .switch .help none) :: _ => .ok .help
  | (_, .switch switch (some value)) :: words =>
    match o.put switch value with
    | .ok o => o.read strangers words
    | .error complaint => .error complaint
  | (_, .switch switch none) :: (value, .value) :: words =>
    match o.put switch value with
    | .ok o => o.read strangers words
    | .error complaint => .error complaint
  | (_, .switch switch none) :: _ => .error (.noValue switch)

/-- Reads a command line. -/
def Command.ofWords (defaults : Options) (words : List String) : Except Complaint Command := do
  defaults.read [] (← classifyAll words)

/-! ## Texts -/

/-- How the sweep is used, in one line; `program` is the name under which it is run. -/
def usage (program : String) : String :=
  "usage: " ++ program ++ " [-h] [--root ROOT] [--max-age MAX_AGE]"

/-- How the sweep is used. -/
def helpText (program : String) : String :=
  usage program ++ "\n\nDelete stale upload quarantine files.\n\noptions:\n"
    ++ "  -h, --help         show this help message and exit\n"
    ++ "  --root ROOT\n  --max-age MAX_AGE"

/-- The line that reports what is wrong with a command line. -/
def Complaint.report (c : Complaint) (program : String) : String :=
  program ++ ": error: " ++ c.message

/-- The exit code of a command line with something wrong. -/
def complaintExit : Nat := 2

end UploadDepot.Quarantine
