import Wireframe.Text.Numeral

/-
  Wireframe.Command.Arguments — the arguments of `analyze`.

  One argument names the scaffold. Flags have a long spelling, which may be cut short as long as
  it stays clear, and some a short one of a dash and a letter. The value of a flag is the next
  argument, or follows after `=`, or follows the letter at once. After `--` nothing is a flag. A
  flag that has `--` for its value stands there without a value.
-/

namespace Wireframe.Command

inductive Flag where
  | help
  | pattern
  | viewport
  | minScore
  | output
  | indent
  | noFail
  deriving DecidableEq

namespace Flag

def spellings : List (String × Flag) :=
  [("-h", help), ("--help", help), ("--pattern", pattern), ("-p", pattern),
    ("--viewport", viewport), ("-v", viewport), ("--min-score", minScore), ("--output", output),
    ("-o", output), ("--indent", indent), ("--no-fail", noFail)]

def ofSpelling? (s : String) : Option Flag := (spellings.find? (·.1 == s)).map (·.2)

def takesValue : Flag → Bool
  | help | noFail => false
  | _ => true

end Flag

/-- What `analyze` is told to do. Where a flag stands without a value there is none. -/
structure Options where
  scaffold : String
  patterns : List (Option String) := []
  viewports : List (Option String) := []
  minScore : Option (Option Int) := none
  output : Option String := none
  indent : Option Int := some 2
  /-- Exit without complaint also when the screen does not pass. -/
  noFail : Bool := false
  deriving DecidableEq

/-- Why a command line is not understood. -/
inductive Refusal where
  | ambiguous (argument : String)
  | needlessValue (spelling value : String)
  | missingValue (spelling : String)
  | notWhole (spelling value : String)
  | noScaffold
  | surplus (arguments : List String)
  deriving DecidableEq

def Refusal.message : Refusal → String
  | ambiguous s => "ambiguous option: " ++ s
  | needlessValue s v => "argument " ++ s ++ ": takes no value, got " ++ v
  | missingValue s => "argument " ++ s ++ ": expected one argument"
  | notWhole s v => "argument " ++ s ++ ": not a whole number: " ++ v
  | noScaffold => "the following arguments are required: scaffold"
  | surplus rest => "unrecognized arguments: " ++ " ".intercalate rest

/-! ## Words -/

/-- What is written together with the spelling of a flag. -/
inductive Attached where
  | nothing
  /-- After `=`. -/
  | assigned (text : String)
  /-- Right after the letter. -/
  | joined (text : String)
  deriving DecidableEq

/-- An argument by its looks. -/
inductive Word where
  | separator
  | plain (text : String)
  | flag (flag : Flag) (spelling : String) (attached : Attached)
  /-- It looks like a flag and is none. -/
  | unknown (text : String)
  deriving DecidableEq

/-- What stands before the first `=`, and what after it. -/
def splitValue (s : String) : String × Option String :=
  match s.toList.span (· != '=') with
  | (name, _ :: value) => (String.ofList name, some (String.ofList value))
  | (name, []) => (String.ofList name, none)

/-- The flags with a long spelling that starts like the argument. -/
def completions (s : String) : List Word :=
  let (start, value) := splitValue s
  (Flag.spellings.filter fun f => start.toList.isPrefixOf f.1.toList).map fun f =>
    .flag f.2 f.1 ((value.map .assigned).getD .nothing)

/-- The flag of a short spelling with its value behind it. -/
def joined? (s : String) : Option Word :=
  let spelling := String.ofList (s.toList.take 2)
  (Flag.ofSpelling? spelling).map fun f => .flag f spelling (.joined (String.ofList (s.toList.drop 2)))

/-- One digit or more, and nothing else but a line end. -/
def areDigits (cs : List Char) : Bool :=
  let rest := cs.dropWhile Text.isDigit
  (cs.head?.any Text.isDigit) && (rest.isEmpty || rest == ['\n'])

/-- Is this a number below zero, `-5`, `-5.5` or `-.5`? -/
def isNegativeNumber : List Char → Bool
  | '-' :: cs => areDigits cs || match cs.dropWhile Text.isDigit with
    | '.' :: places => areDigits places
    | _ => false
  | _ => false

/-- What an argument is that starts with a dash and is no spelling as it stands. -/
def classifyDashed (s : String) : Except Refusal Word :=
  let found := if "--".toList.isPrefixOf s.toList then completions s else (joined? s).toList
  match found with
  | [w] => .ok w
  | [] => .ok (if isNegativeNumber s.toList || s.toList.contains ' ' then .plain s else .unknown s)
  | _ => .error (.ambiguous s)

def classify (s : String) : Except Refusal Word :=
  if s.toList.head? != some '-' || s == "-" then .ok (.plain s)
  else match Flag.ofSpelling? s, splitValue s with
    | some f, _ => .ok (.flag f s .nothing)
    | none, (name, some value) => match Flag.ofSpelling? name with
      | some f => .ok (.flag f name (.assigned value))
      | none => classifyDashed s
    | none, (_, none) => classifyDashed s

/-- The words of a command line. -/
def wordsOf : List String → Except Refusal (List Word)
  | [] => .ok []
  | s :: rest =>
    if s == "--" then .ok (.separator :: rest.map .plain)
    else do
      let w ← classify s
      let ws ← wordsOf rest
      return w :: ws

/-! ## Reading -/

/-- What has been read so far. The scaffold may still be missing. -/
structure Draft where
  scaffold : Option String := none
  options : Options := { scaffold := "" }
  surplus : List String := []

/-- Why reading ends before the last word. -/
inductive Stop where
  | help
  | refused (r : Refusal)

def whole (spelling value : String) : Except Stop Int :=
  match Text.integer? value with
  | some n => .ok n
  | none => .error (.refused (.notWhole spelling value))

/-- A flag with its value, or without one. -/
def Draft.set (d : Draft) (f : Flag) (spelling : String) (value : Option String) :
    Except Stop Draft :=
  let o := d.options
  match f with
  | .pattern => .ok { d with options := { o with patterns := o.patterns ++ [value] } }
  | .viewport => .ok { d with options := { o with viewports := o.viewports ++ [value] } }
  | .minScore => do
    let n ← value.mapM (whole spelling)
    return { d with options := { o with minScore := some n } }
  | .output => .ok { d with options := { o with output := value } }
  | .indent => do
    let n ← value.mapM (whole spelling)
    return { d with options := { o with indent := n } }
  | .help | .noFail => .ok d

/-- The value of a flag that is written together with it. -/
def attachedValue? (s : String) : Option String := if s == "--" then none else some s

/-- Letters after `-h`, or after `-h=`, are short flags too, up to one that takes the rest as its
    value. Do they read, given that a word without a dash follows or not? -/
def lettersRead (valueFollows : Bool) : List Char → Bool
  | [] => true
  | c :: cs => match Flag.ofSpelling? (String.ofList ['-', c]) with
    | some f =>
      if f.takesValue then !cs.isEmpty || valueFollows else lettersRead valueFollows cs
    | none => false

/-- A flag that takes no value. -/
def Draft.switch (d : Draft) (f : Flag) (spelling : String) (attached : Attached)
    (valueFollows : Bool) : Except Stop Draft :=
  let refused (v : String) := Except.error (Stop.refused (.needlessValue spelling v))
  match f, attached with
  | .help, .nothing => .error .help
  | .help, .joined v | .help, .assigned v =>
    if spelling == "-h" && v != "" && lettersRead valueFollows v.toList then .error .help
    else refused v
  | _, .nothing => .ok { d with options := { d.options with noFail := true } }
  | _, .joined v | _, .assigned v => refused v

def Word.isPlain : Word → Bool
  | .plain _ => true
  | _ => false

def readWords (d : Draft) : List Word → Except Stop Draft
  | [] => .ok d
  | .plain s :: rest => match d.scaffold with
    | some _ => readWords { d with surplus := d.surplus ++ [s] } rest
    | none =>
      let d := { d with scaffold := some s }
      match rest with
      | .separator :: rest => readWords d rest
      | rest => readWords d rest
  | .separator :: rest => match d.scaffold, rest with
    | none, .plain s :: rest => readWords { d with scaffold := some s } rest
    | _, rest => readWords { d with surplus := d.surplus ++ ["--"] } rest
  | .unknown s :: rest => readWords { d with surplus := d.surplus ++ [s] } rest
  | .flag f spelling attached :: rest =>
    if f.takesValue then
      match attached, rest with
      | .assigned v, rest | .joined v, rest => do
        readWords (← d.set f spelling (attachedValue? v)) rest
      | .nothing, .plain v :: rest => do readWords (← d.set f spelling (some v)) rest
      | .nothing, _ => .error (.refused (.missingValue spelling))
    else do
      readWords (← d.switch f spelling attached (rest.head?.any Word.isPlain)) rest

/-- What is left once all words are read. -/
def Draft.finish (d : Draft) : Except Stop Options :=
  match d.scaffold with
  | none => .error (.refused .noScaffold)
  | some s =>
    if d.surplus.isEmpty then .ok { d.options with scaffold := s }
    else .error (.refused (.surplus d.surplus))

/-- The options that a command line gives to `analyze`. -/
def Options.parse (arguments : List String) : Except Stop Options := do
  let words ← (wordsOf arguments).mapError .refused
  let d ← readWords {} words
  d.finish

end Wireframe.Command
