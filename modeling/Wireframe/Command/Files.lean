import Wireframe.Text.Bytes

/-
  Wireframe.Command.Files — the files and directories that a run sees, and the names for them.

  A name is a list of steps from the working directory, or from the top when it starts with a
  slash. A step leads into a directory by its name, or out of one. Every step but the last one has
  to end at a directory. A name may not be too long as a whole or in one step, holds no null
  character, and is written in bytes; the bytes decide which file it means.
-/

namespace Wireframe.Command

/-- Why a name leads to no file. -/
inductive FileFault where
  | missing
  | isDirectory
  /-- A step leads on from a file. -/
  | notDirectory
  | nameTooLong
  | nullCharacter
  /-- Half of a surrogate pair that no byte is written for. -/
  | loneHalf
  deriving DecidableEq

def FileFault.message : FileFault → String
  | missing => "No such file or directory"
  | isDirectory => "Is a directory"
  | notDirectory => "Not a directory"
  | nameTooLong => "File name too long"
  | nullCharacter => "embedded null byte"
  | loneHalf => "surrogates not allowed"

/-! ## Names -/

/-- The steps of a name: without empty ones and without `.`. -/
def stepsOf (name : String) : List String :=
  ((name.toList.splitOn '/').map String.ofList).filter fun s => s != "" && s != "."

/-- What a name starts with; a leading slash stays, and so do two. -/
def topOf (name : String) : String :=
  let slashes := (name.toList.takeWhile (· == '/')).length
  if slashes = 0 then "" else if slashes = 2 then "//" else "/"

/-- A name with its needless parts left out. -/
def plainName (name : String) : String :=
  let plain := topOf name ++ "/".intercalate (stepsOf name)
  if plain.isEmpty then "." else plain

/-- A place among the directories: a name that is as short as can be. -/
@[ext]
structure Location where
  fromTop : Bool
  steps : List String
  deriving DecidableEq

namespace Location

/-- The place where a name starts. -/
def start (name : String) : Location := ⟨topOf name != "", []⟩

def name (l : Location) : String := (if l.fromTop then "/" else "") ++ "/".intercalate l.steps

/-- The place one step further. The way out of the top ends at the top. -/
def step (l : Location) (s : String) : Location :=
  if s != ".." then { l with steps := l.steps ++ [s] }
  else match l.steps.getLast? with
    | none => if l.fromTop then l else { l with steps := [".."] }
    | some last =>
      if last == ".." then { l with steps := l.steps ++ [".."] }
      else { l with steps := l.steps.dropLast }

/-- The place that a name means where all its steps lead on. -/
def ofName (name : String) : Location := (stepsOf (Text.settled name)).foldl step (start name)

/-- Is this the place itself, or one below it? -/
def contains (l m : Location) : Bool := l.fromTop == m.fromTop && l.steps.isPrefixOf m.steps

/-- Is the place reached from the working directory by ways out only? -/
def isAbove (l : Location) : Bool := l.steps.all (· == "..")

end Location

/-! ## Files -/

/-- What can be seen: the texts of files by their places, and the places of directories. The
    directories around a file and those around the working directory are seen too. -/
structure Files where
  texts : List (Location × String)
  directories : List Location := []

/-- What is at a place. -/
inductive Entity where
  | file (text : String)
  | directory
  | nothing
  deriving DecidableEq

namespace Files

/-- Files and directories by their names. -/
def ofNames (texts : List (String × String)) (directories : List String) : Files :=
  ⟨texts.map fun f => (.ofName f.1, f.2), directories.map .ofName⟩

def text? (fs : Files) (l : Location) : Option String := (fs.texts.find? (·.1 == l)).map (·.2)

def isDirectory (fs : Files) (l : Location) : Bool :=
  l.isAbove || fs.texts.any (l.contains ·.1) || fs.directories.contains l

def entity (fs : Files) (l : Location) : Entity :=
  match fs.text? l with
  | some text => .file text
  | none => if fs.isDirectory l then .directory else .nothing

/-- The longest step, in bytes. -/
def stepLimit : Nat := 255

/-- From so many bytes on a name is too long. -/
def nameLimit : Nat := 4096

/-- How many bytes a text is written in. -/
def byteSize (s : String) : Nat := ((Text.bytes? s).getD []).length

/-- The place that some steps lead to. -/
def follow (fs : Files) (l : Location) : List String → Except FileFault Location
  | [] => .ok l
  | s :: rest => match fs.entity l with
    | .file _ => .error .notDirectory
    | .nothing => .error .missing
    | .directory =>
      if stepLimit < byteSize s then .error .nameTooLong else follow fs (l.step s) rest

/-- The place that a name leads to; there may be nothing yet. -/
def locate (fs : Files) (name : String) : Except FileFault Location :=
  if (Text.bytes? name).isNone then .error .loneHalf
  else if name.toList.contains (Char.ofNat 0) then .error .nullCharacter
  else if nameLimit ≤ byteSize (plainName name) then .error .nameTooLong
  else fs.follow (Location.start name) (stepsOf (Text.settled name))

/-- The text of a file. -/
def read (fs : Files) (name : String) : Except FileFault String := do
  match fs.entity (← fs.locate name) with
  | .file text => return text
  | .directory => throw .isDirectory
  | .nothing => throw .missing

/-- The files with another text in the file at a place. -/
def replaced (fs : Files) (l : Location) (text : String) : Files :=
  { fs with texts := fs.texts.map fun f => if f.1 == l then (l, text) else f }

/-- The files with a new one at a place. -/
def added (fs : Files) (l : Location) (text : String) : Files :=
  { fs with texts := fs.texts ++ [(l, text)] }

/-- The files with a text in the file of a name, which may be a new one in a directory. -/
def write (fs : Files) (name text : String) : Except FileFault Files := do
  let l ← fs.locate name
  match fs.entity l with
  | .directory => throw .isDirectory
  | .file _ => return fs.replaced l text
  | .nothing => return fs.added l text

end Files

end Wireframe.Command
