import Wireframe.Command.Run

/-
  Wireframe.Main — the program.

  Reads the file that the command line names, runs the command, writes what comes of it. The
  program starts no child programs; where a command asks for one, it exits as if there were none.
-/

open Wireframe Wireframe.Command

/-- The variables that are set. -/
def readEnvironment : IO Environment := do
  let found ← Variable.all.mapM fun v => return (v.name, ← IO.getEnv v.name)
  return found.filterMap fun (name, value) => value.map fun s => (name, Text.ofChars s)

/-- The names on the way to a file, its own last. -/
def waypoints (name : String) : List String :=
  let steps := stepsOf name
  (List.range steps.length).map fun k => topOf name ++ "/".intercalate (steps.take (k + 1))

/-- The files with what a name leads to. -/
def see (fs : Files) (name : String) : IO Files := do
  try
    let text ← IO.FS.readFile (Text.chars name)
    return { fs with texts := fs.texts ++ [(.ofName name, Text.ofChars text)] }
  catch
    | .inappropriateType .. =>
      return { fs with directories := fs.directories ++ [.ofName name] }
    | _ => return fs

/-- The files that a command line reads or writes, and the directories on the way to them. -/
def readFiles : List String → IO Files
  | "analyze" :: rest => match Options.parse rest with
    | .ok o => ((o.scaffold :: o.output.toList).flatMap waypoints).foldlM see ⟨[], []⟩
    | .error _ => return ⟨[], []⟩
  | _ => return ⟨[], []⟩

/-- Writes the files that a run changed. -/
def writeFiles (earlier later : Files) : IO Unit :=
  later.texts.forM fun (l, text) =>
    if earlier.text? l == some text then pure ()
    else IO.FS.writeFile (Text.chars l.name) (Text.chars text)

def main (words : List String) : IO UInt32 := do
  let arguments := words.map Text.ofChars
  let w : World :=
    { env := ← readEnvironment, files := ← readFiles arguments, child := fun _ => .exited 127
      room := 134217728 }
  match run w arguments with
  | .refused r =>
    IO.eprint analyzeUsage
    IO.eprintln (Text.chars r.message)
    return 2
  | .broken f =>
    IO.eprintln (Text.chars f.message)
    return 1
  | .stopped f =>
    IO.eprintln (Text.chars f.message)
    return 1
  | .finished o =>
    (o.messages w.env).forM fun s => IO.eprintln (Text.chars s)
    IO.print (Text.chars o.output)
    writeFiles w.files o.files
    return UInt32.ofNat (o.exit % 256).toNat
