import Storyboard.CommandLine.Program

/-! # The command line itself

    The program with the real files and the real environment. It decides
    nothing: every question of the interaction is put to the system. There is
    no connection to a backend and nothing that draws pictures here, so these
    two questions are always answered in the negative. -/

namespace Storyboard.CommandLine

/-- What an error of the system means for a file. -/
def FileProblem.ofError : IO.Error → FileProblem
  | .noFileOrDirectory .. => .missing
  | .alreadyExists .. => .taken
  | e => .other (toString e)

/-- What came of something done with a file. -/
def attempt {α : Type} (act : IO α) : IO (Except FileProblem α) := do
  match ← act.toBaseIO with
  | .ok a => return .ok a
  | .error e => return .error (.ofError e)

/-- Put every question of an interaction to the system. -/
def Interaction.perform {α : Type} : Interaction α → IO α
  | .done a => return a
  | .print text next => do
    IO.print text
    next.perform
  | .tell text next => do
    IO.eprint text
    next.perform
  | .readText path next => do
    let r ← attempt (IO.FS.readFile path)
    (next r).perform
  | .makeFolder path next => do
    let r ← attempt (IO.FS.createDirAll path)
    (next r).perform
  | .writeText path text next => do
    let r ← attempt (IO.FS.writeFile path text)
    (next r).perform
  | .writePicture _ _ _ next => (next (.error (.other "pictures cannot be drawn here"))).perform
  | .fetch _ _ _ next => (next none).perform

end Storyboard.CommandLine

open Storyboard in
/-- Run the program with the words of the command line. -/
def main (words : List String) : IO UInt32 := do
  let names := [Settings.apiVariable, Settings.channelVariable, Settings.voiceVariable]
  let values ← names.mapM fun name => do return (name, ← IO.getEnv name)
  let named (name : String) : Option String := (values.lookup name).join
  let status ← (CommandLine.run named words).perform
  return UInt32.ofNat status
