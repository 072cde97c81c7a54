import Storyboard.Drawing.Raster
import Storyboard.Json.Basic

/-! # Interactions

    What the program asks of the outside, as a tree: each node is a line to
    write or a question, with what follows each of its answers. Nothing is
    done by building the tree; whoever holds it decides how it is answered.
    The tree is well founded, so every way of answering comes to an end. -/

namespace Storyboard.CommandLine

/-- Why something cannot be done with a file. -/
inductive FileProblem where
  | missing
  /-- There is something by that name already. -/
  | taken
  /-- A file is in the place of a folder. -/
  | notFolder
  /-- A folder is in the place of a file. -/
  | folder
  /-- Anything else, in words. -/
  | other (text : String)
  deriving DecidableEq, Repr

/-- The problem in words. -/
def FileProblem.message : FileProblem → String
  | .missing => "No such file or directory (os error 2)"
  | .taken => "File exists (os error 17)"
  | .notFolder => "Not a directory (os error 20)"
  | .folder => "Is a directory (os error 21)"
  | .other text => text

/-- Something asked of the outside, with what follows; in the end there is a result. -/
inductive Interaction (α : Type) where
  | done (result : α)
  /-- Write to the output. -/
  | print (text : String) (next : Interaction α)
  /-- Write to where problems and progress go. -/
  | tell (text : String) (next : Interaction α)
  /-- Read the text of a file. -/
  | readText (path : String) (next : Except FileProblem String → Interaction α)
  /-- Make a folder with all folders around it, unless it is there. -/
  | makeFolder (path : String) (next : Except FileProblem Unit → Interaction α)
  /-- Write a text into a file. -/
  | writeText (path text : String) (next : Except FileProblem Unit → Interaction α)
  /-- Write a picture of a drawing into a file. -/
  | writePicture (path drawing : String) (raster : Raster)
      (next : Except FileProblem Unit → Interaction α)
  /-- Request a visualization at an address and wait some seconds for it; there is no answer if the
      address cannot be reached. -/
  | fetch (address request : String) (seconds : Nat) (next : Option Json → Interaction α)

namespace Interaction

variable {α β : Type}

/-- Go on with the result. -/
def bind : Interaction α → (α → Interaction β) → Interaction β
  | .done a, f => f a
  | .print text next, f => .print text (next.bind f)
  | .tell text next, f => .tell text (next.bind f)
  | .readText path next, f => .readText path fun r => (next r).bind f
  | .makeFolder path next, f => .makeFolder path fun r => (next r).bind f
  | .writeText path text next, f => .writeText path text fun r => (next r).bind f
  | .writePicture path drawing raster next, f =>
    .writePicture path drawing raster fun r => (next r).bind f
  | .fetch address request seconds next, f =>
    .fetch address request seconds fun r => (next r).bind f

instance : Monad Interaction where
  pure := .done
  bind := .bind

end Interaction

end Storyboard.CommandLine
