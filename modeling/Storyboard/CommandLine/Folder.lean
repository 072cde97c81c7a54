import Storyboard.CommandLine.Interaction

/-! # A folder in memory

    Interactions answered by a folder that is held in memory: files and
    folders by their places, with nothing around it and nobody to be reached.
    A place is the list of names that lead to it. -/

namespace Storyboard.CommandLine

/-- What is in a place. -/
inductive Entry where
  | folder
  | text (s : String)
  /-- A picture of a drawing. -/
  | picture (drawing : String) (raster : Raster)
  deriving DecidableEq, Repr

/-- Places and what is in them. The place without names is the folder itself. -/
structure Folder where
  entries : List (List String × Entry)
  deriving DecidableEq, Repr

namespace Folder

/-- A folder without anything in it. -/
def empty : Folder := ⟨[]⟩

/-- What is in a place. -/
def entry? (f : Folder) (place : List String) : Option Entry :=
  if place.isEmpty then some .folder
  else (f.entries.find? fun e => e.1 == place).map (·.2)

/-- Put something in a place. -/
def put (f : Folder) (place : List String) (e : Entry) : Folder :=
  ⟨(place, e) :: f.entries.filter fun e => e.1 != place⟩

/-- The names in a path; it has none if it leads out of the folder. -/
def names? (path : String) : Option (List String) :=
  if path.isEmpty || path.startsWith "/" then none else some (path.splitOn "/")

/-- The place that a name in a path leads to. -/
def step (place : List String) (name : String) : List String :=
  if name = "" ∨ name = "." then place
  else if name = ".." then place.dropLast
  else place ++ [name]

/-- The place that names lead to, through folders. -/
def walk (f : Folder) (place : List String) : List String → Except FileProblem (List String)
  | [] => .ok place
  | name :: rest =>
    match f.entry? place with
    | none => .error .missing
    | some .folder => walk f (step place name) rest
    | some _ => .error .notFolder

/-- The place that a path leads to. -/
def place (f : Folder) (path : String) : Except FileProblem (List String) :=
  match names? path with
  | none => .error .missing
  | some names => f.walk [] names

/-- The text of a file. -/
def read (f : Folder) (path : String) : Except FileProblem String := do
  match f.entry? (← f.place path) with
  | none => throw .missing
  | some .folder => throw .folder
  | some (.text s) => return s
  | some (.picture ..) => throw (.other "stream did not contain valid UTF-8")

/-- Put something other than a folder where a path leads. -/
def write (f : Folder) (path : String) (e : Entry) : Except FileProblem Folder := do
  let place ← f.place path
  if path.endsWith "/" || f.entry? place = some .folder then throw .folder
  return f.put place e

/-- Make every folder on the way. -/
def makeAll (f : Folder) (place : List String) : List String → Except FileProblem Folder
  | [] => .ok f
  | name :: rest =>
    let place := step place name
    match f.entry? place with
    | none => makeAll (f.put place .folder) place rest
    | some .folder => makeAll f place rest
    | some _ => .error (if rest.isEmpty then .taken else .notFolder)

/-- Make a folder with all folders around it. -/
def make (f : Folder) (path : String) : Except FileProblem Folder :=
  match names? path with
  | none => .error .missing
  | some names => f.makeAll [] names

/-- A folder with some texts in it. -/
def ofTexts (texts : List (String × String)) : Folder :=
  texts.foldl (fun f t =>
    let around := ((names? t.1).getD []).dropLast
    let f := (f.makeAll [] around).toOption.getD f
    (f.write t.1 (.text t.2)).toOption.getD f) empty

end Folder

/-- What an interaction leaves behind. -/
structure Aftermath (α : Type) where
  result : α
  /-- What was written to the output. -/
  output : String
  /-- What was written to where problems and progress go. -/
  told   : String
  folder : Folder

/-- A change of the folder, and whether it could be made. -/
def Folder.attempt (f : Folder) : Except FileProblem Folder → Folder × Except FileProblem Unit
  | .ok f => (f, .ok ())
  | .error p => (f, .error p)

/-- Answer an interaction by a folder in memory. -/
def Interaction.within {α : Type} (f : Folder) : Interaction α → Aftermath α
  | .done a => ⟨a, "", "", f⟩
  | .print text next =>
    let r := next.within f
    { r with output := text ++ r.output }
  | .tell text next =>
    let r := next.within f
    { r with told := text ++ r.told }
  | .readText path next => (next (f.read path)).within f
  | .makeFolder path next =>
    let (f, r) := f.attempt (f.make path)
    (next r).within f
  | .writeText path text next =>
    let (f, r) := f.attempt (f.write path (.text text))
    (next r).within f
  | .writePicture path drawing raster next =>
    let (f, r) := f.attempt (f.write path (.picture drawing raster))
    (next r).within f
  | .fetch _ _ _ next => (next none).within f

end Storyboard.CommandLine
