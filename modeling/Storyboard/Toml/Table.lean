import Storyboard.Json.Basic

/-! # Tables of a TOML document

    A document fills a tree of tables line by line. Nothing may be given
    twice, and how a table came to be decides what may still be added to it:
    a table under a header of its own is complete with the lines below that
    header, one that only stands between others may still get its header, and
    one made by a dotted key may get further dotted keys. -/

namespace Storyboard.Toml

/-- How a table came to be. -/
inductive Origin where
  /-- It has a header of its own. -/
  | header
  /-- It stands in the header of another table. -/
  | implied
  /-- It stands in a dotted key. -/
  | dotted
  deriving DecidableEq, Repr, Inhabited

/-- What stands under a key. -/
inductive Node where
  /-- A value, to which nothing can be added. -/
  | value (v : Json)
  | table (origin : Origin) (entries : List (String × Node))
  /-- An array of tables, of which the last one is open. -/
  | tables (before : List (List (String × Node))) (last : List (String × Node))
  deriving Inhabited

/-- The entries of a table in the order in which they were given. -/
abbrev Entries := List (String × Node)

namespace Entries

/-- Change what stands under a key, or put something there, if `f` allows it. -/
def alter (key : String) (f : Option Node → Option Node) : Entries → Option Entries
  | [] => (f none).map fun n => [(key, n)]
  | (k, n) :: rest =>
    if k = key then (f (some n)).map fun n => (k, n) :: rest
    else (alter key f rest).map fun rest => (k, n) :: rest

/-- Give a value to a dotted key. -/
def assign (v : Json) : List String → Entries → Option Entries
  | [], _ => none
  | [key], es => alter key (fun
    | none => some (.value v)
    | some _ => none) es
  | key :: path, es => alter key (fun
    | none => (assign v path []).map (.table .dotted)
    | some (.table .header _) => none
    | some (.table o inner) => (assign v path inner).map (.table o)
    | some _ => none) es

/-- Change the table under a header. -/
def within (f : Entries → Option Entries) : List String → Entries → Option Entries
  | [], es => f es
  | key :: path, es => alter key (fun
    | some (.table o inner) => (within f path inner).map (.table o)
    | some (.tables before last) => (within f path last).map (.tables before)
    | _ => none) es

/-- Go down to where a header ends and change what stands under its last key. -/
def descend (f : Option Node → Option Node) : List String → Entries → Option Entries
  | [], _ => none
  | [key], es => alter key f es
  | key :: path, es => alter key (fun
    | none => (descend f path []).map (.table .implied)
    | some (.table o inner) => (descend f path inner).map (.table o)
    | some (.tables before last) => (descend f path last).map (.tables before)
    | some (.value _) => none) es

/-- Open the table of a header. -/
def openTable : List String → Entries → Option Entries := descend fun
  | none => some (.table .header [])
  | some (.table .implied inner) => some (.table .header inner)
  | some _ => none

/-- Add a table to the array of a header. -/
def addTable : List String → Entries → Option Entries := descend fun
  | none => some (.tables [] [])
  | some (.tables before last) => some (.tables (before ++ [last]) [])
  | some _ => none

end Entries

mutual

/-- What stands under a key as a value. -/
def Node.toJson : Node → Json
  | .value v => v
  | .table _ entries => .obj (membersOf entries)
  | .tables before last => .arr (objectsOf before ++ [.obj (membersOf last)])

/-- Entries as members of an object. -/
def membersOf : List (String × Node) → List (String × Json)
  | [] => []
  | (k, n) :: rest => (k, n.toJson) :: membersOf rest

/-- Tables as objects. -/
def objectsOf : List (List (String × Node)) → List Json
  | [] => []
  | es :: rest => .obj (membersOf es) :: objectsOf rest

end

end Storyboard.Toml
