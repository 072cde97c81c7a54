import Storyboard.Data.Table

/-! # JSON values

    A JSON value keeps integers apart from other numbers, and the members of
    an object in the order they were given, repeats included. `canonical`
    gives the form in which an object is a map: one member per key, the last
    one given, in the order of the keys. -/

namespace Storyboard

/-- A JSON value. -/
inductive Json where
  | null
  | bool (b : Bool)
  /-- A number written without point and exponent that fits 64 bits, signed or not. -/
  | int (i : Int)
  /-- Any other number. -/
  | float (x : Float)
  | str (s : String)
  | arr (items : List Json)
  | obj (members : List (String × Json))
  deriving Inhabited

namespace Json

mutual

/-- The value with every object, at any depth, in the order of its keys and without repeats: of
    several members with one key the last counts. -/
def canonical : Json → Json
  | .arr items => .arr (canonicalItems items)
  | .obj members => .obj (canonicalMembers [] members)
  | v => v

/-- `canonical` on every item. -/
def canonicalItems : List Json → List Json
  | [] => []
  | v :: rest => v.canonical :: canonicalItems rest

/-- Enter the members one after another into `entered`, which is in order. -/
def canonicalMembers (entered : List (String × Json)) : List (String × Json) → List (String × Json)
  | [] => entered
  | (k, v) :: rest => canonicalMembers (Entries.insert k v.canonical entered) rest

end

/-- The number that is greater than every other. -/
def infinity : Float := 1.0 / 0.0

/-- What stands for a part of a text that has no value. -/
def hole : Json := .float infinity

mutual

/-- Whether a value has no holes: all its numbers are finite. -/
def isWhole : Json → Bool
  | .float x => x.isFinite
  | .arr items => areWhole items
  | .obj members => haveWhole members
  | _ => true

/-- Whether no item has holes. -/
def areWhole : List Json → Bool
  | [] => true
  | v :: rest => v.isWhole && areWhole rest

/-- Whether no member has holes. -/
def haveWhole : List (String × Json) → Bool
  | [] => true
  | (_, v) :: rest => v.isWhole && haveWhole rest

end

/-- The member of an object under `key`. -/
def member? (key : String) : Json → Option Json
  | .obj members => Entries.find? key members
  | _ => none

/-- Entering members into an ordered list leaves it ordered. -/
theorem sorted_canonicalMembers (entered members : List (String × Json))
    (h : Entries.Sorted entered) : Entries.Sorted (canonicalMembers entered members) := by
  induction members generalizing entered with
  | nil => simpa [canonicalMembers] using h
  | cons e rest ih =>
    obtain ⟨k, v⟩ := e
    simpa [canonicalMembers] using ih _ (Entries.sorted_insert k v.canonical h)

end Json

end Storyboard
