import Storyboard.Decode.Basic

/-! # Decoding records

    A record decodes from an object or from an array of its fields in the
    order of their declaration. `Record` holds the fields together with how
    the record is put together from them; records are built with `<$>` and
    `<*>` from single fields.

    In an object the members are looked at in their order: a field given
    twice or a value that does not decode is refused where it stands, members
    that are no field are passed over. Only then are absent fields looked for,
    in the order of their declaration. -/

namespace Storyboard.Decode

/-- One field of a record, without its type. -/
structure Slot where
  /-- The name that messages use. -/
  name    : String
  /-- Other names under which the field may be given. -/
  aliases : List String
  /-- Whether a value is fit for the field. -/
  check   : Origin → Json → Except Problem Unit

/-- Whether a member under `key` is this field. -/
def Slot.answersTo (s : Slot) (key : String) : Bool := key == s.name || s.aliases.contains key

/-- The fields of a record, and how their values make up one. -/
structure Record (α : Type) where
  /-- The fields, in the order of their declaration. -/
  slots : List Slot
  /-- Put the record together. The first function gives the value for the field at a place, the
      second the problem to report if there is none and the field has no default. -/
  build : Origin → (Nat → Option Json) → (Nat → Problem) → Except Problem α

namespace Record

variable {α β : Type}

/-! ### Building records -/

/-- A field with its aliases and its default, if it has one. -/
def field (name : String) (aliases : List String) (decoder : Decoder α) (default : Option α) :
    Record α where
  slots := [⟨name, aliases, fun o v => (decoder o v).map fun _ => ()⟩]
  build o value absent :=
    match value 0, default with
    | some v, _ => decoder o v
    | none, some a => .ok a
    | none, none => .error (absent 0)

/-- A field that has to be given. -/
def required (name : String) (decoder : Decoder α) : Record α := field name [] decoder none

/-- A field that has a default. -/
def withDefault (name : String) (decoder : Decoder α) (default : α) : Record α :=
  field name [] decoder (some default)

/-- A field that may be absent or null. -/
def maybe (name : String) (decoder : Decoder α) : Record (Option α) :=
  withDefault name (optional decoder) none

/-- The record without fields. -/
def const (a : α) : Record α where
  slots := []
  build _ _ _ := .ok a

/-- Apply what one record makes to what another makes; the fields of the first come first. -/
def apply (f : Record (α → β)) (x : Record α) : Record β where
  slots := f.slots ++ x.slots
  build o value absent := do
    let g ← f.build o value absent
    let a ← x.build o (fun i => value (f.slots.length + i)) (fun i => absent (f.slots.length + i))
    .ok (g a)

instance : Applicative Record where
  pure := const
  seq f x := apply f (x ())

/-! ### Decoding -/

/-- The name of the field at a place. -/
def nameAt (r : Record α) (i : Nat) : String := (r.slots[i]?.map (·.name)).getD ""

/-- Look at the members of an object one after another. `seen` are the fields met so far; `closed`
    tells that members which are no field are refused. -/
def checkMembers (slots : List Slot) (closed : Bool) (o : Origin) (seen : List String) :
    List (String × Json) → Except Problem Unit
  | [] => .ok ()
  | (key, v) :: rest =>
    match slots.find? (·.answersTo key) with
    | none =>
      if closed then .error (.unknownField key) else checkMembers slots closed o seen rest
    | some s =>
      -- A field that comes again is refused before its value is looked at.
      if seen.contains s.name then .error (.duplicateField s.name)
      else
        match s.check o v with
        | .error p => .error p
        | .ok () => checkMembers slots closed o (s.name :: seen) rest

/-- The value that an object has for a field. -/
def memberFor? (members : List (String × Json)) (s : Slot) : Option Json :=
  (members.find? fun m => s.answersTo m.1).map (·.2)

/-- The record from the members of an object. -/
def ofMembers (r : Record α) (closed : Bool) (o : Origin) (members : List (String × Json)) :
    Except Problem α := do
  checkMembers r.slots closed o [] members
  r.build o (fun i => r.slots[i]?.bind (memberFor? members)) (fun i => .missingField (r.nameAt i))

/-- The record from an array of its fields. `what` names the record in messages. -/
def ofItems (r : Record α) (what : String) (o : Origin) (items : List Json) :
    Except Problem α := do
  let n := r.slots.length
  let a ← r.build o (fun i => items[i]?)
    (fun i => .wrongLength i (what ++ " with " ++ counted n "element"))
  o.surplus n items.length
  .ok a

/-- The decoder of a record called `what`. -/
def decoder (r : Record α) (what : String) : Decoder α
  | o, .obj members => r.ofMembers false o members
  | o, .arr items => r.ofItems what o items
  | _, v => refuse v what

/-- The decoder of a record called `what` that takes no members but its fields. -/
def closedDecoder (r : Record α) (what : String) : Decoder α
  | o, .obj members => r.ofMembers true o members
  | o, .arr items => r.ofItems what o items
  | _, v => refuse v what

end Record

/-- A position: an object with `x` and `y`, or an array of the two. -/
def position : Decoder Point :=
  Record.decoder (Point.mk <$> .required "x" number <*> .required "y" number) "struct Position"

/-- Decode a value that is held as such: its objects are maps. -/
def ofValue {α : Type} (d : Decoder α) (v : Json) : Except Problem α := d .value v.canonical

/-- Decode a value that was read from a text: its objects are as they were written. -/
def ofText {α : Type} (d : Decoder α) (v : Json) : Except Problem α := d .text v

end Storyboard.Decode
