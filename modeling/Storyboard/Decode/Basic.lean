import Storyboard.Decode.Problem
import Storyboard.EntityId
import Storyboard.Geometry

/-! # Decoders

    A decoder turns a JSON value into a value of a type of the library, or
    says why it cannot. Decoders of lists, pairs and optional values are built
    from those of their parts; the rest of this module holds the decoders of
    scalars. -/

namespace Storyboard

namespace Decode

/-- Where a value comes from. It matters only for what is said about an array with more items than
    were asked for. -/
inductive Origin where
  /-- A value held as such. -/
  | value
  /-- A text that is read while it is decoded. -/
  | text
  /-- A part of a value that was set aside until its tag was known. -/
  | buffered
  /-- A file of settings. -/
  | settings
  deriving DecidableEq, Repr

/-- `n` things of a kind, in words. -/
def counted (n : Nat) (thing : String) : String :=
  Number.natText n ++ " " ++ thing ++ (if n = 1 then "" else "s")

/-- What is said about an array of `length` items of which only `wanted` were asked for: nothing if
    there are no more than that, and nothing about settings. -/
def Origin.surplus (o : Origin) (wanted length : Nat) : Except Problem Unit :=
  if length ≤ wanted then .ok ()
  else
    match o with
    | .value => .error (.wrongLength length "fewer elements in array")
    | .text => .error .trailing
    | .buffered => .error (.wrongLength length (counted wanted "element" ++ " in sequence"))
    | .settings => .ok ()

end Decode

/-- How a value of type `α` is read from JSON. -/
abbrev Decoder (α : Type) := Decode.Origin → Json → Except Decode.Problem α

namespace Decode

variable {α : Type}

/-- Refuse a value of the wrong kind. -/
def refuse (v : Json) (expected : String) : Except Problem α :=
  .error (.wrongType (.ofJson v) expected)

/-! ### Plain values -/

/-- Any value, as it is. -/
def any : Decoder Json := fun _ v => .ok v.canonical

/-- A string. -/
def text : Decoder String
  | _, .str s => .ok s
  | _, v => refuse v "a string"

/-- A truth value. -/
def flag : Decoder Bool
  | _, .bool b => .ok b
  | _, v => refuse v "a boolean"

/-- Any number. -/
def number : Decoder Float
  | _, .int i => .ok (Number.ofInt i)
  | _, .float x => .ok x
  | _, v => refuse v "f64"

/-- A whole number from zero to `most`; `kind` is its name in messages. -/
def natural (most : Nat) (kind : String) : Decoder Nat
  | _, .int i =>
    if 0 ≤ i ∧ i ≤ most then .ok i.toNat else .error (.wrongValue (.int i) kind)
  | _, v => refuse v kind

/-- A place in a list. -/
def index : Decoder Nat := natural (Nat.pow 2 64 - 1) "usize"

/-- A count of 32 bits. -/
def count : Decoder Nat := natural (Nat.pow 2 32 - 1) "u32"

/-- A count of 64 bits. -/
def longCount : Decoder Nat := natural (Nat.pow 2 64 - 1) "u64"

/-! ### Combinations -/

/-- A value without holes. -/
def whole (decoder : Decoder α) : Decoder α := fun o v =>
  if v.isWhole then decoder o v else .error .hole

/-- Items that all decode alike. -/
def list (item : Decoder α) : Decoder (List α)
  | o, .arr items => items.mapM (item o)
  | _, v => refuse v "a sequence"

/-- Two items that decode alike. -/
def pair (item : Decoder α) : Decoder (α × α)
  | o, .arr items =>
    match items with
    | [] => .error (.wrongLength 0 "a tuple of size 2")
    | [a] => do
      let _ ← item o a
      .error (.wrongLength 1 "a tuple of size 2")
    | a :: b :: rest => do
      let a ← item o a
      let b ← item o b
      o.surplus 2 (rest.length + 2)
      .ok (a, b)
  | _, v => refuse v "a tuple of size 2"

/-- Null, or a value. -/
def optional (item : Decoder α) : Decoder (Option α)
  | _, .null => .ok none
  | o, v => (item o v).map some

/-! ### Values of the library -/

/-- An identifier: a string, or a number in its written form. -/
def id : Decoder EntityId
  | _, .str s => .ok ⟨s⟩
  | _, .int i => .ok ⟨(Json.int i).compact⟩
  | _, .float x => .ok ⟨(Json.float x).compact⟩
  | _, v => .error (.id v)

/-- Milliseconds as a number: not negative, rounded, and held within 64 bits. -/
def millis (x : Float) : Except Problem Span :=
  if x.isFinite && !(x < 0.0) then .ok (.ofMillis (Number.roundToRange (Nat.pow 2 64 - 1) x))
  else .error (.durationRange x)

/-- A duration in milliseconds: a number, or a string that reads as one. -/
def span : Decoder Span
  | _, .int i => if 0 ≤ i then .ok (.ofMillis i.toNat) else millis (Number.ofInt i)
  | _, .float x => millis x
  | _, .str s =>
    match Number.float? (Text.trim s) with
    | some x => millis x
    | none => .error (.durationText s)
  | _, v => .error (.durationKind v)

/-- A text to show: any value, in its shown form. -/
def shown : Decoder String := fun _ v => .ok v.displayText

/-- A color. -/
def color : Decoder Color := fun o v => do
  match Color.read (← text o v) with
  | .ok c => .ok c
  | .error p => .error (.color p)

/-- A speed. -/
def speed : Decoder Speed := fun o v => do
  match Speed.ofFactor (← number o v) with
  | .ok s => .ok s
  | .error p => .error (.speed p)

end Decode

end Storyboard
