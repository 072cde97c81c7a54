import Storyboard.Decode.Record

/-! # Tagged unions

    A value of a tagged union is an object whose member `type` names one of
    several variants; the other members are the fields of that variant. An
    array with the tag before the fields will do as well.

    The tag may stand anywhere among the members. It is decoded where it
    stands, the fields only after all members were seen.

    A union may also have its tag and its fields apart, under one member each
    (`Variant.ofApart`). -/

namespace Storyboard.Decode

/-- One of the variants of a tagged union. -/
structure Variant (α : Type) where
  /-- The word that names it. -/
  tag    : String
  /-- What it is called in messages. -/
  what   : String
  /-- Its fields. -/
  record : Record α

namespace Variant

variable {α : Type}

/-- The name of the member with the tag. -/
def tagKey : String := "type"

/-- The variant that a tag names. -/
def ofTag (variants : List (Variant α)) : Json → Except Problem (Variant α)
  | .str s =>
    match variants.find? (·.tag == s) with
    | some v => .ok v
    | none => .error (.unknownVariant s (variants.map (·.tag)))
  | v => refuse v "variant identifier"

/-- Find the tag among members, where `found` is what was met so far, and set the others apart. -/
def split (variants : List (Variant α)) (found : Option (Variant α)) :
    List (String × Json) → Except Problem (Variant α × List (String × Json))
  | [] =>
    match found with
    | some v => .ok (v, [])
    | none => .error (.missingField tagKey)
  | (key, v) :: rest =>
    if key = tagKey then
      match found with
      | some _ => .error (.duplicateField tagKey)
      | none => do split variants (some (← ofTag variants v)) rest
    else do
      let (variant, others) ← split variants found rest
      .ok (variant, (key, v) :: others)

/-- The decoder of a tagged union called `what`. -/
def decoder (what : String) (variants : List (Variant α)) : Decoder α
  | _, .obj members => do
    let (variant, others) ← split variants none members
    variant.record.ofMembers false .buffered others
  | _, .arr [] => .error (.missingField tagKey)
  | _, .arr (tag :: items) => do
    let variant ← ofTag variants tag
    variant.record.ofItems variant.what .buffered items
  | _, v => refuse v ("internally tagged enum " ++ what)

/-! ### Tag and fields apart -/

/-- The word for a variant that has this name: in capitals, with underscores between the words. -/
def capitals (name : String) : String :=
  match name.toList with
  | [] => ""
  | c :: cs =>
    String.ofList (c.toUpper :: cs.flatMap fun d => if d.isUpper then ['_', d] else [d.toUpper])

/-- The member of an object under a key. -/
def memberOf (members : List (String × Json)) (key : String) : Except Problem Json :=
  match Entries.find? key members with
  | some v => .ok v
  | none => .error (.missingField key)

/-- A value of a union from an object with its tag under one key and its fields under another. The
    tag is looked at first. -/
def ofApart (tagKey fieldsKey : String) (variants : List (Variant α)) (o : Origin)
    (members : List (String × Json)) : Except Problem α := do
  let variant ← ofTag variants (← memberOf members tagKey)
  variant.record.decoder variant.what o (← memberOf members fieldsKey)

end Variant

end Storyboard.Decode
