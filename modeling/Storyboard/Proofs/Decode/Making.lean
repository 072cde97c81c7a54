import Storyboard.Decode.Record
import Storyboard.Proofs.Data.Result

/-! # What records make

    A record is put together from its fields. `Record.Makes` says that
    whatever it is put together to has some property: it follows from what
    the fields decode to, one by one, and holds of whatever the record
    decodes to, from an object or from an array. -/

namespace Storyboard.Decode.Record

variable {α β : Type} {P : β → Prop} {Q : α → Prop}

/-- Whatever a record is put together to has some property. -/
def Makes (r : Record β) (P : β → Prop) : Prop :=
  ∀ o value absent b, r.build o value absent = .ok b → P b

/-! ### Fields -/

/-- What a field makes is what its decoder makes, or its default. -/
theorem Makes.field {name : String} {aliases : List String} {decoder : Decoder α}
    {default : Option α} (hdecoder : ∀ o v a, decoder o v = .ok a → Q a)
    (hdefault : ∀ a, default = some a → Q a) :
    (Record.field name aliases decoder default).Makes Q := by
  intro o value absent a h
  simp only [Record.field] at h
  split at h
  · exact hdecoder _ _ _ h
  · rw [← Except.ok.inj h]
    exact hdefault _ rfl
  · cases h

/-- A field that only matters for the whole if it has some property. -/
theorem Makes.apply {f : Record (α → β)} {x : Record α} (hf : f.Makes fun g => ∀ a, Q a → P (g a))
    (hx : x.Makes Q) : (f <*> x).Makes P := by
  intro o value absent b h
  obtain ⟨g, hg, hrest⟩ := exists_ok_of_bind h
  obtain ⟨a, ha, hlast⟩ := exists_ok_of_bind hrest
  rw [← Except.ok.inj hlast]
  exact hf _ _ _ g hg a (hx _ _ _ a ha)

/-- The first field of a record. -/
theorem Makes.first {f : α → β} {x : Record α} (hf : ∀ a, Q a → P (f a)) (hx : x.Makes Q) :
    (f <$> x).Makes P := by
  refine Makes.apply (f := const f) ?_ hx
  intro o value absent g hg
  rw [← Except.ok.inj hg]
  exact hf

/-- A field that does not matter. -/
theorem Makes.seq {f : Record (α → β)} {x : Record α} (h : f.Makes fun g => ∀ a, P (g a)) :
    (f <*> x).Makes P :=
  Makes.apply (Q := fun _ => True) (fun o value absent g hg a _ => h o value absent g hg a)
    fun _ _ _ _ _ => trivial

theorem Makes.map {f : α → β} {x : Record α} (h : ∀ a, P (f a)) : (f <$> x).Makes P :=
  Makes.first (Q := fun _ => True) (fun a _ => h a) fun _ _ _ _ _ => trivial

/-! ### Decoders -/

variable {r : Record β} {what : String} {o : Origin} {v : Json} {b : β}

theorem Makes.ofMembers {closed : Bool} {members : List (String × Json)} (h : r.Makes P)
    (hb : r.ofMembers closed o members = .ok b) : P b := by
  obtain ⟨_, _, hbuild⟩ := exists_ok_of_bind hb
  exact h _ _ _ b hbuild

theorem Makes.ofItems {items : List Json} (h : r.Makes P) (hb : r.ofItems what o items = .ok b) :
    P b := by
  obtain ⟨a, hbuild, hrest⟩ := exists_ok_of_bind hb
  obtain ⟨_, _, hlast⟩ := exists_ok_of_bind hrest
  exact Except.ok.inj hlast ▸ h _ _ _ a hbuild

theorem Makes.decoder (h : r.Makes P) (hb : r.decoder what o v = .ok b) : P b := by
  cases v with
  | obj members => exact h.ofMembers hb
  | arr items => exact h.ofItems hb
  | _ => cases hb

theorem Makes.closedDecoder (h : r.Makes P) (hb : r.closedDecoder what o v = .ok b) : P b := by
  cases v with
  | obj members => exact h.ofMembers hb
  | arr items => exact h.ofItems hb
  | _ => cases hb

end Storyboard.Decode.Record
