import Mathlib.Data.List.Perm.Basic
import Mathlib.Data.List.Nodup
import Storyboard.Proofs.Data.Result
import Storyboard.Session.Payload

/-! # Members in any order

    What is asked of the members of an object is asked of each of them alone,
    and that no field is given twice (`checkMembers_iff`). If no name belongs
    to two fields, the order of the members does not matter then
    (`ofMembers_perm`). In a payload this goes for the members of the initial
    state (`Payload.decoder_initialState_perm`). -/

namespace Storyboard.Decode

namespace Record

variable {α : Type} {slots : List Slot} {closed : Bool} {o : Origin} {seen : List String}
  {members others : List (String × Json)} {s : Slot} {key : String}

/-! ### What is asked of the members -/

/-- The field that a member under `key` is for. -/
def slotFor? (slots : List Slot) (key : String) : Option Slot := slots.find? (·.answersTo key)

/-- The names of the fields that members are for. -/
def namesOf (slots : List Slot) (members : List (String × Json)) : List String :=
  members.filterMap fun m => (slotFor? slots m.1).map (·.name)

/-- A member is for a field and decodes as such, or is passed over. -/
def Fits (slots : List Slot) (closed : Bool) (o : Origin) (m : String × Json) : Prop :=
  match slotFor? slots m.1 with
  | some s => s.check o m.2 = .ok ()
  | none => closed = false

/-- Every member fits, and no field is given twice. -/
theorem checkMembers_iff : checkMembers slots closed o seen members = .ok () ↔
    (∀ m ∈ members, Fits slots closed o m) ∧ (namesOf slots members).Nodup ∧
      ∀ name ∈ namesOf slots members, name ∉ seen := by
  induction members generalizing seen with
  | nil => simp [checkMembers, namesOf]
  | cons m rest ih =>
    obtain ⟨key, v⟩ := m
    unfold checkMembers
    rw [List.forall_mem_cons]
    cases hslot : slots.find? (·.answersTo key) with
    | none =>
      have hfits : Fits slots closed o (key, v) ↔ closed = false := by
        unfold Fits slotFor?
        rw [hslot]
      have hnames : namesOf slots ((key, v) :: rest) = namesOf slots rest := by
        unfold namesOf slotFor?
        rw [List.filterMap_cons_none (by rw [hslot]; rfl)]
      rw [hfits, hnames]
      cases closed with
      | true => exact ⟨nofun, fun h => nomatch h.1.1⟩
      | false =>
        rw [if_neg Bool.false_ne_true, ih]
        exact ⟨fun h => ⟨⟨rfl, h.1⟩, h.2⟩, fun h => ⟨h.1.2, h.2⟩⟩
    | some s =>
      have hfits : Fits slots closed o (key, v) ↔ s.check o v = .ok () := by
        unfold Fits slotFor?
        rw [hslot]
      have hnames : namesOf slots ((key, v) :: rest) = s.name :: namesOf slots rest := by
        unfold namesOf slotFor?
        rw [List.filterMap_cons_some (by rw [hslot]; rfl)]
      rw [hfits, hnames, List.nodup_cons, List.forall_mem_cons]
      dsimp only
      -- A second member for a field is refused, whatever it holds.
      by_cases hseen : s.name ∈ seen
      · rw [if_pos (List.contains_iff_mem.2 hseen)]
        exact ⟨nofun, fun h => absurd hseen h.2.2.1⟩
      · rw [if_neg (by rwa [List.contains_iff_mem])]
        cases hcheck : s.check o v with
        | error p => exact ⟨nofun, fun h => nomatch h.1.1⟩
        | ok u =>
          rw [ih]
          simp only [List.mem_cons, not_or, true_and]
          constructor
          · rintro ⟨hall, hnodup, hnew⟩
            exact ⟨hall, ⟨fun hmem => (hnew _ hmem).1 rfl, hnodup⟩, hseen,
              fun name hname => (hnew name hname).2⟩
          · rintro ⟨hall, ⟨hfresh, hnodup⟩, _, hnew⟩
            exact ⟨hall, hnodup, fun name hname =>
              ⟨fun h => hfresh (h ▸ hname), hnew name hname⟩⟩

theorem checkMembers_perm (hperm : members.Perm others) :
    checkMembers slots closed o [] members = .ok () ↔
      checkMembers slots closed o [] others = .ok () := by
  have hnames : (namesOf slots members).Perm (namesOf slots others) := hperm.filterMap _
  rw [checkMembers_iff, checkMembers_iff, hnames.nodup_iff]
  simp only [hperm.mem_iff, hnames.mem_iff]

/-! ### Fields that share no name -/

/-- Whatever answers to the name of this field is this field. -/
def Own (slots : List Slot) (s : Slot) : Prop :=
  ∀ key, s.answersTo key = true → slotFor? slots key = some s

/-- Fields under different names, each of them under one name only, share none. -/
theorem own_of_nodup (hplain : ∀ s ∈ slots, s.aliases = []) (hnodup : (slots.map (·.name)).Nodup) :
    ∀ s ∈ slots, Own slots s := by
  have hname : ∀ {s : Slot} {key : String}, s.aliases = [] →
      (s.answersTo key = true ↔ key = s.name) := by
    intro s key hs
    simp [Slot.answersTo, hs]
  induction slots with
  | nil => exact List.forall_mem_nil _
  | cons first rest ih =>
    rw [List.forall_mem_cons] at hplain ⊢
    obtain ⟨hfresh, hnodup⟩ := List.nodup_cons.1 hnodup
    refine ⟨fun key hkey => List.find?_cons_of_pos hkey, fun s hs key hkey => ?_⟩
    have hother : first.answersTo key = false := by
      rw [Bool.eq_false_iff, Ne, hname hplain.1, (hname (hplain.2 s hs)).1 hkey]
      exact fun h => hfresh (List.mem_map.2 ⟨s, hs, h⟩)
    exact (List.find?_cons_of_neg (by simp [hother])).trans (ih hplain.2 hnodup s hs key hkey)

/-- If no field is given twice, at most one member is for this one. -/
theorem length_filter_le_one (hown : Own slots s) (hnodup : (namesOf slots members).Nodup) :
    (members.filter fun m => s.answersTo m.1).length ≤ 1 := by
  have hcount : (namesOf slots members).count s.name ≤ 1 := List.nodup_iff_count_le_one.1 hnodup _
  -- Each such member puts the name of the field among the names, where it stands once at most.
  have hsub : ((members.filter fun m => s.answersTo m.1).map fun _ => s.name).Sublist
      (namesOf slots members) := by
    have hnames : namesOf slots (members.filter fun m => s.answersTo m.1) =
        (members.filter fun m => s.answersTo m.1).map fun _ => s.name := by
      rw [namesOf, ← List.filterMap_eq_map]
      refine List.filterMap_congr fun m hm => ?_
      rw [hown m.1 (List.mem_filter.1 hm).2]
      rfl
    exact hnames ▸ List.filter_sublist.filterMap _
  have hle := hsub.count_le s.name
  rw [List.map_const', List.count_replicate_self] at hle
  exact Nat.le_trans hle hcount

/-- Then the value of the field does not depend on the order of the members. -/
theorem memberFor?_perm (hown : Own slots s) (hnodup : (namesOf slots members).Nodup)
    (hperm : members.Perm others) : memberFor? members s = memberFor? others s := by
  have hfilter := hperm.filter fun m => s.answersTo m.1
  have hone := length_filter_le_one hown hnodup
  unfold memberFor?
  rw [← List.head?_filter, ← List.head?_filter]
  cases hleft : members.filter fun m => s.answersTo m.1 with
  | nil =>
    rw [hleft] at hfilter
    rw [List.nil_perm.1 hfilter]
  | cons m rest =>
    rw [hleft, List.length_cons] at hone
    obtain rfl : rest = [] := List.eq_nil_of_length_eq_zero (by omega)
    rw [hleft] at hfilter
    rw [List.singleton_perm.1 hfilter]

/-- The order of the members does not matter for what a record is put together to. -/
theorem ofMembers_perm (r : Record α) (hown : ∀ s ∈ r.slots, Own r.slots s)
    (hperm : members.Perm others) :
    (r.ofMembers closed o members).toOption = (r.ofMembers closed o others).toOption := by
  have hiff : checkMembers r.slots closed o [] members = .ok () ↔
      checkMembers r.slots closed o [] others = .ok () := checkMembers_perm hperm
  unfold ofMembers
  -- If the members pass, each field has the same value from both lists; if not, both fail.
  by_cases hchecked : checkMembers r.slots closed o [] members = .ok ()
  · rw [hchecked, hiff.1 hchecked]
    have hvalues : (fun i : Nat => r.slots[i]?.bind (memberFor? members)) =
        fun i : Nat => r.slots[i]?.bind (memberFor? others) := by
      funext i
      cases hslot : r.slots[i]? with
      | none => rfl
      | some s =>
        exact memberFor?_perm (hown s (List.mem_of_getElem? hslot))
          (checkMembers_iff.1 hchecked).2.1 hperm
    rw [hvalues]
  · have hother := mt hiff.2 hchecked
    cases hl : checkMembers r.slots closed o [] members with
    | ok u => exact absurd hl hchecked
    | error p =>
      cases hr : checkMembers r.slots closed o [] others with
      | ok u => exact absurd hr hother
      | error q => rfl

/-! ### A value for which another one is put -/

/-- Members in which some values stand for others that decode alike. -/
def Alike (slots : List Slot) (o : Origin) (m n : String × Json) : Prop :=
  m.1 = n.1 ∧ ∀ s, slotFor? slots m.1 = some s → (s.check o m.2 = .ok () ↔ s.check o n.2 = .ok ())

theorem Alike.refl (slots : List Slot) (o : Origin) (m : String × Json) : Alike slots o m m :=
  ⟨rfl, fun _ _ => Iff.rfl⟩

theorem Alike.fits {m n : String × Json} (h : Alike slots o m n) :
    Fits slots closed o m ↔ Fits slots closed o n := by
  unfold Fits
  rw [← h.1]
  cases hslot : slotFor? slots m.1 with
  | none => exact Iff.rfl
  | some s => exact h.2 s hslot

theorem namesOf_alike (h : List.Forall₂ (Alike slots o) members others) :
    namesOf slots members = namesOf slots others := by
  induction h with
  | nil => rfl
  | cons hhead _ ih =>
    unfold namesOf at ih ⊢
    rw [List.filterMap_cons, List.filterMap_cons, hhead.1, ih]

theorem checkMembers_alike (h : List.Forall₂ (Alike slots o) members others) :
    checkMembers slots closed o [] members = .ok () ↔
      checkMembers slots closed o [] others = .ok () := by
  have hfits : (∀ m ∈ members, Fits slots closed o m) ↔ ∀ m ∈ others, Fits slots closed o m := by
    induction h with
    | nil => exact Iff.rfl
    | cons hhead _ ih => rw [List.forall_mem_cons, List.forall_mem_cons, hhead.fits, ih]
  rw [checkMembers_iff, checkMembers_iff, hfits, namesOf_alike h]

theorem check_congr {β : Type} {x y : Except Problem β} (h : x.toOption = y.toOption) :
    (x.map fun _ => ()) = .ok () ↔ (y.map fun _ => ()) = .ok () := by
  cases x with
  | error p =>
    cases y with
    | error q => exact ⟨nofun, nofun⟩
    | ok b => cases h
  | ok a =>
    cases y with
    | error q => cases h
    | ok b => exact Iff.rfl

/-- Whoever is found among members is found alike, or is the one that another was put for. -/
theorem memberFor?_insert (before behind : List (String × Json)) (key : String) (v w : Json)
    (s : Slot) :
    memberFor? (before ++ (key, v) :: behind) s = memberFor? (before ++ (key, w) :: behind) s ∨
      s.answersTo key = true ∧ memberFor? (before ++ (key, v) :: behind) s = some v ∧
        memberFor? (before ++ (key, w) :: behind) s = some w := by
  unfold memberFor?
  simp only [List.find?_append, List.find?_cons]
  cases before.find? fun m => s.answersTo m.1 with
  | some m => exact .inl rfl
  | none =>
    cases hkey : s.answersTo key with
    | false => exact .inl rfl
    | true => exact .inr ⟨rfl, rfl, rfl⟩

/-! ### Records whose values decode alike -/

section
variable {β : Type} {value value' : Nat → Option Json} {absent : Nat → Problem}

theorem build_seq_congr {f : Record (α → β)} {x : Record α}
    (hf : (f.build o value absent).toOption = (f.build o value' absent).toOption)
    (hx : (x.build o (fun i => value (f.slots.length + i))
        fun i => absent (f.slots.length + i)).toOption =
      (x.build o (fun i => value' (f.slots.length + i))
        fun i => absent (f.slots.length + i)).toOption) :
    ((f <*> x).build o value absent).toOption = ((f <*> x).build o value' absent).toOption :=
  toOption_bind_congr hf fun _ => toOption_bind_congr hx fun _ => rfl

theorem build_field_congr {decoder : Decoder α} {name : String} {aliases : List String}
    {default : Option α}
    (h : value 0 = value' 0 ∨ ∃ v w, value 0 = some v ∧ value' 0 = some w ∧
      (decoder o v).toOption = (decoder o w).toOption) :
    ((field name aliases decoder default).build o value absent).toOption =
      ((field name aliases decoder default).build o value' absent).toOption := by
  unfold field
  rcases h with hsame | ⟨v, w, hv, hw, hdecodes⟩
  · dsimp only
    rw [hsame]
  · dsimp only
    rw [hv, hw]
    exact hdecodes

end

/-- Records from members that stand for each other. -/
theorem ofMembers_congr {r : Record α} (halike : List.Forall₂ (Alike r.slots o) members others)
    (hbuild : (r.build o (fun i => r.slots[i]?.bind (memberFor? members))
        fun i => .missingField (r.nameAt i)).toOption =
      (r.build o (fun i => r.slots[i]?.bind (memberFor? others))
        fun i => .missingField (r.nameAt i)).toOption) :
    (r.ofMembers closed o members).toOption = (r.ofMembers closed o others).toOption :=
  toOption_bind_congr (toOption_congr fun _ => checkMembers_alike halike) fun _ => hbuild

end Record

end Storyboard.Decode

namespace Storyboard

open Decode Decode.Record

variable {o : Origin} {members others : List (String × Json)}

/-! ### Payloads -/

theorem InitialState.decoder_perm (hperm : members.Perm others) :
    (InitialState.record.decoder "struct InitialState" o (.obj members)).toOption =
      (InitialState.record.decoder "struct InitialState" o (.obj others)).toOption := by
  have hown : ∀ s ∈ InitialState.record.slots, Own InitialState.record.slots s :=
    own_of_nodup (List.forall_mem_cons.2 ⟨rfl, List.forall_mem_cons.2 ⟨rfl, nofun⟩⟩) (by decide)
  exact ofMembers_perm _ hown hperm

namespace Payload

/-- The order of the members of the initial state does not matter for what a payload decodes to. -/
theorem decoder_initialState_perm (before behind : List (String × Json))
    (hperm : members.Perm others) :
    (decoder o (.obj (before ++ ("initialState", .obj members) :: behind))).toOption =
      (decoder o (.obj (before ++ ("initialState", .obj others) :: behind))).toOption := by
  have hdecodes : (optional (InitialState.record.decoder "struct InitialState") o
        (.obj members)).toOption =
      (optional (InitialState.record.decoder "struct InitialState") o (.obj others)).toOption := by
    have h := InitialState.decoder_perm (o := o) hperm
    exact (toOption_map _ _).trans ((congrArg _ h).trans (toOption_map _ _).symm)
  have halike : List.Forall₂ (Alike record.slots o)
      (before ++ ("initialState", .obj members) :: behind)
      (before ++ ("initialState", .obj others) :: behind) := by
    refine List.rel_append (List.forall₂_same.2 fun m _ => Alike.refl _ _ m)
      (.cons ⟨rfl, ?_⟩ (List.forall₂_same.2 fun m _ => Alike.refl _ _ m))
    intro s hs
    obtain rfl := Option.some.inj hs
    exact check_congr hdecodes
  have hfourth : ∀ i < 5, record.slots[i]?.any (·.answersTo "initialState") = true → i = 3 := by
    decide
  -- Only the value of the fourth field is another one, and it decodes alike.
  have hvalue : ∀ i, i ≠ 3 →
      record.slots[i]?.bind (memberFor? (before ++ ("initialState", .obj members) :: behind)) =
        record.slots[i]?.bind
          (memberFor? (before ++ ("initialState", .obj others) :: behind)) := by
    intro i hi
    cases hslot : record.slots[i]? with
    | none => rfl
    | some s =>
      refine (memberFor?_insert before behind _ _ _ s).resolve_right fun h => hi ?_
      exact hfourth i (List.getElem?_eq_some_iff.1 hslot).1 (by rw [hslot]; exact h.1)
  show (record.ofMembers false o _).toOption = (record.ofMembers false o _).toOption
  refine ofMembers_congr halike ?_
  refine build_seq_congr (build_seq_congr (build_seq_congr (build_seq_congr (build_seq_congr rfl
    ?_) ?_) ?_) ?_) ?_
  · exact build_field_congr (.inl (hvalue 0 (by decide)))
  · exact build_field_congr (.inl (hvalue 1 (by decide)))
  · exact build_field_congr (.inl (hvalue 2 (by decide)))
  · refine build_field_congr ((memberFor?_insert before behind _ _ _ _).imp_right fun h =>
      ⟨_, _, h.2.1, h.2.2, hdecodes⟩)
  · exact build_field_congr (.inl (hvalue 4 (by decide)))

end Payload

end Storyboard
