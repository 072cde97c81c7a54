import Mathlib.Data.List.Basic
import Storyboard.Json.Basic

/-! # Canonical values

    Bringing a value into canonical form a second time changes nothing
    (`canonical_canonical`). Members that are in order already are entered one
    behind the other, so an object whose members are in order and canonical
    stays as it is (`canonicalMembers_of_sorted`). -/

namespace Storyboard

namespace Entries

variable {κ α : Type} [Ord κ] [Std.TransOrd κ]

/-- A key that is greater than all others goes to the end. -/
theorem insert_of_greater {k : κ} {v : α} {l : List (κ × α)}
    (h : ∀ e ∈ l, compare e.1 k = .lt) : insert k v l = l ++ [(k, v)] := by
  induction l with
  | nil => simp [insert]
  | cons e l ih =>
    obtain ⟨k', v'⟩ := e
    have hgt : compare k k' = .gt := Std.OrientedCmp.gt_of_lt (h (k', v') List.mem_cons_self)
    have hrest : insert k v l = l ++ [(k, v)] := by
      apply ih
      intro e he
      exact h e (List.mem_cons_of_mem _ he)
    simp [insert, hgt, hrest]

end Entries

namespace Json

/-- Whether a value is in canonical form. -/
def IsCanonical (v : Json) : Prop := v.canonical = v

variable (entered : List (String × Json)) {members : List (String × Json)}

theorem canonicalItems_eq_map (items : List Json) : canonicalItems items = items.map canonical := by
  induction items with
  | nil => simp [canonicalItems]
  | cons v rest ih => simp [canonicalItems, ih]

/-- Members that are in order are entered one behind the other. -/
theorem canonicalMembers_of_sorted (hsorted : Entries.Sorted (entered ++ members))
    (hvalues : ∀ e ∈ members, e.2.IsCanonical) :
    canonicalMembers entered members = entered ++ members := by
  -- What is there already grows from step to step, so this is for all of it.
  induction members generalizing entered with
  | nil => simp [canonicalMembers]
  | cons e rest ih =>
    obtain ⟨k, v⟩ := e
    have hv : v.canonical = v := hvalues (k, v) List.mem_cons_self
    have hlast : Entries.insert k v entered = entered ++ [(k, v)] := by
      apply Entries.insert_of_greater
      intro e he
      exact (List.pairwise_append.1 hsorted).2.2 e he (k, v) List.mem_cons_self
    have hbehind : entered ++ (k, v) :: rest = (entered ++ [(k, v)]) ++ rest := by simp
    rw [hbehind] at hsorted ⊢
    simp only [canonicalMembers, hv, hlast]
    apply ih (entered ++ [(k, v)]) hsorted
    intro e he
    exact hvalues e (List.mem_cons_of_mem _ he)

/-- Whatever is entered in canonical form is there in canonical form. -/
theorem isCanonical_of_mem (hentered : ∀ e ∈ entered, e.2.IsCanonical)
    (hvalues : ∀ e ∈ members, e.2.canonical.IsCanonical) :
    ∀ e ∈ canonicalMembers entered members, e.2.IsCanonical := by
  induction members generalizing entered with
  | nil => simpa [canonicalMembers] using hentered
  | cons e rest ih =>
    obtain ⟨k, v⟩ := e
    simp only [canonicalMembers]
    apply ih
    · intro e he
      rcases Entries.mem_insert he with hnew | hold
      · rw [hnew]
        exact hvalues (k, v) List.mem_cons_self
      · exact hentered e hold
    · intro e he
      exact hvalues e (List.mem_cons_of_mem _ he)

mutual

/-- The canonical form of a value is in canonical form. -/
theorem canonical_canonical (v : Json) : v.canonical.IsCanonical := by
  cases v with
  | arr items =>
    have hitems := canonical_of_mem_items items
    simp only [IsCanonical, canonical, canonicalItems_eq_map, List.map_map]
    congr 1
    apply List.map_congr_left
    exact hitems
  | obj members =>
    -- The members have come into their order, so they are entered a second time one by one.
    have hvalues := isCanonical_of_mem [] (by simp) (canonical_of_mem_members members)
    have hsorted := sorted_canonicalMembers [] members List.Pairwise.nil
    simp only [IsCanonical, canonical]
    rw [canonicalMembers_of_sorted [] hsorted hvalues, List.nil_append]
  | _ => simp [IsCanonical, canonical]

theorem canonical_of_mem_items (items : List Json) : ∀ v ∈ items, v.canonical.IsCanonical := by
  cases items with
  | nil => simp
  | cons v rest =>
    rw [List.forall_mem_cons]
    exact ⟨canonical_canonical v, canonical_of_mem_items rest⟩

theorem canonical_of_mem_members (members : List (String × Json)) :
    ∀ e ∈ members, e.2.canonical.IsCanonical := by
  cases members with
  | nil => simp
  | cons e rest =>
    obtain ⟨k, v⟩ := e
    rw [List.forall_mem_cons]
    exact ⟨canonical_canonical v, canonical_of_mem_members rest⟩

end

/-! ### Values in canonical form -/

@[simp] theorem isCanonical_null : IsCanonical .null := by simp [IsCanonical, canonical]

@[simp] theorem isCanonical_str (s : String) : (str s).IsCanonical := by
  simp [IsCanonical, canonical]

@[simp] theorem isCanonical_strs (texts : List String) : (arr (texts.map str)).IsCanonical := by
  simp [IsCanonical, canonical, canonicalItems_eq_map, Function.comp_def]

/-- An object whose keys increase and whose values are canonical is canonical. -/
theorem isCanonical_obj (keys : List String) (hkeys : members.map (·.1) = keys)
    (hordered : keys.Pairwise fun a b => compare a b = .lt)
    (hvalues : ∀ e ∈ members, e.2.IsCanonical) : (obj members).IsCanonical := by
  have hsorted : Entries.Sorted members := by
    rw [← hkeys, List.pairwise_map] at hordered
    exact hordered
  simp only [IsCanonical, canonical]
  rw [canonicalMembers_of_sorted [] hsorted hvalues, List.nil_append]

end Json

end Storyboard
