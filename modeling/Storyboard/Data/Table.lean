/-! # Ordered tables

    A table maps keys to values and keeps its entries in strictly increasing
    order of the keys, so two tables with the same entries are the same table
    and a walk over a table meets the keys in order. The order is part of the
    type.

    `Entries` holds the operations on plain association lists; `Table` wraps
    them with the invariant. -/

namespace Storyboard

/-! ### Association lists -/

namespace Entries

variable {κ α : Type} [Ord κ]

/-- Put `v` under `k`, replacing what is there, before the first greater key. -/
def insert (k : κ) (v : α) : List (κ × α) → List (κ × α)
  | [] => [(k, v)]
  | (k', v') :: rest =>
    match compare k k' with
    | .lt => (k, v) :: (k', v') :: rest
    | .eq => (k, v) :: rest
    | .gt => (k', v') :: insert k v rest

/-- Drop every entry under `k`. -/
def erase (k : κ) (l : List (κ × α)) : List (κ × α) :=
  l.filter fun e => compare k e.1 != .eq

/-- The value of the first entry under `k`. -/
def find? (k : κ) : List (κ × α) → Option α
  | [] => none
  | (k', v) :: rest => if compare k k' == .eq then some v else find? k rest

/-- Apply `f` to the value under `k`. -/
def modify (k : κ) (f : α → α) (l : List (κ × α)) : List (κ × α) :=
  l.map fun e => if compare k e.1 == .eq then (e.1, f e.2) else e

/-- Keys increase strictly from left to right. -/
def Sorted (l : List (κ × α)) : Prop :=
  l.Pairwise fun a b => compare a.1 b.1 = .lt

theorem mem_insert {k : κ} {v : α} {l : List (κ × α)} {e : κ × α} (h : e ∈ insert k v l) :
    e = (k, v) ∨ e ∈ l := by
  induction l with
  | nil => simpa [insert] using h
  | cons x xs ih =>
    obtain ⟨k', v'⟩ := x
    unfold insert at h
    split at h
    · simpa using h
    · rcases List.mem_cons.1 h with h | h
      · exact .inl h
      · exact .inr (List.mem_cons_of_mem _ h)
    · rcases List.mem_cons.1 h with h | h
      · exact .inr (h ▸ List.mem_cons_self)
      · rcases ih h with h | h
        · exact .inl h
        · exact .inr (List.mem_cons_of_mem _ h)

theorem sorted_insert [Std.TransOrd κ] [Std.LawfulEqOrd κ] (k : κ) (v : α)
    {l : List (κ × α)} (h : Sorted l) : Sorted (insert k v l) := by
  induction l with
  | nil => simp [insert, Sorted]
  | cons x xs ih =>
    obtain ⟨k', v'⟩ := x
    have hx := List.pairwise_cons.1 h
    unfold insert
    split
    · rename_i hlt
      refine List.pairwise_cons.2 ⟨fun e he => ?_, h⟩
      rcases List.mem_cons.1 he with rfl | he
      · exact hlt
      · exact Std.TransCmp.lt_trans hlt (hx.1 e he)
    · rename_i heq
      have hk : k = k' := Std.LawfulEqCmp.eq_of_compare heq
      subst hk
      exact List.pairwise_cons.2 ⟨hx.1, hx.2⟩
    · rename_i hgt
      refine List.pairwise_cons.2 ⟨fun e he => ?_, ih hx.2⟩
      rcases mem_insert he with rfl | he
      · exact Std.OrientedCmp.lt_of_gt hgt
      · exact hx.1 e he

theorem sorted_erase (k : κ) {l : List (κ × α)} (h : Sorted l) : Sorted (erase k l) :=
  List.Pairwise.filter _ h

theorem sorted_modify (k : κ) (f : α → α) {l : List (κ × α)} (h : Sorted l) :
    Sorted (modify k f l) := by
  refine List.pairwise_map.2 (h.imp ?_)
  intro a b hab
  by_cases ha : compare k a.1 == .eq <;> by_cases hb : compare k b.1 == .eq <;> simp [ha, hb, hab]

end Entries

/-! ### Tables -/

/-- Entries in strictly increasing order of their keys. -/
structure Table (κ α : Type) [Ord κ] where
  /-- The entries, in order. -/
  entries : List (κ × α)
  /-- Their keys increase. -/
  sorted  : Entries.Sorted entries

namespace Table

variable {κ α : Type} [Ord κ]

/-- The table with no entry. -/
def empty : Table κ α := ⟨[], List.Pairwise.nil⟩

instance : EmptyCollection (Table κ α) := ⟨empty⟩

instance : Inhabited (Table κ α) := ⟨empty⟩

/-- Put `v` under `k`, replacing what is there. -/
def insert [Std.TransOrd κ] [Std.LawfulEqOrd κ] (t : Table κ α) (k : κ) (v : α) : Table κ α :=
  ⟨Entries.insert k v t.entries, Entries.sorted_insert k v t.sorted⟩

/-- Drop the entry under `k`. -/
def erase (t : Table κ α) (k : κ) : Table κ α :=
  ⟨Entries.erase k t.entries, Entries.sorted_erase k t.sorted⟩

/-- Apply `f` to the value under `k`, if there is one. -/
def modify (t : Table κ α) (k : κ) (f : α → α) : Table κ α :=
  ⟨Entries.modify k f t.entries, Entries.sorted_modify k f t.sorted⟩

/-- The value under `k`. -/
def find? (t : Table κ α) (k : κ) : Option α := Entries.find? k t.entries

/-- Whether there is an entry under `k`. -/
def contains (t : Table κ α) (k : κ) : Bool := (t.find? k).isSome

/-- The values, in the order of their keys. -/
def values (t : Table κ α) : List α := t.entries.map (·.2)

/-- The keys, in order. -/
def keys (t : Table κ α) : List κ := t.entries.map (·.1)

/-- How many entries there are. -/
def size (t : Table κ α) : Nat := t.entries.length

/-- A table is its entries. -/
@[ext] theorem ext {s t : Table κ α} (h : s.entries = t.entries) : s = t := by
  cases s; cases t; cases h; rfl

theorem find?_empty (k : κ) : (∅ : Table κ α).find? k = none := rfl

/-- Two keys that are not equal do not compare as equal. -/
theorem compare_ne_eq [Std.LawfulEqOrd κ] {a b : κ} (h : a ≠ b) : (compare a b == .eq) = false :=
  beq_eq_false_iff_ne.2 fun e => h (Std.LawfulEqCmp.eq_of_compare e)

/-- After `insert` the key has the new value and every other key its old one. -/
theorem find?_insert [Std.TransOrd κ] [Std.LawfulEqOrd κ] [DecidableEq κ]
    (t : Table κ α) (k a : κ) (v : α) :
    (t.insert k v).find? a = if a = k then some v else t.find? a := by
  obtain ⟨l, hl⟩ := t
  simp only [insert, find?]
  clear hl
  induction l with
  | nil =>
    by_cases h : a = k
    · subst h; simp [Entries.insert, Entries.find?]
    · simp [Entries.insert, Entries.find?, h, compare_ne_eq h]
  | cons x xs ih =>
    obtain ⟨k', v'⟩ := x
    unfold Entries.insert
    split
    · by_cases h : a = k
      · subst h; simp [Entries.find?]
      · simp [Entries.find?, compare_ne_eq h, h]
    · rename_i heq
      have hk : k = k' := Std.LawfulEqCmp.eq_of_compare heq
      subst hk
      by_cases h : a = k
      · subst h; simp [Entries.find?]
      · simp [Entries.find?, compare_ne_eq h, h]
    · rename_i hgt
      by_cases h' : a = k'
      · subst h'
        have hne : a ≠ k := by
          rintro rfl
          simp at hgt
        simp [Entries.find?, hne]
      · simp only [Entries.find?, compare_ne_eq h', Bool.false_eq_true, if_false]
        exact ih

/-- After `erase` the key has no value and every other key its old one. -/
theorem find?_erase [Std.TransOrd κ] [Std.LawfulEqOrd κ] [DecidableEq κ] (t : Table κ α) (k a : κ) :
    (t.erase k).find? a = if a = k then none else t.find? a := by
  obtain ⟨l, hl⟩ := t
  simp only [erase, find?]
  clear hl
  induction l with
  | nil => simp [Entries.erase, Entries.find?]
  | cons x xs ih =>
    obtain ⟨k', v'⟩ := x
    unfold Entries.erase at ih ⊢
    by_cases hk : k = k'
    · subst hk
      rw [List.filter_cons, if_neg (by simp)]
      by_cases h : a = k
      · subst h; rw [ih]; simp
      · rw [ih]; simp [Entries.find?, compare_ne_eq h, h]
    · have : (compare k k' != .eq) = true := by simp [bne, compare_ne_eq hk]
      rw [List.filter_cons, if_pos this]
      by_cases h : a = k'
      · subst h
        have : a ≠ k := fun e => hk e.symm
        simp [Entries.find?, this]
      · simp only [Entries.find?, compare_ne_eq h, Bool.false_eq_true, if_false]
        exact ih

end Table

end Storyboard
