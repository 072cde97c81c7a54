import Mathlib.Data.List.Basic
import Storyboard.Data.Table

/-! # Tables as finite maps

    What a table holds is what `find?` finds: `modify` and `contains` are
    described by it, the values of a table are the values that can be found,
    and tables in which the same is found are the same table. -/

namespace Storyboard.Table

variable {κ α : Type} [Ord κ]

/-! ### What is found -/

theorem contains_iff {t : Table κ α} {k : κ} : t.contains k = true ↔ ∃ v, t.find? k = some v := by
  rw [contains, Option.isSome_iff_exists]

variable [Std.LawfulEqOrd κ]

/-- Every entry is found under its key. -/
theorem find?_of_mem_entries {t : Table κ α} {k : κ} {v : α} (h : (k, v) ∈ t.entries) :
    t.find? k = some v := by
  obtain ⟨l, hl⟩ := t
  simp only [find?] at h ⊢
  induction l with
  | nil => cases h
  | cons x xs ih =>
    obtain ⟨k', v'⟩ := x
    have hx := List.pairwise_cons.1 hl
    rcases List.mem_cons.1 h with heq | hmem
    · obtain ⟨rfl, rfl⟩ := Prod.mk.inj heq
      simp [Entries.find?]
    -- The key of a later entry is greater than that of the first one.
    · have hne : k ≠ k' := by
        rintro rfl
        have hlt := hx.1 (k, v) hmem
        rw [Std.ReflOrd.compare_self] at hlt
        cases hlt
      simp only [Entries.find?, compare_ne_eq hne, Bool.false_eq_true, if_false]
      exact ih hx.2 hmem

variable [DecidableEq κ]

/-- After `modify` the key has the changed value and every other key its old one. -/
theorem find?_modify (t : Table κ α) (k a : κ) (f : α → α) :
    (t.modify k f).find? a = if a = k then (t.find? a).map f else t.find? a := by
  obtain ⟨l, hl⟩ := t
  simp only [modify, find?]
  clear hl
  -- By induction on the entries. The key in front is the changed one, the wanted one, or neither.
  induction l with
  | nil => simp [Entries.modify, Entries.find?]
  | cons x xs ih =>
    obtain ⟨k', v'⟩ := x
    unfold Entries.modify at ih ⊢
    by_cases hk : k = k'
    · subst hk
      by_cases h : a = k
      · subst h
        simp [Entries.find?]
      · simp [Entries.find?, compare_ne_eq h, h] at ih ⊢
        exact ih
    · by_cases h : a = k'
      · subst h
        have hne : a ≠ k := fun e => hk e.symm
        simp only [List.map_cons, compare_ne_eq hk, Bool.false_eq_true, if_false, Entries.find?,
          Std.ReflOrd.compare_self, BEq.rfl, if_true, if_neg hne]
      · simp only [List.map_cons, compare_ne_eq hk, Bool.false_eq_true, if_false, Entries.find?,
          compare_ne_eq h]
        exact ih

/-- What is found under a key is an entry. -/
theorem mem_entries_of_find? {t : Table κ α} {k : κ} {v : α} (h : t.find? k = some v) :
    (k, v) ∈ t.entries := by
  obtain ⟨l, hl⟩ := t
  simp only [find?] at h ⊢
  clear hl
  induction l with
  | nil => cases h
  | cons x xs ih =>
    obtain ⟨k', v'⟩ := x
    by_cases hk : k = k'
    · subst hk
      simp only [Entries.find?, Std.ReflOrd.compare_self, BEq.rfl, if_true,
        Option.some.injEq] at h
      simp [h]
    · simp only [Entries.find?, compare_ne_eq hk, Bool.false_eq_true, if_false] at h
      exact List.mem_cons_of_mem _ (ih h)

theorem mem_entries_iff {t : Table κ α} {k : κ} {v : α} :
    (k, v) ∈ t.entries ↔ t.find? k = some v :=
  ⟨find?_of_mem_entries, mem_entries_of_find?⟩

/-- The values are those that can be found. -/
theorem mem_values_iff {t : Table κ α} {v : α} : v ∈ t.values ↔ ∃ k, t.find? k = some v := by
  simp only [values, List.mem_map, Prod.exists, exists_eq_right, mem_entries_iff]

/-! ### Extensionality -/

variable [Std.TransOrd κ]

/-- Tables in which the same is found are the same. -/
theorem ext_find? {s t : Table κ α} (h : ∀ k, s.find? k = t.find? k) : s = t := by
  have hmem : ∀ e : κ × α, e ∈ s.entries ↔ e ∈ t.entries := by
    rintro ⟨k, v⟩
    rw [mem_entries_iff, mem_entries_iff, h]
  have hnodup : ∀ u : Table κ α, u.entries.Nodup := fun u =>
    u.sorted.imp (fun {a b} hab hne => by
      subst hne
      rw [Std.ReflOrd.compare_self] at hab
      cases hab)
  have hperm : s.entries.Perm t.entries :=
    (List.perm_ext_iff_of_nodup (hnodup s) (hnodup t)).2 hmem
  -- Sorted lists with the same entries have them in the same order.
  have hasymm : ∀ a b : κ × α, a ∈ s.entries → b ∈ t.entries →
      compare a.1 b.1 = .lt → compare b.1 a.1 = .lt → a = b := by
    intro a b _ _ hab hba
    rw [Std.OrientedOrd.eq_swap (a := b.1), hab] at hba
    cases hba
  exact Table.ext (hperm.eq_of_pairwise hasymm s.sorted t.sorted)

/-- The values are what is found under the keys, one after another. -/
theorem values_eq_filterMap {t : Table κ α} {ks : List κ}
    (hks : ks.Pairwise fun a b => compare a b = .lt) (hall : ∀ k v, t.find? k = some v → k ∈ ks) :
    t.values = ks.filterMap t.find? := by
  -- The entries that are found under these keys are a table, and the same is found in it.
  let found := ks.filterMap fun k => (t.find? k).map (k, ·)
  have hkey : ∀ k e, (t.find? k).map (k, ·) = some e → e.1 = k := by
    intro k e he
    obtain ⟨v, _, rfl⟩ := Option.map_eq_some_iff.1 he
    rfl
  have hsorted : Entries.Sorted found := by
    refine List.pairwise_filterMap.2 (hks.imp fun {a b} hab e he e' he' => ?_)
    rw [hkey a e he, hkey b e' he']
    exact hab
  have hsame : t = ⟨found, hsorted⟩ := by
    refine ext_find? fun k => Option.ext fun v => ?_
    rw [← mem_entries_iff (t := ⟨found, hsorted⟩)]
    constructor
    · intro hk
      exact List.mem_filterMap.2 ⟨k, hall k v hk, by rw [hk, Option.map_some]⟩
    · intro hmem
      obtain ⟨k', _, hk'⟩ := List.mem_filterMap.1 hmem
      obtain ⟨v', hfind, heq⟩ := Option.map_eq_some_iff.1 hk'
      obtain ⟨rfl, rfl⟩ := Prod.mk.inj heq
      exact hfind
  calc t.values = found.map (·.2) := congrArg Table.values hsame
    _ = ks.filterMap t.find? := by
      rw [List.map_filterMap]
      refine congrArg (List.filterMap · ks) (funext fun k => ?_)
      cases t.find? k <;> rfl

end Storyboard.Table
