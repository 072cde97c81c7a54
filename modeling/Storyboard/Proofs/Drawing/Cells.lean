import Mathlib.Data.List.Nodup
import Mathlib.Data.List.Range
import Storyboard.Drawing.Build

/-! # The cells of a row

    A row is drawn cell by cell: the background of a cell, its text and its
    number. No two parts of the figure have the same role, so the part that is
    found for a role is the only one there is, and the figure shows the texts
    of all cells in their order. A cell has the color of its last tint
    (`showsRow_ofRow`). -/

namespace Storyboard

/-- The roles of the parts of a cell. -/
def Role.ofCell (i : Nat) : List Role := [.cell i, .cellText i, .cellIndex i]

namespace Figure

variable {r : Row} {tints : List (Nat × Color)} {i k : Nat} {cells : List String} {f : Figure}
  {p : Part}

/-- The text of a part, if it stands in a cell. -/
def cellText? (p : Part) : Option String :=
  match p.role, p.shape with
  | .cellText _, .text t => some t.content
  | _, _ => none

/-- The texts in all cells, in the order in which they are painted. -/
def cellTexts (f : Figure) : List String := f.parts.filterMap cellText?

/-- A figure shows a row with some of its cells tinted. -/
structure ShowsRow (r : Row) (tints : List (Nat × Color)) (f : Figure) : Prop where
  /-- There are three parts for every cell. -/
  length : f.parts.length = 3 * r.cells.length
  /-- The cells are in their order. -/
  roles  : f.parts.map (·.role) = (List.range r.cells.length).flatMap Role.ofCell
  /-- No role is given twice. -/
  unique : (f.parts.map (·.role)).Nodup
  texts  : f.cellTexts = r.cells
  text   : ∀ i, f.text? (.cellText i) = r.cells[i]?
  index  : ∀ i < r.cells.length, f.text? (.cellIndex i) = some (Number.natText i)
  /-- A cell has the color of the last tint for its place. -/
  tinted : ∀ i < r.cells.length, ∀ before c after, tints = before ++ (i, c) :: after →
    (∀ t ∈ after, t.1 ≠ i) → (f.part? (.cell i)).map (·.paint.fill) = some (some c)
  plain  : ∀ i < r.cells.length, (∀ t ∈ tints, t.1 ≠ i) →
    (f.part? (.cell i)).map (·.paint.fill) = some (some (Color.white.fade 0.05))

/-! ### Roles -/

theorem map_role_cellsFrom (k : Nat) (cells : List String) :
    (cellsFrom tints k cells).map (·.role) = (List.range' k cells.length).flatMap Role.ofCell := by
  induction cells generalizing k with
  | nil => rfl
  | cons text rest ih =>
    rw [cellsFrom, List.map_append, ih, List.length_cons, List.range'_succ, List.flatMap_cons]
    rfl

theorem map_role_ofRow (r : Row) (tints : List (Nat × Color)) :
    (ofRow r tints).parts.map (·.role) = (List.range r.cells.length).flatMap Role.ofCell := by
  rw [List.range_eq_range']
  exact map_role_cellsFrom 0 r.cells

/-- Parts of different cells have different roles. -/
theorem nodup_roles (n : Nat) : ((List.range n).flatMap Role.ofCell).Nodup := by
  rw [List.nodup_flatMap]
  refine ⟨fun i _ => by simp [Role.ofCell], List.pairwise_lt_range.imp ?_⟩
  intro i j hij
  simp [Function.onFun, List.disjoint_left, Role.ofCell, Nat.ne_of_lt hij]

/-- Where no role is given twice, a part is found by its role. -/
theorem part?_of_mem (h : (f.parts.map (·.role)).Nodup) (hp : p ∈ f.parts) :
    f.part? p.role = some p := by
  have hinj := List.inj_on_of_nodup_map h
  unfold part?
  cases hfind : f.parts.find? fun q => q.role = p.role with
  | none =>
    have hnone := List.find?_eq_none.1 hfind p hp
    simp at hnone
  | some q =>
    have hrole : q.role = p.role := by simpa using List.find?_some hfind
    rw [hinj (List.mem_of_find?_eq_some hfind) hp hrole]

/-! ### Parts -/

/-- The parts of a cell are among those of the row. -/
theorem mem_cellsFrom {text : String} (htext : cells[i]? = some text)
    (hp : p ∈ cellParts tints (k + i) text) : p ∈ cellsFrom tints k cells := by
  induction cells generalizing i k with
  | nil => cases htext
  | cons first rest ih =>
    cases i with
    | zero =>
      obtain rfl := Option.some.inj htext
      exact List.mem_append_left _ hp
    | succ i =>
      refine List.mem_append_right _ (ih (k := k + 1) (i := i) htext ?_)
      rwa [Nat.add_right_comm]

theorem part?_ofRow {text : String} (htext : r.cells[i]? = some text)
    (hp : p ∈ cellParts tints i text) : (ofRow r tints).part? p.role = some p := by
  refine part?_of_mem ?_ (mem_cellsFrom (k := 0) htext (by rwa [Nat.zero_add]))
  rw [map_role_ofRow]
  exact nodup_roles _

/-- A role that is not given has no part. -/
theorem part?_of_not_mem {role : Role} (h : role ∉ f.parts.map (·.role)) : f.part? role = none := by
  refine List.find?_eq_none.2 fun p hp => ?_
  simp only [decide_eq_true_eq]
  rintro rfl
  exact h (List.mem_map.2 ⟨p, hp, rfl⟩)

/-! ### Tints -/

/-- The last tint for a cell counts. -/
theorem cellFill_of_last {before after : List (Nat × Color)} {c : Color}
    (h : ∀ t ∈ after, t.1 ≠ i) : cellFill (before ++ (i, c) :: after) i = c := by
  have hafter : after.reverse.find? (fun t => t.1 = i) = none := by
    refine List.find?_eq_none.2 fun t ht => ?_
    simpa using h t (List.mem_reverse.1 ht)
  unfold cellFill
  rw [List.reverse_append, List.reverse_cons, List.append_assoc, List.find?_append, hafter]
  simp

/-- Without a tint a cell is filled as usual. -/
theorem cellFill_of_none (h : ∀ t ∈ tints, t.1 ≠ i) : cellFill tints i = Color.white.fade 0.05 := by
  have hnone : tints.reverse.find? (fun t => t.1 = i) = none := by
    refine List.find?_eq_none.2 fun t ht => ?_
    simpa using h t (List.mem_reverse.1 ht)
  unfold cellFill
  rw [hnone]

/-! ### Rows -/

theorem cellTexts_cellsFrom (k : Nat) (cells : List String) :
    (cellsFrom tints k cells).filterMap cellText? = cells := by
  induction cells generalizing k with
  | nil => rfl
  | cons text rest ih =>
    rw [cellsFrom, List.filterMap_append, ih]
    rfl

/-- The figure of a row shows the row, whatever the tints are. -/
theorem showsRow_ofRow (r : Row) (tints : List (Nat × Color)) :
    (ofRow r tints).ShowsRow r tints := by
  have hroles := map_role_ofRow r tints
  -- The parts of a cell that is there are found by their roles.
  have hparts : ∀ i < r.cells.length, ∃ text, r.cells[i]? = some text ∧
      ∀ p ∈ cellParts tints i text, (ofRow r tints).part? p.role = some p := by
    intro i hi
    have htext := List.getElem?_eq_getElem hi
    exact ⟨_, htext, fun p hp => part?_ofRow htext hp⟩
  have hfill : ∀ i < r.cells.length,
      ((ofRow r tints).part? (.cell i)).map (·.paint.fill) = some (some (cellFill tints i)) := by
    intro i hi
    obtain ⟨text, _, hfind⟩ := hparts i hi
    rw [hfind _ List.mem_cons_self]
    rfl
  refine ⟨?_, hroles, ?_, cellTexts_cellsFrom 0 r.cells, ?_, ?_, ?_, ?_⟩
  · have hlength := congrArg List.length hroles
    rw [List.length_map, List.length_flatMap] at hlength
    simpa [Role.ofCell, Nat.mul_comm] using hlength
  · rw [hroles]
    exact nodup_roles _
  · intro i
    unfold text?
    by_cases hi : i < r.cells.length
    · obtain ⟨text, htext, hfind⟩ := hparts i hi
      rw [hfind _ (List.mem_cons_of_mem _ List.mem_cons_self), htext]
      rfl
    · have hnone : Role.cellText i ∉ (ofRow r tints).parts.map (·.role) := by
        rw [hroles]
        simp [Role.ofCell, hi]
      rw [part?_of_not_mem hnone, List.getElem?_eq_none (Nat.le_of_not_lt hi)]
      rfl
  · intro i hi
    obtain ⟨text, _, hfind⟩ := hparts i hi
    unfold text?
    rw [hfind _ (List.mem_cons_of_mem _ (List.mem_cons_of_mem _ List.mem_cons_self))]
    rfl
  · rintro i hi before c after rfl hafter
    rw [hfill i hi, cellFill_of_last hafter]
  · intro i hi hnone
    rw [hfill i hi, cellFill_of_none hnone]

end Figure

end Storyboard
