import Mathlib.Algebra.BigOperators.Group.List.Basic
import Mathlib.Algebra.Group.End
import Mathlib.Logic.Equiv.Basic
import Storyboard.Scene.Entity

/-! # Exchanging cells

    To exchange two cells of a row is to carry its cells along a
    transposition, or to do nothing if one of the two is not there. Of a list
    of exchanges comes the product of the transpositions of those that find
    both their cells (`getElem?_exchange`), so no text is lost and none is
    written twice (`perm_exchange`), and a list followed by its reverse comes
    to nothing (`exchange_append_reverse`). -/

namespace Storyboard

namespace Row

/-- Exchange cells, one pair after another. -/
def exchange (r : Row) (pairs : List (Nat × Nat)) : Row :=
  pairs.foldl (fun r p => r.swapCells p.1 p.2) r

/-- Whether both places of a pair are within a row of so many cells. -/
def fits (length : Nat) (p : Nat × Nat) : Bool := p.1 < length && p.2 < length

/-- From where in a row of so many cells the texts come that are in their places after some
    exchanges: the transpositions of the pairs that fit, the first one outermost. -/
def arrangement (length : Nat) (pairs : List (Nat × Nat)) : Equiv.Perm Nat :=
  ((pairs.filter (fits length)).map fun p => Equiv.swap p.1 p.2).prod

/-- One row comes from another by exchanging cells, pair by pair. -/
structure Arranged (r : Row) (pairs : List (Nat × Nat)) (row : Row) : Prop where
  id     : row.id = r.id
  anchor : row.anchor = r.anchor
  length : row.cells.length = r.cells.length
  cells  : ∀ k, row.cells[k]? = r.cells[arrangement r.cells.length pairs k]?
  /-- The same texts, and each of them as often. -/
  texts  : row.cells.Perm r.cells
  /-- Cells that are in none of the pairs keep their texts. -/
  others : ∀ k, (∀ p ∈ pairs, fits r.cells.length p = true → k ≠ p.1 ∧ k ≠ p.2) →
    row.cells[k]? = r.cells[k]?

variable {r : Row} {i j k n : Nat} {p : Nat × Nat} {pairs : List (Nat × Nat)}

theorem fits_iff : fits n (i, j) = true ↔ i < n ∧ j < n := by
  simp [fits]

/-! ### One pair -/

theorem swapCells_of_fits (hi : i < r.cells.length) (hj : j < r.cells.length) :
    r.swapCells i j = { r with cells := (r.cells.set i r.cells[j]).set j r.cells[i] } := by
  unfold swapCells
  rw [List.getElem?_eq_getElem hi, List.getElem?_eq_getElem hj]

theorem swapCells_of_not_fits (h : ¬(i < r.cells.length ∧ j < r.cells.length)) :
    r.swapCells i j = r := by
  unfold swapCells
  split
  · next ha hb =>
    obtain ⟨hi, _⟩ := List.getElem?_eq_some_iff.1 ha
    obtain ⟨hj, _⟩ := List.getElem?_eq_some_iff.1 hb
    exact absurd ⟨hi, hj⟩ h
  · rfl

/-- All but the texts of the cells stays as it is. -/
theorem swapCells_frame (r : Row) (i j : Nat) : (r.swapCells i j).id = r.id ∧
    (r.swapCells i j).anchor = r.anchor ∧ (r.swapCells i j).cells.length = r.cells.length := by
  unfold swapCells
  split
  · simp
  · exact ⟨rfl, rfl, rfl⟩

/-- The cells are carried along a transposition. -/
theorem getElem?_swapCells (hi : i < r.cells.length) (hj : j < r.cells.length) (k : Nat) :
    (r.swapCells i j).cells[k]? = r.cells[Equiv.swap i j k]? := by
  rw [swapCells_of_fits hi hj, List.getElem?_set, List.getElem?_set, Equiv.swap_apply_def,
    List.length_set, if_pos hi, if_pos hj]
  by_cases hkj : j = k
  · subst hkj
    by_cases hij : j = i
    · subst hij
      simp
    · simp [hij]
  · by_cases hki : i = k
    · subst hki
      simp [hkj]
    · simp [hkj, hki, Ne.symm hkj, Ne.symm hki]

theorem perm_swapCells (r : Row) (i j : Nat) : (r.swapCells i j).cells.Perm r.cells := by
  by_cases h : i < r.cells.length ∧ j < r.cells.length
  · rw [swapCells_of_fits h.1 h.2]
    exact List.set_set_perm h.1 h.2
  · rw [swapCells_of_not_fits h]

/-- To exchange the same cells again puts them back. -/
theorem swapCells_swapCells (r : Row) (i j : Nat) : (r.swapCells i j).swapCells i j = r := by
  obtain ⟨hid, hanchor, hlength⟩ := swapCells_frame r i j
  by_cases h : i < r.cells.length ∧ j < r.cells.length
  · have hback : ((r.swapCells i j).swapCells i j).cells = r.cells := by
      apply List.ext_getElem?
      intro k
      rw [getElem?_swapCells (hlength ▸ h.1) (hlength ▸ h.2), getElem?_swapCells h.1 h.2,
        Equiv.swap_apply_self]
    obtain ⟨hid', hanchor', _⟩ := swapCells_frame (r.swapCells i j) i j
    have hext : ∀ {a b : Row}, a.id = b.id → a.cells = b.cells → a.anchor = b.anchor → a = b := by
      rintro ⟨_, _, _⟩ ⟨_, _, _⟩ rfl rfl rfl
      rfl
    exact hext (hid'.trans hid) hback (hanchor'.trans hanchor)
  · rw [swapCells_of_not_fits h, swapCells_of_not_fits h]

/-! ### Many pairs -/

@[simp] theorem exchange_cons (r : Row) (p : Nat × Nat) (pairs : List (Nat × Nat)) :
    r.exchange (p :: pairs) = (r.swapCells p.1 p.2).exchange pairs := rfl

theorem exchange_append (r : Row) (pairs rest : List (Nat × Nat)) :
    r.exchange (pairs ++ rest) = (r.exchange pairs).exchange rest := List.foldl_append

theorem exchange_frame (r : Row) (pairs : List (Nat × Nat)) :
    (r.exchange pairs).id = r.id ∧ (r.exchange pairs).anchor = r.anchor ∧
      (r.exchange pairs).cells.length = r.cells.length := by
  induction pairs generalizing r with
  | nil => exact ⟨rfl, rfl, rfl⟩
  | cons p rest ih =>
    obtain ⟨hid, hanchor, hlength⟩ := swapCells_frame r p.1 p.2
    obtain ⟨hid', hanchor', hlength'⟩ := ih (r.swapCells p.1 p.2)
    exact ⟨hid'.trans hid, hanchor'.trans hanchor, hlength'.trans hlength⟩

theorem arrangement_cons (n : Nat) (p : Nat × Nat) (pairs : List (Nat × Nat)) :
    arrangement n (p :: pairs) =
      (if fits n p then Equiv.swap p.1 p.2 else 1) * arrangement n pairs := by
  unfold arrangement
  rw [List.filter_cons]
  split
  · rw [List.map_cons, List.prod_cons]
  · rw [one_mul]

/-- The cells are carried along the transpositions of the pairs that fit. -/
theorem getElem?_exchange (r : Row) (pairs : List (Nat × Nat)) (k : Nat) :
    (r.exchange pairs).cells[k]? = r.cells[arrangement r.cells.length pairs k]? := by
  -- The first exchange is made on the row itself, so its transposition is applied last.
  induction pairs generalizing r with
  | nil => rfl
  | cons p rest ih =>
    obtain ⟨_, _, hlength⟩ := swapCells_frame r p.1 p.2
    rw [exchange_cons, ih, hlength, arrangement_cons, Equiv.Perm.mul_apply]
    by_cases h : p.1 < r.cells.length ∧ p.2 < r.cells.length
    · rw [if_pos (fits_iff.2 h), getElem?_swapCells h.1 h.2]
    · rw [if_neg fun hfits => h (fits_iff.1 hfits), swapCells_of_not_fits h,
        Equiv.Perm.one_apply]

/-- No text is lost and none comes in. -/
theorem perm_exchange (r : Row) (pairs : List (Nat × Nat)) :
    (r.exchange pairs).cells.Perm r.cells := by
  induction pairs generalizing r with
  | nil => exact List.Perm.refl _
  | cons p rest ih => exact (ih (r.swapCells p.1 p.2)).trans (perm_swapCells r p.1 p.2)

/-- A place that no pair names keeps its text, and so does one that only pairs name that do not
    fit. -/
theorem arrangement_of_unnamed (h : ∀ p ∈ pairs, fits n p = true → k ≠ p.1 ∧ k ≠ p.2) :
    arrangement n pairs k = k := by
  induction pairs with
  | nil => rfl
  | cons p rest ih =>
    obtain ⟨hfirst, hrest⟩ := List.forall_mem_cons.1 h
    rw [arrangement_cons, Equiv.Perm.mul_apply, ih hrest]
    by_cases hp : fits n p = true
    · rw [if_pos hp]
      exact Equiv.swap_apply_of_ne_of_ne (hfirst hp).1 (hfirst hp).2
    · rw [if_neg hp, Equiv.Perm.one_apply]

theorem arranged_exchange (r : Row) (pairs : List (Nat × Nat)) :
    r.Arranged pairs (r.exchange pairs) := by
  obtain ⟨hid, hanchor, hlength⟩ := exchange_frame r pairs
  refine ⟨hid, hanchor, hlength, getElem?_exchange r pairs, perm_exchange r pairs, ?_⟩
  intro k hunnamed
  rw [getElem?_exchange, arrangement_of_unnamed hunnamed]

/-- Exchanges that are made once more in reverse come to nothing. -/
theorem exchange_append_reverse (r : Row) (pairs : List (Nat × Nat)) :
    r.exchange (pairs ++ pairs.reverse) = r := by
  induction pairs generalizing r with
  | nil => rfl
  | cons p rest ih =>
    have hsplit : (p :: rest) ++ (p :: rest).reverse = p :: ((rest ++ rest.reverse) ++ [p]) := by
      simp
    rw [hsplit, exchange_cons, exchange_append, ih]
    exact swapCells_swapCells r p.1 p.2

end Row

end Storyboard
