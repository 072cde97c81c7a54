import Mathlib.Data.List.DropRight
import Storyboard.Text.Blank

/-! # Trimmed texts

    What is left of a text when the blanks at both ends are dropped has none
    there, so trimming it once more changes nothing (`trim_trim`). Nor does it
    matter how many blanks were put around the text (`trimChars_append`). -/

namespace Storyboard.Text

theorem trimChars_trimChars (cs : List Char) : trimChars (trimChars cs) = trimChars cs := by
  have hends : ∀ cs, trimChars cs = (cs.dropWhile isBlank).rdropWhile isBlank := fun _ => rfl
  rw [hends, hends]
  -- No blank is in front of what is left, whatever was dropped behind it.
  have hfront : ∀ ds : List Char, ds.dropWhile isBlank = ds →
      (ds.rdropWhile isBlank).dropWhile isBlank = ds.rdropWhile isBlank := by
    intro ds hds
    obtain ⟨tail, htail⟩ := List.rdropWhile_prefix isBlank ds
    cases hleft : ds.rdropWhile isBlank with
    | nil => rfl
    | cons c rest =>
      rw [← htail, hleft, List.cons_append] at hds
      have hc : isBlank c = false := by
        rw [Bool.eq_false_iff]
        intro hblank
        rw [List.dropWhile_cons_of_pos hblank] at hds
        have hless := (List.dropWhile_sublist isBlank (l := rest ++ tail)).length_le
        rw [hds, List.length_cons] at hless
        omega
      exact List.dropWhile_cons_of_neg (Bool.eq_false_iff.1 hc)
  rw [hfront _ (List.dropWhile_idempotent isBlank cs), List.rdropWhile_idempotent]

/-- Blanks around a text are dropped with those that it begins and ends with. -/
theorem trimChars_append {before after : List Char} (hbefore : before.all isBlank = true)
    (hafter : after.all isBlank = true) (cs : List Char) :
    trimChars (before ++ cs ++ after) = trimChars cs := by
  rw [List.all_eq_true] at hbefore hafter
  have hback : ∀ c ∈ after.reverse, isBlank c = true := by
    simpa only [List.mem_reverse] using hafter
  unfold trimChars
  rw [List.append_assoc, List.dropWhile_append_of_pos hbefore, List.dropWhile_append]
  split
  · next hblank =>
    rw [List.isEmpty_iff.1 hblank, List.dropWhile_eq_nil_iff.2 hafter]
  · rw [List.reverse_append, List.dropWhile_append_of_pos hback]

@[simp] theorem trim_trim (s : String) : trim (trim s) = trim s := by
  unfold trim
  rw [String.toList_ofList, trimChars_trimChars]

theorem trimmed?_eq_some {s t : String} : trimmed? s = some t ↔ trim s = t ∧ t ≠ "" := by
  unfold trimmed?
  dsimp only
  split
  · next hempty =>
    have hnone : trim s = "" := String.isEmpty_iff.1 hempty
    refine ⟨nofun, fun h => absurd (h.1.symm.trans hnone) h.2⟩
  · next hleft =>
    have hsome : trim s ≠ "" := fun h => hleft (String.isEmpty_iff.2 h)
    constructor
    · intro h
      obtain rfl := Option.some.inj h
      exact ⟨rfl, hsome⟩
    · intro h
      rw [h.1]

/-- What was trimmed is found as it is. -/
theorem trimmed?_of_trimmed? {s t : String} (h : trimmed? s = some t) : trimmed? t = some t := by
  obtain ⟨rfl, hsome⟩ := trimmed?_eq_some.1 h
  exact trimmed?_eq_some.2 ⟨trim_trim s, hsome⟩

@[simp] theorem upper_empty : upper "" = "" := by simp [upper]

end Storyboard.Text
