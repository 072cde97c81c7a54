import Storyboard.Proofs.Text.Blank

/-! # The case of letters

    Only the letters of ASCII have a case. What is said of all characters of
    ASCII is checked one by one (`forall_ascii`); beyond them no character
    changes. Blanks have no case, so texts that differ in case alone still do
    when they are trimmed (`trimChars_lower`). -/

namespace Storyboard.Text

variable {c d : Char} {cs ds : List Char}

/-- What holds of every character of ASCII may be checked one by one. -/
theorem forall_ascii {P : Char → Prop} (h : ∀ k < 128, P (Char.ofNat k)) (hc : c.toNat < 128) :
    P c := by
  have hchar := h c.toNat hc
  rwa [Char.ofNat_toNat] at hchar

/-- Beyond ASCII there is no case. -/
theorem toLower_of_not_ascii (hc : ¬c.toNat < 128) : c.toLower = c := by
  have hupper : ¬(c.val ≥ 'A'.val ∧ c.val ≤ 'Z'.val) := by
    rintro ⟨_, hle⟩
    exact hc (Nat.lt_of_le_of_lt hle (by decide))
  unfold Char.toLower
  rw [dif_neg hupper]

/-- Only letters of ASCII change, and they become letters. -/
theorem toLower_eq_or (c : Char) :
    c.toLower = c ∨ c.isAlpha = true ∧ c.toLower.isAlpha = true := by
  by_cases hc : c.toNat < 128
  · exact forall_ascii (P := fun c => c.toLower = c ∨ c.isAlpha = true ∧ c.toLower.isAlpha = true)
      (by decide +kernel) hc
  · exact .inl (toLower_of_not_ascii hc)

/-- What is no letter of ASCII is not the lower case of another character either. -/
theorem toLower_eq_iff (hletter : ¬d.isAlpha = true) : c.toLower = d ↔ c = d := by
  constructor
  · rintro rfl
    rcases toLower_eq_or c with hsame | ⟨_, halpha⟩
    · exact hsame.symm
    · exact absurd halpha hletter
  · rintro rfl
    rcases toLower_eq_or c with hsame | ⟨halpha, _⟩
    · exact hsame
    · exact absurd halpha hletter

theorem isBlank_toLower (c : Char) : isBlank c.toLower = isBlank c := by
  by_cases hc : c.toNat < 128
  · exact forall_ascii (P := fun c => isBlank c.toLower = isBlank c) (by decide +kernel) hc
  · rw [toLower_of_not_ascii hc]

theorem trimChars_lower (cs : List Char) :
    trimChars (cs.map Char.toLower) = (trimChars cs).map Char.toLower := by
  have hblank : isBlank ∘ Char.toLower = isBlank := funext isBlank_toLower
  unfold trimChars
  rw [List.dropWhile_map, hblank, ← List.map_reverse, List.dropWhile_map, hblank,
    ← List.map_reverse]

end Storyboard.Text
