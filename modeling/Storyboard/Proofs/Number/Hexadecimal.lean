import Storyboard.Number.Reading
import Storyboard.Proofs.Text.Case

/-! # Hexadecimal digits

    A hexadecimal digit stands for a number below sixteen, and the case of its
    letter does not matter. What is read as a digit is exactly that
    (`hexValue?_eq_some_iff`). -/

namespace Storyboard.Number

open Text

/-- A character is the hexadecimal digit for `n`, in lower case or in upper case. -/
def IsHexDigit (c : Char) (n : Nat) : Prop := n < 16 ∧ c.toLower = Nat.digitChar n

instance (c : Char) (n : Nat) : Decidable (IsHexDigit c n) :=
  inferInstanceAs (Decidable (_ ∧ _))

variable {c d : Char} {m n : Nat}

/-- Beyond ASCII there are no digits. -/
theorem hexValue?_of_not_ascii (hc : ¬c.toNat < 128) : hexValue? c = none := by
  have hle : ∀ d : Char, d.toNat < 128 → ¬c ≤ d := by
    intro d hd hcd
    exact hc (Nat.lt_of_le_of_lt hcd hd)
  simp [hexValue?, hle '9' (by decide), hle 'f' (by decide), hle 'F' (by decide)]

/-- What is read as a hexadecimal digit is one, and every digit is read. -/
theorem hexValue?_eq_some_iff : hexValue? c = some n ↔ IsHexDigit c n := by
  by_cases hc : c.toNat < 128
  · revert hc
    refine forall_ascii (P := fun c => hexValue? c = some n ↔ IsHexDigit c n) ?_
    have hsmall : ∀ k < 128, ∀ n ∈ hexValue? (Char.ofNat k), n < 16 := by decide +kernel
    have htable : ∀ n < 16, ∀ k < 128,
        hexValue? (Char.ofNat k) = some n ↔ IsHexDigit (Char.ofNat k) n := by decide +kernel
    intro k hk
    constructor
    · intro h
      exact (htable n (hsmall k hk n h) k hk).1 h
    · intro h
      exact (htable n h.1 k hk).2 h
  · rw [hexValue?_of_not_ascii hc]
    refine iff_of_false nofun ?_
    rintro ⟨hn, hlower⟩
    rw [toLower_of_not_ascii hc] at hlower
    have hdigits : ∀ n < 16, (Nat.digitChar n).toNat < 128 := by decide
    exact hc (hlower ▸ hdigits n hn)

theorem IsHexDigit.ascii (h : IsHexDigit c n) : c.toNat < 128 := by
  by_cases hc : c.toNat < 128
  · exact hc
  · have hvalue := hexValue?_eq_some_iff.2 h
    rw [hexValue?_of_not_ascii hc] at hvalue
    cases hvalue

/-- A sign is no digit. -/
theorem not_isHexDigit_plus (n : Nat) : ¬IsHexDigit '+' n := by
  rw [← hexValue?_eq_some_iff]
  exact nofun

/-- The case of a letter does not matter. -/
theorem IsHexDigit.recase (h : IsHexDigit c n) (hcase : d.toLower = c.toLower) : IsHexDigit d n :=
  ⟨h.1, hcase.trans h.2⟩

theorem IsHexDigit.not_blank (h : IsHexDigit c n) : isBlank c = false := by
  have hdigits : ∀ n < 16, isBlank (Nat.digitChar n) = false := by decide
  rw [← isBlank_toLower, h.2]
  exact hdigits n h.1

/-- The digits that are written are in lower case. -/
theorem isHexDigit_digitChar (hn : n < 16) : IsHexDigit (Nat.digitChar n) n := by
  have hdigits : ∀ n < 16, IsHexDigit (Nat.digitChar n) n := by decide
  exact hdigits n hn

end Storyboard.Number
