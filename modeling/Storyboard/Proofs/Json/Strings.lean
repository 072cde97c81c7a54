import Storyboard.Json.Reader
import Storyboard.Json.Writer
import Storyboard.Proofs.Number.Hexadecimal

/-! # Strings read back

    A string that is written as JSON is read back, whatever characters it
    holds: each of them is written in a form that is read in one step
    (`readString?_escapeChar`), so the whole text of the string is read as the
    string (`parse?_compact_str`). -/

namespace Storyboard.Json

variable {taken : List Char} {whole : Bool} {fuel : Nat}

theorem hexValue?_digitChar {n : Nat} (hn : n < 16) :
    Number.hexValue? (Nat.digitChar n) = some n :=
  Number.hexValue?_eq_some_iff.2 (Number.isHexDigit_digitChar hn)

/-- A control character is read from its two digits. -/
theorem readEscapedUnits?_digits {c : Char} (hc : c.toNat < 0x20) (rest : List Char) :
    readEscapedUnits? ('0' :: '0' :: Nat.digitChar (c.toNat / 16) ::
      Nat.digitChar (c.toNat % 16) :: rest) = some (c, rest) := by
  have hunit : readUnit? ('0' :: '0' :: Nat.digitChar (c.toNat / 16) ::
      Nat.digitChar (c.toNat % 16) :: rest) = some (c.toNat, rest) := by
    have hzero : Number.hexValue? '0' = some 0 := rfl
    simp only [readUnit?, hzero, hexValue?_digitChar (show c.toNat / 16 < 16 by omega),
      hexValue?_digitChar (show c.toNat % 16 < 16 by omega), Option.bind_eq_bind,
      Option.bind_some, Option.pure_def, Option.some.injEq, Prod.mk.injEq, and_true]
    omega
  unfold readEscapedUnits?
  rw [hunit]
  have hlow : ¬(0xDC00 ≤ c.toNat ∧ c.toNat ≤ 0xDFFF) := by omega
  have hhigh : ¬(0xD800 ≤ c.toNat ∧ c.toNat ≤ 0xDBFF) := by omega
  simp [hlow, hhigh]

/-- Every character is read from its written form in one step. -/
theorem readString?_escapeChar (c : Char) (rest : List Char) :
    readString? taken whole (fuel + 1) (escapeChar c ++ rest) =
      readString? (c :: taken) whole fuel rest := by
  -- A quote and a backslash are marked, then whatever is no control character stands for itself,
  -- and the rest is marked by a letter or written as a number.
  unfold escapeChar
  split
  · next hc => subst hc; rfl
  split
  · next hc => subst hc; rfl
  split
  · next hquote hslash hplain =>
    rw [List.singleton_append, readString?]
    · rw [if_neg (by omega)]
    · exact hquote
    · rintro d ds rfl
      exact absurd rfl hslash
  split
  · next hc => subst hc; rfl
  split
  · next hc => subst hc; rfl
  split
  · next hc => subst hc; rfl
  split
  · next hc =>
    obtain rfl : c = '\x08' := Char.toNat_inj.1 hc
    rfl
  split
  · next hc =>
    obtain rfl : c = '\x0c' := Char.toNat_inj.1 hc
    rfl
  · next hcontrol _ _ _ _ _ =>
    have hunits := readEscapedUnits?_digits (c := c) (by omega) rest
    simp only [List.cons_append, List.nil_append, readString?, hunits]

/-- A written string is read up to its closing quote. -/
theorem readString?_written {cs : List Char} (hfuel : cs.length < fuel) (rest : List Char) :
    readString? taken true fuel (cs.flatMap escapeChar ++ '"' :: rest) =
      some (some (String.ofList (taken.reverse ++ cs)), rest) := by
  induction cs generalizing taken fuel with
  | nil =>
    obtain ⟨fuel, rfl⟩ := Nat.exists_eq_add_of_lt hfuel
    simp [readString?]
  | cons c cs ih =>
    rw [List.length_cons] at hfuel
    cases fuel with
    | zero => omega
    | succ fuel =>
      rw [List.flatMap_cons, List.append_assoc, readString?_escapeChar, ih (by omega)]
      simp

/-- Every character is written with at least one. -/
theorem length_le_escaped (cs : List Char) : cs.length ≤ (cs.flatMap escapeChar).length := by
  induction cs with
  | nil => exact Nat.le_refl _
  | cons c cs ih =>
    have hone : 1 ≤ (escapeChar c).length := by
      unfold escapeChar
      repeat' split
      all_goals simp
    rw [List.length_cons, List.flatMap_cons, List.length_append]
    omega

/-- A value that begins with a quote is a string. -/
theorem readValue?_quote (fuel depth : Nat) (cs : List Char) :
    readValue? (fuel + 1) depth ('"' :: cs) =
      (readText? (fuel + 1) cs).map fun (s, rest) => ((s.map Json.str).getD hole, rest) := by
  rw [readValue?]
  rfl

/-- A string is read back from its text. -/
theorem parse?_compact_str (s : String) : parse? (str s).compact = some (str s) := by
  have htext : (str s).compact.toList = '"' :: (s.toList.flatMap escapeChar ++ ['"']) := by
    simp [compact, write, writeString]
  have hread : read? (str s).compact = some (str s) := by
    have hlength := length_le_escaped s.toList
    have hfuel : s.toList.length <
        2 * ('"' :: (s.toList.flatMap escapeChar ++ ['"'])).length + 1 + 1 := by
      simp only [List.length_cons, List.length_append]
      omega
    unfold read?
    rw [htext]
    dsimp only
    rw [readValue?_quote, readText?, readString?_written hfuel]
    simp [skipGap]
  rw [parse?, hread]
  rfl

end Storyboard.Json
