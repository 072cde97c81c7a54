import Storyboard.Color
import Storyboard.Proofs.Data.Result
import Storyboard.Proofs.Number.Hexadecimal

/-! # Hexadecimal colors

    Behind its hash a color is spelled with three digits, each of which counts
    twice, or with three or four pairs of digits (`Spells IsPair`). All of that
    is read, and so is one thing more: in a pair, a plus sign may stand in
    place of the first digit (`Spells IsTaken`). Where there is no plus sign,
    exactly the spellings are read (`read_hash`). -/

namespace Storyboard.Color

open Number

/-! ### Spellings -/

/-- Two digits stand for a byte. -/
def IsPair (a b : Char) (v : UInt8) : Prop :=
  ∃ m n, IsHexDigit a m ∧ IsHexDigit b n ∧ v.toNat = 16 * m + n

/-- Two characters are taken for a byte: two digits, or a plus sign and a digit. -/
def IsTaken (a b : Char) (v : UInt8) : Prop :=
  IsPair a b v ∨ a = '+' ∧ IsHexDigit b v.toNat

/-- What may stand behind the hash of a color, and the color it stands for; `pair` tells which two
    characters make a byte. Without an opacity of its own the color is solid. -/
inductive Spells (pair : Char → Char → UInt8 → Prop) : List Char → Color → Prop
  | short {r g b : Char} {x y z : UInt8} (red : IsPair r r x) (green : IsPair g g y)
      (blue : IsPair b b z) : Spells pair [r, g, b] (.solid x y z)
  | solid {r r' g g' b b' : Char} {x y z : UInt8} (red : pair r r' x) (green : pair g g' y)
      (blue : pair b b' z) : Spells pair [r, r', g, g', b, b'] (.solid x y z)
  | full {r r' g g' b b' a a' : Char} {x y z w : UInt8} (red : pair r r' x) (green : pair g g' y)
      (blue : pair b b' z) (opacity : pair a a' w) :
      Spells pair [r, r', g, g', b, b', a, a'] ⟨x, y, z, w⟩

variable {a b : Char} {v : UInt8} {cs : List Char} {c : Color}

/-- What is spelled with some pairs is spelled with more. -/
theorem Spells.mono {pair pair' : Char → Char → UInt8 → Prop} (h : Spells pair cs c)
    (hpair : ∀ a ∈ cs, ∀ b v, pair a b v → pair' a b v) : Spells pair' cs c := by
  cases h with
  | short red green blue => exact .short red green blue
  | solid red green blue =>
    exact .solid (hpair _ (by simp) _ _ red) (hpair _ (by simp) _ _ green)
      (hpair _ (by simp) _ _ blue)
  | full red green blue opacity =>
    exact .full (hpair _ (by simp) _ _ red) (hpair _ (by simp) _ _ green)
      (hpair _ (by simp) _ _ blue) (hpair _ (by simp) _ _ opacity)

theorem Spells.taken (h : Spells IsPair cs c) : Spells IsTaken cs c :=
  h.mono fun _ _ _ _ => .inl

/-- Without a plus sign nothing but pairs of digits is taken for a byte. -/
theorem Spells.paired (h : Spells IsTaken cs c) (hplus : '+' ∉ cs) : Spells IsPair cs c := by
  refine h.mono fun a ha b v htaken => ?_
  rcases htaken with hpair | ⟨rfl, _⟩
  · exact hpair
  · exact absurd ha hplus

theorem IsPair.digits (h : IsPair a b v) : (∃ m, IsHexDigit a m) ∧ ∃ n, IsHexDigit b n := by
  obtain ⟨m, n, hm, hn, _⟩ := h
  exact ⟨⟨m, hm⟩, n, hn⟩

/-- Any two digits stand for a byte. -/
theorem exists_isPair {m n : Nat} (hm : IsHexDigit a m) (hn : IsHexDigit b n) :
    ∃ v, IsPair a b v := by
  have hlt : 16 * m + n < 256 := by
    have := hm.1
    have := hn.1
    omega
  exact ⟨UInt8.ofNat (16 * m + n), m, n, hm, hn, UInt8.toNat_ofNat_of_lt' hlt⟩

/-- The spellings of colors are three, six or eight digits. -/
theorem exists_spells_iff : (∃ c, Spells IsPair cs c) ↔
    (cs.length = 3 ∨ cs.length = 6 ∨ cs.length = 8) ∧ ∀ d ∈ cs, ∃ n, IsHexDigit d n := by
  constructor
  · rintro ⟨c, h⟩
    cases h with
    | short red green blue => simp [red.digits, green.digits, blue.digits]
    | solid red green blue => simp [red.digits, green.digits, blue.digits]
    | full red green blue opacity =>
      simp [red.digits, green.digits, blue.digits, opacity.digits]
  · rintro ⟨hlength, hdigits⟩
    -- Any two digits are a pair, so only the number of digits is left to tell apart.
    have hpair : ∀ a ∈ cs, ∀ b ∈ cs, ∃ v, IsPair a b v := by
      intro a ha b hb
      obtain ⟨m, hm⟩ := hdigits a ha
      obtain ⟨n, hn⟩ := hdigits b hb
      exact exists_isPair hm hn
    rcases hlength with hthree | hsix | height
    · match cs, hthree with
      | [r, g, b], _ =>
        obtain ⟨x, hx⟩ := hpair r (by simp) r (by simp)
        obtain ⟨y, hy⟩ := hpair g (by simp) g (by simp)
        obtain ⟨z, hz⟩ := hpair b (by simp) b (by simp)
        exact ⟨_, .short hx hy hz⟩
    · match cs, hsix with
      | [r, r', g, g', b, b'], _ =>
        obtain ⟨x, hx⟩ := hpair r (by simp) r' (by simp)
        obtain ⟨y, hy⟩ := hpair g (by simp) g' (by simp)
        obtain ⟨z, hz⟩ := hpair b (by simp) b' (by simp)
        exact ⟨_, .solid hx hy hz⟩
    · match cs, height with
      | [r, r', g, g', b, b', a, a'], _ =>
        obtain ⟨x, hx⟩ := hpair r (by simp) r' (by simp)
        obtain ⟨y, hy⟩ := hpair g (by simp) g' (by simp)
        obtain ⟨z, hz⟩ := hpair b (by simp) b' (by simp)
        obtain ⟨w, hw⟩ := hpair a (by simp) a' (by simp)
        exact ⟨_, .full hx hy hz hw⟩

/-! ### Reading -/

theorem ofNat_eq_iff {n : Nat} (hn : n < 256) : UInt8.ofNat n = v ↔ v.toNat = n := by
  constructor
  · rintro rfl
    exact UInt8.toNat_ofNat_of_lt' hn
  · rintro rfl
    exact UInt8.ofNat_toNat

/-- A pair of digits, told by their values. -/
theorem isPair_iff : IsPair a b v ↔
    ∃ m n, hexValue? a = some m ∧ hexValue? b = some n ∧ v.toNat = 16 * m + n := by
  simp only [IsPair, hexValue?_eq_some_iff]

theorem readDigit_eq_ok : readDigit a = .ok v ↔ IsPair a a v := by
  unfold readDigit
  rw [isPair_iff]
  cases ha : hexValue? a with
  | none => simp
  | some n =>
    have hlt := (hexValue?_eq_some_iff.1 ha).1
    rw [Except.ok.injEq, ofNat_eq_iff (by omega)]
    simp only [Option.some.injEq, exists_eq_left', exists_and_left]
    omega

theorem readPair_eq_ok : readPair a b = .ok v ↔ IsTaken a b v := by
  unfold readPair IsTaken
  -- A plus sign in front is passed over, and one digit is left.
  by_cases hplus : a = '+'
  · subst hplus
    have hpair : ¬IsPair '+' b v := fun h => not_isHexDigit_plus _ h.digits.1.choose_spec
    rw [if_pos rfl, or_iff_right hpair, and_iff_right rfl, ← hexValue?_eq_some_iff]
    cases hb : hexValue? b with
    | none => simp
    | some n =>
      have hlt := (hexValue?_eq_some_iff.1 hb).1
      rw [Except.ok.injEq, ofNat_eq_iff (by omega), Option.some.injEq, eq_comm]
  · rw [if_neg hplus, or_iff_left fun h => hplus h.1, isPair_iff]
    cases ha : hexValue? a with
    | none => simp
    | some m =>
      cases hb : hexValue? b with
      | none => simp
      | some n =>
        have hm := (hexValue?_eq_some_iff.1 ha).1
        have hn := (hexValue?_eq_some_iff.1 hb).1
        show Except.ok (UInt8.ofNat (m * 16 + n)) = .ok v ↔ _
        rw [Except.ok.injEq, ofNat_eq_iff (by omega)]
        simp only [Option.some.injEq, exists_eq_left', exists_and_left]
        omega

/-- Everything that is taken for a color is ASCII. -/
theorem Spells.ascii (h : Spells IsTaken cs c) : ∀ d ∈ cs, d.toNat < 128 := by
  have hpair : ∀ {a b v}, IsPair a b v → a.toNat < 128 ∧ b.toNat < 128 := by
    rintro a b v ⟨_, _, hm, hn, _⟩
    exact ⟨hm.ascii, hn.ascii⟩
  have htaken : ∀ {a b v}, IsTaken a b v → a.toNat < 128 ∧ b.toNat < 128 := by
    rintro a b v (h | ⟨rfl, hn⟩)
    · exact hpair h
    · exact ⟨by decide, hn.ascii⟩
  cases h with
  | short red green blue => simp [hpair red, hpair green, hpair blue]
  | solid red green blue => simp [htaken red, htaken green, htaken blue]
  | full red green blue opacity =>
    simp [htaken red, htaken green, htaken blue, htaken opacity]

/-- What is read behind a hash is what is taken for a color there. -/
theorem readHex_eq_ok : readHex cs = .ok c ↔ Spells IsTaken cs c := by
  constructor
  · intro h
    -- The text is read by its length: three digits, three pairs or four.
    unfold readHex at h
    split at h
    · cases h
    split at h
    · obtain ⟨x, hx, h⟩ := exists_ok_of_bind h
      obtain ⟨y, hy, h⟩ := exists_ok_of_bind h
      obtain ⟨z, hz, h⟩ := exists_ok_of_bind h
      cases h
      exact .short (readDigit_eq_ok.1 hx) (readDigit_eq_ok.1 hy) (readDigit_eq_ok.1 hz)
    · obtain ⟨x, hx, h⟩ := exists_ok_of_bind h
      obtain ⟨y, hy, h⟩ := exists_ok_of_bind h
      obtain ⟨z, hz, h⟩ := exists_ok_of_bind h
      cases h
      exact .solid (readPair_eq_ok.1 hx) (readPair_eq_ok.1 hy) (readPair_eq_ok.1 hz)
    · obtain ⟨x, hx, h⟩ := exists_ok_of_bind h
      obtain ⟨y, hy, h⟩ := exists_ok_of_bind h
      obtain ⟨z, hz, h⟩ := exists_ok_of_bind h
      obtain ⟨w, hw, h⟩ := exists_ok_of_bind h
      cases h
      exact .full (readPair_eq_ok.1 hx) (readPair_eq_ok.1 hy) (readPair_eq_ok.1 hz)
        (readPair_eq_ok.1 hw)
    · cases h
  · intro h
    -- What spells a color has no letters but digits and a sign, so it passes the first check.
    have hascii : ¬(cs.any fun d => 0x7F < d.toNat) = true := by
      simp only [List.any_eq_true, decide_eq_true_eq]
      rintro ⟨d, hd, hlt⟩
      have := h.ascii d hd
      omega
    unfold readHex
    rw [if_neg hascii]
    cases h with
    | short red green blue =>
      dsimp only
      rw [readDigit_eq_ok.2 red, readDigit_eq_ok.2 green, readDigit_eq_ok.2 blue]
      rfl
    | solid red green blue =>
      dsimp only
      rw [readPair_eq_ok.2 red, readPair_eq_ok.2 green, readPair_eq_ok.2 blue]
      rfl
    | full red green blue opacity =>
      dsimp only
      rw [readPair_eq_ok.2 red, readPair_eq_ok.2 green, readPair_eq_ok.2 blue,
        readPair_eq_ok.2 opacity]
      rfl

/-- A text that begins with a hash, blanks apart, is read as a hexadecimal color. -/
theorem read_of_hash {s : String} (h : Text.trimChars s.toList = '#' :: cs) :
    read s = readHex cs := by
  unfold read
  rw [h]
  rfl

/-- Of a text that begins with a hash, every spelling of a color is read as the color it stands
    for, and the spellings are three, six or eight digits. Beyond that only pairs are read in which
    a plus sign stands for the first digit. -/
theorem read_hash {s : String} (h : Text.trimChars s.toList = '#' :: cs) :
    (∀ c, Spells IsPair cs c → read s = .ok c) ∧
      ('+' ∉ cs → ∀ c, read s = .ok c → Spells IsPair cs c) ∧
      (∀ c, read s = .ok c ↔ Spells IsTaken cs c) ∧
      ((∃ c, Spells IsPair cs c) ↔
        (cs.length = 3 ∨ cs.length = 6 ∨ cs.length = 8) ∧ ∀ d ∈ cs, ∃ n, IsHexDigit d n) := by
  have hread : ∀ c, read s = .ok c ↔ Spells IsTaken cs c := by
    intro c
    rw [read_of_hash h, readHex_eq_ok]
  refine ⟨fun c hc => (hread c).2 hc.taken, ?_, hread, exists_spells_iff⟩
  intro hplus c hc
  exact ((hread c).1 hc).paired hplus

/-- The accent, half transparent, in both cases and with blanks around it. -/
theorem read_hash_cyan :
    Text.trimChars "\t#22d3EE80 ".toList = '#' :: "22d3EE80".toList ∧
      Spells IsPair "22d3EE80".toList (cyan.withOpacity 0x80) ∧
      read "\t#22d3EE80 " = .ok (cyan.withOpacity 0x80) := by
  have htrimmed : Text.trimChars "\t#22d3EE80 ".toList = '#' :: "22d3EE80".toList := by decide
  have hspells : Spells IsPair "22d3EE80".toList (cyan.withOpacity 0x80) :=
    .full ⟨2, 2, by decide⟩ ⟨13, 3, by decide⟩ ⟨14, 14, by decide⟩ ⟨8, 0, by decide⟩
  exact ⟨htrimmed, hspells, (read_hash htrimmed).1 _ hspells⟩

/-- Six characters, three of which are plus signs, are read as a color although they spell none. -/
theorem read_plus_signs :
    Text.trimChars "#+f+f+f".toList = '#' :: "+f+f+f".toList ∧
      read "#+f+f+f" = .ok (solid 15 15 15) ∧ ¬∃ c, Spells IsPair "+f+f+f".toList c := by
  refine ⟨by decide, by decide, ?_⟩
  rw [exists_spells_iff]
  rintro ⟨_, hdigits⟩
  obtain ⟨n, hn⟩ := hdigits '+' (by decide)
  exact not_isHexDigit_plus n hn

end Storyboard.Color
