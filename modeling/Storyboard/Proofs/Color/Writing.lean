import Storyboard.Decode.Basic
import Storyboard.Json.Writer
import Storyboard.Proofs.Color.Hexadecimal
import Storyboard.Proofs.Json.Strings
import Storyboard.Proofs.Text.Collapse

/-! # Colors written and read

    Every channel of a color is written as a pair of digits, so the text of a
    color is a spelling of it and read back as the color. Blanks around a text
    do not count when it is read, nor does the case of its letters
    (`read_written`). -/

namespace Storyboard.Color

open Number Text

variable {cs ds : List Char} {c : Color} {s t : String} {a b a' b' : Char} {v : UInt8}

/-- A color as a string of JSON. -/
def toJson (c : Color) : Json := .str c.text

/-! ### Written colors -/

/-- A channel is written as a pair of digits that stands for it. -/
theorem isPair_hexPair (v : UInt8) :
    IsPair (Nat.digitChar (v.toNat / 16)) (Nat.digitChar (v.toNat % 16)) v := by
  have hlt := v.toNat_lt
  exact ⟨_, _, isHexDigit_digitChar (by omega), isHexDigit_digitChar (by omega), by omega⟩

/-- A spelling of a color is read as it stands, for it neither begins nor ends with a blank. -/
theorem read_of_spells (h : Spells IsPair cs c) : read (String.ofList ('#' :: cs)) = .ok c := by
  have hdigits := (exists_spells_iff.1 ⟨c, h⟩).2
  have htrimmed : trimChars ('#' :: cs) = '#' :: cs := by
    refine trimChars_of_ends ?_ ?_
    · intro d hd
      obtain rfl := Option.some.inj hd
      decide
    intro d hd
    rcases List.mem_cons.1 (List.mem_of_getLast? hd) with rfl | hmem
    · decide
    · obtain ⟨n, hn⟩ := hdigits d hmem
      exact hn.not_blank
  rw [read_of_hash (by rw [String.toList_ofList]; exact htrimmed)]
  exact readHex_eq_ok.2 h.taken

theorem read_text (c : Color) : read c.text = .ok c :=
  read_of_spells (.full (isPair_hexPair _) (isPair_hexPair _) (isPair_hexPair _) (isPair_hexPair _))

/-- Without its opacity a color is read back solid. -/
theorem read_hexSolid (c : Color) : read (String.ofList c.hexSolid) = .ok (c.withOpacity 255) :=
  read_of_spells (.solid (isPair_hexPair _) (isPair_hexPair _) (isPair_hexPair _))

/-- A color that stands in JSON text is read back. -/
theorem decode_toJson (c : Color) (o : Decode.Origin) :
    (Json.parse? c.toJson.compact).map (Decode.color o) = some (.ok c) := by
  have hcolor : Decode.color o (.str c.text) = .ok c := by
    have htext : Decode.text o (.str c.text) = .ok c.text := rfl
    unfold Decode.color
    rw [htext]
    simp only [bind, Except.bind, read_text]
  rw [toJson, Json.parse?_compact_str, Option.map_some, hcolor]

/-! ### The case of letters -/

theorem IsPair.recase (h : IsPair a b v) (ha : a'.toLower = a.toLower)
    (hb : b'.toLower = b.toLower) : IsPair a' b' v := by
  obtain ⟨m, n, hm, hn, hv⟩ := h
  exact ⟨m, n, hm.recase ha, hn.recase hb, hv⟩

theorem IsTaken.recase (h : IsTaken a b v) (ha : a'.toLower = a.toLower)
    (hb : b'.toLower = b.toLower) : IsTaken a' b' v := by
  rcases h with hpair | ⟨rfl, hn⟩
  · exact .inl (hpair.recase ha hb)
  · exact .inr ⟨(toLower_eq_iff (by decide)).1 ha, hn.recase hb⟩

theorem Spells.recase (h : Spells IsTaken cs c)
    (hcase : ds.map Char.toLower = cs.map Char.toLower) : Spells IsTaken ds c := by
  cases h with
  | short red green blue =>
    simp only [List.map_cons, List.map_nil, List.map_eq_cons_iff, List.map_eq_nil_iff] at hcase
    obtain ⟨r, _, rfl, hr, g, _, rfl, hg, b, _, rfl, hb, rfl⟩ := hcase
    exact .short (red.recase hr hr) (green.recase hg hg) (blue.recase hb hb)
  | solid red green blue =>
    simp only [List.map_cons, List.map_nil, List.map_eq_cons_iff, List.map_eq_nil_iff] at hcase
    obtain ⟨r, _, rfl, hr, r', _, rfl, hr', g, _, rfl, hg, g', _, rfl, hg', b, _, rfl, hb,
      b', _, rfl, hb', rfl⟩ := hcase
    exact .solid (red.recase hr hr') (green.recase hg hg') (blue.recase hb hb')
  | full red green blue opacity =>
    simp only [List.map_cons, List.map_nil, List.map_eq_cons_iff, List.map_eq_nil_iff] at hcase
    obtain ⟨r, _, rfl, hr, r', _, rfl, hr', g, _, rfl, hg, g', _, rfl, hg', b, _, rfl, hb,
      b', _, rfl, hb', a, _, rfl, ha, a', _, rfl, ha', rfl⟩ := hcase
    exact .full (red.recase hr hr') (green.recase hg hg') (blue.recase hb hb')
      (opacity.recase ha ha')

theorem readHex_recase (hcase : ds.map Char.toLower = cs.map Char.toLower) :
    (readHex ds).toOption = (readHex cs).toOption := by
  refine toOption_congr fun c => ?_
  rw [readHex_eq_ok, readHex_eq_ok]
  exact ⟨fun h => h.recase hcase.symm, fun h => h.recase hcase⟩

/-- What does not begin with a hash is read as a functional form, in lower case. -/
theorem read_of_not_hash (h : ∀ cs, trimChars s.toList ≠ '#' :: cs) :
    (read s).toOption =
      (functionBody? ((trimChars s.toList).map Char.toLower)).bind
        fun body => (readComponents body).toOption := by
  unfold read
  split
  · next cs hcs => exact absurd hcs (h cs)
  · split
    · next body hbody => rw [hbody]; rfl
    · next hbody => rw [hbody]; rfl

/-- Texts that differ in the case of their letters alone are read as the same color. -/
theorem read_recase (hcase : lower t = lower s) : (read t).toOption = (read s).toOption := by
  have htrimmed :
      (trimChars t.toList).map Char.toLower = (trimChars s.toList).map Char.toLower := by
    rw [← trimChars_lower, ← trimChars_lower, ← String.toList_map, ← String.toList_map]
    exact congrArg (fun u => trimChars (String.toList u)) hcase
  -- A hash has no case, so either both texts begin with one or neither does.
  have hhash : ∀ {xs ys : List Char} {cs}, ys.map Char.toLower = xs.map Char.toLower →
      xs = '#' :: cs → ∃ ds, ys = '#' :: ds ∧ ds.map Char.toLower = cs.map Char.toLower := by
    rintro xs ys cs hsame rfl
    obtain ⟨d, ds, rfl, hd, hds⟩ := List.map_eq_cons_iff.1 hsame
    obtain rfl : d = '#' := (toLower_eq_iff (by decide)).1 hd
    exact ⟨ds, rfl, hds⟩
  by_cases hs : ∃ cs, trimChars s.toList = '#' :: cs
  · obtain ⟨cs, hcs⟩ := hs
    obtain ⟨ds, hds, hsame⟩ := hhash htrimmed hcs
    rw [read_of_hash hcs, read_of_hash hds]
    exact readHex_recase hsame
  · have ht : ∀ ds, trimChars t.toList ≠ '#' :: ds := by
      intro ds hds
      obtain ⟨cs, hcs, _⟩ := hhash htrimmed.symm hds
      exact hs ⟨cs, hcs⟩
    rw [read_of_not_hash ht, read_of_not_hash fun cs hcs => hs ⟨cs, hcs⟩, htrimmed]

/-! ### Blanks -/

/-- Blanks around a text make no difference to it. -/
theorem read_append {before after : String} (hbefore : isBlankText before = true)
    (hafter : isBlankText after = true) (s : String) : read (before ++ s ++ after) = read s := by
  unfold read
  rw [String.toList_append, String.toList_append, trimChars_append hbefore hafter]

/-- Every color is read back from its text, from its string of JSON and, solid, from its text
    without the opacity. Whatever the text, neither blanks around it nor the case of its letters
    make a difference to the color that is read. -/
theorem read_written :
    (∀ c : Color, read c.text = .ok c ∧
      (∀ o, (Json.parse? c.toJson.compact).map (Decode.color o) = some (.ok c)) ∧
      read (String.ofList c.hexSolid) = .ok (c.withOpacity 255)) ∧
    (∀ before s after : String, isBlankText before = true → isBlankText after = true →
      read (before ++ s ++ after) = read s) ∧
    ∀ s t : String, lower t = lower s → (read t).toOption = (read s).toOption := by
  refine ⟨fun c => ⟨read_text c, decode_toJson c, read_hexSolid c⟩, ?_, ?_⟩
  · exact fun before s after hbefore hafter => read_append hbefore hafter s
  · exact fun s t hcase => read_recase hcase

/-- A color in capitals, and with blanks around it, is read as the color that is written. -/
theorem read_decorated :
    isBlankText "\t" = true ∧ isBlankText " \n" = true ∧ lower "#22D3EE80" = lower "#22d3ee80" ∧
      (Color.mk 0x22 0xd3 0xee 0x80).text = "#22d3ee80" ∧
      (read ("\t" ++ "#22D3EE80" ++ " \n")).toOption = some ⟨0x22, 0xd3, 0xee, 0x80⟩ := by
  have hlower : lower "#22D3EE80" = lower "#22d3ee80" := by
    rw [lower, lower, ← String.toList_inj, String.toList_map, String.toList_map]
    decide
  have htext : (Color.mk 0x22 0xd3 0xee 0x80).text = "#22d3ee80" := by decide
  obtain ⟨hwritten, hblanks, hcase⟩ := read_written
  refine ⟨by decide, by decide, hlower, htext, ?_⟩
  rw [hblanks _ _ _ (by decide) (by decide), hcase _ _ hlower, ← htext, (hwritten _).1]
  rfl

end Storyboard.Color
