import Mathlib.Logic.Function.Iterate
import Storyboard.Proofs.Narration.Cleaning

/-! # Cleaning more than once

    The passes that take quotes off go over a text once, so taking off one pair
    may show another word in quotes (`clean_not_idempotent`). Cleaning once more
    changes a cleaned text exactly if it holds a quoted word. It holds none if
    in the text no two quotes stood side by side and no double quote inside a
    word; and however the quotes stand, cleaning comes to rest, since every
    time that changes a cleaned text takes two quotes (`clean_again`). -/

namespace Storyboard.Narration

open Storyboard.Text

variable {s : Spelling} {words : String} {q : Char} {cs : List Char} {n : Nat}

/-! ### Quotes that stand apart -/

/-- No two quotes side by side, and no double quote inside a word. -/
structure IsCalm (cs : List Char) : Prop where
  noPair    : ¬Occurs IsQuotePair cs
  notInWord : ¬Occurs (IsQuoteInWord '"') cs

/-- Then both passes together leave no quoted word. -/
theorem IsCalm.not_hasQuotedWord (h : IsCalm cs) : ¬HasQuotedWord (unquoted cs) := by
  have hpair := not_occurs_quotePair (q := '\'') rfl h.noPair
  have hinside : ¬Occurs (IsQuoteInWord '"') ((unquote '\'').replaceAll cs) :=
    not_occurs_quoteInWord rfl rfl h.noPair h.notInWord
  have hsingle := not_occurs_unquote (q := '\'') rfl rfl h.noPair (Or.inl rfl)
  rintro ⟨q, hq, hoccurs⟩
  rcases isQuote_iff.1 hq with rfl | rfl
  · exact not_occurs_unquote rfl rfl hpair (Or.inr ⟨hsingle, hinside⟩) hoccurs
  · exact not_occurs_unquote rfl rfl hpair (Or.inl rfl) hoccurs

/-- No quoted word comes in where running times are written out. -/
theorem not_hasQuotedWord_spoken (ho : IsOrder s words) (h : ¬HasQuotedWord cs) :
    ¬HasQuotedWord ((s.spoken words).replaceAll cs) := by
  rintro ⟨q, hq, hoccurs⟩
  have hplain : q ∉ words.toList := by
    intro hin
    have hnot := ho.plain q hin
    simp [isQuote, hnot] at hq
  have hspace : ' ' ≠ q := by
    intro heq
    subst heq
    simp [isQuote] at hq
  obtain ⟨rest, hsuffix, part, ⟨word, hne, hword, rfl⟩, more, rfl⟩ := occurs_iff_suffix.1 hoccurs
  have hapart : ∀ old ws n, s.spoken words old = some (ws, n) → ∀ t, q :: t <:+ ws →
      ¬q :: t <+: q :: (word ++ [q]) ++ more := by
    intro old ws n hfound t ht
    rw [IsOrder.words_of_spoken hfound] at ht
    exact absurd (ht.subset List.mem_cons_self) hplain
  obtain ⟨old, hold, -, hrest⟩ := Rule.exists_kept hsuffix hapart
  apply h
  refine ⟨q, hq, occurs_of_start ⟨word, hne, hword, rfl⟩ ((List.prefix_cons_inj q).2 ?_) hold⟩
  -- The word is not one of the new ones: a blank follows the first of these.
  apply Rule.prefix_of_replaceAll ⟨more, hrest⟩
  intro old ws n hfound t ht hboth
  rw [IsOrder.words_of_spoken hfound] at hboth
  rcases List.suffix_concat_iff.1 ht with hnil | ⟨front, rfl, hfront⟩
  · exact hnil
  · exfalso
    rcases hboth with hshort | hlong
    · exact hplain (hshort.subset (by simp))
    · obtain ⟨ending, hspoken, -⟩ := ho.spoken
      have hblank : ' ' ∈ front ++ [q] := hlong.subset (by simp [hspoken])
      rw [List.mem_append, List.mem_singleton] at hblank
      rcases hblank with hin | heq
      · exact absurd (hword _ (hfront.subset hin)) (by decide)
      · exact hspace heq

/-- A passage without spaces that is in front once blanks are collapsed was in front before. -/
theorem prefix_of_collapseBlanks {ds : List Char} (hspace : ' ' ∉ ds)
    (h : ds <+: collapseBlanks cs) : ds <+: cs := by
  induction ds generalizing cs with
  | nil => exact List.nil_prefix
  | cons d ds ih =>
    rw [List.mem_cons, not_or] at hspace
    cases cs with
    | nil => simp [collapseBlanks] at h
    | cons c cs =>
      by_cases hc : isBlank c = true
      · rw [collapseBlanks_of_blank hc, List.cons_prefix_cons] at h
        exact absurd h.1.symm hspace.1
      · rw [collapseBlanks_of_not_blank (by simpa using hc), List.cons_prefix_cons] at h
        exact List.cons_prefix_cons.2 ⟨h.1, ih hspace.2 h.2⟩

/-- No quoted word comes in where blanks are collapsed. -/
theorem not_hasQuotedWord_collapseBlanks (h : ¬HasQuotedWord cs) :
    ¬HasQuotedWord (collapseBlanks cs) := by
  rintro ⟨q, hq, hoccurs⟩
  obtain ⟨rest, hsuffix, part, hpart, hstart⟩ := occurs_iff_suffix.1 hoccurs
  obtain ⟨old, hold, rfl⟩ := exists_suffix_of_collapse hsuffix
  have hspace : ' ' ∉ part := by
    obtain ⟨word, -, hword, rfl⟩ := hpart
    intro hin
    simp only [List.mem_cons, List.mem_append, List.not_mem_nil, or_false] at hin
    rcases hin with rfl | hin | rfl
    · simp [isQuote] at hq
    · exact absurd (hword _ hin) (by decide)
    · simp [isQuote] at hq
  exact h ⟨q, hq, occurs_of_start hpart (prefix_of_collapseBlanks hspace hstart) hold⟩

theorem IsCalm.not_hasQuotedWord_cleanChars (h : IsCalm (withoutBackQuotes cs)) :
    ¬HasQuotedWord (cleanChars cs) := by
  have hspoken : ¬HasQuotedWord (spokenOrders orders (unquoted (withoutBackQuotes cs))) := by
    apply spokenOrders_induction (motive := fun ds => ¬HasQuotedWord ds) isOrder_of_mem _
      h.not_hasQuotedWord
    intro s words ds ho hds
    exact not_hasQuotedWord_spoken ho hds
  rw [cleanChars_eq]
  rintro ⟨q, hq, hoccurs⟩
  exact not_hasQuotedWord_collapseBlanks hspoken ⟨q, hq, hoccurs.of_infix (trimChars_inner _)⟩

/-! ### Cleaning again and again -/

theorem countP_withoutBackQuotes (cs : List Char) :
    (withoutBackQuotes cs).countP isQuote = cs.countP isQuote := by
  apply countP_filter_isQuote
  intro q hq
  rcases isQuote_iff.1 hq with rfl | rfl
  all_goals decide

/-- Cleaning brings in no quotes. -/
theorem countP_cleanChars_le (cs : List Char) :
    (cleanChars cs).countP isQuote ≤ cs.countP isQuote := by
  have hclean := countP_cleanChars_le_unquoted cs
  have hunquoted := countP_unquoted_le (withoutBackQuotes cs)
  rw [countP_withoutBackQuotes] at hunquoted
  omega

/-- A text that is fit to be spoken stays as it is once it was cleaned as often as it has pairs of
    quotes. -/
theorem IsSpoken.cleanChars_iterate (h : IsSpoken cs) (hquotes : cs.countP isQuote ≤ 2 * n + 1) :
    cleanChars (cleanChars^[n] cs) = cleanChars^[n] cs := by
  induction n generalizing cs with
  | zero =>
    -- A quoted word takes two quotes, and there is one at most.
    apply h.cleanChars_eq_self_iff.2
    intro hquoted
    have hfewer := countP_unquoted_add_le hquoted
    omega
  | succ n ih =>
    by_cases hquoted : HasQuotedWord cs
    · have hfewer := countP_unquoted_add_le hquoted
      have hclean := countP_cleanChars_le_unquoted cs
      rw [h.withoutBackQuotes] at hclean
      rw [Function.iterate_succ_apply]
      exact ih (isSpoken_cleanChars cs) (by omega)
    · have hsame := h.cleanChars_eq_self_iff.2 hquoted
      rw [Function.iterate_fixed hsame, hsame]

theorem toList_clean_iterate (s : String) (n : Nat) :
    (clean^[n] s).toList = cleanChars^[n] s.toList := by
  induction n generalizing s with
  | zero => simp
  | succ n ih => rw [Function.iterate_succ_apply, ih, toList_clean, Function.iterate_succ_apply]

/-- Cleaning a cleaned text changes it exactly if it holds a quoted word; it holds none if the
    quotes stood apart, and none after as many cleanings as there were pairs of quotes, and one
    more. -/
theorem clean_again (s : String) :
    (clean (clean s) = clean s ↔ ¬HasQuotedWord (clean s).toList) ∧
      (IsCalm (withoutBackQuotes s.toList) → clean (clean s) = clean s) ∧
      ∀ n, s.toList.countP isQuote ≤ 2 * n + 1 → clean (clean^[n + 1] s) = clean^[n + 1] s := by
  have hspoken := isSpoken_cleanChars s.toList
  have hsame : clean (clean s) = clean s ↔ ¬HasQuotedWord (clean s).toList := by
    rw [← String.toList_inj, toList_clean, toList_clean]
    exact hspoken.cleanChars_eq_self_iff
  refine ⟨hsame, ?_, ?_⟩
  · intro hcalm
    rw [hsame, toList_clean]
    exact hcalm.not_hasQuotedWord_cleanChars
  · intro n hquotes
    have hless := countP_cleanChars_le s.toList
    rw [← String.toList_inj, toList_clean, toList_clean_iterate, Function.iterate_succ_apply]
    exact hspoken.cleanChars_iterate (by omega)

/-- One word in single quotes: they stand apart, so cleaning once is enough. -/
theorem clean_again_calm :
    let s := "It\n 'halts' here"
    IsCalm (withoutBackQuotes s.toList) ∧ clean s = "It halts here" ∧
      clean (clean s) = clean s := by
  intro s
  have hnone : '"' ∉ withoutBackQuotes s.toList := by decide
  have hapart : ¬['\'', '\''] <:+: withoutBackQuotes s.toList := by decide
  have hcalm : IsCalm (withoutBackQuotes s.toList) := by
    constructor
    · intro ⟨part, ⟨c, d, hc, hd, hpart⟩, hinner⟩
      have hmem := hinner.subset
      subst hpart
      rcases isQuote_iff.1 hc with rfl | rfl
      · rcases isQuote_iff.1 hd with rfl | rfl
        · exact hapart hinner
        · exact hnone (hmem (by simp))
      · exact hnone (hmem (by simp))
    · intro ⟨part, ⟨c, d, _, _, hpart⟩, hinner⟩
      subst hpart
      exact hnone (hinner.subset (by simp))
  exact ⟨hcalm, by decide, (clean_again s).2.1 hcalm⟩

/-- Cleaning once is not enough: of two pairs of quotes around a word one is left, and the next
    cleaning takes it. -/
theorem clean_not_idempotent : clean (clean "'\"a\"'") ≠ clean "'\"a\"'" ∧
    clean "'\"a\"'" = "'a'" ∧ clean "''a''" = "'a'" ∧ clean "\"\"a\"\"" = "\"a\"" := by
  decide

end Storyboard.Narration
