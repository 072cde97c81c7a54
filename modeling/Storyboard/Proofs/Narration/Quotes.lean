import Mathlib.Data.List.TakeWhile
import Storyboard.Proofs.Narration.Rules

/-! # Quoted words

    The rule that takes quotes off looks for single words between two quotes
    (`finds_unquote`), and two quotes go with each of them
    (`countP_unquote_add_le`). Its pass can leave a quoted word where two quotes
    stood side by side or where a quote stood inside a word, and nowhere else
    (`not_occurs_unquote`). -/

namespace Storyboard.Narration

open Storyboard.Text

variable {q : Char} {c : Char} {cs words rest : List Char} {n : Nat}

/-! ### The rule -/

/-- Whether `c` is a quote. -/
def isQuote (c : Char) : Bool := c == '\'' || c == '"'

theorem isQuote_iff : isQuote q = true ↔ q = '\'' ∨ q = '"' := by
  simp [isQuote]

theorem isWord_eq_false_of_isQuote (hq : isQuote q = true) : isWord q = false := by
  rcases isQuote_iff.1 hq with rfl | rfl
  all_goals decide

/-- A single word between two quotes. -/
def IsQuotedWord (q : Char) (cs : List Char) : Prop :=
  ∃ word, word ≠ [] ∧ (∀ c ∈ word, isWord c = true) ∧ cs = q :: (word ++ [q])

theorem unquote_eq_some_iff (hq : isQuote q = true) : unquote q cs = some (words, n) ↔
    words ≠ [] ∧ (∀ c ∈ words, isWord c = true) ∧ n = words.length + 2 ∧
      q :: (words ++ [q]) <+: cs := by
  constructor
  · intro h
    cases cs with
    | nil => simp [unquote] at h
    | cons c cs =>
      simp only [unquote, Option.ite_none_right_eq_some, Option.some.injEq, Prod.mk.injEq] at h
      obtain ⟨⟨hc, hne, hclose⟩, hwords, hn⟩ := h
      rw [hwords] at hne hclose hn
      have hword : ∀ c ∈ words, isWord c = true := by
        intro c hc
        rw [← hwords] at hc
        exact List.mem_takeWhile_imp hc
      have hsplit : words ++ cs.drop words.length = cs := by
        have hstart : words <+: cs := hwords ▸ List.takeWhile_prefix isWord
        exact List.prefix_iff_eq_append.1 hstart
      obtain ⟨behind, hbehind⟩ := List.head?_eq_some_iff.1 hclose
      refine ⟨hne, hword, hn.symm, behind, ?_⟩
      rw [hbehind] at hsplit
      simp [hc, ← hsplit]
  · intro h
    obtain ⟨hne, hword, hn, behind, hsplit⟩ := h
    -- The word ends with `words`, since a quote is no word character.
    have htake : (words ++ q :: behind).takeWhile isWord = words := by
      have hclose := isWord_eq_false_of_isQuote hq
      rw [List.takeWhile_append_of_pos hword, List.takeWhile_cons_of_neg (by simp [hclose]),
        List.append_nil]
    have hform : cs = q :: (words ++ q :: behind) := by simp [← hsplit]
    simp [hform, unquote, htake, hne, hn]

/-- The rule looks for quoted words. -/
theorem finds_unquote (hq : isQuote q = true) : (unquote q).Finds (IsQuotedWord q) := by
  intro cs
  rw [Option.eq_none_iff_forall_ne_some]
  constructor
  · rintro hnone ⟨part, ⟨word, hne, hword, rfl⟩, hstart⟩
    exact hnone (word, _) ((unquote_eq_some_iff hq).2 ⟨hne, hword, rfl, hstart⟩)
  · intro hnot ⟨words, n⟩ hfound
    obtain ⟨hne, hword, -, hstart⟩ := (unquote_eq_some_iff hq).1 hfound
    exact hnot ⟨_, ⟨words, hne, hword, rfl⟩, hstart⟩

/-- Two quotes go with every word. -/
theorem countP_unquoted (hq : isQuote q = true) (hfound : unquote q (c :: cs) = some (words, n)) :
    words.countP isQuote + 2 ≤ (c :: cs.take (n - 1)).countP isQuote := by
  obtain ⟨-, hword, hn, hstart⟩ := (unquote_eq_some_iff hq).1 hfound
  obtain ⟨hc, hbehind⟩ := List.cons_prefix_cons.1 hstart
  have htake : cs.take (n - 1) = words ++ [q] := by
    rw [List.prefix_iff_eq_take.1 hbehind]
    simp [hn]
  rw [htake, ← hc]
  simp [hq]

theorem countP_unquote_le (hq : isQuote q = true) (cs : List Char) :
    ((unquote q).replaceAll cs).countP isQuote ≤ cs.countP isQuote := by
  apply Rule.countP_replaceAll_le
  intro c cs words n hfound
  have hpassage := countP_unquoted hq hfound
  omega

/-- A pass that finds a quoted word leaves two quotes less. -/
theorem countP_unquote_add_le (hq : isQuote q = true) (hoccurs : Occurs (IsQuotedWord q) cs) :
    ((unquote q).replaceAll cs).countP isQuote + 2 ≤ cs.countP isQuote := by
  apply Rule.countP_replaceAll_add_le
  · intro c cs words n hfound
    exact countP_unquoted hq hfound
  · rfl
  · intro hstill
    exact (finds_unquote hq).isStill_iff.1 hstill hoccurs

/-! ### What one pass leaves -/

/-- Two quotes side by side. -/
def IsQuotePair (cs : List Char) : Prop :=
  ∃ c d, isQuote c = true ∧ isQuote d = true ∧ cs = [c, d]

/-- A quote `q` between two word characters. -/
def IsQuoteInWord (q : Char) (cs : List Char) : Prop :=
  ∃ c d, isWord c = true ∧ isWord d = true ∧ cs = [c, q, d]

/-- What begins with a quote in the new text was kept. -/
theorem exists_kept_quote (hq : isQuote q = true) (hc : isQuote c = true)
    (h : c :: rest <:+ (unquote q).replaceAll cs) :
    ∃ old, c :: old <:+ cs ∧ unquote q (c :: old) = none ∧ rest = (unquote q).replaceAll old := by
  apply Rule.exists_kept h
  intro old words n hfound t ht
  obtain ⟨-, hword, -⟩ := (unquote_eq_some_iff hq).1 hfound
  have hletter := hword c (ht.subset List.mem_cons_self)
  simp [isWord_eq_false_of_isQuote hc] at hletter

/-- A word with a quote behind it stood in the old text, or in the old text a quoted word began
    inside. -/
theorem prefix_or_quote_of_unquote {word : List Char} (hq : isQuote q = true)
    (hc : isQuote c = true) (hword : ∀ c ∈ word, isWord c = true)
    (h : word ++ [c] <+: (unquote q).replaceAll cs) :
    word ++ [c] <+: cs ∨ ∃ before d, before ++ [d] <+: word ∧ before ++ [q, d] <+: cs := by
  induction cs using (unquote q).passages_induction generalizing word with
  | nil => simp at h
  | kept e cs hr ih =>
    rw [Rule.replaceAll_of_none hr] at h
    cases word with
    | nil =>
      left
      simpa using h
    | cons d word =>
      rw [List.forall_mem_cons] at hword
      obtain ⟨rfl, hrest⟩ := List.cons_prefix_cons.1 h
      rcases ih hword.2 hrest with hold | ⟨before, b, hbefore, hquote⟩
      · left
        exact (List.prefix_cons_inj d).2 hold
      · right
        have hfront := (List.prefix_cons_inj d).2 hbefore
        exact ⟨d :: before, b, hfront, (List.prefix_cons_inj d).2 hquote⟩
  | replaced e cs words n hr _ =>
    -- The first character of the passage is the quote, and the word goes on with the new words.
    right
    obtain ⟨hne, hwords, -, hstart⟩ := (unquote_eq_some_iff hq).1 hr
    obtain ⟨d, words, rfl⟩ := List.exists_cons_of_ne_nil hne
    rw [Rule.replaceAll_of_some hr] at h
    refine ⟨[], d, ?_, (List.prefix_append [q, d] (words ++ [q])).trans hstart⟩
    cases word with
    | nil =>
      have hletter := hwords d List.mem_cons_self
      rw [← (List.cons_prefix_cons.1 h).1] at hletter
      simp [isWord_eq_false_of_isQuote hc] at hletter
    | cons b word =>
      rw [← (List.cons_prefix_cons.1 h).1]
      exact List.prefix_append [b] word

/-- The first character of the new text was the first before, or it was the first of a quoted
    word. -/
theorem front_of_unquote (hq : isQuote q = true) (h : c :: rest = (unquote q).replaceAll cs) :
    (∃ old, cs = c :: old ∧ rest = (unquote q).replaceAll old) ∨
      isWord c = true ∧ ∃ old, cs = q :: old := by
  cases cs with
  | nil => simp at h
  | cons d old =>
    cases hr : unquote q (d :: old) with
    | none =>
      left
      rw [Rule.replaceAll_of_none hr] at h
      obtain ⟨rfl, hrest⟩ := List.cons.inj h
      exact ⟨old, rfl, hrest⟩
    | some found =>
      right
      obtain ⟨hne, hwords, -, hstart⟩ := (unquote_eq_some_iff hq).1 hr
      obtain ⟨b, words, hform⟩ := List.exists_cons_of_ne_nil hne
      rw [Rule.replaceAll_of_some hr, hform, List.cons_append] at h
      obtain ⟨rfl, -⟩ := List.cons.inj h
      rw [hform] at hwords
      exact ⟨hwords c List.mem_cons_self, old, by rw [(List.cons_prefix_cons.1 hstart).1]⟩

/-- A quote in front of the new text was in front before. -/
theorem front_of_quote (hq : isQuote q = true) (hc : isQuote c = true)
    (h : c :: rest = (unquote q).replaceAll cs) :
    ∃ old, cs = c :: old ∧ rest = (unquote q).replaceAll old := by
  rcases front_of_unquote hq h with hkept | ⟨hletter, -⟩
  · exact hkept
  · simp [isWord_eq_false_of_isQuote hc] at hletter

/-- Where no two quotes stand side by side, none do after the pass. -/
theorem not_occurs_quotePair (hq : isQuote q = true) (hpair : ¬Occurs IsQuotePair cs) :
    ¬Occurs IsQuotePair ((unquote q).replaceAll cs) := by
  intro hoccurs
  obtain ⟨rest, hsuffix, part, ⟨c, d, hc, hd, rfl⟩, more, rfl⟩ := occurs_iff_suffix.1 hoccurs
  obtain ⟨old, hold, -, hrest⟩ := exists_kept_quote hq hc hsuffix
  obtain ⟨behind, rfl, -⟩ := front_of_quote hq hd hrest
  apply hpair
  exact occurs_of_start ⟨c, d, hc, hd, rfl⟩ (List.prefix_append [c, d] behind) hold

/-- Then no other quote gets between two word characters either. -/
theorem not_occurs_quoteInWord {q' : Char} (hq : isQuote q = true) (hq' : isQuote q' = true)
    (hpair : ¬Occurs IsQuotePair cs) (hinside : ¬Occurs (IsQuoteInWord q') cs) :
    ¬Occurs (IsQuoteInWord q') ((unquote q).replaceAll cs) := by
  intro hoccurs
  obtain ⟨rest, hsuffix, part, ⟨c, d, hc, hd, rfl⟩, more, rfl⟩ := occurs_iff_suffix.1 hoccurs
  rcases Rule.kept_or_new hsuffix with ⟨old, hold, -, hrest⟩ |
    ⟨e, old, words, n, t, hold, hfound, ht, hrest⟩
  · -- The character in front was kept, and with it the quote.
    obtain ⟨behind, rfl, hafter⟩ := front_of_quote hq hq' hrest
    rcases front_of_unquote hq hafter with ⟨last, rfl, -⟩ | ⟨-, last, rfl⟩
    · apply hinside
      exact occurs_of_start ⟨c, d, hc, hd, rfl⟩ (List.prefix_append [c, q', d] last) hold
    · apply hpair
      have hlater := (List.suffix_cons c (q' :: q :: last)).trans hold
      exact occurs_of_start ⟨q', q, hq', hq, rfl⟩ (List.prefix_append [q', q] last) hlater
  · -- The character in front is the last of a quoted word, so the quotes stood side by side.
    obtain ⟨-, hwords, hn, hstart⟩ := (unquote_eq_some_iff hq).1 hfound
    have hempty : t = [] := by
      cases t with
      | nil => rfl
      | cons b t =>
        have hletter := hwords b (ht.subset (by simp))
        rw [← (List.cons.inj hrest).1] at hletter
        simp [isWord_eq_false_of_isQuote hq'] at hletter
    rw [hempty, List.nil_append] at hrest
    obtain ⟨after, hafter⟩ := (List.cons_prefix_cons.1 hstart).2
    have hdrop : old.drop (n - 1) = after := by
      rw [← hafter]
      exact List.drop_left' (by simp [hn])
    rw [hdrop] at hrest
    obtain ⟨behind, rfl, -⟩ := front_of_quote hq hq' hrest
    have hquotes : [q, q'] <:+: e :: old := ⟨e :: words, behind, by simp [← hafter]⟩
    exact hpair ⟨_, ⟨q, q', hq, hq', rfl⟩, hquotes.trans hold.isInfix⟩

/-- The pass leaves no quoted word. -/
theorem not_occurs_unquote {q' : Char} (hq : isQuote q = true) (hq' : isQuote q' = true)
    (hpair : ¬Occurs IsQuotePair cs)
    (hother : q' = q ∨ ¬Occurs (IsQuotedWord q') cs ∧ ¬Occurs (IsQuoteInWord q) cs) :
    ¬Occurs (IsQuotedWord q') ((unquote q).replaceAll cs) := by
  intro hoccurs
  obtain ⟨rest, hsuffix, part, ⟨word, hne, hword, rfl⟩, more, rfl⟩ := occurs_iff_suffix.1 hoccurs
  obtain ⟨old, hold, hnone, hrest⟩ := exists_kept_quote hq hq' hsuffix
  have hnot := (finds_unquote hq _).1 hnone
  have hbehind : word ++ [q'] <+: (unquote q).replaceAll old := ⟨more, hrest⟩
  rcases prefix_or_quote_of_unquote hq hq' hword hbehind with hstood | ⟨before, d, hin, hquote⟩
  · -- The word was quoted before, and it is not this pass that takes such quotes off.
    have hpart : IsQuotedWord q' (q' :: (word ++ [q'])) := ⟨word, hne, hword, rfl⟩
    have hstart := (List.prefix_cons_inj q').2 hstood
    rcases hother with rfl | ⟨hquoted, -⟩
    · exact hnot ⟨_, hpart, hstart⟩
    · exact hquoted (occurs_of_start hpart hstart hold)
  · -- A quoted word began inside: right behind the first quote, or inside a word.
    have hletters : ∀ c ∈ before ++ [d], isWord c = true := fun c hc => hword c (hin.subset hc)
    rw [List.forall_mem_append] at hletters
    rcases List.eq_nil_or_concat before with rfl | ⟨front, e, rfl⟩
    · apply hpair
      have hpart : IsQuotePair [q', q] := ⟨q', q, hq', hq, rfl⟩
      have htwo : [q', q] <+: q' :: ([] ++ [q, d]) := List.prefix_append [q', q] [d]
      exact occurs_of_start hpart (htwo.trans ((List.prefix_cons_inj q').2 hquote)) hold
    · rcases hother with rfl | ⟨-, hinside⟩
      · apply hnot
        refine ⟨_, ⟨front.concat e, by simp, hletters.1, rfl⟩, ?_⟩
        have hshort : front.concat e ++ [q'] <+: front.concat e ++ [q', d] := ⟨[d], by simp⟩
        exact (List.prefix_cons_inj q').2 (hshort.trans hquote)
      · apply hinside
        have hpart : IsQuoteInWord q [e, q, d] :=
          ⟨e, d, hletters.1 e (by simp), hletters.2 d (by simp), rfl⟩
        have hin : [e, q, d] <:+: old := by
          obtain ⟨behind, hbehind⟩ := hquote
          exact ⟨front, behind, by simpa using hbehind⟩
        exact ⟨_, hpart, hin.trans ((List.suffix_cons q' old).trans hold).isInfix⟩

end Storyboard.Narration
