import Storyboard.Proofs.Narration.Quotes
import Storyboard.Proofs.Narration.Spelling

/-! # Clean texts

    Whatever a text holds, once cleaned it is fit to be spoken: no back quote is
    left in it, no running time that ought to be written out and no blanks but
    single spaces between other characters. Cleaning changes nothing exactly
    where the text is fit to be spoken and no word in it is quoted
    (`clean_spoken`): a pass that finds a quoted word leaves fewer quotes, and no
    pass brings any in. -/

namespace Storyboard.Narration

open Storyboard.Text

variable {os : List (Spelling × String)} {s : Spelling} {words : String} {cs : List Char}

/-! ### The passes -/

/-- Write out the running times `os`, one after another. -/
def spokenOrders (os : List (Spelling × String)) (cs : List Char) : List Char :=
  os.foldl (fun cs o => (o.1.spoken o.2).replaceAll cs) cs

/-- The text without its back quotes. -/
def withoutBackQuotes (cs : List Char) : List Char := cs.filter fun c => !isBackQuote c

/-- The text after its quoted words. -/
def unquoted (cs : List Char) : List Char := (unquote '"').replaceAll ((unquote '\'').replaceAll cs)

theorem cleanChars_eq (cs : List Char) : cleanChars cs =
    trimChars (collapseBlanks (spokenOrders orders (unquoted (withoutBackQuotes cs)))) := by
  simp [cleanChars, rules, List.foldl_map, spokenOrders, unquoted, withoutBackQuotes]

/-- What every pass keeps, all of them keep. -/
theorem spokenOrders_induction {motive : List Char → Prop} (hos : ∀ o ∈ os, IsOrder o.1 o.2)
    (pass : ∀ s words cs, IsOrder s words → motive cs → motive ((s.spoken words).replaceAll cs))
    (h : motive cs) : motive (spokenOrders os cs) := by
  induction os generalizing cs with
  | nil => exact h
  | cons o os ih =>
    rw [List.forall_mem_cons] at hos
    exact ih hos.2 (pass o.1 o.2 cs hos.1 h)

/-! ### What is gone -/

/-- A running time that is written out stands no longer, and none comes in later. -/
theorem not_occurs_spokenOrders (hos : ∀ o ∈ os, IsOrder o.1 o.2) (h : IsOrder s words)
    (hgone : (s, words) ∈ os ∨ ¬Occurs (Spells s) cs) :
    ¬Occurs (Spells s) (spokenOrders os cs) := by
  induction os generalizing cs with
  | nil =>
    rcases hgone with hnone | hnot
    · simp at hnone
    · exact hnot
  | cons o os ih =>
    rw [List.forall_mem_cons] at hos
    apply ih hos.2
    -- It goes in this pass or a later one, or it has gone and does not come back.
    rcases hgone with hin | hnot
    · rcases List.mem_cons.1 hin with rfl | hlater
      · exact Or.inr h.not_occurs_replaceAll
      · exact Or.inl hlater
    · exact Or.inr (hos.1.not_occurs_of_not_occurs h hnot)

theorem not_occurs_cleanChars {o : Spelling × String} (ho : o ∈ orders) (cs : List Char) :
    ¬Occurs (Spells o.1) (cleanChars cs) := by
  have h := isOrder_of_mem o ho
  rw [cleanChars_eq]
  intro hoccurs
  have hbefore := hoccurs.of_infix (trimChars_inner _)
  exact h.not_occurs_collapseBlanks (not_occurs_spokenOrders isOrder_of_mem h (Or.inl ho)) hbefore

theorem backQuote_not_mem_unquote {q : Char} (hq : isQuote q = true) (h : '\x60' ∉ cs) :
    '\x60' ∉ (unquote q).replaceAll cs := by
  intro hin
  rcases Rule.mem_replaceAll hin with hold | ⟨old, words, n, hfound, hnew⟩
  · exact h hold
  · have hletter := ((unquote_eq_some_iff hq).1 hfound).2.1 _ hnew
    exact absurd hletter (by decide)

theorem backQuote_not_mem_spoken (ho : IsOrder s words) (h : '\x60' ∉ cs) :
    '\x60' ∉ (s.spoken words).replaceAll cs := by
  intro hin
  rcases Rule.mem_replaceAll hin with hold | ⟨old, ws, n, hfound, hnew⟩
  · exact h hold
  · rw [IsOrder.words_of_spoken hfound] at hnew
    exact (ho.plain _ hnew).1 rfl

theorem mem_of_mem_collapseBlanks {c : Char} (hc : isBlank c = false)
    (h : c ∈ collapseBlanks cs) : c ∈ cs := by
  have hkept : c ∈ (collapseBlanks cs).filter fun c => !isBlank c :=
    List.mem_filter.2 ⟨h, by simp [hc]⟩
  rw [filter_collapseBlanks] at hkept
  exact (List.mem_filter.1 hkept).1

theorem backQuote_not_mem_cleanChars (cs : List Char) : '\x60' ∉ cleanChars cs := by
  have hplain : '\x60' ∉ withoutBackQuotes cs := by simp [withoutBackQuotes, isBackQuote]
  have hunquoted : '\x60' ∉ unquoted (withoutBackQuotes cs) :=
    backQuote_not_mem_unquote rfl (backQuote_not_mem_unquote rfl hplain)
  have hspoken : '\x60' ∉ spokenOrders orders (unquoted (withoutBackQuotes cs)) := by
    apply spokenOrders_induction (motive := fun ds => '\x60' ∉ ds) isOrder_of_mem _ hunquoted
    intro s words ds ho hds
    exact backQuote_not_mem_spoken ho hds
  rw [cleanChars_eq]
  intro hin
  exact hspoken (mem_of_mem_collapseBlanks (by decide) ((trimChars_inner _).subset hin))

/-! ### Fewer quotes -/

/-- A word in quotes of either kind. -/
def HasQuotedWord (cs : List Char) : Prop := ∃ q, isQuote q = true ∧ Occurs (IsQuotedWord q) cs

/-- Taking characters out that are no quotes leaves all quotes. -/
theorem countP_filter_isQuote {p : Char → Bool} (hp : ∀ q, isQuote q = true → p q = true)
    (cs : List Char) : (cs.filter p).countP isQuote = cs.countP isQuote := by
  rw [List.countP_filter]
  apply List.countP_congr
  intro c _
  by_cases hc : isQuote c = true
  · simp [hc, hp c hc]
  · simp [hc]

theorem not_isBlank_of_isQuote {c : Char} (hc : isQuote c = true) : (!isBlank c) = true := by
  rcases isQuote_iff.1 hc with rfl | rfl
  all_goals decide

theorem countP_spoken_le (ho : IsOrder s words) (cs : List Char) :
    ((s.spoken words).replaceAll cs).countP isQuote ≤ cs.countP isQuote := by
  apply Rule.countP_replaceAll_le
  intro c old ws n hfound
  have hnone : ws.countP isQuote = 0 := by
    rw [List.countP_eq_zero, IsOrder.words_of_spoken hfound]
    intro c hc
    simp [isQuote, ho.plain c hc]
  omega

theorem countP_spokenOrders_le (cs : List Char) :
    (spokenOrders orders cs).countP isQuote ≤ cs.countP isQuote := by
  apply spokenOrders_induction (motive := fun ds => ds.countP isQuote ≤ cs.countP isQuote)
    isOrder_of_mem _ (Nat.le_refl _)
  intro s words ds ho hds
  exact Nat.le_trans (countP_spoken_le ho ds) hds

theorem countP_collapseBlanks (cs : List Char) :
    (collapseBlanks cs).countP isQuote = cs.countP isQuote := by
  have hquotes := countP_filter_isQuote fun _ hq => not_isBlank_of_isQuote hq
  rw [← hquotes, filter_collapseBlanks, hquotes]

/-- Once the quoted words are done no pass brings quotes in. -/
theorem countP_cleanChars_le_unquoted (cs : List Char) :
    (cleanChars cs).countP isQuote ≤ (unquoted (withoutBackQuotes cs)).countP isQuote := by
  have hspoken := countP_spokenOrders_le (unquoted (withoutBackQuotes cs))
  have htrimmed := (trimChars_inner (collapseBlanks (spokenOrders orders
    (unquoted (withoutBackQuotes cs))))).sublist.countP_le (p := isQuote)
  rw [countP_collapseBlanks] at htrimmed
  rw [cleanChars_eq]
  omega

theorem countP_unquoted_le (cs : List Char) : (unquoted cs).countP isQuote ≤ cs.countP isQuote :=
  Nat.le_trans (countP_unquote_le rfl _) (countP_unquote_le rfl _)

/-- Wherever a word is quoted, two quotes go at least. -/
theorem countP_unquoted_add_le (h : HasQuotedWord cs) :
    (unquoted cs).countP isQuote + 2 ≤ cs.countP isQuote := by
  by_cases hsingle : Occurs (IsQuotedWord '\'') cs
  · have hfirst := countP_unquote_add_le rfl hsingle
    have hsecond := countP_unquote_le (q := '"') rfl ((unquote '\'').replaceAll cs)
    simp only [unquoted]
    omega
  · -- No word is in single quotes, so the first pass changes nothing.
    obtain ⟨q, hq, hoccurs⟩ := h
    have hstays := (finds_unquote (q := '\'') rfl).replaceAll_eq_self hsingle
    have hdouble : q = '"' := by
      rcases isQuote_iff.1 hq with rfl | rfl
      · exact absurd hoccurs hsingle
      · rfl
    rw [hdouble] at hoccurs
    simp only [unquoted, hstays]
    exact countP_unquote_add_le rfl hoccurs

theorem unquoted_eq_self (h : ¬HasQuotedWord cs) : unquoted cs = cs := by
  have hnone : ∀ q, isQuote q = true → (unquote q).replaceAll cs = cs := by
    intro q hq
    apply (finds_unquote hq).replaceAll_eq_self
    intro hoccurs
    exact h ⟨q, hq, hoccurs⟩
  rw [unquoted, hnone '\'' rfl, hnone '"' rfl]

/-! ### Texts fit to be spoken -/

/-- No back quote, no running time that is written out, and no blanks but single spaces between
    other characters. -/
structure IsSpoken (cs : List Char) : Prop where
  noBackQuote : '\x60' ∉ cs
  noOrder     : ∀ o ∈ orders, ¬Occurs (Spells o.1) cs
  neat        : IsNeat cs

theorem isSpoken_cleanChars (cs : List Char) : IsSpoken (cleanChars cs) where
  noBackQuote := backQuote_not_mem_cleanChars cs
  noOrder _ ho := not_occurs_cleanChars ho cs
  neat := by
    rw [cleanChars_eq]
    exact isNeat_trimChars_collapseBlanks _

namespace IsSpoken

variable (h : IsSpoken cs)

include h

/-- Whatever the blanks in it, none of the five running times stands in the text. -/
theorem not_occurs_isRunningTime : ¬Occurs IsRunningTime cs := by
  intro ⟨part, hpart, hinner⟩
  obtain ⟨o, ho, hspells⟩ := isRunningTime_iff.1 hpart
  exact h.noOrder o ho ⟨part, hspells, hinner⟩

theorem withoutBackQuotes : withoutBackQuotes cs = cs := by
  rw [Narration.withoutBackQuotes, List.filter_eq_self]
  intro c hc
  have hne : c ≠ '\x60' := by
    intro heq
    exact h.noBackQuote (heq ▸ hc)
  simp [isBackQuote, hne]

theorem spokenOrders : spokenOrders orders cs = cs := by
  have hall : ∀ os : List (Spelling × String), (∀ o ∈ os, o ∈ orders) →
      Narration.spokenOrders os cs = cs := by
    intro os hos
    induction os with
    | nil => rfl
    | cons o os ih =>
      rw [List.forall_mem_cons] at hos
      have hstays := (isOrder_of_mem o hos.1).finds.replaceAll_eq_self (h.noOrder o hos.1)
      simp only [Narration.spokenOrders, List.foldl_cons, hstays]
      exact ih hos.2
  exact hall orders fun _ ho => ho

/-- Where no word is quoted either, cleaning changes nothing, and nowhere else. -/
theorem cleanChars_eq_self_iff : cleanChars cs = cs ↔ ¬HasQuotedWord cs := by
  constructor
  · -- The quotes that go do not come back, so the text has fewer of them.
    intro hsame hquoted
    have hfewer := countP_unquoted_add_le hquoted
    have hclean := countP_cleanChars_le_unquoted cs
    rw [hsame, h.withoutBackQuotes] at hclean
    omega
  · intro hnone
    rw [cleanChars_eq, h.withoutBackQuotes, unquoted_eq_self hnone, h.spokenOrders,
      trimChars_collapseBlanks_of_isNeat h.neat]

end IsSpoken

@[simp] theorem toList_clean (s : String) : (clean s).toList = cleanChars s.toList := by
  simp [clean]

/-- A cleaned text is fit to be spoken, so none of the five running times stands in it, and cleaning
    leaves alone exactly the texts that are and in which no word is quoted. -/
theorem clean_spoken (s : String) : IsSpoken (clean s).toList ∧
    ¬Occurs IsRunningTime (clean s).toList ∧
    (clean s = s ↔ IsSpoken s.toList ∧ ¬HasQuotedWord s.toList) := by
  have hspoken := isSpoken_cleanChars s.toList
  rw [← String.toList_inj, toList_clean]
  refine ⟨hspoken, hspoken.not_occurs_isRunningTime, ?_⟩
  constructor
  · intro hsame
    have h : IsSpoken s.toList := hsame ▸ hspoken
    exact ⟨h, h.cleanChars_eq_self_iff.1 hsame⟩
  · intro ⟨h, hnone⟩
    exact h.cleanChars_eq_self_iff.2 hnone

end Storyboard.Narration
