import Mathlib.Data.Bool.AllAny
import Storyboard.Proofs.Narration.Rules
import Storyboard.Proofs.Text.Collapse

/-! # Spelled running times

    `Spells s cs` says that `cs` is one way to write the spelling `s`, with any
    blanks in its gaps. Reading a spelling as far as it goes at the start of a
    text finds it whenever it stands there (`Spelling.rest?_eq_some_iff`).

    The running times that are written out are those of five forms
    (`isRunningTime_iff`). They open with a letter that is nowhere else in them, nor
    in the words that are put in their place but at the front. So writing one of
    them out takes it from the text (`IsOrder.not_occurs_replaceAll`) and brings
    in no other (`IsOrder.not_occurs_of_not_occurs`), and no other comes in when
    the blanks are collapsed (`IsOrder.not_occurs_collapseBlanks`). -/

namespace Storyboard.Text

theorem dropStart?_eq_some_iff {start cs rest : List Char} :
    dropStart? start cs = some rest ↔ start ++ rest = cs := by
  induction start generalizing cs with
  | nil => simp [dropStart?, eq_comm]
  | cons p start ih =>
    cases cs with
    | nil => simp [dropStart?]
    | cons c cs =>
      by_cases hp : p = c
      · simp [dropStart?, hp, ih]
      · simp [dropStart?, hp]

/-- A start without blanks is as well found after the blanks are collapsed. -/
theorem dropStart?_collapseBlanks {start : List Char} (h : ∀ c ∈ start, isBlank c = false)
    (cs : List Char) :
    dropStart? start (collapseBlanks cs) = (dropStart? start cs).map collapseBlanks := by
  induction start generalizing cs with
  | nil => simp [dropStart?]
  | cons p start ih =>
    rw [List.forall_mem_cons] at h
    cases cs with
    | nil => simp [collapseBlanks, dropStart?]
    | cons c cs =>
      by_cases hc : isBlank c = true
      · have hspace : p ≠ ' ' := by
          intro hp
          simp [hp, isBlank_space] at h
        have hblank : p ≠ c := by
          intro hp
          simp [hp, hc] at h
        simp [collapseBlanks_of_blank hc, dropStart?, hspace, hblank]
      · rw [collapseBlanks_of_not_blank (by simpa using hc)]
        by_cases hp : p = c
        · simp [dropStart?, hp, ih h.2]
        · simp [dropStart?, hp]

end Storyboard.Text

namespace Storyboard.Narration

open Storyboard.Text

variable {s s' : Spelling} {words words' : String} {c : Char} {cs part more rest : List Char}

/-! ### Spellings -/

/-- Nothing but blanks. -/
def AreBlanks (bs : List Char) : Prop := ∀ b ∈ bs, isBlank b = true

/-- The ways to write a spelling. -/
inductive Spells : Spelling → List Char → Prop
  | nil : Spells [] []
  | word {s : Spelling} {cs : List Char} (w : List Char) : Spells s cs →
      Spells (.word w :: s) (w ++ cs)
  | gap {s : Spelling} {cs : List Char} (bs : List Char) : (∀ b ∈ bs, isBlank b = true) →
      Spells s cs → Spells (.gap :: s) (bs ++ cs)
  | space {s : Spelling} {cs : List Char} (bs : List Char) : bs ≠ [] →
      (∀ b ∈ bs, isBlank b = true) → Spells s cs → Spells (.space :: s) (bs ++ cs)

@[simp] theorem spells_nil_iff : Spells [] cs ↔ cs = [] :=
  ⟨fun h => by cases h; rfl, fun h => h ▸ .nil⟩

@[simp] theorem spells_word_iff {w : List Char} :
    Spells (.word w :: s) cs ↔ ∃ rest, cs = w ++ rest ∧ Spells s rest := by
  constructor
  · intro h
    cases h with
    | word w hrest => exact ⟨_, rfl, hrest⟩
  · intro ⟨rest, hcs, hrest⟩
    exact hcs ▸ .word w hrest

@[simp] theorem spells_gap_iff :
    Spells (.gap :: s) cs ↔ ∃ bs rest, AreBlanks bs ∧ cs = bs ++ rest ∧ Spells s rest := by
  constructor
  · intro h
    cases h with
    | gap bs hbs hrest => exact ⟨bs, _, hbs, rfl, hrest⟩
  · intro ⟨bs, rest, hbs, hcs, hrest⟩
    exact hcs ▸ .gap bs hbs hrest

@[simp] theorem spells_space_iff : Spells (.space :: s) cs ↔
    ∃ bs rest, bs ≠ [] ∧ AreBlanks bs ∧ cs = bs ++ rest ∧ Spells s rest := by
  constructor
  · intro h
    cases h with
    | space bs hne hbs hrest => exact ⟨bs, _, hne, hbs, rfl, hrest⟩
  · intro ⟨bs, rest, hne, hbs, hcs, hrest⟩
    exact hcs ▸ .space bs hne hbs hrest

theorem spells_append_iff :
    Spells (s ++ s') cs ↔ ∃ part rest, Spells s part ∧ Spells s' rest ∧ cs = part ++ rest := by
  induction s generalizing cs with
  | nil => simp
  | cons piece s ih =>
    cases piece with
    | word w => grind [spells_word_iff, List.append_assoc]
    | gap => grind [spells_gap_iff, List.append_assoc]
    | space => grind [spells_space_iff, List.append_assoc]

/-- Whether behind all blanks comes a character that is not blank, so that it is clear where the
    blanks end. -/
def Spelling.isTight : Spelling → Bool
  | [] => true
  | .word _ :: s => Spelling.isTight s
  | .gap :: .word (c :: _) :: s => !isBlank c && Spelling.isTight s
  | .space :: .word (c :: _) :: s => !isBlank c && Spelling.isTight s
  | _ => false

/-- The characters of a spelling that are given. -/
def Spelling.letters : Spelling → List Char
  | [] => []
  | .word w :: s => w ++ Spelling.letters s
  | _ :: s => Spelling.letters s

/-- The other characters are blanks. -/
theorem Spells.mem (h : Spells s cs) (hc : c ∈ cs) : c ∈ s.letters ∨ isBlank c = true := by
  induction h with
  | nil => simp at hc
  | word w _ ih =>
    simp only [Spelling.letters, List.mem_append] at hc ⊢
    rcases hc with hw | hrest
    · simp [hw]
    · rcases ih hrest with hletter | hblank
      · simp [hletter]
      · simp [hblank]
  | gap bs hbs _ ih =>
    rcases List.mem_append.1 hc with hb | hrest
    · exact Or.inr (hbs c hb)
    · exact ih hrest
  | space bs _ hbs _ ih =>
    rcases List.mem_append.1 hc with hb | hrest
    · exact Or.inr (hbs c hb)
    · exact ih hrest

/-- What follows a spelling stands behind one way to write it. -/
theorem Spelling.exists_of_rest? (h : s.rest? cs = some rest) :
    ∃ part, Spells s part ∧ part ++ rest = cs := by
  induction s generalizing cs with
  | nil =>
    simp only [Spelling.rest?, Option.some.injEq] at h
    exact ⟨[], .nil, by simp [h]⟩
  | cons piece s ih =>
    cases piece with
    | word w =>
      simp only [Spelling.rest?, Option.bind_eq_some_iff, dropStart?_eq_some_iff] at h
      obtain ⟨behind, hw, hrest⟩ := h
      obtain ⟨part, hpart, hsplit⟩ := ih hrest
      exact ⟨w ++ part, .word w hpart, by rw [List.append_assoc, hsplit, hw]⟩
    | gap =>
      obtain ⟨part, hpart, hsplit⟩ := ih h
      -- All blanks go to the gap; what comes next begins behind them.
      have hblanks : ∀ b ∈ cs.takeWhile isBlank, isBlank b = true := fun b hb =>
        List.mem_takeWhile_imp hb
      refine ⟨cs.takeWhile isBlank ++ part, .gap _ hblanks hpart, ?_⟩
      rw [List.append_assoc, hsplit, List.takeWhile_append_dropWhile]
    | space =>
      cases cs with
      | nil => simp [Spelling.rest?] at h
      | cons b cs =>
        simp only [Spelling.rest?, Option.ite_none_right_eq_some] at h
        obtain ⟨part, hpart, hsplit⟩ := ih h.2
        have hblanks : ∀ d ∈ b :: cs.takeWhile isBlank, isBlank d = true := by
          rw [List.forall_mem_cons]
          exact ⟨h.1, fun d hd => List.mem_takeWhile_imp hd⟩
        refine ⟨_, .space _ (List.cons_ne_nil _ _) hblanks hpart, ?_⟩
        rw [List.append_assoc, hsplit, List.cons_append, List.takeWhile_append_dropWhile]

/-- Behind a run of blanks in front of a word the word is left. -/
theorem dropWhile_blanks_word {w bs : List Char} (hc : isBlank c = false)
    (hbs : ∀ b ∈ bs, isBlank b = true) (hpart : Spells (.word (c :: w) :: s) part) :
    (bs ++ (part ++ more)).dropWhile isBlank = part ++ more := by
  rw [List.dropWhile_append_of_pos hbs]
  cases hpart with
  | word _ hrest => exact List.dropWhile_cons_of_neg (by simp [hc])

/-- A tight spelling is read to its end wherever it is written. -/
theorem Spells.rest? (h : Spells s part) (htight : s.isTight = true) (more : List Char) :
    s.rest? (part ++ more) = some more := by
  -- By induction on the spelling. Behind blanks stands a word, so no blank more is passed over.
  induction h with
  | nil => rfl
  | @word s part w _ ih =>
    have hw := dropStart?_eq_some_iff.2 (List.append_assoc w part more).symm
    rw [Spelling.rest?, hw]
    exact ih (by simpa [Spelling.isTight] using htight)
  | @gap s part bs hbs hpart ih =>
    match s, htight with
    | .word (c :: w) :: s, htight =>
      simp only [Spelling.isTight, Bool.and_eq_true, Bool.not_eq_true'] at htight
      rw [Spelling.rest?, List.append_assoc, dropWhile_blanks_word htight.1 hbs hpart]
      exact ih htight.2
  | @space s part bs hne hbs hpart ih =>
    match s, htight with
    | .word (c :: w) :: s, htight =>
      simp only [Spelling.isTight, Bool.and_eq_true, Bool.not_eq_true'] at htight
      obtain ⟨b, bs, rfl⟩ := List.exists_cons_of_ne_nil hne
      rw [List.forall_mem_cons] at hbs
      have hread : Spelling.rest? (.space :: .word (c :: w) :: s) (b :: bs ++ part ++ more) =
          Spelling.rest? (.word (c :: w) :: s) ((bs ++ (part ++ more)).dropWhile isBlank) := by
        rw [← List.append_assoc]
        exact if_pos hbs.1
      rw [hread, dropWhile_blanks_word htight.1 hbs.2 hpart]
      exact ih htight.2

theorem Spelling.rest?_eq_some_iff (htight : s.isTight = true) :
    s.rest? cs = some rest ↔ ∃ part, Spells s part ∧ part ++ rest = cs := by
  constructor
  · exact Spelling.exists_of_rest?
  · intro ⟨part, hpart, hsplit⟩
    rw [← hsplit]
    exact hpart.rest? htight rest

/-- Collapsing the blanks of a text does not change what is read. -/
theorem Spelling.rest?_collapseBlanks (hletters : ∀ c ∈ s.letters, isBlank c = false)
    (cs : List Char) : s.rest? (collapseBlanks cs) = (s.rest? cs).map collapseBlanks := by
  -- By induction on the spelling. Words hold no blanks, and all blanks in a row are passed over.
  induction s generalizing cs with
  | nil => rfl
  | cons piece s ih =>
    cases piece with
    | word w =>
      simp only [Spelling.letters, List.forall_mem_append] at hletters
      simp only [Spelling.rest?, dropStart?_collapseBlanks hletters.1]
      cases dropStart? w cs with
      | none => rfl
      | some behind => exact ih hletters.2 behind
    | gap =>
      rw [Spelling.rest?, dropWhile_collapseBlanks]
      exact ih hletters _
    | space =>
      cases cs with
      | nil => rfl
      | cons c cs =>
        by_cases hc : isBlank c = true
        · rw [collapseBlanks_of_blank hc]
          simp only [Spelling.rest?, hc, isBlank_space, dropWhile_collapseBlanks]
          rw [dropWhile_of_front (head?_dropWhile_blank cs)]
          exact ih hletters _
        · rw [collapseBlanks_of_not_blank (by simpa using hc)]
          simp [Spelling.rest?, hc]

/-! ### Running times -/

/-- What stands in the parentheses of a running time that is written out, letter by letter. -/
inductive IsGrowth : List Char → Prop
  | squared {a b : List Char} (ha : AreBlanks a) (hb : AreBlanks b) :
      IsGrowth ('N' :: (a ++ '^' :: (b ++ ['2'])))
  | timesLog {a b : List Char} (hne : a ≠ []) (ha : AreBlanks a) (hb : AreBlanks b) :
      IsGrowth ('N' :: (a ++ 'l' :: 'o' :: 'g' :: (b ++ ['N'])))
  | log {a : List Char} (ha : AreBlanks a) : IsGrowth ('l' :: 'o' :: 'g' :: (a ++ ['N']))
  | linear : IsGrowth ['N']
  | constant : IsGrowth ['1']

/-- A running time that is written out. -/
def IsRunningTime (cs : List Char) : Prop :=
  ∃ a growth b, AreBlanks a ∧ IsGrowth growth ∧ AreBlanks b ∧
    cs = 'O' :: '(' :: (a ++ (growth ++ (b ++ [')'])))

theorem isGrowth_iff : IsGrowth cs ↔
    Spells [.word ['N'], .gap, .word ['^'], .gap, .word ['2']] cs ∨
    Spells [.word ['N'], .space, .word ['l', 'o', 'g'], .gap, .word ['N']] cs ∨
    Spells [.word ['l', 'o', 'g'], .gap, .word ['N']] cs ∨
    Spells [.word ['N']] cs ∨ Spells [.word ['1']] cs := by
  constructor
  · intro h
    cases h with
    | @squared a b ha hb =>
      exact .inl (.word ['N'] (.gap a ha (.word ['^'] (.gap b hb (.word ['2'] .nil)))))
    | @timesLog a b hne ha hb =>
      exact .inr (.inl (.word ['N'] (.space a hne ha (.word ['l', 'o', 'g']
        (.gap b hb (.word ['N'] .nil))))))
    | @log a ha =>
      exact .inr (.inr (.inl (.word ['l', 'o', 'g'] (.gap a ha (.word ['N'] .nil)))))
    | linear => exact .inr (.inr (.inr (.inl (.word ['N'] .nil))))
    | constant => exact .inr (.inr (.inr (.inr (.word ['1'] .nil))))
  · simp only [spells_word_iff, spells_gap_iff, spells_space_iff, spells_nil_iff]
    rintro (⟨_, rfl, a, _, ha, rfl, _, rfl, b, _, hb, rfl, _, rfl, rfl⟩ |
      ⟨_, rfl, a, _, hne, ha, rfl, _, rfl, b, _, hb, rfl, _, rfl, rfl⟩ |
      ⟨_, rfl, a, _, ha, rfl, _, rfl, rfl⟩ | ⟨_, rfl, rfl⟩ | ⟨_, rfl, rfl⟩)
    · exact .squared ha hb
    · exact .timesLog hne ha hb
    · exact .log ha
    · exact .linear
    · exact .constant

theorem spells_ofOrder_iff : Spells (.ofOrder s) cs ↔
    ∃ a inside b, AreBlanks a ∧ Spells s inside ∧ AreBlanks b ∧
      cs = 'O' :: '(' :: (a ++ (inside ++ (b ++ [')']))) := by
  unfold Spelling.ofOrder
  rw [List.append_assoc, List.cons_append, spells_word_iff]
  simp only [List.cons_append, List.nil_append, spells_append_iff, spells_word_iff, spells_gap_iff,
    spells_nil_iff]
  constructor
  · rintro ⟨_, rfl, a, _, ha, rfl, inside, _, hinside, ⟨b, _, hb, rfl, _, rfl, rfl⟩, rfl⟩
    exact ⟨a, inside, b, ha, hinside, hb, rfl⟩
  · rintro ⟨a, inside, b, ha, hinside, hb, rfl⟩
    exact ⟨_, rfl, a, _, ha, rfl, inside, _, hinside, ⟨b, _, hb, rfl, _, rfl, rfl⟩, rfl⟩

/-- They are those of the table. -/
theorem isRunningTime_iff : IsRunningTime cs ↔ ∃ o ∈ orders, Spells o.1 cs := by
  simp only [orders, List.exists_mem_cons_iff, List.not_mem_nil, false_and, exists_false, or_false,
    spells_ofOrder_iff, IsRunningTime, isGrowth_iff, or_and_right, and_or_left, exists_or]

/-- What all the running times that are written out have in common. -/
structure IsOrder (s : Spelling) (words : String) : Prop where
  tight   : s.isTight = true
  letters : ∀ c ∈ s.letters, isBlank c = false
  opens   : ∃ inside : Spelling, s = .word ['O', '('] :: inside ∧ 'O' ∉ inside.letters
  spoken  : ∃ ending, words.toList = 'O' :: ' ' :: ending ∧ 'O' ∉ ending
  plain   : ∀ c ∈ words.toList, c ≠ '\x60' ∧ c ≠ '\'' ∧ c ≠ '"'

theorem isOrder_of_mem : ∀ o ∈ orders, IsOrder o.1 o.2 := by
  intro o ho
  simp only [orders, List.mem_cons, List.not_mem_nil, or_false] at ho
  rcases ho with rfl | rfl | rfl | rfl | rfl
  -- What holds of the letters is decided on the list of them, not on all characters there are.
  all_goals
    exact ⟨by decide, List.all_iff_forall_prop.1 (by decide), ⟨_, rfl, by decide⟩,
      ⟨_, rfl, by decide⟩, List.all_iff_forall_prop.1 (by decide)⟩

namespace IsOrder

variable (h : IsOrder s words) (h' : IsOrder s' words')

include h

/-- After the opening letter it does not come again. -/
theorem exists_inside (hpart : Spells s part) : ∃ inside, part = 'O' :: '(' :: inside ∧
    'O' ∉ inside := by
  obtain ⟨pieces, hs, hletters⟩ := h.opens
  subst hs
  cases hpart with
  | @word _ inside _ hinside =>
    refine ⟨inside, rfl, ?_⟩
    intro hin
    rcases hinside.mem hin with hletter | hblank
    · exact hletters hletter
    · exact absurd hblank (by decide)

/-- The rule of a running time looks for the ways to write it. -/
theorem finds : (s.spoken words).Finds (Spells s) := by
  intro cs
  rw [Spelling.spoken, Option.map_eq_none_iff, Option.eq_none_iff_forall_ne_some]
  constructor
  · intro hnone ⟨part, hpart, more, hsplit⟩
    exact hnone more ((Spelling.rest?_eq_some_iff h.tight).2 ⟨part, hpart, hsplit⟩)
  · intro hnot rest hrest
    obtain ⟨part, hpart, hsplit⟩ := Spelling.exists_of_rest? hrest
    exact hnot ⟨part, hpart, rest, hsplit⟩

omit h in
theorem words_of_spoken {ws : List Char} {n : Nat} (hfound : s.spoken words cs = some (ws, n)) :
    ws = words.toList := by
  simp only [Spelling.spoken, Option.map_eq_some_iff, Prod.mk.injEq] at hfound
  obtain ⟨_, _, hwords, _⟩ := hfound
  exact hwords.symm

/-- What goes on after an opening letter does not reach into new words. -/
theorem prefix_of_spoken {inside : List Char} (hinside : 'O' ∉ inside)
    (hin : inside <+: (s.spoken words).replaceAll cs) : inside <+: cs := by
  apply Rule.prefix_of_replaceAll hin
  intro old ws n hfound t ht hboth
  obtain ⟨ending, hspoken, _⟩ := h.spoken
  rw [words_of_spoken hfound, hspoken] at hboth
  have hnotin : 'O' ∉ t := fun hmem => hinside (ht.subset hmem)
  -- New words begin with the letter that does not come here.
  cases t with
  | nil => rfl
  | cons d t =>
    have hfirst : d = 'O' := by
      rcases hboth with hshort | hlong
      · exact (List.cons_prefix_cons.1 hshort).1
      · exact (List.cons_prefix_cons.1 hlong).1.symm
    simp [hfirst] at hnotin

include h'

/-- Where a running time is written in the new text, it was written in the old one, and it was not
    written out. -/
theorem exists_old (hoccurs : Occurs (Spells s') ((s.spoken words).replaceAll cs)) :
    ∃ old, old <:+ cs ∧ s.spoken words old = none ∧ ∃ part, Spells s' part ∧ part <+: old := by
  obtain ⟨rest, hsuffix, part, hpart, hstart⟩ := occurs_iff_suffix.1 hoccurs
  obtain ⟨inside, hform, hinside⟩ := h'.exists_inside hpart
  obtain ⟨more, hmore⟩ := hstart
  subst hform hmore
  -- The opening letter is the first of the new words, and there a blank comes next.
  have hapart : ∀ old ws n, s.spoken words old = some (ws, n) → ∀ t, 'O' :: t <:+ ws →
      ¬ 'O' :: t <+: 'O' :: '(' :: inside ++ more := by
    intro old ws n hfound t ht htail
    obtain ⟨ending, hspoken, hending⟩ := h.spoken
    rw [words_of_spoken hfound, hspoken] at ht
    rcases List.suffix_cons_iff.1 ht with hall | hin
    · rw [hall] at htail
      simp at htail
    · have hmem : 'O' ∈ ' ' :: ending := hin.subset List.mem_cons_self
      simp [hending] at hmem
  obtain ⟨behind, hold, hnone, htail⟩ := Rule.exists_kept hsuffix hapart
  refine ⟨_, hold, hnone, _, hpart, ?_⟩
  have hnext : 'O' ∉ '(' :: inside := by simp [hinside]
  have hin := h.prefix_of_spoken hnext ⟨more, htail⟩
  exact List.cons_prefix_cons.2 ⟨rfl, hin⟩

/-- Writing out one running time brings in no other. -/
theorem not_occurs_of_not_occurs (hnot : ¬Occurs (Spells s') cs) :
    ¬Occurs (Spells s') ((s.spoken words).replaceAll cs) := by
  intro hoccurs
  obtain ⟨old, hsuffix, _, part, hpart, hstart⟩ := h.exists_old h' hoccurs
  exact hnot (occurs_of_start hpart hstart hsuffix)

omit h'

/-- Where a running time has been written out it stands no longer. -/
theorem not_occurs_replaceAll : ¬Occurs (Spells s) ((s.spoken words).replaceAll cs) := by
  intro hoccurs
  obtain ⟨old, _, hnone, hpart⟩ := h.exists_old h hoccurs
  exact (h.finds old).1 hnone hpart

/-- None comes in when the blanks are collapsed. -/
theorem not_occurs_collapseBlanks (hnot : ¬Occurs (Spells s) cs) :
    ¬Occurs (Spells s) (collapseBlanks cs) := by
  -- What is read from a rest of the new text is read from a rest of the old one.
  rw [← h.finds.isStill_iff] at hnot ⊢
  intro rest hrest
  obtain ⟨old, hsuffix, hcollapse⟩ := exists_suffix_of_collapse hrest
  have hnone := hnot old hsuffix
  rw [Spelling.spoken, Option.map_eq_none_iff] at hnone ⊢
  rw [hcollapse, Spelling.rest?_collapseBlanks h.letters, hnone]
  rfl

end IsOrder

end Storyboard.Narration
