import Mathlib.Data.List.Chain
import Mathlib.Data.List.DropRight
import Mathlib.Data.List.TakeWhile
import Storyboard.Text.Blank

/-! # Single spaces

    Where every run of blanks has become one space and the ends are trimmed,
    the text is neat: spaces are the only blanks, no two of them stand side by
    side, and none stands at an end (`isNeat_trimChars_collapseBlanks`). A neat
    text stays as it is (`trimChars_collapseBlanks_of_isNeat`). Characters that
    are not blank come through in their order, and every rest of the new text
    is the new text of a rest of the old one (`exists_suffix_of_collapse`). -/

namespace Storyboard.Text

variable {c : Char} {cs rest : List Char}

/-! ### One space for every run -/

theorem isBlank_space : isBlank ' ' = true := by decide

theorem collapseBlanks_of_not_blank (hc : isBlank c = false) :
    collapseBlanks (c :: rest) = c :: collapseBlanks rest := by
  simp [collapseBlanks, hc]

theorem collapseBlanks_of_blank (hc : isBlank c = true) :
    collapseBlanks (c :: rest) = ' ' :: collapseBlanks (rest.dropWhile isBlank) := by
  induction rest generalizing c with
  | nil => simp [collapseBlanks, hc]
  | cons d rest ih =>
    by_cases hd : isBlank d = true
    · have hnext : collapseBlanks (c :: d :: rest) = collapseBlanks (d :: rest) := by
        rw [collapseBlanks]
        simp [hc, hd]
      rw [hnext, ih hd, List.dropWhile_cons_of_pos hd]
    · have hnext : collapseBlanks (c :: d :: rest) = ' ' :: collapseBlanks (d :: rest) := by
        rw [collapseBlanks]
        simp [hc, hd]
      rw [hnext, List.dropWhile_cons_of_neg hd]

/-- A text is empty, or it begins with a character that is not blank, or with a run of blanks behind
    which another text begins. -/
@[elab_as_elim] theorem runs_induction {motive : List Char → Prop} (nil : motive [])
    (char : ∀ c rest, isBlank c = false → motive rest → motive (c :: rest))
    (run : ∀ c rest, isBlank c = true → motive (rest.dropWhile isBlank) → motive (c :: rest))
    (cs : List Char) : motive cs := by
  -- A run goes as a whole, so this is by the length of the text and not along it.
  induction hlength : cs.length using Nat.strong_induction_on generalizing cs with
  | _ n ih =>
    subst hlength
    cases cs with
    | nil => exact nil
    | cons c rest =>
      by_cases hc : isBlank c = true
      · apply run c rest hc
        have hle := (List.dropWhile_suffix isBlank (l := rest)).length_le
        exact ih _ (by simp only [List.length_cons]; omega) _ rfl
      · exact char c rest (by simpa using hc) (ih _ (by simp) _ rfl)

/-- What stands behind a run of blanks does not begin with one. -/
theorem head?_dropWhile_blank (cs : List Char) :
    ∀ c ∈ (cs.dropWhile isBlank).head?, isBlank c = false := by
  intro c hc
  have hfirst := List.head?_dropWhile_not isBlank cs
  rw [Option.mem_def.1 hc] at hfirst
  exact hfirst

theorem dropWhile_of_front (h : ∀ c ∈ cs.head?, isBlank c = false) :
    cs.dropWhile isBlank = cs := by
  cases cs with
  | nil => rfl
  | cons c rest =>
    have hc : isBlank c = false := h c (by simp)
    exact List.dropWhile_cons_of_neg (by simp [hc])

/-- A first character that is not blank stays. -/
theorem head?_collapseBlanks (h : ∀ c ∈ cs.head?, isBlank c = false) :
    (collapseBlanks cs).head? = cs.head? := by
  cases cs with
  | nil => rfl
  | cons c rest =>
    have hc : isBlank c = false := h c (by simp)
    simp [collapseBlanks_of_not_blank hc]

/-- It does not matter whether the blanks at the front go before or after. -/
theorem dropWhile_collapseBlanks (cs : List Char) :
    (collapseBlanks cs).dropWhile isBlank = collapseBlanks (cs.dropWhile isBlank) := by
  have hfront : ∀ c ∈ (collapseBlanks (cs.dropWhile isBlank)).head?, isBlank c = false := by
    rw [head?_collapseBlanks (head?_dropWhile_blank cs)]
    exact head?_dropWhile_blank cs
  rw [← dropWhile_of_front hfront]
  cases cs with
  | nil => rfl
  | cons c rest =>
    by_cases hc : isBlank c = true
    · rw [collapseBlanks_of_blank hc, List.dropWhile_cons_of_pos isBlank_space,
        List.dropWhile_cons_of_pos hc]
    · rw [List.dropWhile_cons_of_neg hc]

/-- Every rest of the new text is the new text of a rest of the old one. -/
theorem exists_suffix_of_collapse {suffix : List Char} (h : suffix <:+ collapseBlanks cs) :
    ∃ old, old <:+ cs ∧ suffix = collapseBlanks old := by
  induction cs using runs_induction with
  | nil => exact ⟨[], List.suffix_rfl, by simpa [collapseBlanks] using h⟩
  | char c rest hc ih =>
    rw [collapseBlanks_of_not_blank hc, List.suffix_cons_iff] at h
    rcases h with hall | hrest
    · exact ⟨c :: rest, List.suffix_rfl, by rw [hall, collapseBlanks_of_not_blank hc]⟩
    · obtain ⟨old, hold, hsuffix⟩ := ih hrest
      exact ⟨old, hold.trans (List.suffix_cons c rest), hsuffix⟩
  | run c rest hc ih =>
    rw [collapseBlanks_of_blank hc, List.suffix_cons_iff] at h
    rcases h with hall | hrest
    · exact ⟨c :: rest, List.suffix_rfl, by rw [hall, collapseBlanks_of_blank hc]⟩
    · obtain ⟨old, hold, hsuffix⟩ := ih hrest
      have hbehind := (List.dropWhile_suffix isBlank).trans (List.suffix_cons c rest)
      exact ⟨old, hold.trans hbehind, hsuffix⟩

/-- The characters that are not blank stay. -/
theorem filter_collapseBlanks (cs : List Char) :
    (collapseBlanks cs).filter (fun c => !isBlank c) = cs.filter fun c => !isBlank c := by
  induction cs using runs_induction with
  | nil => rfl
  | char c rest hc ih => simp [collapseBlanks_of_not_blank hc, hc, ih]
  | run c rest hc ih =>
    -- The rest of the run holds only blanks, and they are not counted.
    have hrun : (rest.takeWhile isBlank).filter (fun c => !isBlank c) = [] := by
      rw [List.filter_eq_nil_iff]
      intro d hd
      simp [List.mem_takeWhile_imp hd]
    have hrest : rest.filter (fun c => !isBlank c) =
        (rest.dropWhile isBlank).filter fun c => !isBlank c := by
      have hsplit := congrArg (List.filter fun c => !isBlank c)
        (List.takeWhile_append_dropWhile (p := isBlank) (l := rest))
      rw [List.filter_append, hrun, List.nil_append] at hsplit
      exact hsplit.symm
    simp [collapseBlanks_of_blank hc, hc, isBlank_space, ih, hrest]

/-! ### Neat texts -/

/-- Blanks are spaces, no two of them side by side and none at an end. -/
structure IsNeat (cs : List Char) : Prop where
  spaces : ∀ c ∈ cs, isBlank c = true → c = ' '
  single : cs.IsChain fun c d => ¬(isBlank c = true ∧ isBlank d = true)
  front  : ∀ c ∈ cs.head?, isBlank c = false
  back   : ∀ c ∈ cs.getLast?, isBlank c = false

theorem spaces_collapseBlanks (cs : List Char) :
    ∀ c ∈ collapseBlanks cs, isBlank c = true → c = ' ' := by
  induction cs using runs_induction with
  | nil => simp [collapseBlanks]
  | char c rest hc ih =>
    rw [collapseBlanks_of_not_blank hc, List.forall_mem_cons]
    exact ⟨by simp [hc], ih⟩
  | run c rest hc ih =>
    rw [collapseBlanks_of_blank hc, List.forall_mem_cons]
    exact ⟨fun _ => rfl, ih⟩

theorem single_collapseBlanks (cs : List Char) :
    (collapseBlanks cs).IsChain fun c d => ¬(isBlank c = true ∧ isBlank d = true) := by
  induction cs using runs_induction with
  | nil => simp [collapseBlanks]
  | char c rest hc ih =>
    rw [collapseBlanks_of_not_blank hc, List.isChain_cons]
    exact ⟨by simp [hc], ih⟩
  | run c rest hc ih =>
    have hfront := head?_dropWhile_blank rest
    rw [collapseBlanks_of_blank hc, List.isChain_cons, head?_collapseBlanks hfront]
    refine ⟨?_, ih⟩
    intro d hd
    simp [hfront d hd]

/-- Nothing changes where every blank is a space and stands alone. -/
theorem collapseBlanks_eq_self (hspaces : ∀ c ∈ cs, isBlank c = true → c = ' ')
    (hsingle : cs.IsChain fun c d => ¬(isBlank c = true ∧ isBlank d = true)) :
    collapseBlanks cs = cs := by
  induction cs with
  | nil => rfl
  | cons c rest ih =>
    rw [List.forall_mem_cons] at hspaces
    rw [List.isChain_cons] at hsingle
    have hrest : collapseBlanks rest = rest := ih hspaces.2 hsingle.2
    by_cases hc : isBlank c = true
    · have hfront : ∀ d ∈ rest.head?, isBlank d = false := by
        intro d hd
        have hboth := hsingle.1 d hd
        simpa [hc] using hboth
      rw [collapseBlanks_of_blank hc, dropWhile_of_front hfront, hrest, hspaces.1 hc]
    · rw [collapseBlanks_of_not_blank (by simpa using hc), hrest]

/-! ### Trimming -/

theorem trimChars_inner (cs : List Char) : trimChars cs <:+: cs := by
  have hfront := List.dropWhile_suffix isBlank (l := cs)
  have hback : trimChars cs <+: cs.dropWhile isBlank := List.rdropWhile_prefix isBlank _
  exact hback.isInfix.trans hfront.isInfix

theorem trimChars_of_ends (hfront : ∀ c ∈ cs.head?, isBlank c = false)
    (hback : ∀ c ∈ cs.getLast?, isBlank c = false) : trimChars cs = cs := by
  have hends : trimChars cs = (cs.dropWhile isBlank).rdropWhile isBlank := rfl
  rw [hends, dropWhile_of_front hfront, List.rdropWhile_eq_self_iff]
  intro hne
  simp [hback _ (List.getLast?_eq_getLast_of_ne_nil hne)]

theorem isNeat_trimChars_collapseBlanks (cs : List Char) :
    IsNeat (trimChars (collapseBlanks cs)) where
  spaces c hc := spaces_collapseBlanks cs c ((trimChars_inner _).subset hc)
  single := List.IsChain.infix (single_collapseBlanks cs) (trimChars_inner _)
  front := by
    -- What is trimmed at the back still begins where the blanks in front end.
    have hstart : trimChars (collapseBlanks cs) <+: (collapseBlanks cs).dropWhile isBlank :=
      List.rdropWhile_prefix isBlank _
    intro c hc
    apply head?_dropWhile_blank (collapseBlanks cs)
    obtain ⟨more, hmore⟩ := hstart
    rw [← hmore]
    simp [Option.mem_def.1 hc]
  back := by
    intro c hc
    have hne : trimChars (collapseBlanks cs) ≠ [] := by
      intro hempty
      simp [hempty] at hc
    have hlast := List.rdropWhile_last_not isBlank ((collapseBlanks cs).dropWhile isBlank) hne
    have heq : (trimChars (collapseBlanks cs)).getLast hne = c := by
      rw [List.getLast?_eq_getLast_of_ne_nil hne] at hc
      simpa using hc
    rw [← heq]
    exact Bool.eq_false_iff.2 hlast

theorem trimChars_collapseBlanks_of_isNeat (h : IsNeat cs) :
    trimChars (collapseBlanks cs) = cs := by
  rw [collapseBlanks_eq_self h.spaces h.single, trimChars_of_ends h.front h.back]

end Storyboard.Text
