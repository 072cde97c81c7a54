import Mathlib.Data.List.Infix
import Storyboard.Narration.Sanitizer

/-! # What a rule leaves

    One pass of a rule cuts a text into characters that are kept and passages
    that are replaced (`Rule.passages_induction`). Where the rule finds nothing
    the text stays as it is (`Rule.replaceAll_of_isStill`); what begins in the
    new text and in none of the new words was kept (`Rule.exists_kept`), and
    what no new word can take part in stood in the text before
    (`Rule.prefix_of_replaceAll`). -/

namespace Storyboard.Narration

variable {P : List Char → Prop} {r : Rule} {c : Char} {cs ds words : List Char} {n : Nat}

/-! ### Passages of a text -/

/-- Somewhere in `cs` stands a passage that satisfies `P`. -/
def Occurs (P : List Char → Prop) (cs : List Char) : Prop := ∃ part, P part ∧ part <:+: cs

theorem occurs_of_start {part : List Char} (hpart : P part) (hstart : part <+: cs)
    (hsuffix : cs <:+ ds) : Occurs P ds :=
  ⟨part, hpart, hstart.isInfix.trans hsuffix.isInfix⟩

theorem occurs_iff_suffix :
    Occurs P cs ↔ ∃ rest, rest <:+ cs ∧ ∃ part, P part ∧ part <+: rest := by
  constructor
  · intro ⟨part, hpart, hinner⟩
    obtain ⟨rest, hstart, hsuffix⟩ := List.infix_iff_prefix_suffix.1 hinner
    exact ⟨rest, hsuffix, part, hpart, hstart⟩
  · intro ⟨rest, hsuffix, part, hpart, hstart⟩
    exact occurs_of_start hpart hstart hsuffix

theorem Occurs.of_infix (h : Occurs P cs) (hinner : cs <:+: ds) : Occurs P ds := by
  obtain ⟨part, hpart, hin⟩ := h
  exact ⟨part, hpart, hin.trans hinner⟩

/-! ### One pass -/

@[simp] theorem Rule.replaceAll_nil : r.replaceAll [] = [] := by
  simp [Rule.replaceAll, Rule.replaceFrom]

theorem Rule.replaceAll_of_none (h : r (c :: cs) = none) :
    r.replaceAll (c :: cs) = c :: r.replaceAll cs := by
  simp [Rule.replaceAll, Rule.replaceFrom, h]

theorem Rule.replaceAll_of_some (h : r (c :: cs) = some (words, n)) :
    r.replaceAll (c :: cs) = words ++ r.replaceAll (cs.drop (n - 1)) := by
  rw [← Rule.replaceFrom_eq_drop]
  simp [Rule.replaceAll, Rule.replaceFrom, h]

/-- A rule reads a text from left to right: it keeps a character, or it replaces a passage and goes
    on behind it. -/
@[elab_as_elim] theorem Rule.passages_induction (r : Rule) {motive : List Char → Prop}
    (nil : motive []) (kept : ∀ c cs, r (c :: cs) = none → motive cs → motive (c :: cs))
    (replaced : ∀ c cs words n, r (c :: cs) = some (words, n) → motive (cs.drop (n - 1)) →
      motive (c :: cs)) (cs : List Char) : motive cs := by
  induction hlength : cs.length using Nat.strong_induction_on generalizing cs with
  | _ k ih =>
    subst hlength
    cases cs with
    | nil => exact nil
    | cons c cs =>
      cases hr : r (c :: cs) with
      | none => exact kept c cs hr (ih _ (by simp) _ rfl)
      | some found =>
        apply replaced c cs found.1 found.2 hr
        exact ih _ (by simp only [List.length_drop, List.length_cons]; omega) _ rfl

/-- The rule finds nothing in `cs`. -/
def Rule.IsStill (r : Rule) (cs : List Char) : Prop := ∀ rest, rest <:+ cs → r rest = none

theorem Rule.replaceAll_of_isStill (h : r.IsStill cs) : r.replaceAll cs = cs := by
  induction cs with
  | nil => exact Rule.replaceAll_nil
  | cons c cs ih =>
    have hrest : r.IsStill cs := fun rest hrest => h rest (hrest.trans (List.suffix_cons c cs))
    rw [Rule.replaceAll_of_none (h _ List.suffix_rfl), ih hrest]

/-- What the rule looks for at the start of a text are the passages that satisfy `P`. -/
def Rule.Finds (r : Rule) (P : List Char → Prop) : Prop :=
  ∀ cs, r cs = none ↔ ¬∃ part, P part ∧ part <+: cs

theorem Rule.Finds.isStill_iff (h : r.Finds P) : r.IsStill cs ↔ ¬Occurs P cs := by
  rw [occurs_iff_suffix]
  constructor
  · intro hstill ⟨rest, hsuffix, hpart⟩
    exact (h rest).1 (hstill rest hsuffix) hpart
  · intro hnot rest hsuffix
    exact (h rest).2 fun hpart => hnot ⟨rest, hsuffix, hpart⟩

theorem Rule.Finds.replaceAll_eq_self (h : r.Finds P) (hnot : ¬Occurs P cs) :
    r.replaceAll cs = cs :=
  Rule.replaceAll_of_isStill (h.isStill_iff.2 hnot)

/-! ### Where the new text comes from -/

theorem Rule.mem_replaceAll (h : c ∈ r.replaceAll cs) :
    c ∈ cs ∨ ∃ old words n, r old = some (words, n) ∧ c ∈ words := by
  induction cs using r.passages_induction with
  | nil => simp at h
  | kept d cs hr ih =>
    rw [Rule.replaceAll_of_none hr, List.mem_cons] at h
    rcases h with hfirst | hrest
    · simp [hfirst]
    · rcases ih hrest with hold | hnew
      · exact Or.inl (List.mem_cons_of_mem d hold)
      · exact Or.inr hnew
  | replaced d cs words n hr ih =>
    rw [Rule.replaceAll_of_some hr, List.mem_append] at h
    rcases h with hwords | hrest
    · exact Or.inr ⟨_, words, n, hr, hwords⟩
    · rcases ih hrest with hold | hnew
      · exact Or.inl (List.mem_cons_of_mem d (List.mem_of_mem_drop hold))
      · exact Or.inr hnew

/-- A rest of the new text begins with a character that was kept or inside new words. -/
theorem Rule.kept_or_new (h : c :: ds <:+ r.replaceAll cs) :
    (∃ rest, c :: rest <:+ cs ∧ r (c :: rest) = none ∧ ds = r.replaceAll rest) ∨
      ∃ d old words n t, d :: old <:+ cs ∧ r (d :: old) = some (words, n) ∧ c :: t <:+ words ∧
        ds = t ++ r.replaceAll (old.drop (n - 1)) := by
  induction cs using r.passages_induction with
  | nil => simp at h
  | kept d cs hr ih =>
    have hlater := List.suffix_cons d cs
    rw [Rule.replaceAll_of_none hr, List.suffix_cons_iff] at h
    rcases h with hall | hrest
    · obtain ⟨rfl, rfl⟩ := List.cons.inj hall
      exact Or.inl ⟨cs, List.suffix_rfl, hr, rfl⟩
    · rcases ih hrest with ⟨rest, hsuffix, hkept⟩ | ⟨e, old, words, n, t, hsuffix, hnew⟩
      · exact Or.inl ⟨rest, hsuffix.trans hlater, hkept⟩
      · exact Or.inr ⟨e, old, words, n, t, hsuffix.trans hlater, hnew⟩
  | replaced d cs words n hr ih =>
    have hlater : cs.drop (n - 1) <:+ d :: cs :=
      (List.drop_suffix (n - 1) cs).trans (List.suffix_cons d cs)
    rw [Rule.replaceAll_of_some hr] at h
    obtain ⟨front, hfront⟩ := h
    -- The rest is behind the new words, or an end of them belongs to it.
    have hcut : c :: ds <:+ r.replaceAll (cs.drop (n - 1)) ∨
        ∃ t, c :: t <:+ words ∧ ds = t ++ r.replaceAll (cs.drop (n - 1)) := by
      rcases List.append_eq_append_iff.1 hfront with ⟨t, hwords, hrest⟩ | ⟨t, -, hrest⟩
      · cases t with
        | nil => exact Or.inl ⟨[], hrest⟩
        | cons d t =>
          obtain ⟨rfl, rfl⟩ := List.cons.inj hrest
          exact Or.inr ⟨t, ⟨front, hwords.symm⟩, rfl⟩
      · exact Or.inl ⟨t, hrest.symm⟩
    rcases hcut with hrest | ⟨t, ht, hds⟩
    · rcases ih hrest with ⟨rest, hsuffix, hkept⟩ | ⟨e, old, words, n, t, hsuffix, hnew⟩
      · exact Or.inl ⟨rest, hsuffix.trans hlater, hkept⟩
      · exact Or.inr ⟨e, old, words, n, t, hsuffix.trans hlater, hnew⟩
    · exact Or.inr ⟨d, cs, words, n, t, List.suffix_rfl, hr, ht, hds⟩

/-- A rest of the new text that does not begin inside new words begins with a character that was
    kept. -/
theorem Rule.exists_kept (h : c :: ds <:+ r.replaceAll cs)
    (hapart : ∀ old words n, r old = some (words, n) → ∀ t, c :: t <:+ words →
      ¬c :: t <+: c :: ds) :
    ∃ rest, c :: rest <:+ cs ∧ r (c :: rest) = none ∧ ds = r.replaceAll rest := by
  rcases Rule.kept_or_new h with hkept | ⟨d, old, words, n, t, _, hfound, ht, hds⟩
  · exact hkept
  · apply absurd _ (hapart _ words n hfound t ht)
    rw [hds]
    exact List.prefix_append (c :: t) _

/-- A passage that no new words can take part in stands in front of the new text only if it stood in
    front of the old one. -/
theorem Rule.prefix_of_replaceAll (h : ds <+: r.replaceAll cs)
    (hapart : ∀ old words n, r old = some (words, n) → ∀ t, t <:+ ds →
      t <+: words ∨ words <+: t → t = []) : ds <+: cs := by
  induction cs using r.passages_induction generalizing ds with
  | nil => simpa using h
  | kept c cs hr ih =>
    rw [Rule.replaceAll_of_none hr, List.prefix_cons_iff] at h
    rcases h with hnil | ⟨rest, hds, hrest⟩
    · simp [hnil]
    · subst hds
      have hold : rest <+: cs := ih hrest fun old words n hfound t ht =>
        hapart old words n hfound t (ht.trans (List.suffix_cons c rest))
      exact List.cons_prefix_cons.2 ⟨rfl, hold⟩
  | replaced c cs words n hr ih =>
    rw [Rule.replaceAll_of_some hr] at h
    -- Both begin at one place, so either goes on as the other does.
    have hboth := List.prefix_or_prefix_of_prefix h (List.prefix_append words _)
    simp [hapart _ words n hr ds List.suffix_rfl hboth]

/-! ### Counting -/

variable {p : Char → Bool} {k : Nat}

/-- A text is a passage of `n` characters and what stands behind it. -/
theorem countP_passage (c : Char) (cs : List Char) (n : Nat) :
    (c :: cs).countP p = (c :: cs.take (n - 1)).countP p + (cs.drop (n - 1)).countP p := by
  rw [← List.countP_append, List.cons_append, List.take_append_drop]

/-- The characters that satisfy `p` become no more, if they do not in any passage. -/
theorem Rule.countP_replaceAll_le (h : ∀ c cs words n, r (c :: cs) = some (words, n) →
    words.countP p ≤ (c :: cs.take (n - 1)).countP p) (cs : List Char) :
    (r.replaceAll cs).countP p ≤ cs.countP p := by
  induction cs using r.passages_induction with
  | nil => simp
  | kept c cs hr ih =>
    rw [Rule.replaceAll_of_none hr, List.countP_cons, List.countP_cons]
    omega
  | replaced c cs words n hr ih =>
    have hpassage := h c cs words n hr
    rw [Rule.replaceAll_of_some hr, List.countP_append, countP_passage c cs n]
    omega

/-- They become fewer by `k` at least, if they do in any passage and one is found. -/
theorem Rule.countP_replaceAll_add_le (h : ∀ c cs words n, r (c :: cs) = some (words, n) →
    words.countP p + k ≤ (c :: cs.take (n - 1)).countP p) (hnil : r [] = none)
    (hfound : ¬r.IsStill cs) : (r.replaceAll cs).countP p + k ≤ cs.countP p := by
  induction cs using r.passages_induction with
  | nil =>
    apply absurd _ hfound
    intro rest hrest
    rw [List.suffix_nil.1 hrest, hnil]
  | kept c cs hr ih =>
    have hrest : ¬r.IsStill cs := by
      intro hstill
      apply hfound
      intro rest hrest
      rcases List.suffix_cons_iff.1 hrest with hall | hin
      · rw [hall, hr]
      · exact hstill rest hin
    have hfewer := ih hrest
    rw [Rule.replaceAll_of_none hr, List.countP_cons, List.countP_cons]
    omega
  | replaced c cs words n hr ih =>
    -- This passage takes `k`; those behind it take what they may.
    have hpassage := h c cs words n hr
    have hless : ∀ c cs words n, r (c :: cs) = some (words, n) →
        words.countP p ≤ (c :: cs.take (n - 1)).countP p := by
      intro c cs words n hr
      have hmore := h c cs words n hr
      omega
    have hbehind := Rule.countP_replaceAll_le hless (cs.drop (n - 1))
    rw [Rule.replaceAll_of_some hr, List.countP_append, countP_passage c cs n]
    omega

end Storyboard.Narration
