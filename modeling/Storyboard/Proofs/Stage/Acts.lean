import Storyboard.Proofs.Stage.Effect
import Storyboard.Proofs.Stage.Performance

/-! # What is done later

    Once its commands are opened, a performance does nothing but the acts of
    the cues that they left, at whatever times (`Performance.resume_acted`).
    Each of these acts was scheduled by a command: the edges of a node follow
    it only because it was moved, and an exit is only finished because a node
    or an edge was deleted (`Performance.start_scheduled`). -/

namespace Storyboard

/-! ### The acts of cues -/

namespace Cue

/-- The acts that a cue comes to. -/
def acts : Cue → Set Act
  | .act a => {a}
  | .wait _ => ∅
  | .flashes _ id h _ => {.highlight id (some h), .highlight id none}

/-- The acts that some cues come to. -/
def actsOf (cues : List Cue) : Set Act := {a | ∃ c ∈ cues, a ∈ c.acts}

@[simp] theorem actsOf_nil : actsOf [] = ∅ := by
  simp [actsOf]

@[simp] theorem actsOf_cons (c : Cue) (rest : List Cue) :
    actsOf (c :: rest) = c.acts ∪ actsOf rest := by
  ext a
  simp [actsOf]

@[simp] theorem actsOf_append (cues rest : List Cue) :
    actsOf (cues ++ rest) = actsOf cues ∪ actsOf rest := by
  ext a
  simp [actsOf, or_and_right, exists_or]

end Cue

/-! ### Acts at any times -/

/-- One stage comes from another by acts out of a set, at whatever times. -/
inductive Stage.Acted (A : Set Act) : Stage → Stage → Prop
  | refl {s : Stage} : Acted A s s
  | act {s s' : Stage} {a : Act} (now : Nat) (ha : a ∈ A) (h : Acted A (s.perform now a) s') :
      Acted A s s'

variable {A : Set Act} {s s' s'' : Stage}

theorem Stage.Acted.trans (h : Acted A s s') (h' : Acted A s' s'') : Acted A s s'' := by
  induction h with
  | refl => exact h'
  | act now ha _ ih => exact .act now ha (ih h')

theorem Stage.Acted.mono {B : Set Act} (h : Acted A s s') (hsub : A ⊆ B) : Acted B s s' := by
  induction h with
  | refl => exact .refl
  | act now ha _ ih => exact .act now (hsub ha) ih

namespace Strand

open Stage

/-- To follow cues is to do some of their acts, and the others are left. -/
theorem follow_acted (now : Nat) (pacing : Pacing) {cues : List Cue} (h : Cue.actsOf cues ⊆ A) :
    Acted A s (follow now pacing s cues).1 ∧
      Cue.actsOf (follow now pacing s cues).2.cues ⊆ A := by
  -- By induction on the cues. Flashes light the thing now and leave the rest for later.
  induction cues generalizing s with
  | nil => exact ⟨.refl, h⟩
  | cons c rest ih =>
    rw [Cue.actsOf_cons, Set.union_subset_iff] at h
    obtain ⟨hfirst, hrest⟩ := h
    cases c with
    | act a =>
      obtain ⟨hacted, hleft⟩ := ih (s := s.perform now a) hrest
      exact ⟨.act now (hfirst rfl) hacted, hleft⟩
    | wait d => exact ⟨.refl, hrest⟩
    | flashes n id hl hold =>
      cases n with
      | zero => exact ih hrest
      | succ n =>
        obtain ⟨hlit, hunlit⟩ := Set.insert_subset_iff.1 hfirst
        refine ⟨.act (a := .highlight id (some hl)) now hlit .refl, ?_⟩
        change Cue.actsOf (.act (.highlight id none) :: .flashes n id hl hold :: rest) ⊆ A
        rw [Cue.actsOf_cons, Cue.actsOf_cons]
        exact Set.union_subset hunlit (Set.union_subset hfirst hrest)

theorem resume_acted (now : Nat) (pacing : Pacing) {t : Strand} (h : Cue.actsOf t.cues ⊆ A) :
    Acted A s (resume now pacing s t).1 ∧ Cue.actsOf (resume now pacing s t).2.cues ⊆ A := by
  cases t with
  | «over» => exact ⟨.refl, h⟩
  | resting wait rest =>
    by_cases hover : wait.isOver now = true
    · have heq : resume now pacing s (.resting wait rest) = follow now pacing s rest := if_pos hover
      rw [heq]
      exact follow_acted now pacing h
    · have heq : resume now pacing s (.resting wait rest) = (s, .resting wait rest) :=
        if_neg hover
      rw [heq]
      exact ⟨.refl, h⟩

/-- The acts of these strands are out of a set. -/
def ActsIn (A : Set Act) (ts : List Strand) : Prop := ∀ t ∈ ts, Cue.actsOf t.cues ⊆ A

theorem followAll_acted (now : Nat) (pacing : Pacing) {cues : List (List Cue)}
    (h : ∀ l ∈ cues, Cue.actsOf l ⊆ A) :
    Acted A s (followAll now pacing s cues).1 ∧ ActsIn A (followAll now pacing s cues).2 := by
  induction cues generalizing s with
  | nil => exact ⟨.refl, List.forall_mem_nil _⟩
  | cons l rest ih =>
    obtain ⟨hl, hrest⟩ := List.forall_mem_cons.1 h
    obtain ⟨hacted, hleft⟩ := follow_acted (s := s) now pacing hl
    obtain ⟨hothers, hleft'⟩ := ih (s := (follow now pacing s l).1) hrest
    exact ⟨hacted.trans hothers, List.forall_mem_cons.2 ⟨hleft, hleft'⟩⟩

theorem resumeAll_acted (now : Nat) (pacing : Pacing) {ts : List Strand} (h : ActsIn A ts) :
    Acted A s (resumeAll now pacing s ts).1 ∧ ActsIn A (resumeAll now pacing s ts).2 := by
  induction ts generalizing s with
  | nil => exact ⟨.refl, h⟩
  | cons t rest ih =>
    obtain ⟨ht, hrest⟩ := List.forall_mem_cons.1 h
    obtain ⟨hacted, hleft⟩ := resume_acted (s := s) now pacing ht
    obtain ⟨hothers, hleft'⟩ := ih (s := (resume now pacing s t).1) hrest
    exact ⟨hacted.trans hothers, List.forall_mem_cons.2 ⟨hleft, hleft'⟩⟩

end Strand

open Stage in
/-- To go on is to do some of the acts that are left. -/
theorem Performance.resume_acted (now : Nat) {p : Performance} (h : Strand.ActsIn A p.strands) :
    Acted A s (p.resume now s).1 ∧ Strand.ActsIn A (p.resume now s).2.strands := by
  obtain ⟨ts, hts, hworld, hleft⟩ := Performance.resume_eq now s p
  obtain ⟨hacted, hin⟩ := Strand.resumeAll_acted (s := s) now p.pacing
    fun t ht => h t (hts.mem_iff.1 ht)
  rw [hworld]
  exact ⟨hacted, fun t ht => hin t (hleft.mem_iff.1 ht)⟩

/-! ### Who schedules an act -/

/-- Whether a command may leave an act to be done. Highlights and tints come and go with many
    commands; for the others there is one that leaves them. -/
def Command.Schedules (c : Command) : Act → Prop
  | .highlight .. => True
  | .tint .. => True
  | .followRow id => ∃ r, c = .createArray r ∧ r.id = id
  | .followNode id => ∃ destination span easing, c = .moveNode id destination span easing
  | .finishExit _ k id => k = .node ∧ c = .deleteNode id ∨ k = .edge ∧ c = .deleteEdge id

namespace Stage

variable {now : Nat} {pacing : Pacing} {tag : CommandTag} {id : EntityId} {k : Kind} {c : Command}
  {cues : List (List Cue)}

/-- Only the cues that follow it are left by a thing that enters. -/
theorem create_cues {e : Entity} {f : Figure} {enter : Transition} {after : List Cue}
    (h : s.create now pacing tag e f enter after = .ok (s', cues)) :
    cues = [.wait (pacing.transition enter).span :: after] := by
  unfold create at h
  dsimp only at h
  split at h
  · cases h
  · cases h
    rfl

theorem create_schedules {e : Entity} {f : Figure} {enter : Transition}
    (h : s.create now pacing tag e f enter [] = .ok (s', cues)) :
    ∀ l ∈ cues, ∀ a ∈ Cue.actsOf l, c.Schedules a := by
  obtain rfl := create_cues h
  simp [Cue.acts]

theorem delete_schedules (h : s.delete now pacing tag k id = .ok (s', cues))
    (hc : k = .node ∧ c = .deleteNode id ∨ k = .edge ∧ c = .deleteEdge id) :
    ∀ l ∈ cues, ∀ a ∈ Cue.actsOf l, c.Schedules a := by
  unfold delete at h
  dsimp only at h
  split at h
  · cases h
  · split at h
    · cases h
      exact List.forall_mem_nil _
    · split at h
      · cases h
        exact List.forall_mem_nil _
      · cases h
        simpa [Cue.acts, Command.Schedules] using hc

theorem flash_schedules {h : Highlight} {hold : Span} {a : Act}
    (ha : a ∈ Cue.actsOf (flash id h hold)) : c.Schedules a := by
  simp only [flash, Cue.actsOf_cons, Cue.actsOf_nil, Cue.acts, Set.mem_union] at ha
  rcases ha with rfl | ⟨⟨⟩⟩ | rfl | ⟨⟨⟩⟩ <;> trivial

theorem highlights_schedule {elements : List EntityId} {h : Option Highlight} {a : Act}
    (ha : a ∈ Cue.actsOf (elements.map fun id => .act (.highlight id h))) : c.Schedules a := by
  obtain ⟨cue, hcue, ha⟩ := ha
  obtain ⟨id, _, rfl⟩ := List.mem_map.1 hcue
  obtain rfl := ha
  trivial

/-- Every act that is left by a command was scheduled by it. -/
theorem opening_schedules (h : s.opening now pacing c = .ok (s', cues)) :
    ∀ l ∈ cues, ∀ a ∈ Cue.actsOf l, c.Schedules a := by
  -- By what a command does once it is taken: commands that create or delete leave their own cues.
  cases effect_of_opening h with
  | createNode hcreate | createEdge _ hcreate | setPointer _ hcreate | addLabel hcreate
  | addCallout _ hcreate => exact create_schedules hcreate
  | createArray hcreate =>
    obtain rfl := create_cues hcreate
    simp [Cue.acts, Command.Schedules]
  | deleteNode hdelete => exact delete_schedules hdelete (.inl ⟨rfl, rfl⟩)
  | deleteEdge hdelete => exact delete_schedules hdelete (.inr ⟨rfl, rfl⟩)
  | updateNode => exact List.forall_mem_nil _
  | moveNode | pulse | swap => simp [Cue.acts, Command.Schedules]
  | highlight =>
    intro l hl a ha
    rw [List.mem_singleton.1 hl] at ha
    exact flash_schedules ha
  | compare =>
    intro l hl a ha
    rw [List.mem_singleton.1 hl] at ha
    simp only [compareCues, Cue.actsOf_append, Cue.actsOf_cons, Cue.acts, Set.empty_union,
      Set.mem_union] at ha
    rcases ha with ((ha | ha) | ha) | ha <;> exact highlights_schedule ha
  | highlightPath =>
    intro l hl a ha
    split at hl
    · obtain ⟨d, id, rfl⟩ := exists_flash_of_mem_pathCues hl
      rw [Cue.actsOf_cons, Cue.acts, Set.empty_union] at ha
      exact flash_schedules ha
    · obtain ⟨id, _, rfl⟩ := List.mem_map.1 hl
      exact flash_schedules ha
  | updateCell =>
    split
    · simp [Cue.acts, Command.Schedules]
    · exact List.forall_mem_nil _

/-- The acts that some commands may leave to be done. -/
def scheduled (commands : List Json) : Set Act :=
  {a | ∃ command ∈ commands, ∃ c, Command.ofJson command = .ok c ∧ c.Schedules a}

end Stage

open Stage

theorem Course.startAll_scheduled (now : Nat) (pacing : Pacing) (s : Stage)
    (commands : List Json) :
    Strand.ActsIn (scheduled commands)
      (Course.strandsOf (Course.startAll now pacing s commands).2) := by
  induction commands generalizing s with
  | nil => exact List.forall_mem_nil _
  | cons command rest ih =>
    -- A command that is refused leaves nothing, and one that is opened leaves what it scheduled.
    have hfirst : Strand.ActsIn (scheduled (command :: rest))
        (Course.start now pacing s command).2.strands := by
      unfold Course.start
      cases hc : Command.ofJson command with
      | error p => exact List.forall_mem_nil _
      | ok c =>
        dsimp only
        cases ho : s.opening now pacing c with
        | error p => exact List.forall_mem_nil _
        | ok opened =>
          have hacts : ∀ l ∈ opened.2, Cue.actsOf l ⊆ scheduled (command :: rest) :=
            fun l hl a ha => ⟨command, List.mem_cons_self, c, hc, opening_schedules ho l hl a ha⟩
          exact (Strand.followAll_acted (s := opened.1) now pacing hacts).2
    refine List.forall_mem_append.2 ⟨hfirst, fun t ht => ?_⟩
    refine (ih (Course.start now pacing s command).1 t ht).trans ?_
    rintro a ⟨command', hcommand, hscheduled⟩
    exact ⟨command', List.mem_cons_of_mem _ hcommand, hscheduled⟩

/-- What is left to be done when commands are opened was scheduled by one of them. -/
theorem Performance.start_scheduled (now : Nat) (pacing : Pacing) (s : Stage)
    (commands : List Json) :
    Strand.ActsIn (scheduled commands) (Performance.start now pacing s commands).2.strands := by
  rw [Performance.strands_start]
  exact Course.startAll_scheduled now pacing s commands

end Storyboard
