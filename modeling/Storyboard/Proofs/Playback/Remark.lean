import Storyboard.Proofs.Playback.Move
import Storyboard.Proofs.Text.Blank

/-! # What is performed and spoken, remark by remark

    A remark tells more than a deed: which step begins and in which epoch, what
    the narrator is asked to speak when its commands are through, and with
    which timeline the stage is cleared. What can be remarked one after another
    leads from one moment to the next (`Moment.Goes`).

    So the narrator is asked only right after the commands of a step, for the
    narration of that step (`Moment.leads_follows`), and not while the stage is
    rebuilt (`Moment.leads_clears`). The texts are the narrations of some of
    the steps, in their order (`Moment.Leads.exists_heard`), and where no epoch
    lapses and the stage is not cleared, they are those of all the steps
    (`Moment.Leads.owed`). -/

namespace Storyboard

/-- Something that happens on the stage of a player, or that its narrator is asked for. -/
inductive Remark where
  /-- The commands of a step begin, at a place and in an epoch. -/
  | begins (place : Nat) (step : Step) (epoch : Nat)
  /-- They are through. -/
  | through (place : Nat)
  /-- What follows them begins, with a text that the narrator is asked to speak or without one. So
      far the cursor and the epoch had come then. -/
  | follows (text? : Option String) (cursor epoch : Nat)
  /-- What follows them is over. -/
  | ends (lapsed : Bool)
  /-- The stage is cleared in order to be rebuilt for a timeline. -/
  | clears (timeline : Timeline)
  /-- The stage is rebuilt, with the cursor at a place. -/
  | rebuilt (place : Nat)

namespace Remark

/-- What happens on the stage. -/
def deed? : Remark → Option Deed
  | .begins place _ _ => some (.begins place)
  | .through place => some (.through place)
  | .follows .. => none
  | .ends lapsed => some (.ends lapsed)
  | .clears _ => some .clears
  | .rebuilt place => some (.rebuilt place)

/-- The step that begins. -/
def step? : Remark → Option Step
  | .begins _ step _ => some step
  | _ => none

/-- The text that the narrator is asked to speak. -/
def text? : Remark → Option String
  | .follows text? _ _ => text?
  | _ => none

/-- The epoch in which it is remarked. -/
def epoch? : Remark → Option Nat
  | .begins _ _ epoch => some epoch
  | .follows _ _ epoch => some epoch
  | _ => none

end Remark

/-- What there is to speak: a narration without the blanks at its ends, unless nothing else is
    left of it. -/
theorem Step.spoken?_eq_some {step : Step} {text : String} : step.spoken? = some text ↔
    ∃ narration, step.narration = some narration ∧ Text.trim narration = text ∧ text ≠ "" := by
  unfold Step.spoken?
  rw [Option.bind_eq_some_iff]
  exact exists_congr fun narration => and_congr_right fun _ => Text.trimmed?_eq_some

/-! ### Reading them -/

/-- What goes on on the stage, with the step that is at it and the epoch in which that began. -/
inductive Passage where
  /-- Nothing; the step at `next` comes next. -/
  | idle (next : Nat)
  | performing (place : Nat) (step : Step) (epoch : Nat)
  /-- The commands are through, and what follows them has not begun. -/
  | through (next : Nat) (step : Step) (epoch : Nat)
  | trailing (next : Nat)
  | rebuilding

/-- What goes on, and the timeline that is played. -/
structure Moment where
  timeline : Timeline
  passage  : Passage

namespace Moment

/-- Nothing is loaded. -/
def first : Moment := ⟨.empty, .idle 0⟩

/-- What can be remarked next, and what goes on then. A step is the one that comes next, and what it
    has to say is said unless its epoch is over. -/
inductive Goes : Moment → Remark → Moment → Prop
  | begins {timeline : Timeline} {place : Nat} {step : Step} {epoch : Nat}
      (hstep : timeline.steps[place]? = some step) :
      Goes ⟨timeline, .idle place⟩ (.begins place step epoch)
        ⟨timeline, .performing place step epoch⟩
  | through {timeline : Timeline} {place : Nat} {step : Step} {epoch : Nat} :
      Goes ⟨timeline, .performing place step epoch⟩ (.through place)
        ⟨timeline, .through (place + 1) step epoch⟩
  | follows {timeline : Timeline} {next : Nat} {step : Step} {epoch now : Nat}
      {text? : Option String} (htext : text? = step.spoken? ∨ text? = none ∧ now ≠ epoch) :
      Goes ⟨timeline, .through next step epoch⟩ (.follows text? next now)
        ⟨timeline, .trailing next⟩
  | ends {timeline : Timeline} {next : Nat} {lapsed : Bool} :
      Goes ⟨timeline, .trailing next⟩ (.ends lapsed) ⟨timeline, .idle next⟩
  | clears {timeline timeline' : Timeline} {next : Nat} :
      Goes ⟨timeline, .idle next⟩ (.clears timeline') ⟨timeline', .rebuilding⟩
  | rebuilt {timeline : Timeline} {place : Nat} :
      Goes ⟨timeline, .rebuilding⟩ (.rebuilt place) ⟨timeline, .idle place⟩

/-- What can be remarked one after another. -/
inductive Leads : Moment → List Remark → Moment → Prop
  | nil {m : Moment} : Leads m [] m
  | cons {m m' m'' : Moment} {r : Remark} {log : List Remark} (h : Goes m r m')
      (hs : Leads m' log m'') : Leads m (r :: log) m''

variable {m m' m'' : Moment} {r : Remark} {log more : List Remark} {epoch : Nat}

/-- No remark can be read in two ways. -/
theorem Goes.unique (h : Goes m r m') (h' : Goes m r m'') : m' = m'' := by
  cases h <;> cases h' <;> rfl

theorem Leads.unique (h : Leads m log m') (h' : Leads m log m'') : m' = m'' := by
  induction h with
  | nil =>
    cases h'
    rfl
  | cons hfirst _ ih =>
    cases h' with
    | cons hfirst' hrest' =>
      obtain rfl := hfirst.unique hfirst'
      exact ih hrest'

theorem Leads.append (h : Leads m log m') (h' : Leads m' more m'') :
    Leads m (log ++ more) m'' := by
  induction h with
  | nil => exact h'
  | cons hfirst _ ih => exact .cons hfirst (ih h')

/-- What can be read can be read up to any place. -/
theorem exists_leads_of_append (h : Leads m (log ++ more) m'') :
    ∃ m', Leads m log m' ∧ Leads m' more m'' := by
  induction log generalizing m with
  | nil => exact ⟨m, .nil, h⟩
  | cons r log ih =>
    cases h with
    | cons hfirst hrest =>
      obtain ⟨m', hlog, hmore⟩ := ih hrest
      exact ⟨m', .cons hfirst hlog, hmore⟩

/-! ### What was asked for -/

/-- The last remark before one that has come this far. -/
theorem Leads.exists_last (h : Leads m log m') (hne : m ≠ m') :
    ∃ before r mid, log = before ++ [r] ∧ Leads m before mid ∧ Goes mid r m' := by
  rcases List.eq_nil_or_concat log with rfl | ⟨before, r, rfl⟩
  · cases h
    exact absurd rfl hne
  · rw [List.concat_eq_append] at h ⊢
    obtain ⟨mid, hbefore, hlast⟩ := exists_leads_of_append h
    cases hlast with
    | cons hgoes hnil =>
      cases hnil
      exact ⟨before, r, mid, rfl, hbefore, hgoes⟩

/-- The narrator is asked for a text right after the commands of a step, which has it for its
    narration. -/
theorem leads_follows {after : List Remark} {text : String} {cursor : Nat}
    (h : Leads first (log ++ .follows (some text) cursor epoch :: after) m) :
    ∃ before place step begun, log = before ++ [.begins place step begun, .through place] ∧
      cursor = place + 1 ∧ step.spoken? = some text := by
  obtain ⟨mid, hlog, hrest⟩ := exists_leads_of_append h
  cases hrest with
  | cons hgoes _ =>
    cases hgoes with
    | @follows timeline _ step begun _ _ htext =>
      have hspoken : step.spoken? = some text := by
        rcases htext with hsame | ⟨hnone, _⟩
        · exact hsame.symm
        · cases hnone
      -- Only the end of its commands leads to where something may follow, and only the beginning
      -- of the step leads to its commands.
      obtain ⟨before, r, mid, rfl, hbefore, hthrough⟩ := hlog.exists_last nofun
      cases hthrough with
      | @through _ place =>
        obtain ⟨before, r, mid, rfl, _, hbegins⟩ := hbefore.exists_last nofun
        cases hbegins with
        | begins hstep =>
          refine ⟨before, place, step, begun, ?_, rfl, hspoken⟩
          rw [List.append_assoc]
          rfl

/-- While the stage is rebuilt nothing else can be remarked. -/
theorem leads_clears {timeline : Timeline} {after : List Remark}
    (h : Leads m (log ++ .clears timeline :: after) m') :
    after = [] ∨ ∃ place rest, after = .rebuilt place :: rest := by
  obtain ⟨mid, _, hrest⟩ := exists_leads_of_append h
  cases hrest with
  | cons hgoes hafter =>
    cases hgoes with
    | clears =>
      cases hafter with
      | nil => exact .inl rfl
      | cons hnext _ =>
        cases hnext with
        | rebuilt => exact .inr ⟨_, _, rfl⟩

/-- The step that may still be spoken of. -/
def pending (m : Moment) : List Step :=
  match m.passage with
  | .performing _ step _ => [step]
  | .through _ step _ => [step]
  | _ => []

/-- With a remark a step begins, or the narrator is asked to speak of the one that was pending, or
    is not asked and never will be. -/
theorem Goes.pending (h : Goes m r m') : ∃ heard passed : List Step,
    m.pending ++ r.step?.toList = passed ++ m'.pending ∧ heard.Sublist passed ∧
      heard.map Step.spoken? = r.text?.toList.map some := by
  cases h with
  | @follows _ _ step _ _ text? htext =>
    -- Either way the step is passed; it was heard if there is a text.
    cases htext' : text? with
    | none => exact ⟨[], [step], rfl, List.nil_sublist _, rfl⟩
    | some text =>
      subst htext'
      have hspoken : step.spoken? = some text := by
        rcases htext with hsame | ⟨hnone, _⟩
        · exact hsame.symm
        · cases hnone
      exact ⟨[step], [step], rfl, List.Sublist.refl _, congrArg (· :: []) hspoken⟩
  | _ => exact ⟨[], [], rfl, List.nil_sublist _, rfl⟩

theorem Leads.pending (h : Leads m log m') : ∃ heard passed : List Step,
    m.pending ++ log.filterMap Remark.step? = passed ++ m'.pending ∧ heard.Sublist passed ∧
      heard.map Step.spoken? = (log.filterMap Remark.text?).map some := by
  have hcons : ∀ {β : Type} (f : Remark → Option β) (r : Remark) (log : List Remark),
      (r :: log).filterMap f = (f r).toList ++ log.filterMap f := by
    intro β f r log
    rw [List.filterMap_cons]
    cases f r <;> rfl
  induction h with
  | @nil m => exact ⟨[], [], List.append_nil m.pending, List.nil_sublist _, rfl⟩
  | @cons m m' m'' r log hfirst _ ih =>
    obtain ⟨heard, passed, hsame, hsub, hspoken⟩ := hfirst.pending
    obtain ⟨heard', passed', hsame', hsub', hspoken'⟩ := ih
    refine ⟨heard ++ heard', passed ++ passed', ?_, hsub.append hsub', ?_⟩
    · rw [hcons, ← List.append_assoc, hsame, List.append_assoc, hsame', List.append_assoc]
    · rw [hcons, List.map_append, List.map_append, hspoken, hspoken']

/-- The narrator is asked for the narrations of some of the steps, in their order and of each once
    at most. -/
theorem Leads.exists_heard (h : Leads first log m) : ∃ heard : List Step,
    heard.Sublist (log.filterMap Remark.step?) ∧
      heard.map Step.spoken? = (log.filterMap Remark.text?).map some := by
  obtain ⟨heard, passed, hsame, hsub, hspoken⟩ := h.pending
  refine ⟨heard, ?_, hspoken⟩
  have hsteps : log.filterMap Remark.step? = passed ++ m.pending := hsame
  rw [hsteps]
  exact hsub.trans (List.sublist_append_left _ _)

/-! ### What is still to be asked for -/

/-- The texts that are to come, unless an epoch lapses or the stage is cleared. -/
def owed (m : Moment) : List String :=
  let behind (next : Nat) : List String :=
    (m.timeline.steps.drop next).filterMap Step.spoken?
  match m.passage with
  | .idle next => behind next
  | .performing place step _ => step.spoken?.toList ++ behind (place + 1)
  | .through next step _ => step.spoken?.toList ++ behind next
  | .trailing next => behind next
  | .rebuilding => []

end Moment

/-- What goes on began in this epoch, and it is not a rebuilding. -/
def Passage.Within (epoch : Nat) : Passage → Prop
  | .performing _ _ epoch' => epoch' = epoch
  | .through _ _ epoch' => epoch' = epoch
  | .rebuilding => False
  | _ => True

/-- It is remarked in this epoch, and the stage is not cleared. -/
def Remark.Within (epoch : Nat) (r : Remark) : Prop :=
  (∀ epoch', r.epoch? = some epoch' → epoch' = epoch) ∧ ∀ timeline, r ≠ .clears timeline

namespace Moment

variable {m m' : Moment} {r : Remark} {log : List Remark} {epoch : Nat}

/-- Within an epoch, what the narrator is not asked for now is still to come. -/
theorem Goes.owed (h : Goes m r m') (hm : m.passage.Within epoch) (hr : r.Within epoch) :
    m'.passage.Within epoch ∧ m'.timeline = m.timeline ∧
      m.owed = r.text?.toList ++ m'.owed := by
  cases h with
  | @begins timeline place step begun hstep =>
    refine ⟨hr.1 begun rfl, rfl, ?_⟩
    show (timeline.steps.drop place).filterMap Step.spoken? = _
    obtain ⟨hplace, hget⟩ := List.getElem?_eq_some_iff.1 hstep
    rw [List.drop_eq_getElem_cons hplace, hget, List.filterMap_cons]
    show _ = step.spoken?.toList ++ (timeline.steps.drop (place + 1)).filterMap Step.spoken?
    cases step.spoken? <;> rfl
  | through => exact ⟨hm, rfl, rfl⟩
  | @follows timeline next step begun now text? htext =>
    -- The epoch is the one in which the step began, so what it has to say is said.
    obtain rfl : text? = step.spoken? := by
      rcases htext with hsame | ⟨_, hlapsed⟩
      · exact hsame
      · have hbegun : begun = epoch := hm
        exact absurd ((hr.1 now rfl).trans hbegun.symm) hlapsed
    exact ⟨trivial, rfl, rfl⟩
  | ends => exact ⟨trivial, rfl, rfl⟩
  | clears => exact absurd rfl (hr.2 _)
  | rebuilt => exact hm.elim

theorem Leads.owed (h : Leads m log m') (hm : m.passage.Within epoch)
    (hlog : ∀ r ∈ log, r.Within epoch) : m'.timeline = m.timeline ∧
      m.owed = log.filterMap Remark.text? ++ m'.owed := by
  induction h with
  | nil => exact ⟨rfl, rfl⟩
  | @cons m m' m'' r log hfirst _ ih =>
    obtain ⟨hr, hrest⟩ := List.forall_mem_cons.1 hlog
    obtain ⟨hm', htimeline, howed⟩ := hfirst.owed hm hr
    obtain ⟨htimeline', howed'⟩ := ih hm' hrest
    refine ⟨htimeline'.trans htimeline, ?_⟩
    rw [howed, howed', List.filterMap_cons]
    cases r.text? <;> rfl

end Moment

end Storyboard
