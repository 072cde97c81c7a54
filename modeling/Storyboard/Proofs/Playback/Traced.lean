import Storyboard.Proofs.Playback.Return
import Storyboard.Proofs.Stage.Painting

/-! # What the stage was told

    Whenever nobody is at work on the stage of a player, it comes of a blank
    one by performing the setup and the steps before the cursor, one after
    another and each alone (`Played.staged`); who is at work is performing the
    next of them. So it does not matter how the player came to its cursor. -/

namespace Storyboard

open Stage

/-- What somebody does on the stage goes on with what the stage was told. -/
def Work.Told (p : Player) : Work → Prop
  | .performing place step perf => p.timeline.steps[place]? = some step ∧
    ∃ s, Staged (p.timeline.before place) s ∧ s.Performing step.commands p.stage perf
  | .rebuilding goal perf rest => ∃ told commands s,
    told ++ commands :: rest = p.timeline.before goal ∧ Staged told s ∧
      s.Performing commands p.stage perf

theorem Timeline.before_succ {t : Timeline} {place : Nat} {step : Step}
    (h : t.steps[place]? = some step) :
    t.before (place + 1) = t.before place ++ [step.commands] := by
  unfold Timeline.before
  rw [List.take_add_one, h]
  simp

namespace Player

/-- How the stage of a player came about while others stand at its gate. -/
structure Traced (p : Player) (l : List Standing) : Prop where
  ordered : p.Ordered l
  told    : ∀ s ∈ l, ∀ w, s.work? = some w → w.Told p
  staged  : (∀ s ∈ l, s.work? = none) → Staged (p.timeline.before p.cursor) p.stage

variable {p q : Player} {s s' : Standing} {l l' : List Standing} {t u : Task} {a b : Advance}
  {ts : List Task} {deeds : List Deed} {ticket epoch now : Nat}

namespace Traced

theorem perm (h : p.Traced l) (hperm : l.Perm l') : p.Traced l' :=
  ⟨h.ordered.perm hperm, fun s hs => h.told s (hperm.mem_iff.2 hs),
    fun hidle => h.staged fun s hs => hidle s (hperm.mem_iff.1 hs)⟩

/-- Only the stage, the timeline and the cursor matter, and who is at work. -/
theorem congr (h : p.Traced (s :: l)) (hq : q.Ordered (s' :: l)) (hstage : q.stage = p.stage)
    (htimeline : q.timeline = p.timeline) (hcursor : q.cursor = p.cursor)
    (hwork : s'.work? = s.work?) : q.Traced (s' :: l) := by
  have htold : ∀ {w : Work}, w.Told p → w.Told q := by
    intro w hw
    cases w <;> simpa only [Work.Told, hstage, htimeline] using hw
  refine ⟨hq, List.forall_mem_cons.2 ⟨fun w hw => ?_, fun u hu w hw => ?_⟩, fun hidle => ?_⟩
  · exact htold (h.told s List.mem_cons_self w (hwork ▸ hw))
  · exact htold (h.told u (List.mem_cons_of_mem _ hu) w hw)
  · rw [hstage, htimeline, hcursor]
    obtain ⟨hs', hothers⟩ := List.forall_mem_cons.1 hidle
    exact h.staged (List.forall_mem_cons.2 ⟨hwork.symm.trans hs', hothers⟩)

theorem away_iff : p.Traced (.away :: l) ↔ p.Traced l := by
  constructor
  · intro h
    exact ⟨Ordered.away_iff.1 h.ordered, (List.forall_mem_cons.1 h.told).2,
      fun hidle => h.staged (List.forall_mem_cons.2 ⟨rfl, hidle⟩)⟩
  · intro h
    exact ⟨Ordered.away_iff.2 h.ordered, List.forall_mem_cons.2 ⟨(by rintro w ⟨⟩), h.told⟩,
      fun hidle => h.staged (List.forall_mem_cons.1 hidle).2⟩

/-- Whoever is at the head goes on with what the stage was told. -/
theorem act (h : p.Traced (s :: l)) (hq : q.Ordered (s' :: l)) (ht : s.ticket? = some ticket)
    (hleads : p.gate.leads ticket = true) (htold : ∀ w, s'.work? = some w → w.Told q)
    (hstaged : s'.work? = none → Staged (q.timeline.before q.cursor) q.stage) :
    q.Traced (s' :: l) := by
  have hidle := h.ordered.others_idle ht hleads
  refine ⟨hq, List.forall_mem_cons.2 ⟨htold, fun u hu w hw => ?_⟩,
    fun hall => hstaged (hall s' List.mem_cons_self)⟩
  rw [hidle u hu] at hw
  cases hw

theorem staged_of_leads (h : p.Traced (s :: l)) (ht : s.ticket? = some ticket)
    (hleads : p.gate.leads ticket = true) (hidle : s.work? = none) :
    Staged (p.timeline.before p.cursor) p.stage :=
  h.staged (List.forall_mem_cons.2 ⟨hidle, h.ordered.others_idle ht hleads⟩)

end Traced

/-! ### Rebuilding -/

/-- What a rebuilding that came this far leaves to be told. -/
theorem told_performLists {told lists : List (List Json)} {goal : Nat}
    (h : Staged told p.stage) (hlists : told ++ lists = p.timeline.before goal) (now : Nat)
    (report : Report) :
    let x := p.performLists now goal report lists
    (∀ w, (x.2.standing ticket).work? = some w → w.Told x.1) ∧
      ((x.2.standing ticket).work? = none →
        Staged (x.1.timeline.before x.1.cursor) x.1.stage) := by
  -- By induction on the lists that are left. What was told grows by each that is through at once.
  induction lists generalizing p told report with
  | nil =>
    rw [List.append_nil] at hlists
    exact ⟨(by rintro w ⟨⟩), fun _ => hlists ▸ h⟩
  | cons commands rest ih =>
    have hperforming : p.stage.Performing commands
        (Performance.start now .instant p.stage commands).1
        (Performance.start now .instant p.stage commands).2 := .start now .instant
    unfold performLists
    dsimp only
    cases hover : (Performance.start now .instant p.stage commands).2.isOver with
    | true =>
      have hmore := h.snoc ⟨_, hperforming, hover⟩
      exact ih (p := { p with stage := (Performance.start now .instant p.stage commands).1 }) hmore
        (by rw [List.append_assoc]; exact hlists) _
    | false =>
      refine ⟨?_, by rintro ⟨⟩⟩
      rintro w ⟨⟩
      exact ⟨told, commands, p.stage, hlists, h, hperforming⟩

theorem told_rebuild (p : Player) (now place ticket : Nat) :
    let x := p.rebuild now place
    (∀ w, (x.2.standing ticket).work? = some w → w.Told x.1) ∧
      ((x.2.standing ticket).work? = none →
        Staged (x.1.timeline.before x.1.cursor) x.1.stage) :=
  told_performLists (p := { p with stage := p.stage.reset now }) (.blank ⟨rfl, rfl, rfl⟩) rfl now
    .empty

theorem told_resumeRebuild {goal : Nat} {perf : Performance} {rest : List (List Json)}
    (h : (Work.rebuilding goal perf rest).Told p) (now ticket : Nat) (report : Report) :
    let x := p.resumeRebuild now (.performing goal perf rest report)
    (∀ w, (x.2.standing ticket).work? = some w → w.Told x.1) ∧
      ((x.2.standing ticket).work? = none →
        Staged (x.1.timeline.before x.1.cursor) x.1.stage) := by
  obtain ⟨told, commands, s, hlists, hstaged, hperforming⟩ := h
  have hresumed := hperforming.resume now
  unfold resumeRebuild
  dsimp only
  cases hover : (perf.resume now p.stage).2.isOver with
  | true =>
    have hmore := hstaged.snoc ⟨_, hresumed, hover⟩
    exact told_performLists (p := { p with stage := (perf.resume now p.stage).1 }) hmore
      (by rw [List.append_assoc]; exact hlists) now _
  | false =>
    refine ⟨?_, by rintro ⟨⟩⟩
    rintro w ⟨⟩
    exact ⟨told, commands, s, hlists, hstaged, hresumed⟩

/-! ### Every move -/

namespace Traced

theorem strides (h : p.Traced (a.standing :: l)) (hmove : Strides epoch now p a deeds q b) :
    q.Traced (b.standing :: l) := by
  have hq := h.ordered.strides hmove
  cases hmove with
  | @begin ticket step hleads hcurrent hstep =>
    refine h.act hq rfl hleads ?_ (by rintro ⟨⟩)
    rintro w ⟨⟩
    exact ⟨hstep, p.stage, h.staged_of_leads rfl hleads rfl, .start now .realtime⟩
  | pass hleads hnone => exact h.congr hq rfl rfl rfl rfl
  | perform hready =>
    have hleads : p.gate.leads _ = true := h.ordered.leads _ List.mem_cons_self
    obtain ⟨hstep, s, hstaged, hperforming⟩ := h.told _ List.mem_cons_self _ rfl
    refine h.act hq rfl hleads ?_ (by rintro ⟨⟩)
    rintro w ⟨⟩
    exact ⟨hstep, s, hstaged, hperforming.resume now⟩
  | proceed hover =>
    have hleads : p.gate.leads _ = true := h.ordered.leads _ List.mem_cons_self
    obtain ⟨hstep, s, hstaged, hperforming⟩ := h.told _ List.mem_cons_self _ rfl
    -- The step is the next thing that the stage was told.
    have hmore := hstaged.snoc ⟨_, hperforming, hover⟩
    rw [← Timeline.before_succ hstep] at hmore
    exact h.act hq rfl hleads (by rintro w ⟨⟩) fun _ => hmore
  | @follow ticket step report tail htail hready =>
    obtain ⟨narrator, coins, hsame⟩ := narrated_follow p epoch now step tail
    exact h.congr hq (by rw [hsame]) (by rw [hsame]) (by rw [hsame]) rfl
  | finish => exact h.congr hq rfl rfl rfl rfl

theorem move (h : p.Traced (t.standing :: l)) (hmove : Move now p t deeds q u) :
    q.Traced (u.standing :: l) := by
  have hq := h.ordered.move hmove
  -- Where the stage is cleared and rebuilt, the reports and the scene come anew from the goal. All
  -- other moves perform a step or change neither.
  cases hmove with
  | @rewind ticket goal hleads =>
    cases goal with
    | load timeline =>
      obtain ⟨htold, hstaged⟩ := told_rebuild { p with timeline } now 0 ticket
      exact h.act hq rfl hleads htold hstaged
    | seek place =>
      obtain ⟨htold, hstaged⟩ := told_rebuild p now place ticket
      exact h.act hq rfl hleads htold hstaged
  | @rebuild ticket goal perf rest report q r hready hr =>
    have hleads : p.gate.leads _ = true := h.ordered.leads _ List.mem_cons_self
    obtain ⟨htold, hstaged⟩ := told_resumeRebuild
      (h.told _ List.mem_cons_self _ rfl) now ticket report
    rw [hr] at htold hstaged
    exact h.act hq rfl hleads htold hstaged
  | @wrap ticket epoch hleads hcurrent =>
    obtain ⟨htold, hstaged⟩ := told_rebuild p now 0 ticket
    exact h.act hq rfl hleads htold hstaged
  | @rewrap ticket epoch goal perf rest report q r hready hr =>
    have hleads : p.gate.leads _ = true := h.ordered.leads _ List.mem_cons_self
    obtain ⟨htold, hstaged⟩ := told_resumeRebuild
      (h.told _ List.mem_cons_self _ rfl) now ticket report
    rw [hr] at htold hstaged
    exact h.act hq rfl hleads htold hstaged
  | play hstrides => exact h.strides hstrides
  | step hstrides => exact h.strides hstrides
  | finish =>
    obtain ⟨hcursor, htimeline, _⟩ := finishPlay_same p _ _
    refine h.congr hq ?_ htimeline hcursor rfl
    unfold finishPlay
    split <;> rfl
  | _ => exact h.congr hq rfl rfl rfl rfl

theorem enter {call : Call} (h : p.Traced l) (henter : Entered p call q t) :
    q.Traced (t.standing :: l) := by
  have hq := h.ordered.enter henter
  have haway := away_iff.2 h
  cases henter <;> exact haway.congr hq rfl rfl rfl rfl

end Traced

/-- Every move goes on with what the stage was told. -/
theorem kept_traced : Kept fun p ts _ => p.Traced (ts.map Task.standing) where
  perm hperm h := h.perm (hperm.map _)
  enter henter h := h.enter henter
  move hmove h := h.move hmove
  returned h := Traced.away_iff.1 h

theorem traced_ofNarrator (narrator : Narrator) (coins : List Bool) :
    (ofNarrator narrator coins).Traced [] := by
  refine ⟨ordered_ofNarrator narrator coins, List.forall_mem_nil _, fun _ => ?_⟩
  have hnothing : Staged [] Stage.empty := .blank ⟨rfl, rfl, rfl⟩
  exact hnothing.snoc ⟨_, .start 0 .instant, rfl⟩

/-- Whatever calls were made: when nobody is at work, the stage was told what comes before the
    cursor. -/
theorem Played.staged {equipment : Narration.Equipment} {tosses coins : List Bool}
    {e : Ensemble Player Call Task} (h : Played equipment tosses coins e)
    (hidle : ∀ t ∈ e.inFlight, ¬t.Works) :
    Staged (e.world.timeline.before e.world.cursor) e.world.stage := by
  obtain ⟨start, events, rfl⟩ := h
  have hnone : (fresh equipment tosses coins).Traced [] := traced_ofNarrator _ coins
  have htraced := after_of_kept kept_traced hnone start events
  refine htraced.staged fun s hs => ?_
  obtain ⟨t, ht, rfl⟩ := List.mem_map.1 hs
  exact work?_of_not_works (hidle t ht)

end Player

end Storyboard
