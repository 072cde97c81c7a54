import Storyboard.Proofs.Playback.Advance

/-! # The stage of the player

    Every call to the player, at every moment at which it can go on, keeps the
    gate in order. So whenever nobody is at work on the stage, it is as the
    setup and the steps before the cursor leave it (`ordered_after`), however
    the calls take their turns. -/

namespace Storyboard.Player

open Stage

/-- How a call stands at the gate. -/
def Task.standing : Task → Standing
  | .rewinding ticket _ => .queued ticket
  | .rebuilding ticket r => r.standing ticket
  | .wrapping ticket _ => .queued ticket
  | .rewrapping ticket _ r => r.standing ticket
  | .playing _ _ a => a.standing
  | .stepping _ a => a.standing
  | .over _ => .away

namespace Ordered

variable {p q : Player} {l : List Standing} {t epoch now : Nat} {report : Report}

/-! ### Going to a step -/

theorem settleRebuild {r : Rebuild} (h : p.Ordered (r.standing t :: l)) :
    (p.settleRebuild t r).1.Ordered ((p.settleRebuild t r).2.standing :: l) := by
  cases r with
  | «over» report =>
    have hleads : p.gate.leads t = true := h.leads _ List.mem_cons_self
    have hsettled := h.settled_of_leads rfl hleads rfl
    exact away_iff.2 (h.leave (q := p.publish) rfl hleads rfl
      ⟨hsettled.coherent, hsettled.scene, hsettled.cursor⟩)
  | performing goal perf rest report => exact h

theorem rewind (h : p.Ordered (.queued t :: l)) (now : Nat) (goal : Goal) :
    (p.rewind now t goal).1.Ordered ((p.rewind now t goal).2.standing :: l) := by
  unfold Player.rewind
  split
  · next hleads =>
    cases goal with
    | load timeline => exact (h.rebuild rfl hleads rfl timeline now 0).settleRebuild
    | seek place => exact (h.rebuild rfl hleads rfl p.timeline now place).settleRebuild
  · exact h

theorem goTo (h : p.Ordered l) (now : Nat) (goal : Goal) :
    (p.goTo now goal).1.Ordered ((p.goTo now goal).2.standing :: l) := by
  have hhalt : p.halt.Ordered l := h.congr rfl rfl rfl rfl
  exact hhalt.enqueue.rewind now goal

/-! ### Playing -/

theorem finishPlay (h : p.Ordered l) (epoch : Nat) (report : Report) :
    (p.finishPlay epoch report).1.Ordered ((p.finishPlay epoch report).2.standing :: l) := by
  refine away_iff.2 ?_
  unfold Player.finishPlay
  split
  · exact h.congr rfl rfl rfl rfl
  · exact h

theorem playSteps (h : p.Ordered l) (epoch now : Nat) (report : Report) (most : Nat) :
    (p.playSteps epoch now report most).1.Ordered
      ((p.playSteps epoch now report most).2.standing :: l) := by
  induction most generalizing p report with
  | zero => exact h.finishPlay epoch report
  | succ most ih =>
    have hstep := h.beginStep epoch now
    unfold Player.playSteps
    split
    · rcases hbegin : p.beginStep epoch now with ⟨p', a⟩
      rw [hbegin] at hstep
      cases a with
      | «over» r =>
        cases r with
        | some r => exact ih (away_iff.1 hstep) _
        | none => exact (away_iff.1 hstep).finishPlay epoch report
      | _ => exact hstep
    · exact h.finishPlay epoch report

theorem beginPlay (h : p.Ordered l) (epoch now : Nat) (report : Report) :
    (p.beginPlay epoch now report).1.Ordered ((p.beginPlay epoch now report).2.standing :: l) := by
  have hplaying : ({ p with playing := true }.publish).Ordered l := h.congr rfl rfl rfl rfl
  exact hplaying.playSteps epoch now report _

theorem resumePlay {a : Advance} (h : p.Ordered (a.standing :: l)) (epoch now : Nat)
    (report : Report) :
    (p.resumePlay epoch now report a).1.Ordered
      ((p.resumePlay epoch now report a).2.standing :: l) := by
  have hstep := h.advance epoch now
  unfold Player.resumePlay
  rcases hadvance : p.advance epoch now a with ⟨p', a'⟩
  rw [hadvance] at hstep
  cases a' with
  | «over» r =>
    cases r with
    | some r => exact (away_iff.1 hstep).playSteps epoch now _ _
    | none => exact (away_iff.1 hstep).finishPlay epoch report
  | _ => exact hstep

theorem settleWrap {r : Rebuild} (h : p.Ordered (r.standing t :: l)) (now epoch : Nat) :
    (p.settleWrap now t epoch r).1.Ordered ((p.settleWrap now t epoch r).2.standing :: l) := by
  cases r with
  | «over» report =>
    have hleads : p.gate.leads t = true := h.leads _ List.mem_cons_self
    have hsettled := h.settled_of_leads rfl hleads rfl
    exact (h.leave rfl hleads rfl hsettled).beginPlay epoch now _
  | performing goal perf rest report => exact h

theorem wrap (h : p.Ordered (.queued t :: l)) (now epoch : Nat) :
    (p.wrap now t epoch).1.Ordered ((p.wrap now t epoch).2.standing :: l) := by
  unfold Player.wrap
  split
  · next hleads =>
    split
    · exact (h.rebuild rfl hleads rfl p.timeline now 0).settleWrap now epoch
    · exact away_iff.2 (h.leave rfl hleads rfl (h.settled_of_leads rfl hleads rfl))
  · exact h

theorem play (h : p.Ordered l) (now : Nat) :
    (p.play now).1.Ordered ((p.play now).2.standing :: l) := by
  have hrenew : p.renew.Ordered l := h.congr rfl rfl rfl rfl
  unfold Player.play
  split
  · exact away_iff.2 h
  · dsimp only
    split
    · exact hrenew.enqueue.wrap now _
    · exact hrenew.beginPlay _ now _

/-! ### Single steps -/

theorem settleAdvance {a : Advance} (h : p.Ordered (a.standing :: l)) (epoch : Nat) :
    (p.settleAdvance epoch a).1.Ordered ((p.settleAdvance epoch a).2.standing :: l) := by
  cases a with
  | «over» report => exact h.congr rfl rfl rfl rfl
  | _ => exact h

/-! ### All calls -/

theorem start (h : p.Ordered l) (now : Nat) (call : Call) :
    (p.start now call).1.Ordered ((p.start now call).2.standing :: l) := by
  cases call with
  | load t => exact h.goTo now (.load t)
  | play => exact h.play now
  | pause => exact away_iff.2 (h.congr rfl rfl rfl rfl)
  | stepForward => exact (h.beginStep p.epoch now).settleAdvance p.epoch
  | stepBackward =>
    unfold Player.start Player.stepBackward
    dsimp only
    split
    · exact away_iff.2 h
    · exact h.goTo now _
  | seek place => exact h.goTo now (.seek place)
  | restart => exact h.goTo now (.seek 0)
  | setSpeed s => exact away_iff.2 (h.congr rfl rfl rfl rfl)
  | cycleSpeed => exact away_iff.2 (h.congr rfl rfl rfl rfl)

theorem resume {task : Task} (h : p.Ordered (task.standing :: l)) (now : Nat) :
    (p.resume now task).1.Ordered ((p.resume now task).2.standing :: l) := by
  cases task with
  | rewinding ticket goal => exact h.rewind now goal
  | rebuilding ticket r => exact (h.resumeRebuild now).settleRebuild
  | wrapping ticket epoch => exact h.wrap now epoch
  | rewrapping ticket epoch r => exact (h.resumeRebuild now).settleWrap now epoch
  | playing epoch report a => exact h.resumePlay epoch now report
  | stepping epoch a => exact (h.advance epoch now).settleAdvance epoch
  | «over» report => exact h

end Ordered

/-! ### After any calls -/

/-- Where nobody has called yet. -/
theorem ordered_ofNarrator (narrator : Narrator) (coins : List Bool) :
    (ofNarrator narrator coins).Ordered [] := by
  refine ⟨Line.Holds.empty, ?_, ?_, fun _ => ⟨coherent_empty, rfl, Nat.le_refl _⟩⟩
  · rintro s ⟨⟩
  · rintro s ⟨⟩

/-- A call that has returned is away. -/
theorem Ordered.settle {p : Player} {task : Task} {tasks : List Task}
    (h : p.Ordered (task.standing :: tasks.map Task.standing)) :
    p.Ordered ((Ensemble.joined machine task tasks).map Task.standing) := by
  cases task with
  | «over» report => exact Ordered.away_iff.1 h
  | _ => exact h

/-- The gate is in order after any events. -/
theorem ordered_after (narrator : Narrator) (coins : List Bool) (now : Nat)
    (events : List (Ensemble.Event Call)) :
    ((Ensemble.alone now (ofNarrator narrator coins)).after machine events).world.Ordered
      (((Ensemble.alone now (ofNarrator narrator coins)).after machine events).inFlight.map
        Task.standing) := by
  refine Ensemble.inFlight_induction
    (I := fun (p : Player) (tasks : List Task) => p.Ordered (tasks.map Task.standing))
    (ordered_ofNarrator narrator coins) ?_ ?_ ?_ events
  · intro p ts us hperm h
    exact h.perm (hperm.map _)
  · intro now p ts call h
    exact (h.start now call).settle
  · intro now p task ts h
    exact (h.resume now).settle

/-- Whether a call is performing the commands of a step or rebuilding the stage. -/
def Task.Works : Task → Prop
  | .rebuilding .. => True
  | .rewrapping .. => True
  | .playing _ _ (.performing ..) => True
  | .stepping _ (.performing ..) => True
  | _ => False

theorem work?_of_not_works {task : Task} (h : ¬task.Works) : task.standing.work? = none := by
  cases task with
  | rebuilding ticket r => exact absurd trivial h
  | rewrapping ticket epoch r => exact absurd trivial h
  | playing epoch report a =>
    cases a with
    | performing ticket place step p => exact absurd trivial h
    | _ => rfl
  | stepping epoch a =>
    cases a with
    | performing ticket place step p => exact absurd trivial h
    | _ => rfl
  | _ => rfl

/-- The scene before a step is what is left when the setup and the steps before it are performed on
    an empty stage, each to its end, in either pacing. -/
theorem sceneAt_eq_executeAll (t : Timeline) (place : Nat) (pacing : Pacing) (now : Nat) :
    t.sceneAt place = (Stage.empty.executeAll pacing now (t.before place)).scene :=
  (coherent_empty.executeAll pacing now (t.before place)).2.symm

end Storyboard.Player
