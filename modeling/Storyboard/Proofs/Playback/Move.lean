import Storyboard.Proofs.Playback.Tail

/-! # What a call can do

    However far a call goes in one turn, it goes there by single moves, and
    there are not many kinds of them: it performs a step or passes, goes on
    with what it performs, begins to rebuild the stage or goes on with that,
    takes a place in the line or returns. Each is made only by a call that can
    go on. A move is told by its deeds: what begins with it and what is over
    with it. -/

namespace Storyboard

/-- Something that happens on the stage of a player. -/
inductive Deed where
  /-- The commands of the step at a place begin. -/
  | begins (place : Nat)
  /-- They are through, and the cursor moves on. -/
  | through (place : Nat)
  /-- What follows them is over, or it is cut short because its epoch has lapsed. -/
  | ends (lapsed : Bool)
  /-- The stage is cleared in order to be rebuilt. -/
  | clears
  /-- The stage is rebuilt, with the cursor at a place. -/
  | rebuilt (place : Nat)
  deriving DecidableEq, Repr

/-- What happens with a rebuilding that came this far. -/
def Rebuild.deeds (p : Player) : Rebuild → List Deed
  | .performing .. => []
  | .over _ => [.rebuilt p.cursor]

/-- Begin to rebuild the stage for a goal. -/
def Player.Goal.rebuild (p : Player) (now : Nat) : Goal → Player × Rebuild
  | .load timeline => { p with timeline }.rebuild now 0
  | .seek place => p.rebuild now place

namespace Player

/-! ### Moves -/

/-- A move of a step that was asked for in an epoch. -/
inductive Strides (epoch now : Nat) : Player → Advance → List Deed → Player → Advance → Prop
  /-- The step under the cursor begins. -/
  | begin {p : Player} {ticket : Nat} {step : Step} (hleads : p.gate.leads ticket = true)
      (hcurrent : p.epoch = epoch) (hstep : p.timeline.steps[p.cursor]? = some step) :
      Strides epoch now p (.queued ticket) [.begins p.cursor]
        { p with stage := (Performance.start now .realtime p.stage step.commands).1 }
        (.performing ticket p.cursor step
          (Performance.start now .realtime p.stage step.commands).2)
  /-- There is no step to perform, or it is too late for one. -/
  | pass {p : Player} {ticket : Nat} (hleads : p.gate.leads ticket = true)
      (hnone : p.epoch = epoch → p.timeline.steps[p.cursor]? = none) :
      Strides epoch now p (.queued ticket) [] (p.leave ticket) (.over none)
  | perform {p : Player} {ticket place : Nat} {step : Step} {perf : Performance}
      (hready : perf.isReady now = true) :
      Strides epoch now p (.performing ticket place step perf) []
        { p with stage := (perf.resume now p.stage).1 }
        (.performing ticket place step (perf.resume now p.stage).2)
  /-- The commands are through. -/
  | proceed {p : Player} {ticket place : Nat} {step : Step} {perf : Performance}
      (hover : perf.isOver = true) :
      Strides epoch now p (.performing ticket place step perf) [.through place]
        (publish { p with cursor := place + 1 }) (.trailing ticket step perf.report .ahead)
  | follow {p : Player} {ticket : Nat} {step : Step} {report : Report} {tail : Tail}
      (htail : tail = .ahead ∨ tail.Rests)
      (hready : (!p.isCurrent epoch || tail.isReady now p.narrator) = true) :
      Strides epoch now p (.trailing ticket step report tail) [] (p.follow epoch now step tail).1
        (.trailing ticket step report (p.follow epoch now step tail).2)
  /-- Nothing follows any more. -/
  | finish {p : Player} {ticket : Nat} {step : Step} {report : Report} :
      Strides epoch now p (.trailing ticket step report .over) [.ends (!p.isCurrent epoch)]
        (p.leave ticket) (.over (some report))

/-- A move of a call. -/
inductive Move (now : Nat) : Player → Task → List Deed → Player → Task → Prop
  | rewind {p : Player} {ticket : Nat} {goal : Goal} (hleads : p.gate.leads ticket = true) :
      Move now p (.rewinding ticket goal)
        (.clears :: (goal.rebuild p now).2.deeds (goal.rebuild p now).1)
        (goal.rebuild p now).1 (.rebuilding ticket (goal.rebuild p now).2)
  | rebuild {p : Player} {ticket goal : Nat} {perf : Performance} {rest : List (List Json)}
      {report : Report} {q : Player} {r : Rebuild} (hready : perf.isReady now = true)
      (hr : p.resumeRebuild now (.performing goal perf rest report) = (q, r)) :
      Move now p (.rebuilding ticket (.performing goal perf rest report)) (r.deeds q) q
        (.rebuilding ticket r)
  | rebuilt {p : Player} {ticket : Nat} {report : Report} :
      Move now p (.rebuilding ticket (.over report)) [] (p.publish.leave ticket)
        (.over (some report))
  | wrap {p : Player} {ticket epoch : Nat} (hleads : p.gate.leads ticket = true)
      (hcurrent : p.epoch = epoch) :
      Move now p (.wrapping ticket epoch) (.clears :: (p.rebuild now 0).2.deeds (p.rebuild now 0).1)
        (p.rebuild now 0).1 (.rewrapping ticket epoch (p.rebuild now 0).2)
  /-- It is too late to play once more. -/
  | unwrap {p : Player} {ticket epoch : Nat} (hleads : p.gate.leads ticket = true)
      (hstale : p.epoch ≠ epoch) :
      Move now p (.wrapping ticket epoch) [] (p.leave ticket) (.over (some .empty))
  | rewrap {p : Player} {ticket epoch goal : Nat} {perf : Performance} {rest : List (List Json)}
      {report : Report} {q : Player} {r : Rebuild} (hready : perf.isReady now = true)
      (hr : p.resumeRebuild now (.performing goal perf rest report) = (q, r)) :
      Move now p (.rewrapping ticket epoch (.performing goal perf rest report)) (r.deeds q) q
        (.rewrapping ticket epoch r)
  /-- The stage is rebuilt, and steps are to follow. -/
  | rewrapped {p : Player} {ticket epoch : Nat} {report : Report} :
      Move now p (.rewrapping ticket epoch (.over report)) []
        (publish { p.leave ticket with playing := true })
        (.playing epoch .empty (.over (some report)))
  | play {p q : Player} {epoch : Nat} {report : Report} {a b : Advance} {deeds : List Deed}
      (h : Strides epoch now p a deeds q b) :
      Move now p (.playing epoch report a) deeds q (.playing epoch report b)
  /-- The next step is asked for. -/
  | next {p : Player} {epoch : Nat} {report r : Report} (hcurrent : p.epoch = epoch) :
      Move now p (.playing epoch report (.over (some r))) [] p.enqueue.1
        (.playing epoch (report.merge r) (.queued p.enqueue.2))
  /-- It is too late for a next step. -/
  | stop {p : Player} {epoch : Nat} {report r : Report} (hstale : p.epoch ≠ epoch) :
      Move now p (.playing epoch report (.over (some r))) [] p (.over (some (report.merge r)))
  | finish {p : Player} {epoch : Nat} {report : Report} :
      Move now p (.playing epoch report (.over none)) [] (p.finishPlay epoch report).1
        (.over (some report))
  | step {p q : Player} {epoch : Nat} {a b : Advance} {deeds : List Deed}
      (h : Strides epoch now p a deeds q b) :
      Move now p (.stepping epoch a) deeds q (.stepping epoch b)
  | stepped {p : Player} {epoch : Nat} {report : Option Report} :
      Move now p (.stepping epoch (.over report)) [] p.publish (.over report)

/-- So many moves one after another, with all their deeds. -/
inductive Path {α : Type} (R : Player → α → List Deed → Player → α → Prop) :
    Nat → Player → α → List Deed → Player → α → Prop
  | refl {p : Player} {a : α} : Path R 0 p a [] p a
  | head {n : Nat} {p q r : Player} {a b c : α} {deeds more : List Deed} (h : R p a deeds q b)
      (hs : Path R n q b more r c) : Path R (n + 1) p a (deeds ++ more) r c

/-- Moves of a call. -/
abbrev Moves (now : Nat) : Nat → Player → Task → List Deed → Player → Task → Prop :=
  Path (Move now)

namespace Path

variable {α β : Type} {R : Player → α → List Deed → Player → α → Prop}
  {S : Player → β → List Deed → Player → β → Prop} {n m : Nat} {p q r : Player} {a b c : α}
  {deeds more : List Deed}

theorem trans (h : Path R n p a deeds q b) (h' : Path R m q b more r c) :
    Path R (n + m) p a (deeds ++ more) r c := by
  induction h with
  | refl =>
    rw [Nat.zero_add]
    exact h'
  | head hfirst _ ih =>
    rw [List.append_assoc, Nat.add_right_comm]
    exact .head hfirst (ih h')

theorem map {f : α → β} (hf : ∀ {p a deeds q b}, R p a deeds q b → S p (f a) deeds q (f b))
    (h : Path R n p a deeds q b) : Path S n p (f a) deeds q (f b) := by
  induction h with
  | refl => exact .refl
  | head hfirst _ ih => exact .head (hf hfirst) ih

end Path

end Player

end Storyboard
