import Mathlib.Data.List.Perm.Basic
import Storyboard.Proofs.Ensemble.Clock
import Storyboard.Proofs.Stage.Likeness
import Storyboard.Proofs.Stage.Readiness

/-! # The agenda of a performance

    In real time, the cues that are left when commands are opened say at which
    time every act is due. None is done early and none is skipped: wherever a
    performance stands, it has done the acts that are due by then, in the
    order of their times (`Stage.execute_standing`). It is over at the last
    time to which one of its strands waits (`Stage.execute_stop`). -/

namespace Storyboard

/-! ### Cues -/

/-- The time at which the wait is over, if it begins now in real time. -/
def Wait.at (now : Nat) : Wait → Nat
  | .turn => now
  | .time t => t

namespace Cue

/-- The time at which a cue is through that begins now. -/
def stop (now : Nat) : Cue → Nat
  | .act _ => now
  | .wait d => Wait.endOf now d
  | .flashes n _ _ hold => now + n * Wait.length hold

/-- The time at which cues are through that begin now. -/
def stopOf (now : Nat) : List Cue → Nat
  | [] => now
  | c :: rest => stopOf (c.stop now) rest

/-- What flashes do that begin now, with the times. -/
def flashed (id : EntityId) (h : Highlight) (hold : Span) : Nat → Nat → List (Nat × Act)
  | 0, _ => []
  | n + 1, now => (now, .highlight id (some h)) :: (Wait.endOf now hold, .highlight id none) ::
      flashed id h hold n (Wait.endOf now hold)

/-- What a cue does that begins now, with the times. -/
def agenda (now : Nat) : Cue → List (Nat × Act)
  | .act a => [(now, a)]
  | .wait _ => []
  | .flashes n id h hold => flashed id h hold n now

/-- What cues do that begin now, with the times. -/
def agendaOf (now : Nat) : List Cue → List (Nat × Act)
  | [] => []
  | c :: rest => c.agenda now ++ agendaOf (c.stop now) rest

/-- What cues that begin now do after the first wait, with the times. -/
def trailing (now : Nat) : List Cue → List (Nat × Act)
  | [] => []
  | .act _ :: rest => trailing now rest
  | .wait d :: rest => agendaOf (Wait.endOf now d) rest
  | .flashes 0 _ _ _ :: rest => trailing now rest
  | .flashes (n + 1) id h hold :: rest =>
    agendaOf (Wait.endOf now hold) (.act (.highlight id none) :: .flashes n id h hold :: rest)

/-- What several lists of cues do up to their first waits, if they begin now. -/
def leadingOf (now : Nat) (cues : List (List Cue)) : List (Nat × Act) :=
  cues.flatMap fun l => (leading l).map fun a => (now, a)

end Cue

/-- Do several things on the stage, each at its time. -/
def Stage.enact (s : Stage) (deeds : List (Nat × Act)) : Stage :=
  deeds.foldl (fun s x => s.perform x.1 x.2) s

namespace Wait

variable {now : Nat}

theorem at_turn (now : Nat) : turn.at now = now := rfl

theorem at_time (now t : Nat) : (time t).at now = t := rfl

theorem length_of_brief {d : Span} (h : d.ticks ≤ longest) : length d = d.ticks :=
  if_pos (Nat.lt_of_le_of_lt h (by decide))

theorem length_ofMillis {n : Nat} (h : n ≤ longest) : length (.ofMillis n) = n := by
  rw [length_of_brief (by rwa [Span.ticks_ofMillis]), Span.ticks_ofMillis]

theorem at_wait (d : Span) : (Pacing.realtime.wait now d).at now = endOf now d := by
  unfold Pacing.wait
  dsimp only
  by_cases hzero : d.isZero = true
  · have hticks : d.ticks = 0 := (Span.ticks_eq_zero d).2 hzero
    have hlength : length d = 0 := (length_of_brief (hticks ▸ Nat.zero_le _)).trans hticks
    rw [if_pos hzero, at_turn, endOf, hlength, Nat.add_zero]
  · rw [if_neg hzero, at_time]

theorem le_endOf (d : Span) : now ≤ endOf now d := Nat.le_add_right _ _

theorem endOf_of_brief {d : Span} (h : d.ticks ≤ longest) : endOf now d = now + d.ticks := by
  rw [endOf, length_of_brief h]

theorem endOf_ofMillis {n : Nat} (h : n ≤ longest) : endOf now (.ofMillis n) = now + n := by
  rw [endOf_of_brief (by rwa [Span.ticks_ofMillis]), Span.ticks_ofMillis]

end Wait

namespace Cue

variable {now : Nat} {cues rest : List Cue} {x : Nat × Act}

theorem le_stop (now : Nat) (c : Cue) : now ≤ c.stop now := by
  cases c with
  | act a => exact Nat.le_refl now
  | wait d => exact Wait.le_endOf d
  | flashes n id h hold => exact Nat.le_add_right _ _

theorem le_stopOf (now : Nat) (cues : List Cue) : now ≤ stopOf now cues := by
  induction cues generalizing now with
  | nil => exact Nat.le_refl now
  | cons c rest ih => exact Nat.le_trans (le_stop now c) (ih _)

theorem leading_acts (acts : List Act) (rest : List Cue) :
    leading (acts.map .act ++ rest) = acts ++ leading rest := by
  induction acts with
  | nil => rfl
  | cons a acts ih => exact congrArg (a :: ·) ih

theorem trailing_acts (now : Nat) (acts : List Act) (rest : List Cue) :
    trailing now (acts.map .act ++ rest) = trailing now rest := by
  induction acts with
  | nil => rfl
  | cons a acts ih => exact ih

theorem agendaOf_acts (now : Nat) (acts : List Act) (rest : List Cue) :
    agendaOf now (acts.map .act ++ rest) = acts.map (fun a => (now, a)) ++ agendaOf now rest := by
  induction acts with
  | nil => rfl
  | cons a acts ih => exact congrArg ((now, a) :: ·) ih

theorem stopOf_acts (now : Nat) (acts : List Act) (rest : List Cue) :
    stopOf now (acts.map .act ++ rest) = stopOf now rest := by
  induction acts with
  | nil => rfl
  | cons a acts ih => exact ih

theorem stop_flashes (now n : Nat) (id : EntityId) (h : Highlight) (hold : Span) :
    stop now (.flashes (n + 1) id h hold) = stop (Wait.endOf now hold) (.flashes n id h hold) := by
  simp only [stop, Wait.endOf, Nat.succ_mul]
  omega

theorem le_of_mem_flashed {n : Nat} {id : EntityId} {h : Highlight} {hold : Span}
    (hx : x ∈ flashed id h hold n now) : now ≤ x.1 := by
  induction n generalizing now with
  | zero => cases hx
  | succ n ih =>
    rcases List.mem_cons.1 hx with rfl | hx
    · exact Nat.le_refl now
    · rcases List.mem_cons.1 hx with rfl | hx
      · exact Wait.le_endOf hold
      · exact Nat.le_trans (Wait.le_endOf hold) (ih hx)

/-- Nothing is due before the cues begin. -/
theorem le_of_mem_agendaOf (hx : x ∈ agendaOf now cues) : now ≤ x.1 := by
  induction cues generalizing now with
  | nil => cases hx
  | cons c rest ih =>
    rcases List.mem_append.1 hx with hx | hx
    · cases c with
      | act a =>
        rw [List.mem_singleton.1 hx]
      | wait d => cases hx
      | flashes n id h hold => exact le_of_mem_flashed hx
    · exact Nat.le_trans (le_stop now c) (ih hx)

end Cue

/-! ### Strands -/

namespace Strand

/-- The time at which a strand is over. -/
def stop (now : Nat) : Strand → Nat
  | .resting wait rest => Cue.stopOf (wait.at now) rest
  | .over => now

/-- What a strand does, with the times. -/
def agenda (now : Nat) : Strand → List (Nat × Act)
  | .resting wait rest => Cue.agendaOf (wait.at now) rest
  | .over => []

/-- Nothing of a strand is due before the clock goes on to `time`. -/
def Allows (now time : Nat) : Strand → Prop
  | .resting .turn _ => time = now
  | .resting (.time t) _ => time ≤ t
  | .over => True

/-- The time at which several strands are over. -/
def stopOf (now : Nat) (strands : List Strand) : Nat :=
  strands.foldr (fun t n => max (t.stop now) n) now

/-- What several strands do, with the times. -/
def agendaOf (now : Nat) (strands : List Strand) : List (Nat × Act) :=
  strands.flatMap (·.agenda now)

variable {now time : Nat} {s : Stage} {t : Strand} {ts : List Strand} {cues : List Cue}

/-- A wait that begins now can be over now at the earliest. -/
theorem allows_wait (now : Nat) (d : Span) (rest : List Cue) :
    (resting (Pacing.realtime.wait now d) rest).Allows now now := by
  unfold Pacing.wait
  dsimp only
  by_cases hzero : d.isZero = true
  · rw [if_pos hzero]
    rfl
  · rw [if_neg hzero]
    exact Wait.le_endOf d

/-- Up to the first wait everything is done now; the rest keeps its times. -/
theorem follow_agenda (now : Nat) (s : Stage) (cues : List Cue) :
    Cue.agendaOf now cues = (Cue.leading cues).map (fun a => (now, a)) ++
        (follow now .realtime s cues).2.agenda now ∧
      Cue.stopOf now cues = (follow now .realtime s cues).2.stop now ∧
      (follow now .realtime s cues).2.Allows now now := by
  induction cues generalizing s with
  | nil => exact ⟨rfl, rfl, trivial⟩
  | cons c rest ih =>
    cases c with
    | act a =>
      obtain ⟨hagenda, hstop, hallows⟩ := ih (s.perform now a)
      exact ⟨congrArg (_ :: ·) hagenda, hstop, hallows⟩
    | wait d =>
      simp only [follow, agenda, stop, Wait.at_wait]
      exact ⟨rfl, rfl, allows_wait now d rest⟩
    | flashes n id h hold =>
      cases n with
      | zero =>
        obtain ⟨hagenda, hstop, hallows⟩ := ih s
        simp only [Cue.agendaOf, Cue.agenda, Cue.flashed, Cue.stopOf, Cue.stop, Nat.zero_mul,
          Nat.add_zero, List.nil_append]
        exact ⟨hagenda, hstop, hallows⟩
      | succ n =>
        -- The light goes on now. Going off, and all the other flashes, come after the wait.
        simp only [follow, agenda, stop, Wait.at_wait, Cue.agendaOf, Cue.stopOf, Cue.agenda,
          Cue.flashed, Cue.leading, Cue.stop_flashes]
        exact ⟨rfl, rfl, allows_wait now hold _⟩

/-- What is left to a strand comes after the first wait. -/
theorem agenda_follow (now : Nat) (s : Stage) (cues : List Cue) :
    (follow now .realtime s cues).2.agenda now = Cue.trailing now cues := by
  induction cues generalizing s with
  | nil => rfl
  | cons c rest ih =>
    cases c with
    | act a => exact ih _
    | wait d => simp only [follow, agenda, Wait.at_wait, Cue.trailing]
    | flashes n id h hold =>
      cases n with
      | zero => exact ih s
      | succ n => simp only [follow, agenda, Wait.at_wait, Cue.trailing]

/-- What cues do comes before the first wait or after it. -/
theorem agendaOf_eq (now : Nat) (cues : List Cue) :
    Cue.agendaOf now cues =
      (Cue.leading cues).map (fun a => (now, a)) ++ Cue.trailing now cues := by
  rw [(follow_agenda now default cues).1, agenda_follow]

theorem agendaOf_followAll (now : Nat) (s : Stage) (cues : List (List Cue)) :
    agendaOf now (followAll now .realtime s cues).2 = cues.flatMap (Cue.trailing now) := by
  induction cues generalizing s with
  | nil => rfl
  | cons l rest ih =>
    have hrest := ih (follow now .realtime s l).1
    simp only [followAll, agendaOf, List.flatMap_cons, agenda_follow] at hrest ⊢
    rw [hrest]

theorem enact_now (s : Stage) (now : Nat) (acts : List Act) :
    acts.foldl (fun s a => s.perform now a) s = s.enact (acts.map fun a => (now, a)) := by
  rw [Stage.enact, List.foldl_map]

theorem allows_of_ready {wait : Wait} {rest : List Cue} (h : (resting wait rest).Allows now time)
    (hover : wait.isOver time = true) : wait.at now = time := by
  cases wait with
  | turn => exact h.symm
  | time w => exact Nat.le_antisymm (of_decide_eq_true hover) h

/-- When a strand goes on, what it does is due, and the rest keeps its times. -/
theorem resume_agenda (s : Stage) (hle : now ≤ time) (h : t.Allows now time) :
    (∃ acts : List Act, (resume time .realtime s t).1 = s.enact (acts.map fun a => (time, a)) ∧
      t.agenda now =
        acts.map (fun a => (time, a)) ++ (resume time .realtime s t).2.agenda time) ∧
    max time (t.stop now) = max time ((resume time .realtime s t).2.stop time) ∧
    (resume time .realtime s t).2.Allows time time := by
  cases t with
  | «over» =>
    refine ⟨⟨[], rfl, rfl⟩, ?_, trivial⟩
    change max time now = max time time
    omega
  | resting wait rest =>
    -- A strand that rests does nothing until its wait is over. Then it acts up to the next wait,
    -- and the times of what follows are counted from here.
    by_cases hover : wait.isOver time = true
    · have hresume : resume time .realtime s (.resting wait rest) = follow time .realtime s rest :=
        if_pos hover
      obtain ⟨hagenda, hstop, hallows⟩ := follow_agenda time s rest
      rw [hresume]
      have hat := allows_of_ready h hover
      refine ⟨⟨Cue.leading rest, ?_, ?_⟩, ?_, hallows⟩
      · rw [← enact_now]
        exact follow_eq time .realtime s rest
      · rw [agenda, hat]
        exact hagenda
      · rw [stop, hat, hstop]
    · have hresume : resume time .realtime s (.resting wait rest) = (s, .resting wait rest) :=
        if_neg hover
      rw [hresume]
      cases wait with
      | turn => exact absurd rfl hover
      | time w => exact ⟨⟨[], rfl, rfl⟩, rfl, h⟩

theorem le_stopOf (now : Nat) (ts : List Strand) : now ≤ stopOf now ts := by
  induction ts with
  | nil => exact Nat.le_refl now
  | cons t rest ih => exact Nat.le_trans ih (Nat.le_max_right _ _)

theorem stop_le_stopOf (now : Nat) (ht : t ∈ ts) : t.stop now ≤ stopOf now ts := by
  induction ts with
  | nil => cases ht
  | cons u rest ih =>
    rcases List.mem_cons.1 ht with rfl | ht
    · exact Nat.le_max_left _ _
    · exact Nat.le_trans (ih ht) (Nat.le_max_right _ _)

theorem stopOf_append (now : Nat) (ts us : List Strand) :
    stopOf now (ts ++ us) = max (stopOf now ts) (stopOf now us) := by
  induction ts with
  | nil =>
    have hle := le_stopOf now us
    change stopOf now us = max now (stopOf now us)
    omega
  | cons t rest ih =>
    simp only [List.cons_append, stopOf, List.foldr_cons] at ih ⊢
    omega

/-- It does not matter in which order the strands are listed. -/
theorem stopOf_perm (now : Nat) {us : List Strand} (h : ts.Perm us) :
    stopOf now ts = stopOf now us :=
  h.foldr_eq' (fun t _ u _ n => Nat.max_left_comm (u.stop now) (t.stop now) n) now

theorem agendaOf_perm (now : Nat) {us : List Strand} (h : ts.Perm us) :
    (agendaOf now ts).Perm (agendaOf now us) :=
  h.flatMap_right _

theorem stopOf_of_over (now : Nat) (h : ∀ t ∈ ts, t.isOver = true) : stopOf now ts = now := by
  induction ts with
  | nil => rfl
  | cons t rest ih =>
    obtain ⟨ht, hrest⟩ := List.forall_mem_cons.1 h
    cases t with
    | resting wait cues => cases ht
    | «over» =>
      change max now (stopOf now rest) = now
      rw [ih hrest, Nat.max_self]

/-- What strands do that cannot go on by a time is due later. -/
theorem lt_of_mem_agendaOf {x : Nat × Act} (hready : ∀ t ∈ ts, t.isReady now = false)
    (hdue : ∀ t ∈ ts, ∀ due, t.due? = some due → time < due) (hx : x ∈ agendaOf now ts) :
    time < x.1 := by
  obtain ⟨t, ht, hx⟩ := List.mem_flatMap.1 hx
  cases t with
  | «over» => cases hx
  | resting wait rest =>
    cases wait with
    | turn => cases hready _ ht
    | time w => exact Nat.lt_of_lt_of_le (hdue _ ht w rfl) (Cue.le_of_mem_agendaOf hx)

/-- Strands that begin now keep their times. -/
theorem followAll_allows (now : Nat) (s : Stage) (cues : List (List Cue)) :
    ∀ t ∈ (followAll now .realtime s cues).2, t.Allows now now := by
  induction cues generalizing s with
  | nil => exact List.forall_mem_nil _
  | cons l rest ih =>
    exact List.forall_mem_cons.2 ⟨(follow_agenda now s l).2.2, ih _⟩

/-- When strands go on, one after another, what they do is due, and the rest keeps its times. -/
theorem resumeAll_agenda (s : Stage) (hle : now ≤ time) (h : ∀ t ∈ ts, t.Allows now time) :
    (∃ acts : List Act, (resumeAll time .realtime s ts).1 = s.enact (acts.map fun a => (time, a)) ∧
      (agendaOf now ts).Perm
        (acts.map (fun a => (time, a)) ++ agendaOf time (resumeAll time .realtime s ts).2)) ∧
    max time (stopOf now ts) = stopOf time (resumeAll time .realtime s ts).2 ∧
    ∀ t ∈ (resumeAll time .realtime s ts).2, t.Allows time time := by
  -- By induction on the strands. Acts that were due together are in no order of their own, so the
  -- agendas agree up to that.
  induction ts generalizing s with
  | nil =>
    refine ⟨⟨[], rfl, List.Perm.refl _⟩, ?_, List.forall_mem_nil _⟩
    change max time now = time
    omega
  | cons t rest ih =>
    obtain ⟨ht, hrest⟩ := List.forall_mem_cons.1 h
    obtain ⟨⟨acts, hstage, hagenda⟩, hstop, hallows⟩ := resume_agenda s hle ht
    obtain ⟨⟨acts', hstage', hagenda'⟩, hstop', hallows'⟩ :=
      ih (resume time .realtime s t).1 hrest
    simp only [resumeAll]
    refine ⟨⟨acts ++ acts', ?_, ?_⟩, ?_, List.forall_mem_cons.2 ⟨hallows, hallows'⟩⟩
    · rw [hstage', hstage, Stage.enact, Stage.enact, Stage.enact, ← List.foldl_append,
        ← List.map_append]
    · simp only [agendaOf, List.flatMap_cons, List.map_append] at hagenda' ⊢
      rw [hagenda, List.append_assoc, List.append_assoc]
      refine List.Perm.append_left _ ?_
      refine (List.Perm.append_left _ hagenda').trans ?_
      exact List.perm_append_comm_assoc _ _ _
    · simp only [stopOf, List.foldr_cons] at hstop' ⊢
      omega

/-- When lists of cues begin, up to their first waits everything is done; the rest is left to the
    strands. -/
theorem followAll_agenda (now : Nat) (s : Stage) (cues : List (List Cue)) :
    (followAll now .realtime s cues).1 = s.enact (Cue.leadingOf now cues) ∧
      (cues.flatMap (Cue.agendaOf now)).Perm
        (Cue.leadingOf now cues ++ agendaOf now (followAll now .realtime s cues).2) := by
  induction cues generalizing s with
  | nil => exact ⟨rfl, List.Perm.refl _⟩
  | cons l rest ih =>
    obtain ⟨hstage, hrest⟩ := ih (follow now .realtime s l).1
    have hfirst := (follow_agenda now s l).1
    simp only [followAll, Cue.leadingOf, agendaOf, List.flatMap_cons] at hstage hrest ⊢
    constructor
    · rw [hstage, follow_eq, enact_now, Stage.enact, Stage.enact, Stage.enact, List.foldl_append]
    · rw [hfirst, List.append_assoc, List.append_assoc]
      refine List.Perm.append_left _ ?_
      refine (List.Perm.append_left _ hrest).trans ?_
      exact List.perm_append_comm_assoc _ _ _

end Strand

/-! ### Performances -/

theorem Course.startAll_allows (now : Nat) (s : Stage) (commands : List Json) :
    ∀ t ∈ strandsOf (startAll now .realtime s commands).2, t.Allows now now := by
  induction commands generalizing s with
  | nil => exact List.forall_mem_nil _
  | cons command rest ih =>
    have hfirst : ∀ t ∈ (start now .realtime s command).2.strands, t.Allows now now := by
      unfold start
      cases Command.ofJson command with
      | error p => exact List.forall_mem_nil _
      | ok c =>
        dsimp only
        cases s.opening now .realtime c with
        | error p => exact List.forall_mem_nil _
        | ok opened => exact Strand.followAll_allows now opened.1 opened.2
    exact List.forall_mem_append.2 ⟨hfirst, ih _⟩

namespace Performance

/-- A performance that keeps its times. It began on a stage, with an agenda, and is over at the time
    `stop`. Now it has done some of the agenda, in the order of the times, and the rest is left. -/
structure OnTime (base : Stage) (agenda : List (Nat × Act)) (stop : Nat) (now : Nat) (s : Stage)
    (p : Performance) : Prop where
  pacing : p.pacing = .realtime
  allows : ∀ t ∈ p.strands, t.Allows now now
  done   : ∃ deeds, s = base.enact deeds ∧ deeds.Pairwise (fun a b => a.1 ≤ b.1) ∧
    (∀ x ∈ deeds, x.1 ≤ now) ∧ (deeds ++ Strand.agendaOf now p.strands).Perm agenda
  stop   : Strand.stopOf now p.strands = stop

variable {base s : Stage} {agenda : List (Nat × Act)} {now time stop : Nat} {p : Performance}

theorem onTime_start (now : Nat) (s : Stage) (commands : List Json) :
    let x := start now .realtime s commands
    OnTime x.1 (Strand.agendaOf now x.2.strands) (Strand.stopOf now x.2.strands) now x.1 x.2 where
  pacing := rfl
  allows := by
    rw [strands_start]
    exact Course.startAll_allows now s commands
  done   := ⟨[], rfl, List.Pairwise.nil, List.forall_mem_nil _, List.Perm.refl _⟩
  stop   := rfl

/-- The clock goes on, but not past anything that is due, and so does the performance. -/
theorem OnTime.resume (h : OnTime base agenda stop now s p) (hle : now ≤ time) (hstop : time ≤ stop)
    (hallows : ∀ t ∈ p.strands, t.Allows now time) :
    OnTime base agenda stop time (p.resume time s).1 (p.resume time s).2 := by
  obtain ⟨deeds, hstage, hordered, hpast, hperm⟩ := h.done
  -- The strands go on in some order, and for what is due at one time any order will do.
  obtain ⟨ts, hts, hdone, hleft⟩ := resume_eq time s p
  rw [h.pacing] at hdone hleft
  obtain ⟨⟨acts, hacts, hagenda⟩, hlast, hallows'⟩ :=
    Strand.resumeAll_agenda s hle fun t ht => hallows t (hts.mem_iff.1 ht)
  refine ⟨h.pacing, fun t ht => hallows' t (hleft.mem_iff.1 ht),
    ⟨deeds ++ acts.map fun a => (time, a), ?_, ?_, ?_, ?_⟩, ?_⟩
  · rw [hdone, hacts, hstage, Stage.enact, Stage.enact, Stage.enact, ← List.foldl_append]
  · -- What is done now comes after all that was done before.
    rw [List.pairwise_append]
    refine ⟨hordered, ?_, ?_⟩
    · rw [List.pairwise_map]
      exact List.pairwise_of_forall fun _ _ => Nat.le_refl time
    · intro x hx y hy
      obtain ⟨a, _, rfl⟩ := List.mem_map.1 hy
      exact Nat.le_trans (hpast x hx) hle
  · intro x hx
    rcases List.mem_append.1 hx with hx | hx
    · exact Nat.le_trans (hpast x hx) hle
    · obtain ⟨a, _, rfl⟩ := List.mem_map.1 hx
      exact Nat.le_refl time
  · have hnow : (Strand.agendaOf now p.strands).Perm (acts.map (fun a => (time, a)) ++
        Strand.agendaOf time (p.resume time s).2.strands) := by
      refine (Strand.agendaOf_perm now hts.symm).trans (hagenda.trans ?_)
      exact (Strand.agendaOf_perm time hleft.symm).append_left _
    rw [List.append_assoc]
    exact (List.Perm.append_left _ hnow.symm).trans hperm
  · rw [Strand.stopOf_perm time hleft, ← hlast, Strand.stopOf_perm now hts, h.stop]
    exact Nat.max_eq_right hstop

/-- Going on is either due now, or at the time that is named. -/
theorem sustains_onTime (base : Stage) (agenda : List (Nat × Act)) (stop : Nat) :
    Ensemble.Sustains Stage.machine fun now s task =>
      ∃ p, task = .performing p ∧ OnTime base agenda stop now s p where
  now := by
    rintro now s task ⟨p, rfl, h⟩ _ _
    have hstop : now ≤ stop := h.stop ▸ Strand.le_stopOf now p.strands
    exact ⟨_, rfl, h.resume (Nat.le_refl now) hstop h.allows⟩
  later := by
    rintro now s task due ⟨p, rfl, h⟩ _ hready hdue
    have hlate : ∀ t ∈ p.strands, t.isReady now = false := by
      intro t ht
      have hnone : p.strands.any (·.isReady now) = false := hready
      exact Bool.eq_false_iff.2 (List.any_eq_false.1 hnone t ht)
    have hmin : (p.strands.filterMap (·.due?)).min? = some due := hdue
    -- The time that is named is that of a strand, and no other strand waits for an earlier one.
    obtain ⟨t, ht, htime⟩ := List.mem_filterMap.1 (List.min?_mem hmin)
    have hstop : due ≤ stop := by
      refine Nat.le_trans ?_ (h.stop ▸ Strand.stop_le_stopOf now ht)
      cases t with
      | «over» => cases htime
      | resting wait rest =>
        cases wait with
        | turn => cases htime
        | time w =>
          cases htime
          exact Cue.le_stopOf _ rest
    have hnow : now ≤ stop := h.stop ▸ Strand.le_stopOf now p.strands
    refine ⟨_, rfl, h.resume (Nat.le_max_left now due) (Nat.max_le.2 ⟨hnow, hstop⟩) ?_⟩
    intro u hu
    cases u with
    | «over» => trivial
    | resting wait rest =>
      cases wait with
      | turn => cases hlate _ hu
      | time w =>
        have hw : now < w := by
          have hnot : decide (w ≤ now) = false := hlate _ hu
          simpa using hnot
        have hdue : due ≤ w := by
          have hmem : w ∈ p.strands.filterMap (·.due?) := List.mem_filterMap.2 ⟨_, hu, rfl⟩
          exact (List.min?_eq_some_iff.1 hmin).2 w hmem
        exact Nat.max_le.2 ⟨Nat.le_of_lt hw, hdue⟩

/-- Where a performance stands, it has done what is due by then. -/
theorem OnTime.standing (h : OnTime base agenda stop now s p) (htime : now ≤ time)
    (hahead : p.isOver = false →
      p.isReady now = false ∧ ∀ due, p.due? = some due → time < due) :
    ∃ deeds, s = base.enact deeds ∧ deeds.Pairwise (fun a b => a.1 ≤ b.1) ∧
      deeds.Perm (agenda.filter fun x => x.1 ≤ time) := by
  obtain ⟨deeds, hstage, hordered, hpast, hperm⟩ := h.done
  refine ⟨deeds, hstage, hordered, ?_⟩
  have hlater : ∀ x ∈ Strand.agendaOf now p.strands, time < x.1 := by
    intro x hx
    cases hover : p.isOver with
    | true =>
      -- Nothing is left.
      obtain ⟨t, ht, hx⟩ := List.mem_flatMap.1 hx
      have hnone := List.all_eq_true.1 hover t ht
      cases t with
      | «over» => cases hx
      | resting wait rest => cases hnone
    | false =>
      obtain ⟨hready, hdue⟩ := hahead hover
      refine Strand.lt_of_mem_agendaOf (fun t ht => ?_) (fun t ht due htime => ?_) hx
      · exact Bool.eq_false_iff.2 (List.any_eq_false.1 hready t ht)
      · have hmem : due ∈ p.strands.filterMap (·.due?) := List.mem_filterMap.2 ⟨t, ht, htime⟩
        obtain ⟨first, hfirst⟩ := Option.isSome_iff_exists.1 (List.isSome_min?_of_mem hmem)
        exact Nat.lt_of_lt_of_le (hdue first hfirst) ((List.min?_eq_some_iff.1 hfirst).2 due hmem)
  have hsplit := hperm.filter fun x => decide (x.1 ≤ time)
  rw [List.filter_append] at hsplit
  have hdone : deeds.filter (fun x => decide (x.1 ≤ time)) = deeds :=
    List.filter_eq_self.2 fun x hx => decide_eq_true (Nat.le_trans (hpast x hx) htime)
  have hleft : (Strand.agendaOf now p.strands).filter (fun x => decide (x.1 ≤ time)) = [] := by
    refine List.filter_eq_nil_iff.2 fun x hx => ?_
    have hlt := hlater x hx
    simpa using hlt
  rw [hdone, hleft, List.append_nil] at hsplit
  exact hsplit

/-- When a performance is over, the clock shows the time at which it had to be. -/
theorem OnTime.over (h : OnTime base agenda stop now s p) (hover : p.isOver = true) :
    now = stop := by
  rw [← h.stop, Strand.stopOf_of_over]
  intro t ht
  exact List.all_eq_true.1 hover t ht

/-- In the instant pacing the clock never goes on. -/
theorem sustains_instant (now : Nat) :
    Ensemble.Sustains Stage.machine fun time _ task =>
      time = now ∧ ∃ p, task = .performing p ∧ p.Instant where
  now := by
    rintro time s task ⟨rfl, p, rfl, h⟩ _ _
    exact ⟨rfl, _, rfl, h.resume time s⟩
  later := by
    rintro time s task due ⟨rfl, p, rfl, h⟩ hopen hready _
    have hnow : p.isReady time = true := h.isReady hopen time
    have hlate : p.isReady time = false := hready
    rw [hnow] at hlate
    cases hlate

end Performance

/-! ### Commands performed alone -/

namespace Stage

open Ensemble

variable {s s' : Stage} {now time stop stop' rounds : Nat} {commands : List Json}

/-- Commands performed alone in real time keep their times. -/
theorem execute_onTime (s : Stage) (now : Nat) (commands : List Json) (rounds : Nat) :
    let x := Performance.start now .realtime s commands
    ∃ time w p, s.execute now .realtime commands (rounds + 1) =
        solo machine time now w (.performing p) ∧ now ≤ time ∧
      Performance.OnTime x.1 (Strand.agendaOf now x.2.strands) (Strand.stopOf now x.2.strands)
        time w p := by
  intro x
  obtain ⟨time, w, t, hrun, hle, p, rfl, h⟩ :=
    run_sustains (Performance.sustains_onTime x.1 (Strand.agendaOf now x.2.strands)
      (Strand.stopOf now x.2.strands)) (.perform commands .realtime)
      ⟨x.2, rfl, Performance.onTime_start now s commands⟩ rounds
  exact ⟨time, w, p, hrun, hle, h⟩

/-- Wherever commands stand that are performed alone in real time, what they left to be done by then
    is done, in the order of its times, and nothing else. -/
theorem execute_standing (h : StandsAt machine (s.execute now .realtime commands rounds) time) :
    let x := Performance.start now .realtime s commands
    ∃ deeds, (s.execute now .realtime commands rounds).world = x.1.enact deeds ∧
      deeds.Pairwise (fun a b => a.1 ≤ b.1) ∧
      deeds.Perm ((Strand.agendaOf now x.2.strands).filter fun a => a.1 ≤ time) := by
  intro x
  cases rounds with
  | zero =>
    -- Before the first round the commands are still to begin.
    have hawake : (s.execute now .realtime commands 0).isAwake machine = true := by
      simp [execute, ofActions, Ensemble.run, isAwake, Voice.isReady]
    rw [h.asleep] at hawake
    cases hawake
  | succ rounds =>
    obtain ⟨shown, w, p, hrun, _, honTime⟩ := execute_onTime s now commands rounds
    rw [hrun] at h ⊢
    obtain ⟨hpassed, hahead⟩ := h.solo
    exact honTime.standing hpassed hahead

/-- Commands performed alone in real time are done when the last of their strands is over. -/
theorem execute_stop {task : Task} (h : s.execute now .realtime commands rounds =
      ⟨stop, s', [.done now stop' task s']⟩) :
    stop = Strand.stopOf now (Performance.start now .realtime s commands).2.strands := by
  cases rounds with
  | zero => cases h
  | succ rounds =>
    obtain ⟨shown, w, p, hrun, _, honTime⟩ := execute_onTime s now commands rounds
    rw [h] at hrun
    cases hover : machine.isDone (.performing p) with
    | true =>
      rw [solo_of_done hover] at hrun
      cases hrun
      exact honTime.over hover
    | false =>
      rw [solo_of_not_done hover] at hrun
      cases hrun

/-- In the instant pacing they are done at once. -/
theorem execute_stop_instant {task : Task} (h : s.execute now .instant commands rounds =
      ⟨stop, s', [.done now stop' task s']⟩) : stop = now := by
  cases rounds with
  | zero => cases h
  | succ rounds =>
    obtain ⟨time, w, t, hrun, _, hclock, _⟩ := run_sustains (Performance.sustains_instant now)
      (.perform commands .instant) ⟨rfl, _, rfl, Performance.instant_start now s commands⟩ rounds
    exact (congrArg Ensemble.now (h.symm.trans hrun)).trans hclock

/-- Commands performed alone on a stage where nothing is owed stand at every time once. -/
theorem Coherent.exists_standing (hs : s.Coherent ∅) (commands : List Json) (htime : now ≤ time) :
    ∃ rounds, StandsAt machine (s.execute now .realtime commands rounds) time := by
  obtain ⟨stop, s', p, hrun, _⟩ :=
    hs.execute now .realtime commands (Nat.lt_succ_self (waitsOf commands))
  have hend : (s.execute now .realtime commands (waitsOf commands + 1)).next? machine = none := by
    rw [hrun]
    exact next?_done
  unfold Stage.execute at hend ⊢
  obtain ⟨n, _, hstands⟩ := exists_standsAt hend htime
  exact ⟨n, hstands⟩

end Stage

end Storyboard
