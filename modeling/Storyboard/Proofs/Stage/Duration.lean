import Storyboard.Proofs.Stage.Agenda
import Storyboard.Proofs.Stage.Cues

/-! # How long commands take

    In real time, commands that are performed alone are done as soon as the
    one is that takes longest, and what each of them takes can be told from
    the draft that it meets. In the instant pacing no time passes at all
    (`execute_time`). -/

namespace Storyboard

open Stage

/-! ### Nominal times -/

namespace Command

/-- How long a command takes that has its effect on a draft, in milliseconds. -/
def time (d : Draft) : Command → Nat
  | .createNode _ => 300
  | .updateNode .. => 0
  | .deleteNode id => if id ∈ d.leaving then 0 else 300
  | .moveNode _ _ span _ => span.ticks
  | .highlight _ _ _ span => span.ticks
  | .compare .. => 1500
  | .pulse _ count _ => 400 * count
  | .createEdge .. => 500
  | .deleteEdge id => if id ∈ d.leaving then 0 else 300
  | .highlightPath [] _ _ _ => 0
  | .highlightPath nodes _ span sequential =>
    if sequential then 300 * (nodes.length - 1) + 800 else span.ticks
  | .createArray _ => 300
  | .swap _ _ span => span.ticks
  | .updateCell _ _ _ lit => if lit then 1000 else 0
  | .setPointer .. => 300
  | .addLabel .. => 300
  | .addCallout .. => 300

/-- The longest wait of a command, in milliseconds. -/
def longestWait (d : Draft) : Command → Nat
  | .compare .. => 800
  | .pulse .. => 400
  | .highlightPath [] _ _ _ => 0
  | .highlightPath nodes _ span sequential =>
    if sequential then max (300 * (nodes.length - 1)) 800 else span.ticks
  | c => c.time d

end Command

namespace Draft

/-- How long a command takes that meets a draft. One that is skipped takes no time. -/
def timeOf (d : Draft) (command : Json) : Nat :=
  match d.taken? command with
  | none => 0
  | some c => c.time d

/-- How long the command of some takes that takes longest. -/
def busy (d : Draft) (commands : List Json) : Nat :=
  ((d.along commands).map fun x => x.1.timeOf x.2).foldr max 0

/-- No command that takes effect waits for more than thirty years. -/
def WaitsBriefly (d : Draft) (commands : List Json) : Prop :=
  ∀ x ∈ d.along commands, ∀ c ∈ x.1.taken? x.2, c.longestWait x.1 ≤ Wait.longest

instance (d : Draft) (commands : List Json) : Decidable (d.WaitsBriefly commands) :=
  inferInstanceAs (Decidable (∀ x ∈ d.along commands, ∀ c ∈ x.1.taken? x.2,
    c.longestWait x.1 ≤ Wait.longest))

end Draft

/-! ### From cues to times -/

namespace Cue

/-- The time at which several lists of cues are through that begin now. -/
def latest (now : Nat) (cues : List (List Cue)) : Nat :=
  cues.foldr (fun l n => max (stopOf now l) n) now

variable {now : Nat}

theorem latest_singleton (l : List Cue) : latest now [l] = stopOf now l :=
  Nat.max_eq_left (le_stopOf now l)

theorem stopOf_flash (id : EntityId) (h : Highlight) (hold : Span) :
    stopOf now (flash id h hold) = Wait.endOf now hold := rfl

theorem latest_exitCues (d : Draft) (incarnation : Nat) (k : Kind) (id : EntityId) :
    latest now (exitCues d incarnation k id) = now + if id ∈ d.leaving then 0 else 300 := by
  unfold exitCues
  by_cases hid : id ∈ d.leaving
  · rw [if_pos hid, if_pos hid]
    rfl
  · rw [if_neg hid, if_neg hid, latest_singleton]
    exact Wait.endOf_ofMillis (by decide)

theorem latest_compareCues (elements : List EntityId) (result : Bool) :
    latest now [compareCues elements result] = now + 1500 := by
  have hend : ∀ time n, n ≤ Wait.longest → Wait.endOf time (.ofMillis n) = time + n :=
    fun _ _ => Wait.endOf_ofMillis
  simp only [latest_singleton, compareCues_eq, stopOf_acts, stopOf, stop]
  rw [hend _ 500 (by decide), hend _ 800 (by decide), hend _ 200 (by decide)]

theorem latest_flashes {span : Span} (h : Highlight) (nodes : List EntityId) (hnodes : nodes ≠ []) :
    latest now (nodes.map fun id => flash id h span) = Wait.endOf now span := by
  induction nodes with
  | nil => exact absurd rfl hnodes
  | cons id rest ih =>
    rw [List.map_cons, latest, List.foldr_cons, stopOf_flash]
    cases rest with
    | nil => exact Nat.max_eq_left (Wait.le_endOf span)
    | cons id' rest =>
      have hrest := ih (List.cons_ne_nil _ _)
      rw [latest] at hrest
      rw [hrest, Nat.max_self]

theorem stopOf_staggered (h : Highlight) (id : EntityId) {i : Nat} (hi : 300 * i ≤ Wait.longest) :
    stopOf now (.wait (.ofMillis (pathStagger * i)) :: flash id h pathSpan) =
      now + 300 * i + 800 := by
  rw [stopOf, stopOf_flash, stop, pathStagger, Wait.endOf_ofMillis hi]
  exact Wait.endOf_ofMillis (by decide)

/-- The last node of a path goes out last. -/
theorem latest_pathCues (h : Highlight) (i : Nat) (id : EntityId) (rest : List EntityId)
    (hbrief : 300 * (i + rest.length) ≤ Wait.longest) :
    latest now (pathCues h i (id :: rest)) = now + 300 * (i + rest.length) + 800 := by
  induction rest generalizing i id with
  | nil => exact (latest_singleton _).trans (stopOf_staggered h id hbrief)
  | cons id' rest ih =>
    rw [List.length_cons] at hbrief ⊢
    have hrest := ih (i + 1) id' (by omega)
    rw [latest] at hrest
    rw [pathCues, latest, List.foldr_cons, hrest, stopOf_staggered h id (by omega)]
    omega

/-- The cues of a command that waits briefly are through after its time. -/
theorem latest_cues {d : Draft} {c : Command} (incarnation : Nat)
    (hbrief : c.longestWait d ≤ Wait.longest) :
    latest now (c.cues d incarnation) = now + c.time d := by
  -- Most commands wait once, and what comes after the wait takes no time.
  have hone : ∀ d rest, (∀ time, stopOf time rest = time) → d.ticks ≤ Wait.longest →
      latest now [.wait d :: rest] = now + d.ticks := by
    intro d rest hrest hd
    rw [latest_singleton, stopOf, stop, hrest, Wait.endOf_of_brief hd]
  cases c with
  | createNode n => exact hone enterSpan [] (fun _ => rfl) (by decide)
  | updateNode id value style => rfl
  | deleteNode id => exact latest_exitCues d incarnation .node id
  | moveNode id destination span easing => exact hone span _ (fun _ => rfl) hbrief
  | highlight id color intensity span =>
    rw [Command.cues, latest_singleton, stopOf_flash]
    exact Wait.endOf_of_brief hbrief
  | compare elements operator result => exact latest_compareCues elements result
  | pulse id count color =>
    rw [Command.cues, latest_singleton, stopOf, stop, pulseSpan, Wait.length_ofMillis (by decide),
      Nat.mul_comm, stopOf, Command.time]
  | createEdge id source target directed weight style =>
    exact hone edgeSpan [] (fun _ => rfl) (by decide)
  | deleteEdge id => exact latest_exitCues d incarnation .edge id
  | highlightPath nodes color span sequential =>
    cases nodes with
    | nil => cases sequential <;> rfl
    | cons id rest =>
      cases sequential with
      | true =>
        simp only [Command.longestWait, if_true, List.length_cons] at hbrief
        have hrest : 300 * (0 + rest.length) ≤ Wait.longest := by omega
        refine (latest_pathCues _ 0 id rest hrest).trans ?_
        simp only [Command.time, if_true, List.length_cons]
        omega
      | false =>
        simp only [Command.longestWait, Bool.false_eq_true, if_false] at hbrief
        refine (latest_flashes _ (id :: rest) (List.cons_ne_nil _ _)).trans ?_
        simp only [Command.time, Bool.false_eq_true, if_false]
        exact Wait.endOf_of_brief hbrief
  | createArray r => exact hone enterSpan _ (fun _ => rfl) (by decide)
  | swap row indices span => exact hone span _ (fun _ => rfl) hbrief
  | updateCell row i value lit =>
    cases lit with
    | true => exact hone cellSpan _ (fun _ => rfl) (by decide)
    | false => rfl
  | setPointer id row index label color => exact hone enterSpan [] (fun _ => rfl) (by decide)
  | addLabel id text position style => exact hone enterSpan [] (fun _ => rfl) (by decide)
  | addCallout id form start stop label => exact hone enterSpan [] (fun _ => rfl) (by decide)

end Cue

/-! ### From commands to times -/

variable {now : Nat} {s : Stage} {d : Draft}

theorem Strand.stopOf_followAll (now : Nat) (s : Stage) (cues : List (List Cue)) :
    stopOf now (followAll now .realtime s cues).2 = Cue.latest now cues := by
  induction cues generalizing s with
  | nil => rfl
  | cons l rest ih =>
    have hfirst := (follow_agenda now s l).2.1
    have hrest := ih (follow now .realtime s l).1
    rw [Cue.latest, List.foldr_cons, hfirst, ← Cue.latest, ← hrest]
    rfl

namespace Course

/-- A command that waits briefly is over after its time. -/
theorem Begins.stopOf {x : Draft × Json} {course : Course} (h : Begins now x course)
    (hbrief : ∀ c ∈ x.1.taken? x.2, c.longestWait x.1 ≤ Wait.longest) :
    Strand.stopOf now course.strands = now + x.1.timeOf x.2 := by
  unfold Draft.timeOf
  cases h with
  | refused htaken =>
    dsimp only
    rw [htaken]
    rfl
  | @taken d command c htaken s incarnation =>
    dsimp only
    rw [htaken]
    exact (Strand.stopOf_followAll now s _).trans (Cue.latest_cues incarnation (hbrief c htaken))

/-- Commands that wait briefly are over when the one is that takes longest. -/
theorem stopOf_startAll {owed : Set Act} (hs : s.Coherent owed) (hd : s.Matches d) (now : Nat)
    {commands : List Json} (hbrief : d.WaitsBriefly commands) :
    Strand.stopOf now (strandsOf (startAll now .realtime s commands).2) =
      now + d.busy commands := by
  have hbegins := begins_startAll hs hd now commands
  unfold Draft.WaitsBriefly at hbrief
  unfold Draft.busy
  generalize d.along commands = xs at hbegins hbrief
  generalize (startAll now .realtime s commands).2 = courses at hbegins
  induction hbegins with
  | nil => rfl
  | @cons x course xs courses hfirst _ ih =>
    obtain ⟨hx, hxs⟩ := List.forall_mem_cons.1 hbrief
    have hsplit : strandsOf (course :: courses) = course.strands ++ strandsOf courses :=
      List.flatMap_cons
    rw [hsplit, Strand.stopOf_append, hfirst.stopOf hx, ih hxs, List.map_cons, List.foldr_cons]
    omega

end Course

/-! ### Commands performed alone -/

namespace Stage

/-- Commands that are performed alone on a stage at rest, after finitely many rounds. In real time,
    if none of them waits for more than thirty years, they are done when the one is that takes
    longest. In the instant pacing they are done at once. -/
theorem execute_time (start : Nat) (events : List (Ensemble.Event Action))
    (hrest : AtRest ((Ensemble.alone start empty).after machine events))
    (now : Nat) (commands : List Json) (rounds : Nat) (hrounds : waitsOf commands < rounds) :
    let s := ((Ensemble.alone start empty).after machine events).world
    let d : Draft := ⟨s.scene, []⟩
    (d.WaitsBriefly commands → ∃ s' p, s.execute now .realtime commands rounds =
      ⟨now + d.busy commands, s', [.done now (now + d.busy commands) (.performing p) s']⟩) ∧
    ∃ s' p, s.execute now .instant commands rounds =
      ⟨now, s', [.done now now (.performing p) s']⟩ := by
  intro s d
  have hs : s.Coherent ∅ := coherent_of_atRest hrest
  constructor
  · intro hbrief
    obtain ⟨stop, s', p, hrun, _⟩ := hs.execute now .realtime commands hrounds
    have hstop : stop = now + d.busy commands := by
      rw [execute_stop hrun, Performance.strands_start]
      exact Course.stopOf_startAll hs hs.matches_scene now hbrief
    subst hstop
    exact ⟨s', p, hrun⟩
  · obtain ⟨stop, s', p, hrun, _⟩ := hs.execute now .instant commands hrounds
    obtain rfl : stop = now := execute_stop_instant hrun
    exact ⟨s', p, hrun⟩

/-- A node that is deleted, created again and deleted once more while another one pulses twice. -/
theorem execute_time_recreated :
    let node (id : String) : Json := .obj [("command", .str "CREATE_NODE"), ("id", .str id),
      ("position", .obj [("x", .int 0), ("y", .int 0)])]
    let gone : Json := .obj [("command", .str "DELETE_NODE"), ("id", .str "a")]
    let pulse : Json := .obj [("command", .str "PULSE"), ("id", .str "b"), ("count", .int 2)]
    let e := (Ensemble.alone 0 empty).after machine
      [.join 0 (.perform [node "a", node "b"] .instant), .turn 0 0, .turn 0 0]
    let commands := [gone, gone, node "a", gone, pulse]
    let d : Draft := ⟨e.world.scene, []⟩
    AtRest e ∧ waitsOf commands < 9 ∧ d.WaitsBriefly commands ∧
      (d.along commands).map (fun x => x.1.timeOf x.2) = [300, 0, 300, 300, 800] ∧
      (∃ s' p, e.world.execute 5 .realtime commands 9 =
        ⟨805, s', [.done 5 805 (.performing p) s']⟩) ∧
      ∃ s' p, e.world.execute 5 .instant commands 9 =
        ⟨5, s', [.done 5 5 (.performing p) s']⟩ := by
  intro node gone pulse e commands d
  have hrest : AtRest e := atRest_of_isEmpty (by decide +kernel)
  have hrounds : waitsOf commands < 9 := by decide +kernel
  have hbrief : d.WaitsBriefly commands := by decide +kernel
  have htimes : (d.along commands).map (fun x => x.1.timeOf x.2) = [300, 0, 300, 300, 800] := by
    decide +kernel
  have hbusy : d.busy commands = 800 := by
    rw [Draft.busy, htimes]
    rfl
  obtain ⟨hrealtime, hinstant⟩ := execute_time 0 _ hrest 5 commands 9 hrounds
  refine ⟨hrest, hrounds, hbrief, htimes, ?_, hinstant⟩
  have hdone := hrealtime hbrief
  rw [show Draft.busy _ commands = 800 from hbusy] at hdone
  exact hdone

end Stage

end Storyboard
