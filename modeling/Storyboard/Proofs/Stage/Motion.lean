import Storyboard.Proofs.Stage.Bearing
import Storyboard.Proofs.Stage.Path

/-! # Nodes on the move

    A node that is moved in real time is drawn on its way, as long as nothing
    draws it afresh: then it is drawn at its destination at once. At which
    times a command draws a node afresh can be told from the command
    (`Command.redraws`), and so can, wherever a performance stands, whether a
    node is still on its way (`move_standing`). -/

namespace Storyboard

open Stage

/-! ### When nodes are drawn afresh -/

namespace Command

/-- Whether a command draws a node afresh as it opens. -/
def redrawsAtOnce (n : EntityId) : Command → Bool
  | .updateNode id _ _ => id = n
  | .moveNode id _ _ _ => id = n
  | .highlight id _ _ _ => id = n
  | .compare elements _ _ => n ∈ elements
  | .pulse id count _ => id = n && count != 0
  | .highlightPath nodes _ _ sequential => !sequential && n ∈ nodes
  | _ => false

/-- The times at which a command draws a node afresh that opened at `now`. -/
def redraws (now : Nat) (n : EntityId) : Command → List Nat
  | .highlight id _ _ span => if id = n then [Wait.endOf now span] else []
  | .compare elements _ _ => if n ∈ elements then [now + 500, now + 1300, now + 1500] else []
  | .pulse id count _ =>
    if id = n then (List.range count).map fun i => now + 400 * (i + 1) else []
  | .highlightPath nodes _ span sequential =>
    if sequential then
      (nodes.zipIdx.filter fun x => x.1 = n).flatMap fun x =>
        [turnOf now x.2, turnOf now x.2 + 800]
    else if n ∈ nodes then [Wait.endOf now span] else []
  | _ => []

end Command

namespace Cue

variable {now u : Nat} {n id : EntityId} {h : Highlight} {hold : Span} {d : Draft}
  {incarnation : Nat} {c : Command}

theorem mem_highlights {elements : List EntityId} {l l' : Option Highlight} :
    (u, Act.highlight n l) ∈ (highlights elements l').map (fun a => (now, a)) ↔
      n ∈ elements ∧ u = now ∧ l = l' := by
  simp only [highlights, List.map_map, List.mem_map, Function.comp_apply, Prod.mk.injEq,
    Act.highlight.injEq]
  constructor
  · rintro ⟨id, hid, rfl, rfl, rfl⟩
    exact ⟨hid, rfl, rfl⟩
  · rintro ⟨hn, rfl, rfl⟩
    exact ⟨n, hn, rfl, rfl, rfl⟩

/-- What is drawn afresh before the first waits is drawn as the command opens. -/
theorem redrawsAtOnce_iff : c.redrawsAtOnce n = true ↔ c.Changes n ∨
    ∃ x ∈ leadingOf now (c.cues d incarnation), ∃ h, x.2 = .highlight n h := by
  cases c with
  | compare elements operator result =>
    simp only [Command.redrawsAtOnce, Command.Changes, Command.cues, leadingOf, compareCues_eq,
      List.flatMap_singleton, leading_acts]
    simp [highlights, leading]
  | pulse id count color =>
    cases count with
    | zero => simp [Command.redrawsAtOnce, Command.Changes, Command.cues, leadingOf, leading]
    | succ count =>
      simp [Command.redrawsAtOnce, Command.Changes, Command.cues, leadingOf, leading]
  | highlightPath nodes color span sequential =>
    -- One after another, even the first of the nodes is waited for; all at once, none is.
    cases sequential with
    | true =>
      simp only [Command.redrawsAtOnce, Command.Changes, Command.cues, if_true,
        leadingOf_pathCues]
      simp
    | false =>
      simp [Command.redrawsAtOnce, Command.Changes, Command.cues, leadingOf, leading, flash,
        List.flatMap_map]
  | deleteNode id =>
    simp only [Command.redrawsAtOnce, Command.Changes, Command.cues, leadingOf, exitCues]
    split <;> simp [leading]
  | deleteEdge id =>
    simp only [Command.redrawsAtOnce, Command.Changes, Command.cues, leadingOf, exitCues]
    split <;> simp [leading]
  | updateCell row i value lit =>
    cases lit <;> simp [Command.redrawsAtOnce, Command.Changes, Command.cues, leadingOf, leading]
  | _ => simp [Command.redrawsAtOnce, Command.Changes, Command.cues, leadingOf, leading, flash]

theorem endOf_pulseSpan (now : Nat) : Wait.endOf now pulseSpan = now + 400 :=
  Wait.endOf_ofMillis (by decide)

theorem next_pulse (now i : Nat) : now + 400 + 400 * i = now + 400 * (i + 1) := by omega

/-- A pulsing node is drawn afresh whenever a pulse begins or ends. -/
theorem mem_flashed_pulse {count : Nat} :
    (∃ l, (u, Act.highlight n l) ∈ flashed id h pulseSpan count now) ↔
      id = n ∧ ∃ i < count, u = now + 400 * i ∨ u = now + 400 * (i + 1) := by
  induction count generalizing now with
  | zero => simp [flashed]
  | succ count ih =>
    simp only [flashed, endOf_pulseSpan, List.mem_cons, Prod.mk.injEq, Act.highlight.injEq,
      exists_or, ih]
    constructor
    · rintro (⟨_, rfl, rfl, _⟩ | ⟨_, rfl, rfl, _⟩ | ⟨rfl, i, hi, hu⟩)
      · exact ⟨rfl, 0, Nat.succ_pos _, .inl rfl⟩
      · exact ⟨rfl, 0, Nat.succ_pos _, .inr rfl⟩
      · exact ⟨rfl, i + 1, Nat.succ_lt_succ hi, by omega⟩
    · rintro ⟨rfl, i, hi, hu⟩
      cases i with
      | zero =>
        rcases hu with rfl | rfl
        · exact .inl ⟨_, rfl, rfl, rfl⟩
        · exact .inr (.inl ⟨_, rfl, rfl, rfl⟩)
      | succ i => exact .inr (.inr ⟨rfl, i, Nat.lt_of_succ_lt_succ hi, by omega⟩)

/-- After its first wait, a pulsing node is drawn afresh when a pulse is over. -/
theorem mem_trailing_pulse {count : Nat} :
    (∃ l, (u, Act.highlight n l) ∈ trailing now [.flashes count id h pulseSpan]) ↔
      id = n ∧ ∃ i < count, u = now + 400 * (i + 1) := by
  cases count with
  | zero => simp [trailing]
  | succ count =>
    simp only [trailing, agendaOf, agenda, stop, endOf_pulseSpan, List.singleton_append,
      List.append_nil, List.mem_cons, Prod.mk.injEq, Act.highlight.injEq, exists_or,
      mem_flashed_pulse]
    constructor
    · -- The end of one pulse is the beginning of the next.
      rintro (⟨_, hu, rfl, _⟩ | ⟨rfl, i, hi, hu | hu⟩)
      · exact ⟨rfl, 0, Nat.succ_pos _, hu⟩
      · exact ⟨rfl, i, Nat.lt_succ_of_lt hi, hu.trans (next_pulse now i)⟩
      · exact ⟨rfl, i + 1, Nat.succ_lt_succ hi, hu.trans (next_pulse now (i + 1))⟩
    · rintro ⟨rfl, i, hi, hu⟩
      cases i with
      | zero => exact .inl ⟨none, hu, rfl, rfl⟩
      | succ i =>
        exact .inr ⟨rfl, i, Nat.lt_of_succ_lt_succ hi, .inr (hu.trans (next_pulse now _).symm)⟩

theorem trailing_wait (now : Nat) (d : Span) (rest : List Cue) :
    trailing now (.wait d :: rest) = agendaOf now (.wait d :: rest) := rfl

theorem trailing_pathCues (i : Nat) (nodes : List EntityId) :
    (pathCues h i nodes).flatMap (trailing now) = (pathCues h i nodes).flatMap (agendaOf now) := by
  induction nodes generalizing i with
  | nil => rfl
  | cons id rest ih =>
    rw [pathCues, List.flatMap_cons, List.flatMap_cons, ih, trailing_wait]

/-- A path draws a node afresh when one of its turns begins or ends. -/
theorem mem_trailing_path {nodes : List EntityId} :
    (∃ l, (u, Act.highlight n l) ∈ (pathCues h 0 nodes).flatMap (trailing now)) ↔
      ∃ k, nodes[k]? = some n ∧ (u = turnOf now k ∨ u = turnOf now k + 800) := by
  simp only [trailing_pathCues, mem_agenda_pathCues, Nat.zero_add, Prod.mk.injEq,
    Act.highlight.injEq]
  constructor
  · rintro ⟨_, k, _, hk, ⟨hu, rfl, _⟩ | ⟨hu, rfl, _⟩⟩
    · exact ⟨k, hk, .inl hu⟩
    · exact ⟨k, hk, .inr hu⟩
  · rintro ⟨k, hk, hu | hu⟩
    · exact ⟨some h, k, n, hk, .inl ⟨hu, rfl, rfl⟩⟩
    · exact ⟨none, k, n, hk, .inr ⟨hu, rfl, rfl⟩⟩

/-- What is drawn afresh after the first waits is drawn at the times of the command. -/
theorem mem_redraws_iff : u ∈ c.redraws now n ↔
    ∃ h, (u, Act.highlight n h) ∈ (c.cues d incarnation).flatMap (trailing now) := by
  -- Only nodes are looked at here. So of all commands the comparison, the pulse, the path and the
  -- highlight have something to say, and each says it by its own times.
  cases c with
  | compare elements operator result =>
    have hfirst : Wait.endOf now (.ofMillis 500) = now + 500 := Wait.endOf_ofMillis (by decide)
    have hnext : Wait.endOf (now + 500) (.ofMillis 800) = now + 1300 :=
      Wait.endOf_ofMillis (by decide)
    have hlast : Wait.endOf (now + 1300) (.ofMillis 200) = now + 1500 :=
      Wait.endOf_ofMillis (by decide)
    simp only [Command.redraws, Command.cues, List.flatMap_singleton, compareCues_eq, trailing_acts,
      trailing, agendaOf_acts, agendaOf, agenda, stop, List.nil_append, hfirst, hnext, hlast]
    simp only [List.mem_append, mem_highlights, List.not_mem_nil, or_false, exists_or,
      exists_and_left, exists_eq, and_true]
    by_cases hn : n ∈ elements <;> simp [hn]
  | pulse id count color =>
    rw [Command.cues, List.flatMap_singleton, mem_trailing_pulse, Command.redraws]
    by_cases hid : id = n
    · simp [hid, eq_comm]
    · simp [hid]
  | highlightPath nodes color span sequential =>
    cases sequential with
    | true =>
      simp only [Command.cues, if_true, mem_trailing_path]
      simp only [Command.redraws, if_true, List.mem_flatMap, List.mem_filter, Prod.exists,
        List.mem_zipIdx_iff_getElem?, decide_eq_true_eq, List.mem_pair]
      constructor
      · rintro ⟨_, k, ⟨hk, rfl⟩, hu⟩
        exact ⟨k, hk, hu⟩
      · rintro ⟨k, hk, hu⟩
        exact ⟨n, k, ⟨hk, rfl⟩, hu⟩
    | false =>
      simp [Command.redraws, Command.cues, trailing, flash, List.flatMap_map, agendaOf, agenda]
  | deleteNode id =>
    simp only [Command.redraws, Command.cues, exitCues]
    split <;> simp [trailing, agendaOf, agenda]
  | deleteEdge id =>
    simp only [Command.redraws, Command.cues, exitCues]
    split <;> simp [trailing, agendaOf, agenda]
  | updateCell row i value lit =>
    cases lit <;> simp [Command.redraws, Command.cues, trailing, agendaOf, agenda]
  | highlight id color intensity span =>
    simp [Command.redraws, Command.cues, trailing, flash, agendaOf, agenda, eq_comm, and_comm]
  | _ => simp [Command.redraws, Command.cues, trailing, agendaOf, agenda]

theorem mem_actsOf_of_mem_flashed {x : Nat × Act} {count : Nat}
    (hx : x ∈ flashed id h hold count now) : x.2 ∈ acts (.flashes count id h hold) := by
  induction count generalizing now with
  | zero => cases hx
  | succ count ih =>
    rcases List.mem_cons.1 hx with rfl | hx
    · exact .inl rfl
    · rcases List.mem_cons.1 hx with rfl | hx
      · exact .inr rfl
      · exact ih hx

/-- What cues do are their acts. -/
theorem mem_actsOf_of_mem_agendaOf {x : Nat × Act} {cues : List Cue}
    (hx : x ∈ agendaOf now cues) : x.2 ∈ actsOf cues := by
  induction cues generalizing now with
  | nil => cases hx
  | cons c rest ih =>
    rw [actsOf_cons]
    rcases List.mem_append.1 hx with hx | hx
    · left
      cases c with
      | act a =>
        rw [List.mem_singleton.1 hx]
        exact Set.mem_singleton a
      | wait d => cases hx
      | flashes count id h hold => exact mem_actsOf_of_mem_flashed hx
    · exact .inr (ih hx)

theorem actsOf_map_act (acts : List Act) : actsOf (acts.map .act) = {a | a ∈ acts} := by
  ext a
  simp [actsOf, Cue.acts]

theorem finishExit_of_mem_exitCues {cues : List Cue} {ticket : Ticket} {j k : Kind}
    {id' : EntityId} (hcues : cues ∈ exitCues d incarnation j id')
    (ha : Act.finishExit ticket k id ∈ actsOf cues) :
    ticket = ⟨id', incarnation⟩ ∧ k = j ∧ id = id' := by
  unfold exitCues at hcues
  split at hcues
  · cases hcues
  · rw [List.mem_singleton.1 hcues] at ha
    simpa [acts] using ha

/-- An exit is finished for what was deleted only. -/
theorem exit_of_mem_cues {cues : List Cue} {ticket : Ticket} {k : Kind}
    (hcues : cues ∈ c.cues d incarnation) (ha : Act.finishExit ticket k id ∈ actsOf cues) :
    ticket.id = id ∧ (c = .deleteNode id ∨ c = .deleteEdge id) := by
  -- Only the deletions leave cues that finish an exit, and they do so for their own thing.
  cases c with
  | compare elements operator result =>
    rw [List.mem_singleton.1 hcues, compareCues_eq] at ha
    simp only [actsOf_append, actsOf_cons, actsOf_map_act] at ha
    simp [highlights, acts] at ha
  | highlightPath nodes color span sequential =>
    cases sequential with
    | true =>
      obtain ⟨d, id', rfl⟩ := exists_flash_of_mem_pathCues hcues
      simp [flash, acts] at ha
    | false =>
      obtain ⟨id', _, rfl⟩ := List.mem_map.1 hcues
      simp [flash, acts] at ha
  | deleteNode id' =>
    obtain ⟨rfl, _, rfl⟩ := finishExit_of_mem_exitCues hcues ha
    exact ⟨rfl, .inl rfl⟩
  | deleteEdge id' =>
    obtain ⟨rfl, _, rfl⟩ := finishExit_of_mem_exitCues hcues ha
    exact ⟨rfl, .inr rfl⟩
  | updateCell row i value lit =>
    cases lit with
    | true =>
      rw [List.mem_singleton.1 hcues] at ha
      simp [acts] at ha
    | false => cases hcues
  | updateNode id value style => cases hcues
  | _ =>
    rw [List.mem_singleton.1 hcues] at ha
    simp [flash, acts] at ha

end Cue

theorem Command.Spares.not_delete {c : Command} {n : EntityId} (hc : c.Spares n) :
    c ≠ .deleteNode n ∧ c ≠ .deleteEdge n := by
  constructor
  · rintro rfl
    exact hc rfl
  · rintro rfl
    exact hc rfl

/-- A command that spares a node finishes no exit of it. -/
theorem Command.Spares.exit {c : Command} {n id : EntityId} {d : Draft} {incarnation : Nat}
    {cues : List Cue} {ticket : Ticket} {k : Kind} (hc : c.Spares n)
    (hcues : cues ∈ c.cues d incarnation) (ha : Act.finishExit ticket k id ∈ Cue.actsOf cues) :
    ticket.id ≠ n ∧ id ≠ n := by
  obtain ⟨hticket, rfl | rfl⟩ := Cue.exit_of_mem_cues hcues ha
  · exact ⟨hticket ▸ hc, hc⟩
  · exact ⟨hticket ▸ hc, hc⟩

/-! ### Lists of commands -/

namespace Draft

variable {d : Draft} {commands : List Json}

theorem mem_of_mem_along {x : Draft × Json} (hx : x ∈ d.along commands) : x.2 ∈ commands := by
  induction commands generalizing d with
  | nil => cases hx
  | cons command rest ih =>
    rcases List.mem_cons.1 hx with rfl | hx
    · exact List.mem_cons_self
    · exact List.mem_cons_of_mem _ (ih hx)

/-- Whether a node is drawn afresh by a time, once some commands are opened: when those behind them
    open, or when it is time for it. -/
def Redraws (d : Draft) (now : Nat) (n : EntityId) (opened behind : List Json) (time : Nat) :
    Prop :=
  (∃ x ∈ (opened.foldl step d).along behind, ∃ c ∈ x.1.taken? x.2, c.redrawsAtOnce n = true) ∨
    ∃ x ∈ d.along (opened ++ behind), ∃ c ∈ x.1.taken? x.2, ∃ u ∈ c.redraws now n, u ≤ time

instance (d : Draft) (now : Nat) (n : EntityId) (opened behind : List Json) (time : Nat) :
    Decidable (d.Redraws now n opened behind time) :=
  inferInstanceAs (Decidable (
    (∃ x ∈ (opened.foldl step d).along behind, ∃ c ∈ x.1.taken? x.2, c.redrawsAtOnce n = true) ∨
      ∃ x ∈ d.along (opened ++ behind), ∃ c ∈ x.1.taken? x.2, ∃ u ∈ c.redraws now n, u ≤ time))

end Draft

namespace Course

variable {s : Stage} {d : Draft} {owed : Set Act} {now u : Nat} {n : EntityId} {command : Json}
  {commands : List Json} {x : Draft × Json} {course : Course}

/-- A command that opens keeps the motion of a node, unless it draws the node afresh at once. -/
theorem carries_start (hs : s.Coherent owed) (hd : s.Matches d) (now : Nat)
    (hspares : ∀ c, Command.ofJson command = .ok c → c.Spares n) :
    Carries n (∃ c ∈ d.taken? command, c.redrawsAtOnce n = true) s
      (start now .realtime s command).1 := by
  rcases start_cases hs hd now command with ⟨htaken, p, heq⟩ |
    ⟨c, s', incarnation, htaken, hopen, heq⟩
  · rw [heq, htaken]
    exact (Carries.refl n s).congr (by simp)
  · have hc := hspares c (Draft.ofJson_of_taken? htaken)
    rw [heq, htaken, (Strand.followAll_agenda now s' _).1]
    refine ((carries_opening hc hopen).trans (carries_enact ?_)).congr ?_
    · intro x hx ticket k id hexit
      obtain ⟨cues, hcues, hx⟩ := List.mem_flatMap.1 hx
      have hagenda : x ∈ Cue.agendaOf now cues := by
        rw [Strand.agendaOf_eq]
        exact List.mem_append_left _ hx
      exact hc.exit hcues (hexit ▸ Cue.mem_actsOf_of_mem_agendaOf hagenda)
    · rw [← Cue.redrawsAtOnce_iff]
      simp

theorem carries_startAll (hs : s.Coherent owed) (hd : s.Matches d) (now : Nat)
    (hspares : ∀ command ∈ commands, ∀ c, Command.ofJson command = .ok c → c.Spares n) :
    Carries n (∃ x ∈ d.along commands, ∃ c ∈ x.1.taken? x.2, c.redrawsAtOnce n = true) s
      (startAll now .realtime s commands).1 := by
  induction commands generalizing s d owed with
  | nil => exact (Carries.refl n s).congr (by simp [Draft.along])
  | cons command rest ih =>
    obtain ⟨hfirst, hrest⟩ := List.forall_mem_cons.1 hspares
    obtain ⟨⟨owed', hs'⟩, hd'⟩ := matches_start hs hd now .realtime command
    refine ((carries_start hs hd now hfirst).trans (ih hs' hd' hrest)).congr ?_
    rw [Draft.along, List.exists_mem_cons_iff]

/-- What is left of a command draws a node afresh at the times of the command. -/
theorem Begins.mem_redraws_iff (h : Begins now x course) :
    (∃ c ∈ x.1.taken? x.2, u ∈ c.redraws now n) ↔
      ∃ l, (u, Act.highlight n l) ∈ Strand.agendaOf now course.strands := by
  cases h with
  | refused htaken =>
    dsimp only
    rw [htaken]
    simp [strands, Strand.agendaOf]
  | taken htaken s incarnation =>
    dsimp only
    rw [htaken, strands, Strand.agendaOf_followAll, ← Cue.mem_redraws_iff]
    simp

/-- What is left of a command finishes the exit of nothing but what the command deletes. -/
theorem Begins.exit {ticket : Ticket} {k : Kind} {id : EntityId} (h : Begins now x course)
    (hmem : (u, Act.finishExit ticket k id) ∈ Strand.agendaOf now course.strands) :
    ticket.id = id ∧ ∃ c ∈ x.1.taken? x.2, c = .deleteNode id ∨ c = .deleteEdge id := by
  cases h with
  | refused htaken => cases hmem
  | @taken d command c htaken s incarnation =>
    rw [strands, Strand.agendaOf_followAll] at hmem
    obtain ⟨cues, hcues, hmem⟩ := List.mem_flatMap.1 hmem
    have hagenda : (u, Act.finishExit ticket k id) ∈ Cue.agendaOf now cues := by
      rw [Strand.agendaOf_eq]
      exact List.mem_append_right _ hmem
    obtain ⟨hticket, hdeletes⟩ :=
      Cue.exit_of_mem_cues hcues (Cue.mem_actsOf_of_mem_agendaOf hagenda)
    exact ⟨hticket, c, htaken, hdeletes⟩

theorem mem_redraws_startAll (hs : s.Coherent owed) (hd : s.Matches d) (commands : List Json) :
    (∃ x ∈ d.along commands, ∃ c ∈ x.1.taken? x.2, u ∈ c.redraws now n) ↔
      ∃ l, (u, Act.highlight n l) ∈
        Strand.agendaOf now (strandsOf (startAll now .realtime s commands).2) := by
  have hbegins := begins_startAll hs hd now commands
  generalize d.along commands = xs at hbegins
  generalize (startAll now .realtime s commands).2 = courses at hbegins
  induction hbegins with
  | nil => simp [strandsOf, Strand.agendaOf]
  | @cons x course xs courses hfirst _ ih =>
    rw [List.exists_mem_cons_iff, hfirst.mem_redraws_iff]
    refine (or_congr_right ih).trans ?_
    simp [strandsOf, Strand.agendaOf, exists_or]

theorem exit_startAll {ticket : Ticket} {k : Kind} {id : EntityId} (hs : s.Coherent owed)
    (hd : s.Matches d) (hmem : (u, Act.finishExit ticket k id) ∈
      Strand.agendaOf now (strandsOf (startAll now .realtime s commands).2)) :
    ticket.id = id ∧ ∃ command ∈ commands, ∃ c, Command.ofJson command = .ok c ∧
      (c = .deleteNode id ∨ c = .deleteEdge id) := by
  have hbegins := begins_startAll hs hd now commands
  have hcommands : ∀ x ∈ d.along commands, x.2 ∈ commands := fun x => Draft.mem_of_mem_along
  generalize d.along commands = xs at hbegins hcommands
  generalize (startAll now .realtime s commands).2 = courses at hbegins hmem
  induction hbegins with
  | nil => cases hmem
  | @cons x course xs courses hfirst _ ih =>
    obtain ⟨hx, hxs⟩ := List.forall_mem_cons.1 hcommands
    rw [strandsOf, List.flatMap_cons, Strand.agendaOf, List.flatMap_append,
      List.mem_append] at hmem
    rcases hmem with hmem | hmem
    · obtain ⟨hticket, c, htaken, hdeletes⟩ := hfirst.exit hmem
      exact ⟨hticket, x.2, hx, c, Draft.ofJson_of_taken? htaken, hdeletes⟩
    · exact ih hxs hmem

end Course

/-! ### Nodes that are moved -/

theorem Course.startAll_append (now : Nat) (pacing : Pacing) (s : Stage) (before rest : List Json) :
    (startAll now pacing s (before ++ rest)).1 =
      (startAll now pacing (startAll now pacing s before).1 rest).1 := by
  induction before generalizing s with
  | nil => rfl
  | cons command before ih => exact ih _

namespace Stage

variable {s : Stage} {n : EntityId} {m : Option Stamp} {now time : Nat} {commands : List Json}

/-- Where nothing is owed, every node of the scene is borne by the stage. -/
theorem Coherent.exists_bears (hs : s.Coherent ∅) (hn : s.scene.has .node n = true) :
    ∃ m, s.Bears n m := by
  obtain ⟨node, hnode⟩ := Scene.has_node_iff.1 hn
  obtain ⟨v, hv, _, hstays, hfigure⟩ := hs.sight (Scene.get?_node.2 hnode) rfl
  obtain ⟨i, hi, hdrawn⟩ := Presenter.exists_stayingItem? hv hstays
  refine ⟨i.motion, hs.sound, hs.keyed, hs.exclusive, i, node, hi, hnode, rfl, ?_⟩
  rw [hdrawn, hfigure]
  rfl

/-- A node that is moved sets out from where it is drawn. -/
theorem Bears.start_move {i : Item} {move : Json} {destination : Point} {span : Span}
    {easing : Option String} (h : s.Bears n m) (hi : s.presenter.stayingItem? n = some i)
    (hmove : Command.ofJson move = .ok (.moveNode n destination span easing))
    (hspan : span.isZero = false) (now : Nat) :
    (Course.start now .realtime s move).1.Bears n (some ⟨.move (i.originAt now) destination span
      ((easing.bind Ease.ofName?).getD .usual), now⟩) := by
  obtain ⟨_, node, _, hnode, _⟩ := h.item
  have hmoved := h.move hi now n destination
    (.move node.position destination span ((easing.bind Ease.ofName?).getD .usual))
  rw [if_pos rfl, Stamp.start?, Transition.move, hspan] at hmoved
  simp only [Course.start, hmove, opening, moveNode, hnode]
  exact hmoved

/-- Wherever commands stand that are performed alone in real time, the motion of a node is as it was
    when all of them were opened, unless it was time for one of them to draw the node afresh. -/
theorem carries_execute {owed : Set Act} {d : Draft} {rounds : Nat} (hs : s.Coherent owed)
    (hd : s.Matches d)
    (hdeletes : ∀ command ∈ commands, ∀ c, Command.ofJson command = .ok c →
      c ≠ .deleteNode n ∧ c ≠ .deleteEdge n)
    (hstands : Ensemble.StandsAt machine (s.execute now .realtime commands rounds) time) :
    Carries n (∃ x ∈ d.along commands, ∃ c ∈ x.1.taken? x.2, ∃ u ∈ c.redraws now n, u ≤ time)
      (Course.startAll now .realtime s commands).1
      (s.execute now .realtime commands rounds).world := by
  obtain ⟨deeds, hworld, _, hperm⟩ := execute_standing hstands
  -- What was done is what was on the agenda by then.
  have hdeeds : ∀ x, x ∈ deeds ↔ x.1 ≤ time ∧ x ∈ Strand.agendaOf now
      (Course.strandsOf (Course.startAll now .realtime s commands).2) := by
    intro x
    rw [hperm.mem_iff, List.mem_filter, decide_eq_true_eq, and_comm, Performance.strands_start]
  rw [hworld]
  refine (carries_enact fun x hx ticket k id hexit => ?_).congr ?_
  · obtain ⟨_, hmem⟩ := (hdeeds x).1 hx
    have hfinish : x = (x.1, Act.finishExit ticket k id) := by rw [← hexit]
    rw [hfinish] at hmem
    obtain ⟨hticket, command, hcommand, c, hc, hc'⟩ := Course.exit_startAll hs hd hmem
    have hid : id ≠ n := by
      rintro rfl
      obtain ⟨hnode, hedge⟩ := hdeletes command hcommand c hc
      exact hc'.elim hnode hedge
    exact ⟨hticket ▸ hid, hid⟩
  · constructor
    · rintro ⟨x, hx, h, hhighlight⟩
      obtain ⟨hle, hmem⟩ := (hdeeds x).1 hx
      have hlight : x = (x.1, Act.highlight n h) := by rw [← hhighlight]
      rw [hlight] at hmem
      obtain ⟨y, hy, c, hc, hu⟩ := (Course.mem_redraws_startAll hs hd commands).2 ⟨h, hmem⟩
      exact ⟨y, hy, c, hc, x.1, hu, hle⟩
    · rintro ⟨y, hy, c, hc, u, hu, hle⟩
      obtain ⟨h, hmem⟩ := (Course.mem_redraws_startAll hs hd commands).1 ⟨y, hy, c, hc, hu⟩
      exact ⟨_, (hdeeds _).2 ⟨hle, hmem⟩, h, rfl⟩

/-- A node is moved by one of several commands that are performed in real time on a stage at rest;
    the others neither create nor delete it, nor take it anywhere in their time. They stand at every
    time; and then the node is on its way from where it was drawn when the move began, as the move
    says, if nothing has drawn the node afresh since. Otherwise it is drawn where the scene has it
    already. -/
theorem move_standing (start : Nat) (events : List (Ensemble.Event Action))
    (hrest : AtRest ((Ensemble.alone start empty).after machine events))
    (now : Nat) (before behind : List Json) (move : Json) (n : EntityId) (destination : Point)
    (span : Span) (easing : Option String)
    (hmove : Command.ofJson move = .ok (.moveNode n destination span easing))
    (hspan : span.isZero = false)
    (hn : ((Ensemble.alone start empty).after machine events).world.scene.has .node n = true)
    (hspares : ∀ command ∈ before ++ behind, ∀ c, Command.ofJson command = .ok c → c.Spares n)
    (time : Nat) (htime : now ≤ time) :
    let s := ((Ensemble.alone start empty).after machine events).world
    let d : Draft := ⟨s.scene, []⟩
    let e := s.execute now .realtime (before ++ move :: behind)
    (∃ rounds, Ensemble.StandsAt machine (e rounds) time) ∧
    ∃ i₀, (Course.startAll now .realtime s before).1.presenter.canvas.item? n = some i₀ ∧
      ∀ rounds, Ensemble.StandsAt machine (e rounds) time → ∃ i node,
        (e rounds).world.presenter.canvas.item? n = some i ∧
        (e rounds).world.scene.nodes.find? n = some node ∧
        let t : Transition := .move (i₀.originAt now) destination span
          ((easing.bind Ease.ofName?).getD .usual)
        (¬d.Redraws now n (before ++ [move]) behind time → i.motion = some ⟨t, now⟩ ∧
          i.originAt time = (i₀.originAt now).lerp destination
            (t.progress (.ofMillis (time - now)))) ∧
        (d.Redraws now n (before ++ [move]) behind time →
          i.motion = none ∧ i.originAt time = node.position) := by
  intro s d e
  have hs : s.Coherent ∅ := coherent_of_atRest hrest
  obtain ⟨hbefore, hbehind⟩ := List.forall_mem_append.1 hspares
  -- The node is still there when the move opens.
  obtain ⟨m, hm⟩ := hs.exists_bears hn
  obtain ⟨⟨_, hs₁⟩, hd₁⟩ := Course.matches_startAll hs hs.matches_scene now .realtime before
  obtain ⟨m₁, hm₁⟩ : ∃ m₁, (Course.startAll now .realtime s before).1.Bears n m₁ := by
    obtain ⟨hends, hkeeps⟩ := Course.carries_startAll hs hs.matches_scene now hbefore m hm
    by_cases hredrawn : ∃ x ∈ Draft.along ⟨s.scene, []⟩ before,
        ∃ c ∈ x.1.taken? x.2, c.redrawsAtOnce n = true
    · exact ⟨_, hends hredrawn⟩
    · exact ⟨_, hkeeps hredrawn⟩
  obtain ⟨i₀, _, hi₀, _⟩ := hm₁.item
  have hmoved := hm₁.start_move hi₀ hmove hspan now
  obtain ⟨⟨_, hs₂⟩, hd₂⟩ := Course.matches_start hs₁ hd₁ now .realtime move
  refine ⟨hs.exists_standing _ htime, i₀, hm₁.sound.item?_eq hi₀, fun rounds hstands => ?_⟩
  have hdeletes : ∀ command ∈ before ++ move :: behind, ∀ c, Command.ofJson command = .ok c →
      c ≠ .deleteNode n ∧ c ≠ .deleteEdge n := by
    intro command hcommand c hc
    rcases List.mem_append.1 hcommand with hcommand | hcommand
    · exact (hbefore command hcommand c hc).not_delete
    · rcases List.mem_cons.1 hcommand with rfl | hcommand
      · rw [hmove] at hc
        cases hc
        exact ⟨by rintro ⟨⟩, by rintro ⟨⟩⟩
      · exact (hbehind command hcommand c hc).not_delete
  -- What opens behind the move comes first, and then what is done in time.
  have hopened := Course.carries_startAll hs₂ hd₂ now hbehind
  have hdone := carries_execute hs hs.matches_scene hdeletes hstands
  rw [Course.startAll_append] at hdone
  have hcarried : Carries n (d.Redraws now n (before ++ [move]) behind time)
      (Course.start now .realtime (Course.startAll now .realtime s before).1 move).1
      (e rounds).world := by
    refine (hopened.trans hdone).congr ?_
    rw [Draft.Redraws, List.foldl_append, List.append_assoc]
    rfl
  obtain ⟨hends, hkeeps⟩ := hcarried _ hmoved
  by_cases hredrawn : d.Redraws now n (before ++ [move]) behind time
  · have hworld := hends hredrawn
    obtain ⟨i, node, hi, hnode, hmotion, hplace⟩ := hworld.item
    refine ⟨i, node, hworld.sound.item?_eq hi, hnode, fun hnot => absurd hredrawn hnot,
      fun _ => ⟨hmotion, ?_⟩⟩
    rw [Item.originAt, hmotion, ← hplace]
    rfl
  · have hworld := hkeeps hredrawn
    obtain ⟨i, node, hi, hnode, hmotion, _⟩ := hworld.item
    refine ⟨i, node, hworld.sound.item?_eq hi, hnode, fun _ => ⟨hmotion, ?_⟩,
      fun hnow => absurd hnow hredrawn⟩
    rw [Item.originAt, hmotion]
    rfl

/-- A node that a path comes to after three hundred milliseconds is on its way until then. -/
theorem move_standing_before_turn :
    let n : EntityId := ⟨"n"⟩
    let node (id : String) : Json := .obj [("command", .str "CREATE_NODE"), ("id", .str id),
      ("position", .obj [("x", .int 0), ("y", .int 0)])]
    let path : Json := .obj [("command", .str "HIGHLIGHT_PATH"),
      ("nodes", .arr [.str "m", .str "n"])]
    let move : Json := .obj [("command", .str "MOVE_NODE"), ("duration", .int 400),
      ("easing", .str "linear"), ("id", .str "n"), ("to", .obj [("x", .int 80), ("y", .int 40)])]
    let start := (Ensemble.alone 0 empty).after machine
      [.join 0 (.perform [node "m", node "n"] .instant), .turn 0 0, .turn 0 0]
    let d : Draft := ⟨start.world.scene, []⟩
    let e := start.world.execute 0 .realtime [path, move]
    AtRest start ∧
      Command.ofJson move = .ok (.moveNode n ⟨80, 40⟩ (.ofMillis 400) (some "linear")) ∧
      (Span.ofMillis 400).isZero = false ∧ start.world.scene.has .node n = true ∧
      (∀ command ∈ [path], ∀ c, Command.ofJson command = .ok c → c.Spares n) ∧ 0 ≤ 299 ∧
      ¬d.Redraws 0 n ([path] ++ [move]) [] 299 ∧ d.Redraws 0 n ([path] ++ [move]) [] 300 ∧
      ∃ rounds i, Ensemble.StandsAt machine (e rounds) 299 ∧
        (e rounds).world.presenter.canvas.item? n = some i ∧
        i.motion = some ⟨.move ⟨0, 0⟩ ⟨80, 40⟩ (.ofMillis 400) .linear, 0⟩ := by
  intro n node path move start d e
  -- The first turn of the node is due at three hundred milliseconds, so nothing redraws it before.
  have hrest : AtRest start := atRest_of_isEmpty (by decide +kernel)
  have hmove : Command.ofJson move =
      .ok (.moveNode n ⟨80, 40⟩ (.ofMillis 400) (some "linear")) :=
    Command.ofJson_of_toOption (by decide +kernel)
  have hpath : Command.ofJson path = .ok (.highlightPath [⟨"m"⟩, n] none (.ofMillis 2000) true) :=
    Command.ofJson_of_toOption (by decide +kernel)
  have hspares : ∀ command ∈ [path], ∀ c, Command.ofJson command = .ok c → c.Spares n := by
    intro command hcommand c hc
    rw [List.mem_singleton.1 hcommand, hpath] at hc
    cases hc
    trivial
  have hn : start.world.scene.has .node n = true := by decide +kernel
  have hkept : ¬d.Redraws 0 n ([path] ++ [move]) [] 299 := by decide +kernel
  have horigin : ((Course.startAll 0 .realtime start.world [path]).1.presenter.canvas.item? n).map
      (·.originAt 0) = some ⟨0, 0⟩ := by decide +kernel
  obtain ⟨⟨rounds, hstands⟩, i₀, hi₀, hitems⟩ :=
    move_standing 0 _ hrest 0 [path] [] move n ⟨80, 40⟩ (.ofMillis 400) (some "linear") hmove
      (by decide) hn (by rwa [List.append_nil]) 299 (by decide)
  obtain ⟨i, _, hi, _, hkeeps, _⟩ := hitems rounds hstands
  obtain ⟨hmotion, _⟩ := hkeeps hkept
  rw [show i₀.originAt 0 = ⟨0, 0⟩ from Option.some.inj ((congrArg _ hi₀).symm.trans horigin)]
    at hmotion
  exact ⟨hrest, hmove, by decide, hn, hspares, by decide, hkept, by decide +kernel, rounds, i,
    hstands, hi, hmotion⟩

/-- A node that is highlighted besides stands at its destination when it should be half way
    there. -/
theorem move_cut_short :
    let n : EntityId := ⟨"n"⟩
    let node : Json := .obj [("command", .str "CREATE_NODE"), ("id", .str "n"),
      ("position", .obj [("x", .int 0), ("y", .int 0)])]
    let move : Json := .obj [("command", .str "MOVE_NODE"), ("duration", .int 400),
      ("easing", .str "linear"), ("id", .str "n"), ("to", .obj [("x", .int 80), ("y", .int 40)])]
    let light : Json := .obj [("command", .str "HIGHLIGHT"), ("duration", .int 100),
      ("id", .str "n")]
    let start := (Ensemble.alone 0 empty).after machine
      [.join 0 (.perform [node] .instant), .turn 0 0, .turn 0 0]
    let t : Transition := .move ⟨0, 0⟩ ⟨80, 40⟩ (.ofMillis 400) .linear
    let e := start.world.execute 0 .realtime [move, light] 2
    AtRest start ∧ Ensemble.StandsAt machine e 200 ∧ 200 < 400 ∧
      (e.world.presenter.canvas.item? n).map (fun i => (i.motion, i.originAt 200)) =
        some (none, ⟨80, 40⟩) ∧
      t.position? (.ofMillis 200) = some ⟨40, 20⟩ ∧ (⟨80, 40⟩ : Point) ≠ ⟨40, 20⟩ := by
  intro n node move light start t e
  have hdue : e.due? machine = some 400 := by decide +kernel
  refine ⟨atRest_of_isEmpty (by decide +kernel), ⟨by decide +kernel, by decide +kernel,
    fun due hsome => ?_⟩, by decide, by decide +kernel, by decide +kernel, by decide +kernel⟩
  rw [hdue] at hsome
  cases hsome
  decide

end Stage

end Storyboard
