import Storyboard.Proofs.Ensemble.Tasks
import Storyboard.Proofs.Ensemble.Timing
import Storyboard.Proofs.Narration.Equipment
import Storyboard.Proofs.Narration.Ledger

/-! # Speaking in turn

    Whatever is asked of a booth, in whatever order, and whatever its devices
    do, its ledger is orderly (`kept_after`). Who is told to stop returns before
    any time passes (`returned_after`). With what an orderly ledger says about
    those who have returned, this is all that is promised of a booth, and of the
    narrator, who is one (`speaks_in_turn`). -/

namespace Storyboard

open Ensemble Narration

namespace Booth

variable {World D : Type} {m : Means World D} {b : Booth World} {s : Speech D} {turn : Turn}
  {now : Nat} {text : String}

/-- How far the speech is. -/
def Speech.phase : Speech D → Phase
  | .queued turn => .queued turn
  | .delivering turn _ => .delivering turn
  | .over ticket outcome => .over ticket outcome

/-- How far the speech is that is under way. -/
def Task.phase? : Task D → Option Phase
  | .speaking _ s => some s.phase
  | _ => none

/-- The ticket of the speech. -/
def Task.ticket? (t : Task D) : Option Nat := t.phase?.bind Phase.ticket?

/-- Whether the text is being delivered. -/
def Task.delivers : Task D → Bool
  | .speaking _ (.delivering ..) => true
  | _ => false

/-! ### What a turn does to the ledger -/

/-- A speech goes on, perhaps more than once. -/
def Goes (l : Ledger) (p : Phase) (l' : Ledger) (p' : Phase) : Prop :=
  Relation.ReflTransGen (fun x y : Ledger × Phase => Ledger.Moves x.1 x.2 y.1 y.2) (l, p) (l', p')

theorem goes_settle {l : Ledger} {p : Phase} (h : Goes l p b.ledger (.delivering turn))
    (d : Option D) : Goes l p (b.settle turn d).1.ledger (b.settle turn d).2.phase := by
  cases d with
  | none => exact h.tail .ends
  | some d => exact h

theorem goes_cancel {p : Phase} (hp : p.turn? = some turn)
    (hstale : turn.generation ≠ b.ledger.generation) :
    Goes b.ledger p (b.cancel (D := D) turn).1.ledger (b.cancel (D := D) turn).2.phase :=
  .single (.cancels hp hstale)

theorem goes_resume (m : Means World D) (b : Booth World) (now : Nat) (s : Speech D) :
    Goes b.ledger s.phase (b.resume m now s).1.ledger (b.resume m now s).2.phase := by
  cases s with
  | queued turn =>
    -- A queued turn is cancelled, waits on or begins, and each of them is one entry at most.
    unfold resume
    dsimp only
    by_cases hstale : turn.generation ≠ b.ledger.generation
    · rw [if_pos hstale]
      exact goes_cancel rfl hstale
    · rw [if_neg hstale]
      cases hleads : b.ledger.line.leads turn.ticket with
      | false => exact .refl
      | true =>
        rw [if_pos rfl]
        refine goes_settle (b := { b with
          world := (m.deliver now b.world turn.text).1
          ledger := b.ledger.note (.begins turn.ticket) }) ?_ _
        exact .single (.begins (not_not.1 hstale) hleads)
  | delivering turn d =>
    unfold resume
    dsimp only
    by_cases hstale : turn.generation ≠ b.ledger.generation
    · rw [if_pos hstale]
      -- A delivery that was stopped may be polled once more, which the ledger is not told of.
      unfold breakOff
      rcases htoss : b.toss with ⟨b', coin⟩
      have hsame : b.ledger = b'.ledger := congrArg (·.1.ledger) htoss
      rw [hsame] at hstale ⊢
      cases coin with
      | false =>
        exact goes_cancel (b := { b' with world := m.drop now b'.world d }) rfl hstale
      | true =>
        dsimp only
        rcases m.proceed now b'.world turn.text d with ⟨world, d'⟩
        cases d' with
        | none => exact goes_settle (b := { b' with world }) .refl none
        | some d' => exact goes_cancel (b := { b' with world := m.drop now world d' }) rfl hstale
    · rw [if_neg hstale]
      exact goes_settle (b := { b with world := (m.proceed now b.world turn.text d).1 }) .refl _
  | «over» ticket outcome => exact .refl

/-- Its ticket and the generation stay, and nothing is struck from the journal. -/
theorem Goes.same {l l' : Ledger} {p p' : Phase} (h : Goes l p l' p') :
    p'.ticket? = p.ticket? ∧ l'.generation = l.generation ∧ l.journal <+: l'.journal := by
  have hgoes : ∀ x : Ledger × Phase,
      Relation.ReflTransGen (fun x y => Ledger.Moves x.1 x.2 y.1 y.2) (l, p) x →
      x.2.ticket? = p.ticket? ∧ x.1.generation = l.generation ∧ l.journal <+: x.1.journal := by
    intro x hx
    induction hx with
    | refl => exact ⟨rfl, rfl, List.prefix_rfl⟩
    | tail _ hmove ih =>
      obtain ⟨hticket, hgeneration, hjournal⟩ := ih
      obtain ⟨hticket', hgeneration', hjournal'⟩ := hmove.same
      exact ⟨hticket'.trans hticket, hgeneration'.trans hgeneration, hjournal.trans hjournal'⟩
  exact hgoes _ h

theorem Goes.orderly {l l' : Ledger} {p p' : Phase} {ps : List Phase} (h : Goes l p l' p')
    (hl : l.Orderly (p :: ps)) : l'.Orderly (p' :: ps) := by
  have hgoes : ∀ x : Ledger × Phase,
      Relation.ReflTransGen (fun x y => Ledger.Moves x.1 x.2 y.1 y.2) (l, p) x →
      x.1.Orderly (x.2 :: ps) := by
    intro x hx
    induction hx with
    | refl => exact hl
    | tail _ hmove ih => exact ih.moves hmove
  exact hgoes _ h

/-! ### After any events -/

/-- What is known of a booth with everything that was asked of it. -/
structure Kept (b : Booth World) (ts : List (Task D)) : Prop where
  orderly : b.ledger.Orderly (ts.filterMap Task.phase?)
  /-- Blank texts alone have no ticket. -/
  blank   : ∀ text s, .speaking text s ∈ ts →
    (s.phase.ticket? = none ↔ Text.trimmed? text = none)

variable {t u : Task D} {ts us : List (Task D)}

namespace Kept

theorem perm (h : b.Kept ts) (hperm : ts.Perm us) : b.Kept us :=
  ⟨h.orderly.perm (hperm.filterMap _), fun text s hs => h.blank text s (hperm.mem_iff.2 hs)⟩

/-- Whatever is no speech does not matter. -/
theorem cons_of_none (h : b.Kept ts) (ht : t.phase? = none) : b.Kept (t :: ts) := by
  refine ⟨?_, fun text s hs => h.blank text s ((List.mem_cons.1 hs).resolve_left ?_)⟩
  · rw [List.filterMap_cons_none ht]
    exact h.orderly
  · rintro rfl
    cases ht

theorem tail (h : b.Kept (t :: ts)) (ht : t.phase? = none) : b.Kept ts := by
  refine ⟨?_, fun text s hs => h.blank text s (List.mem_cons_of_mem _ hs)⟩
  have horderly := h.orderly
  rwa [List.filterMap_cons_none ht] at horderly

theorem resume (h : b.Kept (.speaking text s :: ts)) (m : Means World D) (now : Nat) :
    (b.resume m now s).1.Kept (.speaking text (b.resume m now s).2 :: ts) := by
  have hgoes := goes_resume m b now s
  refine ⟨hgoes.orderly h.orderly, fun text' s' hs' => ?_⟩
  rcases List.mem_cons.1 hs' with hsame | hs'
  · cases hsame
    rw [hgoes.same.1]
    exact h.blank text s List.mem_cons_self
  · exact h.blank text' s' (List.mem_cons_of_mem _ hs')

theorem speak (h : b.Kept ts) (m : Means World D) (now : Nat) (text : String) :
    (b.speak m now text).1.Kept (.speaking text (b.speak m now text).2 :: ts) := by
  unfold Booth.speak
  cases htext : Text.trimmed? text with
  | none =>
    refine ⟨h.orderly.skip, fun text' s hs => ?_⟩
    rcases List.mem_cons.1 hs with hsame | hs
    · cases hsame
      exact iff_of_true rfl htext
    · exact h.blank text' s hs
  | some spoken =>
    let s : Speech D := .queued ⟨b.ledger.line.next, b.ledger.generation, spoken⟩
    have hasked : Kept { b with ledger := b.ledger.ask } (.speaking text s :: ts) := by
      refine ⟨h.orderly.ask spoken, fun text' s' hs' => ?_⟩
      rcases List.mem_cons.1 hs' with hsame | hs'
      · cases hsame
        rw [htext]
        exact iff_of_false nofun nofun
      · exact h.blank text' s' hs'
    exact hasked.resume m now

theorem stop (h : b.Kept ts) (m : Means World D) (now : Nat) : (b.stop m now).Kept ts :=
  ⟨h.orderly.stop, h.blank⟩

end Kept

theorem phase?_waitUntil (now time : Nat) : (Task.waitUntil now time : Task D).phase? = none := by
  unfold Task.waitUntil
  split <;> rfl

/-- Whatever is asked of a booth. -/
theorem kept_after (m : Means World D) (w : World) (coins : List Bool) (start : Nat)
    (events : List (Event Narrator.Action)) :
    ((alone start (ofWorld w coins)).after (machine m) events).world.Kept
      ((alone start (ofWorld w coins)).after (machine m) events).tasks := by
  refine tasks_induction (I := Kept) ⟨.empty, nofun⟩ (fun hperm h => h.perm hperm) ?_ ?_ events
  · intro now b ts action h
    -- Only a speech begins anything. To stop renews the generation, which keeps what is known.
    cases action with
    | speak text =>
      simp only [start_speak]
      exact h.speak m now text
    | stop =>
      rw [start_stop]
      exact (h.stop m now).cons_of_none rfl
    | wait d =>
      rw [start_wait]
      exact h.cons_of_none (phase?_waitUntil now _)
    | look =>
      rw [start_look]
      exact h.cons_of_none rfl
  · intro now b t ts h
    cases t with
    | speaking text s =>
      simp only [resume_speaking]
      exact h.resume m now
    | waiting time =>
      rw [resume_waiting]
      exact (h.tail rfl).cons_of_none (phase?_waitUntil now time)
    | «over» =>
      rw [resume_over]
      exact (h.tail rfl).cons_of_none rfl

/-! ### Who is told to stop -/

theorem generation_resume (m : Means World D) (b : Booth World) (now : Nat) (s : Speech D) :
    (b.resume m now s).1.ledger.generation = b.ledger.generation :=
  (goes_resume m b now s).same.2.1

theorem generation_speak (m : Means World D) (b : Booth World) (now : Nat) (text : String) :
    (b.speak m now text).1.ledger.generation = b.ledger.generation := by
  unfold speak
  cases Text.trimmed? text with
  | none => rfl
  | some text => exact generation_resume m { b with ledger := b.ledger.ask } now _

/-- Nobody takes a stop back. -/
theorem generation_le_turn (v : Voice (Booth World) Narrator.Action (Task D)) (m : Means World D)
    (now : Nat) (b : Booth World) :
    b.ledger.generation ≤ (v.turn (machine m) now b).1.ledger.generation := by
  cases v with
  | pending time action =>
    unfold Voice.turn
    dsimp only
    split
    · rw [Voice.settle_world]
      cases action with
      | speak text =>
        simp only [start_speak]
        exact Nat.le_of_eq (generation_speak m b now text).symm
      | stop => exact Nat.le_succ _
      | _ => exact Nat.le_refl _
    · exact Nat.le_refl _
  | running since t =>
    unfold Voice.turn
    dsimp only
    rw [Voice.settle_world]
    cases t with
    | speaking text s =>
      simp only [resume_speaking]
      exact Nat.le_of_eq (generation_resume m b now s).symm
    | _ => exact Nat.le_refl _
  | done => exact Nat.le_refl _

variable {e g h : Ensemble (Booth World) Narrator.Action (Task D)} {i since ticket time : Nat}
  {event : Event Narrator.Action}

theorem generation_le_step (e : Ensemble (Booth World) Narrator.Action (Task D))
    (event : Event Narrator.Action) :
    e.world.ledger.generation ≤ (e.step (machine m) event).world.ledger.generation := by
  cases event with
  | join time action => exact Nat.le_refl _
  | turn place time =>
    unfold step
    dsimp only
    cases e.voices[place]? with
    | none => exact Nat.le_refl _
    | some v => exact generation_le_turn v m _ _

/-- The call at a place has returned at a time: it was given up, unless its delivery ended right
    then. -/
def Returned (e : Ensemble (Booth World) Narrator.Action (Task D)) (i since time : Nat)
    (text : String) (ticket : Nat) : Prop :=
  ∃ outcome w, e.voices[i]? =
      some (.done since time (.speaking text (.over (some ticket) outcome)) w) ∧
    (outcome = .cancelled ∨
      outcome = .completed ∧ w.ledger.journal.getLast? = some (.ends ticket))

/-- A speech that is told to stop is over with its next turn. -/
theorem resume_of_stale (m : Means World D) (b : Booth World) (now : Nat)
    (hturn : s.phase.turn? = some turn) (hstale : turn.generation ≠ b.ledger.generation) :
    ∃ outcome, (b.resume m now s).2 = .over (some turn.ticket) outcome ∧
      (outcome = .cancelled ∨ outcome = .completed ∧
        (b.resume m now s).1.ledger.journal.getLast? = some (.ends turn.ticket)) := by
  cases s with
  | queued turn' =>
    obtain rfl := Option.some.inj hturn
    have hcancel : b.resume m now (.queued turn') = b.cancel turn' := if_pos hstale
    rw [hcancel]
    exact ⟨.cancelled, rfl, .inl rfl⟩
  | delivering turn' d =>
    obtain rfl := Option.some.inj hturn
    have hbreak : b.resume m now (.delivering turn' d) = b.breakOff m now turn' d := if_pos hstale
    rw [hbreak]
    unfold breakOff
    -- The coin may give the delivery one more turn, and if it ends in it, it is complete.
    rcases b.toss with ⟨b', coin⟩
    cases coin with
    | false => exact ⟨.cancelled, rfl, .inl rfl⟩
    | true =>
      dsimp only
      rcases m.proceed now b'.world turn'.text d with ⟨world, d'⟩
      cases d' with
      | none => exact ⟨.completed, rfl, .inr ⟨rfl, by simp [settle]⟩⟩
      | some d' => exact ⟨.cancelled, rfl, .inl rfl⟩
  | «over» ticket outcome => cases hturn

/-- So is the call that made it. -/
theorem turn_of_stale (m : Means World D) (b : Booth World) (now since : Nat) (text : String)
    (hturn : s.phase.turn? = some turn) (hstale : turn.generation ≠ b.ledger.generation) :
    ∃ outcome w, ((.running since (.speaking text s) : Voice _ Narrator.Action _).turn (machine m)
        now b).2 = .done since now (.speaking text (.over (some turn.ticket) outcome)) w ∧
      (outcome = .cancelled ∨
        outcome = .completed ∧ w.ledger.journal.getLast? = some (.ends turn.ticket)) := by
  obtain ⟨outcome, hover, hlast⟩ := resume_of_stale m b now hturn hstale
  refine ⟨outcome, _, ?_, hlast⟩
  unfold Voice.turn
  dsimp only
  rw [resume_speaking, hover]
  rfl

/-- Who is told to stop can go on at once, -/
theorem isReady_of_stale (hturn : s.phase.turn? = some turn)
    (hstale : turn.generation ≠ b.ledger.generation) :
    (machine m).isReady now b (.speaking text s) = true := by
  cases s with
  | «over» ticket outcome => cases hturn
  | _ =>
    obtain rfl := Option.some.inj hturn
    exact Bool.or_eq_true_iff.2 (.inl (bne_iff_ne.2 hstale))

theorem isAwake_of_stale (hv : e.voices[i]? = some (.running since (.speaking text s)))
    (hturn : s.phase.turn? = some turn)
    (hstale : turn.generation < e.world.ledger.generation) : e.isAwake (machine m) = true :=
  List.any_eq_true.2 ⟨_, List.mem_of_getElem? hv, isReady_of_stale hturn (Nat.ne_of_lt hstale)⟩

/-- returns with its next turn in the very next round, -/
theorem returned_next (m : Means World D)
    (hv : e.voices[i]? = some (.running since (.speaking text s)))
    (hturn : s.phase.turn? = some turn)
    (hstale : turn.generation < e.world.ledger.generation) :
    e.next? (machine m) = some (e.round (machine m) e.now) ∧
      Returned (e.round (machine m) e.now) i since e.now text turn.ticket := by
  refine ⟨if_pos (isAwake_of_stale hv hturn hstale), ?_⟩
  have hkept : ∀ b (v : Voice (Booth World) Narrator.Action (Task D)),
      turn.generation < b.ledger.generation →
      turn.generation < (v.turn (machine m) e.now b).1.ledger.generation :=
    fun b v hb => Nat.lt_of_lt_of_le hb (generation_le_turn v m e.now b)
  obtain ⟨w, hw, hround⟩ := exists_turn_of_turns hkept hstale hv
  obtain ⟨outcome, w', hdone, hlast⟩ := turn_of_stale m w e.now since text hturn (Nat.ne_of_lt hw)
  exact ⟨outcome, w', hround.trans (congrArg some hdone), hlast⟩

/-- and whatever turns are taken, before any time passes. -/
theorem returned_after (hv : e.voices[i]? = some (.running since (.speaking text s)))
    (hturn : s.phase.turn? = some turn)
    (hstale : turn.generation < e.world.ledger.generation) (later : List (Event Narrator.Action))
    (hprompt : Prompt (machine m) e later) :
    ((e.after (machine m) later).voices[i]? = some (.running since (.speaking text s)) ∧
      (e.after (machine m) later).now = e.now) ∨
    Returned (e.after (machine m) later) i since e.now text turn.ticket := by
  induction later generalizing e with
  | nil => exact .inl ⟨hv, rfl⟩
  | cons event rest ih =>
    obtain ⟨hclock, hprompt⟩ := hprompt
    have hnow : (e.step (machine m) event).now = e.now := by
      refine hclock.resolve_right fun hasleep => ?_
      rw [isAwake_of_stale hv hturn hstale] at hasleep
      cases hasleep
    rcases voice_step_of_running (m := machine m) hv event with hsame | ⟨hresumed, hdone⟩
    · have hrest := ih hsame (Nat.lt_of_lt_of_le hstale (generation_le_step e event)) hprompt
      rw [hnow] at hrest
      exact hrest
    · refine .inr ?_
      obtain ⟨outcome, w, hover, hlast⟩ := turn_of_stale m e.world
        (e.step (machine m) event).now since text hturn (Nat.ne_of_lt hstale)
      have hvoice : (e.step (machine m) event).voices[i]? =
          some (.done since e.now (.speaking text (.over (some turn.ticket) outcome)) w) := by
        rw [← hnow]
        exact hdone.trans (congrArg some hover)
      refine ⟨outcome, w, ?_, hlast⟩
      -- Nobody who is done is touched by what comes later.
      refine after_induction (P := fun g : Ensemble (Booth World) Narrator.Action (Task D) =>
        g.voices[i]? = some
          (.done since e.now (.speaking text (.over (some turn.ticket) outcome)) w)) hvoice ?_ rest
      exact fun g event hg => step_of_done hg event

/-! ### What a call keeps -/

/-- The call at a place is to speak the text, and has the ticket if the text is not blank. -/
def Holds (e : Ensemble (Booth World) Narrator.Action (Task D)) (i : Nat) (text : String)
    (ticket : Nat) : Prop :=
  ∃ v s, e.voices[i]? = some v ∧ v.task? = some (.speaking text s) ∧
    s.phase.ticket? = (Text.trimmed? text).map fun _ => ticket

theorem ticket?_speak (m : Means World D) (b : Booth World) (now : Nat) (text : String) :
    (b.speak m now text).2.phase.ticket? =
      (Text.trimmed? text).map fun _ => b.ledger.line.next := by
  unfold speak
  cases Text.trimmed? text with
  | none => rfl
  | some spoken => exact (goes_resume m { b with ledger := b.ledger.ask } now _).same.1

theorem prefix_speak (m : Means World D) (b : Booth World) (now : Nat)
    (htext : Text.trimmed? text ≠ none) :
    b.ledger.journal ++ [.asks b.ledger.line.next] <+: (b.speak m now text).1.ledger.journal := by
  unfold speak
  cases hspoken : Text.trimmed? text with
  | none => exact absurd hspoken htext
  | some spoken => exact (goes_resume m { b with ledger := b.ledger.ask } now _).same.2.2

/-- A call to speak gets the next ticket, -/
theorem holds_of_begun (hbegun : e.begun? (.turn i time) = some (.speak text)) :
    Holds (e.step (machine m) (.turn i time)) i text e.world.ledger.line.next := by
  have hvoice := voice_step_of_begun (m := machine m) hbegun
  simp only [start_speak] at hvoice
  exact ⟨_, _, hvoice, Voice.task?_settle, ticket?_speak m e.world _ text⟩

/-- and keeps it. -/
theorem holds_after (h : Holds e i text ticket) (events : List (Event Narrator.Action)) :
    Holds (e.after (machine m) events) i text ticket := by
  refine after_induction (P := fun e : Ensemble (Booth World) Narrator.Action (Task D) =>
    Holds e i text ticket) h ?_ events
  rintro e event ⟨v, s, hv, htask, hticket⟩
  cases v with
  | pending time action => cases htask
  | running since t =>
    obtain rfl := Option.some.inj htask
    rcases voice_step_of_running (m := machine m) hv event with hsame | ⟨_, hresumed⟩
    · exact ⟨_, s, hsame, rfl, hticket⟩
    · simp only [resume_speaking] at hresumed
      exact ⟨_, _, hresumed, Voice.task?_settle, (goes_resume m e.world _ s).same.1.trans hticket⟩
  | done since stop t w => exact ⟨_, s, step_of_done hv event, htask, hticket⟩

/-! ### What an orderly ledger says -/

/-- No two are delivering. -/
theorem Kept.pairwise (h : b.Kept ts) :
    ts.Pairwise fun t u => t.delivers = false ∨ u.delivers = false := by
  have hphases := List.pairwise_filterMap.1 h.orderly.pairwise
  refine hphases.imp fun {t u} hapart => ?_
  cases t with
  | speaking text s =>
    cases s with
    | delivering turn d =>
      cases u with
      | speaking text' s' =>
        cases s' with
        | delivering turn' d' => exact absurd (hapart _ rfl _ rfl) (fun hne => hne rfl rfl)
        | _ => exact .inr rfl
      | _ => exact .inr rfl
    | _ => exact .inl rfl
  | _ => exact .inl rfl

theorem mem_phases (hs : .speaking text s ∈ ts) : s.phase ∈ ts.filterMap Task.phase? :=
  List.mem_filterMap.2 ⟨_, hs, rfl⟩

/-- Blank texts alone are skipped. -/
theorem Kept.skipped_iff (h : b.Kept ts) (hs : .speaking text s ∈ ts) :
    (∃ ticket, s = .over ticket .skipped) ↔ Text.trimmed? text = none := by
  rw [← h.blank text s hs]
  have hlived := h.orderly.lived _ (mem_phases hs)
  constructor
  · rintro ⟨ticket, rfl⟩
    cases ticket with
    | none => rfl
    | some t => exact hlived.elim
  · intro hnone
    cases s with
    | «over» ticket outcome =>
      obtain rfl : ticket = none := hnone
      obtain rfl : outcome = .skipped := hlived
      exact ⟨none, rfl⟩
    | _ => cases hnone

/-- What the journal tells about a speech that was delivered or given up. -/
theorem Kept.ended {ticket? : Option Nat} {outcome : SpeechOutcome} (h : b.Kept ts)
    (hs : .speaking text (.over ticket? outcome) ∈ ts) (hspoken : outcome ≠ .skipped) :
    ∃ t, ticket? = some t ∧ Phase.Ended b.ledger.journal t outcome := by
  have hlived := h.orderly.lived _ (mem_phases hs)
  cases ticket? with
  | none => exact absurd hlived hspoken
  | some t => exact ⟨t, rfl, hlived⟩

/-- Whoever has not returned when everybody is told to stop, has an older turn. -/
theorem Kept.stale_of_stop (h : b.Kept ts) (hs : .speaking text s ∈ ts)
    (hturn : s.phase.turn? = some turn) (m : Means World D) :
    turn.generation < (b.stop m now).ledger.generation :=
  Nat.lt_succ_of_le
    (h.orderly.stale _ (mem_phases hs) turn hturn).1

/-- Everybody who has not returned when all are told to stop, was there before and is told. -/
theorem stale_of_stop {w : World} {coins : List Bool} {start : Nat}
    {events : List (Event Narrator.Action)}
    (he : e = (alone start (ofWorld w coins)).after (machine m) events)
    (hstop : e.begun? event = some .stop)
    (hv : (e.step (machine m) event).voices[i]? = some (.running since (.speaking text s))) :
    ∃ turn, s.phase.turn? = some turn ∧
      turn.generation < (e.step (machine m) event).world.ledger.generation := by
  have hbefore : e.voices[i]? = some (.running since (.speaking text s)) :=
    running_of_begun hstop rfl hv
  have hflight : .speaking text s ∈ e.inFlight :=
    List.mem_filterMap.2 ⟨_, List.mem_of_getElem? hbefore, rfl⟩
  have htask : .speaking text s ∈ e.tasks :=
    List.mem_filterMap.2 ⟨_, List.mem_of_getElem? hbefore, rfl⟩
  rw [(step_of_begun (m := machine m) hstop).1, start_stop]
  subst he
  have hopen := isDone_of_mem_inFlight hflight
  have hkept := kept_after m w coins start events
  cases s with
  | queued turn => exact ⟨turn, rfl, hkept.stale_of_stop htask rfl m⟩
  | delivering turn d => exact ⟨turn, rfl, hkept.stale_of_stop htask rfl m⟩
  | «over» ticket outcome => cases hopen

/-! ### All of it -/

/-- Whatever is asked of a booth, in whatever order those who ask take their turns, and whatever
    its devices do. -/
theorem speaks_in_turn (m : Means World D) (w : World) (coins : List Bool) (start : Nat)
    (events : List (Event Narrator.Action)) :
    let e := (alone start (ofWorld w coins)).after (machine m) events
    let ledger := e.world.ledger
    -- Tickets are given in the order of the calls, and to nobody else. A call keeps its ticket.
    ledger.journal.filterMap Entry.asked? = List.range ledger.line.next ∧
    (e.tasks.filterMap Task.ticket?).Perm (List.range ledger.line.next) ∧
    (∀ i time text, e.begun? (.turn i time) = some (.speak text) →
      (Text.trimmed? text ≠ none → ledger.journal ++ [.asks ledger.line.next] <+:
        (e.step (machine m) (.turn i time)).world.ledger.journal) ∧
      ∀ later, Holds ((e.step (machine m) (.turn i time)).after (machine m) later) i text
        ledger.line.next) ∧
    -- One text at most is delivered at any moment, in the order of the tickets, and none after a
    -- stop that was asked for before it.
    (e.tasks.Pairwise fun t u => t.delivers = false ∨ u.delivers = false) ∧
    Entry.InTurn ledger.journal ∧
    -- Whoever has not returned when all are told to stop does so in the next round, at once, and
    -- in any case before time passes.
    (∀ event, e.begun? event = some .stop →
      let h := e.step (machine m) event
      h.world.ledger.journal = ledger.journal ++ [.stops] ∧
      ∀ i since text s, h.voices[i]? = some (.running since (.speaking text s)) →
        ∃ ticket, s.phase.ticket? = some ticket ∧
          h.next? (machine m) = some (h.round (machine m) h.now) ∧
          Returned (h.round (machine m) h.now) i since h.now text ticket ∧
          ∀ later, Prompt (machine m) h later →
            ((h.after (machine m) later).voices[i]? = some (.running since (.speaking text s)) ∧
              (h.after (machine m) later).now = h.now) ∨
            Returned (h.after (machine m) later) i since h.now text ticket) ∧
    -- What a call returns tells what became of its text.
    (∀ text s, .speaking text s ∈ e.tasks →
      ((∃ ticket, s = .over ticket .skipped) ↔ Text.trimmed? text = none) ∧
      (∀ ticket, s = .over ticket .completed → ∃ t, ticket = some t ∧
        Entry.about t ledger.journal = [.asks t, .begins t, .ends t]) ∧
      (∀ ticket, s = .over ticket .cancelled → ∃ t, ticket = some t ∧
        (Entry.about t ledger.journal = [.asks t, .cancels t] ∨
          Entry.about t ledger.journal = [.asks t, .begins t, .cancels t]) ∧
        [.asks t, .stops, .cancels t].Sublist ledger.journal)) ∧
    -- The narrator is such a booth.
    ∀ q : Equipment, (alone start (Narrator.ofEquipment q coins)).after Narrator.machine events =
      ((alone start (ofWorld ⟨[], 0⟩ coins)).after (machine q.studio.means) events).carry 0
        (narrator q) Task.narrated := by
  intro e ledger
  have hkept : e.world.Kept e.tasks := kept_after m w coins start events
  refine ⟨hkept.orderly.asked, ?_, ?_, hkept.pairwise, hkept.orderly.inTurn, ?_, ?_,
    fun q => after_narrated q coins start events⟩
  · have htickets := hkept.orderly.tickets
    rwa [List.filterMap_filterMap] at htickets
  · intro i time text hbegun
    refine ⟨fun htext => ?_, fun later => holds_after (holds_of_begun hbegun) later⟩
    rw [(step_of_begun (m := machine m) hbegun).1]
    simp only [start_speak]
    exact prefix_speak m e.world _ htext
  · intro event hstop
    refine ⟨congrArg (·.ledger.journal) (step_of_begun (m := machine m) hstop).1, ?_⟩
    intro i since text s hv
    obtain ⟨turn, hturn, hstale⟩ := stale_of_stop rfl hstop hv
    obtain ⟨hnext, hreturned⟩ := returned_next m hv hturn hstale
    exact ⟨turn.ticket, Phase.ticket?_of_turn? hturn, hnext, hreturned,
      returned_after hv hturn hstale⟩
  · intro text s hs
    refine ⟨hkept.skipped_iff hs, ?_, ?_⟩
    · rintro ticket rfl
      exact hkept.ended hs nofun
    · rintro ticket rfl
      exact hkept.ended hs nofun

end Booth

end Storyboard
