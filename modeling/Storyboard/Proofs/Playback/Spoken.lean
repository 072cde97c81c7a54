import Storyboard.Proofs.Playback.Course
import Storyboard.Proofs.Playback.Minutes

/-! # What the narrator is asked to speak

    Whatever calls are made, the narrator is asked for the narrations of some
    of the steps that are performed, in their order, of each once at most, and
    right after its commands are through (`Recited`). Only calls to play and to
    step ask it for anything (`Aloof.quiet`). A call to play that nobody
    interrupts leaves out none of the steps that were to come
    (`exists_unabridged`). That is how it is whatever calls are made
    (`spoken_after`).

    As with the steps themselves, a call to play asks for nothing at all where
    the player only says that it is playing (`play_asks_nothing`). -/

namespace Storyboard

open Ensemble

/-- The texts that the narrator is asked to speak are the narrations of some of the steps that
    begin. -/
structure Recited (log : List Remark) : Prop where
  /-- They come in the order of the steps, one at most of each. -/
  steps : ∃ heard : List Step, heard.Sublist (log.filterMap Remark.step?) ∧
    heard.map Step.spoken? = (log.filterMap Remark.text?).map some
  /-- Each comes right after the commands of its step, when the cursor has moved on. -/
  behind : ∀ before text cursor epoch after,
    log = before ++ .follows (some text) cursor epoch :: after →
      ∃ earlier place step begun narration,
        before = earlier ++ [.begins place step begun, .through place] ∧ cursor = place + 1 ∧
        step.narration = some narration ∧ Text.trim narration = text ∧ text ≠ ""
  /-- None comes while the stage is rebuilt. -/
  rebuilt : ∀ before timeline after, log = before ++ .clears timeline :: after →
    after = [] ∨ ∃ place rest, after = .rebuilt place :: rest

/-- Of all that was to come at a moment since, when a step of a timeline was next, the narrator was
    asked for every text, unless the stage was cleared after that. -/
def Unabridged (timeline : Timeline) (before since : List Remark) : Prop :=
  ∀ past more timeline' next, since = past ++ more →
    Moment.first.Leads (before ++ past) ⟨timeline', .idle next⟩ →
    (∀ timeline'', .clears timeline'' ∉ more) →
    more.filterMap Remark.text? = (timeline.steps.drop next).filterMap Step.spoken?

/-- What can be read is recited. -/
theorem Moment.Leads.recited {log : List Remark} {m : Moment} (h : first.Leads log m) :
    Recited log where
  steps := h.exists_heard
  behind := by
    rintro before text cursor epoch after rfl
    obtain ⟨earlier, place, step, begun, hbefore, hcursor, hspoken⟩ := leads_follows h
    obtain ⟨narration, hnarration, htrim, hsome⟩ := Step.spoken?_eq_some.1 hspoken
    exact ⟨earlier, place, step, begun, narration, hbefore, hcursor, hnarration, htrim, hsome⟩
  rebuilt := by
    rintro before timeline after rfl
    exact leads_clears h

namespace Player

variable {p q : Player} {t u : Task} {log more : List Remark} {now epoch start time i : Nat}
  {e : Ensemble Player Call Task} {event : Event Call} {events later : List (Event Call)}
  {equipment : Narration.Equipment} {tosses coins : List Bool}

/-! ### Calls that ask for nothing -/

/-- A call that is in no epoch never will be. -/
theorem Steers.epoch?_eq_none {deeds : List Deed} (h : Steers p t deeds q u)
    (ht : t.epoch? = none) : u.epoch? = none := by
  rw [Option.eq_none_iff_forall_ne_some]
  intro epoch hepoch
  rw [h.origin hepoch] at ht
  cases ht

/-- So it asks for nothing. -/
theorem Notes.quiet (h : Notes now p t log q u) (ht : t.epoch? = none) :
    log.filterMap Remark.text? = [] := by
  induction h with
  | refl => rfl
  | head hfirst _ ih =>
    rw [List.filterMap_append, text?_remarks, remark?_of_epoch? ht,
      ih (hfirst.steers.epoch?_eq_none ht)]
    rfl

/-- The call at a place neither plays nor steps, or it has returned. -/
def Aloof (e : Ensemble Player Call Task) (i : Nat) : Prop :=
  (∃ since t, e.voices[i]? = some (.running since t) ∧ t.epoch? = none) ∨
    ∃ since stop t w, e.voices[i]? = some (.done since stop t w)

theorem aloof_of_settle {start : Nat} {x : Player × Task}
    (hv : e.voices[i]? = some (Voice.settle machine now start x).2) (hx : x.2.epoch? = none) :
    Aloof e i := by
  obtain ⟨q, u⟩ := x
  by_cases hover : u.isOver = true
  · exact .inr ⟨start, now, u, q, hv.trans (congrArg some (if_pos hover))⟩
  · exact .inl ⟨start, u, hv.trans (congrArg some (if_neg hover)), hx⟩

/-- Whatever happens, it stays so. -/
theorem Aloof.step (h : Aloof e i) (hrests : AllRest e.inFlight) (event : Event Call) :
    Aloof (e.step machine event) i := by
  rcases h with ⟨since, t, ht, hepoch⟩ | ⟨since, stop, t, w, ht⟩
  · rcases voice_step_of_running (m := machine) ht event with hsame | ⟨hresumed, hv⟩
    · exact .inl ⟨since, t, hsame, hepoch⟩
    · -- It may return in its own turn, but no move leads it into an epoch.
      have hopen := (hrests t (mem_inFlight (List.mem_of_getElem? ht))).2
      obtain ⟨_, n, deeds, _, hmoves⟩ := comes_resume e.world (e.step machine event).now hopen
      exact aloof_of_settle hv ((steers_of_moves hmoves).epoch?_eq_none hepoch)
  · exact .inr ⟨since, stop, t, w, step_of_done ht event⟩

/-- It asks for nothing in its turns. -/
theorem Aloof.quiet (h : Aloof e i) (hnoted : Noted e (.turn i time) log) :
    log.filterMap Remark.text? = [] := by
  cases hnoted with
  | begun hbegun hnotes =>
    unfold begun? at hbegun
    rcases h with ⟨since, t, ht, _⟩ | ⟨since, stop, t, w, ht⟩
    · simp only [ht] at hbegun
      cases hbegun
    · simp only [ht] at hbegun
      cases hbegun
  | resumed hresumed hnotes =>
    unfold resumed? at hresumed
    rcases h with ⟨since, t, ht, hepoch⟩ | ⟨since, stop, t, w, ht⟩
    · simp only [ht] at hresumed
      obtain rfl := Option.some.inj hresumed
      exact hnotes.quiet hepoch
    · simp only [ht] at hresumed
      cases hresumed
  | idle _ _ => rfl

/-- A call begins that neither plays nor steps. -/
theorem aloof_of_begun {call : Call} (hbegun : e.begun? (.turn i time) = some call)
    (hplay : call ≠ .play) (hstep : call ≠ .stepForward) :
    (∀ log, Noted e (.turn i time) log → log.filterMap Remark.text? = []) ∧
      Aloof (e.step machine (.turn i time)) i := by
  -- Only to play and to step is to be in an epoch.
  have hnone : (e.world.enter call).2.epoch? = none := by
    rw [Option.eq_none_iff_forall_ne_some]
    intro epoch hepoch
    rcases ((e.world.entered call).epochs.2.2.1 epoch hepoch).2 with heq | heq
    · exact hplay heq
    · exact hstep heq
  constructor
  · intro log hnoted
    cases hnoted with
    | begun hbegun' hnotes =>
      obtain rfl := Option.some.inj (hbegun.symm.trans hbegun')
      exact hnotes.quiet hnone
    | resumed hresumed _ =>
      rw [resumed?_of_begun hbegun] at hresumed
      cases hresumed
    | idle _ _ => rfl
  · obtain ⟨_, n, deeds, _, hmoves⟩ :=
      comes_start e.world (e.step machine (.turn i time)).now call
    exact aloof_of_settle (voice_step_of_begun hbegun)
      ((steers_of_moves hmoves).epoch?_eq_none hnone)

theorem Aloof.after (h : Aloof e i) (hplayed : Played equipment tosses coins e)
    (later : List (Event Call)) : Aloof (e.after machine later) i := by
  induction later using List.reverseRecOn with
  | nil => exact h
  | append_singleton later event ih =>
    rw [after_append]
    exact ih.step (hplayed.after later).rests event

/-! ### Calls that play -/

/-- Nothing is remarked of a call that has returned. -/
theorem Notes.eq_nil (h : Notes now p t log q u) (ht : t.isOver = true) : log = [] := by
  cases h with
  | refl => rfl
  | head hfirst _ => cases hfirst <;> cases ht

/-- So it is with a call to play where the player says that it is playing. -/
theorem noted_of_playing (hbegun : e.begun? (.turn i time) = some .play)
    (hplaying : e.world.playing = true) (hnoted : Noted e (.turn i time) log) : log = [] := by
  -- It has returned before it makes a move.
  have henter : e.world.enter .play = (e.world, .over (some .empty)) := if_pos hplaying
  cases hnoted with
  | begun hbegun' hnotes =>
    obtain rfl := Option.some.inj (hbegun.symm.trans hbegun')
    refine hnotes.eq_nil ?_
    rw [henter]
    rfl
  | resumed hresumed _ =>
    rw [resumed?_of_begun hbegun] at hresumed
    cases hresumed
  | idle _ _ => rfl

/-- The epoch never goes back, so where it is the same in the end it was so in between. -/
theorem epoch_between (hplayed : Played equipment tosses coins e) {first rest : List (Event Call)}
    (hsame : (e.after machine (first ++ rest)).world.epoch = e.world.epoch) :
    (e.after machine first).world.epoch = e.world.epoch := by
  have hgrows := epoch_le_after hplayed first
  have hgrows' := epoch_le_after (hplayed.after first) rest
  rw [← after_append, hsame] at hgrows'
  exact Nat.le_antisymm hgrows' hgrows

/-- Where the epoch stays the same after every event, everything is remarked in it. -/
theorem Minutes.epoch_eq (h : Minutes e events log)
    (hsame : ∀ before event, before ++ [event] <+: events →
      (e.after machine (before ++ [event])).world.epoch = epoch) :
    ∀ r ∈ log, ∀ epoch', r.epoch? = some epoch' → epoch' = epoch := by
  induction h with
  | nil => exact fun _ hr => nomatch hr
  | @snoc events event log more _ hmore ih =>
    intro r hr epoch' hepoch
    rcases List.mem_append.1 hr with hr | hr
    · apply ih _ r hr epoch' hepoch
      intro before last hinit
      exact hsame before last (List.IsPrefix.trans hinit (List.prefix_append _ _))
    · rw [hmore.epoch_eq hr epoch' hepoch, ← hsame events event List.prefix_rfl, after_append]
      rfl

/-- So it is in whatever follows an event and leaves the epoch as it was then. -/
theorem Minutes.epoch_eq_of_same {first : List (Event Call)}
    (hplayed : Played equipment tosses coins e) (h : Minutes e (event :: first) log)
    (hsame : ((e.step machine event).after machine first).world.epoch =
      (e.step machine event).world.epoch) :
    ∀ r ∈ log, ∀ epoch, r.epoch? = some epoch → epoch = (e.step machine event).world.epoch := by
  apply h.epoch_eq
  intro before last hinit
  obtain ⟨behind, hbehind⟩ := hinit
  cases before with
  | nil =>
    obtain ⟨rfl, _⟩ := List.cons.inj hbehind
    rfl
  | cons head before =>
    -- Up to the last event it is one of those in between.
    obtain ⟨rfl, hfirst⟩ := List.cons.inj hbehind
    have hfirst : before ++ [last] ++ behind = first := hfirst
    rw [← hfirst] at hsame
    exact epoch_between (hplayed.step head) hsame

/-- Where there are no more steps, the narrator was asked for all that was to come at a moment,
    unless an epoch lapsed or the stage was cleared since. -/
theorem recites_rest {f : Ensemble Player Call Task} {past : List Remark} {timeline : Timeline}
    {next : Nat} (hf : (alone start (fresh equipment tosses coins)).after machine events = f)
    (hexhausted : f.world.Exhausted f.inFlight)
    (hlog : Minutes (alone start (fresh equipment tosses coins)) events (past ++ more))
    (hpast : Moment.first.Leads past ⟨timeline, .idle next⟩)
    (hmore : ∀ r ∈ more, r.Within epoch) :
    more.filterMap Remark.text? = (f.world.timeline.steps.drop next).filterMap Step.spoken? := by
  obtain ⟨m, hleads, hagrees⟩ : ∃ m, Moment.first.Leads (past ++ more) m ∧
      f.world.Agrees f.inFlight m := hf ▸ leads_minutes _ coins hlog
  -- There is only one moment to which the past leads.
  obtain ⟨mid, hmid, hrest⟩ := Moment.exists_leads_of_append hleads
  obtain rfl := hmid.unique hpast
  obtain ⟨htimeline, howed⟩ := hrest.owed trivial hmore
  -- Nothing is left to be asked for in the end.
  have hnothing : m.owed = [] := by
    obtain ⟨hplace, hothers⟩ := hexhausted
    unfold Moment.owed
    rw [hagrees.idle fun u hu => passage?_of_stretch? (hothers u hu _), hagrees.timeline, hplace]
    show (List.drop f.world.timeline.steps.length _).filterMap Step.spoken? = []
    rw [List.drop_length]
    rfl
  rw [hnothing, List.append_nil] at howed
  rw [← hagrees.timeline, htimeline, ← howed]
  rfl

/-- Where there are no more steps and the epoch is still that after an event, the minutes since that
    event are unabridged. -/
theorem exists_unabridged {first : List (Event Call)}
    (he : (alone start (fresh equipment tosses coins)).after machine events = e)
    (hsame : ((e.step machine event).after machine first).world.epoch =
      (e.step machine event).world.epoch)
    (hexhausted : ((e.step machine event).after machine first).world.Exhausted
      ((e.step machine event).after machine first).inFlight)
    (hlog : Minutes (alone start (fresh equipment tosses coins)) (events ++ event :: first) log) :
    ∃ before since, log = before ++ since ∧
      Minutes (alone start (fresh equipment tosses coins)) events before ∧
      Minutes e (event :: first) since ∧
      Unabridged ((e.step machine event).after machine first).world.timeline before since := by
  subst he
  have hplayed : Played equipment tosses coins
      ((alone start (fresh equipment tosses coins)).after machine events) := ⟨start, events, rfl⟩
  obtain ⟨before, since, rfl, hbefore, hsince⟩ := hlog.split rfl
  refine ⟨before, since, rfl, hbefore, hsince, ?_⟩
  -- The epoch is the same all along, so nobody cleared the stage in between, and what was begun
  -- since is recited to the end.
  intro past more timeline next hsplit hpast hclears
  have hepoch := hsince.epoch_eq_of_same hplayed hsame
  have hwithin : ∀ r ∈ more, r.Within (((alone start (fresh equipment tosses coins)).after machine
      events).step machine event).world.epoch := by
    intro r hr
    refine ⟨hepoch r (hsplit ▸ List.mem_append_right _ hr), ?_⟩
    intro timeline' hr'
    exact hclears timeline' (hr' ▸ hr)
  rw [hsplit, ← List.append_assoc] at hlog
  exact recites_rest (after_append events _) hexhausted hlog hpast hwithin

/-! ### What is asked for -/

/-- Whatever calls were made and however they took turns: the narrator was asked for the narrations
    of some of the steps that were performed, in their order, of each once at most and right after
    its commands. To be asked for a text is to speak it, and to give out the ticket with its number
    for it. A call that neither plays nor steps asked it for nothing. A call to play returns at once
    where the player says that it is playing, be it because somebody plays or because a call overran
    and none halted the player since. Everywhere else it returns, if nobody interrupts it, once the
    narrator was asked for all that was to come. -/
theorem spoken_after (equipment : Narration.Equipment) (tosses coins : List Bool) (start : Nat)
    (events : List (Event Call)) :
    let alone : Ensemble Player Call Task :=
      Ensemble.alone start (fresh equipment tosses coins)
    let e : Ensemble Player Call Task := alone.after machine events
    (∃ log, Minutes alone events log) ∧
    (∀ log, Minutes alone events log → Account alone events (log.filterMap Remark.deed?) ∧
      Recited log ∧ e.world.Numbered e.inFlight log) ∧
    (∀ now p t deeds q u text, Move now p t deeds q u →
      text ∈ (t.remarks p deeds q).filterMap Remark.text? →
      let x : Narrator × Speech := p.narrator.speak now text
      q.narrator = x.1 ∨ q.narrator = x.1.abandon x.2) ∧
    (∀ i time call, e.begun? (.turn i time) = some call → call ≠ .play → call ≠ .stepForward →
      (∀ log, Noted e (.turn i time) log → log.filterMap Remark.text? = []) ∧
      ∀ later time' log, Noted ((e.step machine (.turn i time)).after machine later)
        (.turn i time') log → log.filterMap Remark.text? = []) ∧
    ∀ i time, e.begun? (.turn i time) = some .play →
      let h : Ensemble Player Call Task := e.step machine (.turn i time)
      (e.world.status = .playing →
        (h.world = e.world ∧
          h.voices[i]? = some (.done h.now h.now (.over (some .empty)) e.world) ∧
          ∀ log, Noted e (.turn i time) log → log = []) ∧
        (e.world.Deserted e.inFlight → Strayed alone events)) ∧
      (e.world.status ≠ .playing →
        (h.AllBegun → ∃ rounds later since stop t w,
          h.run machine rounds = h.after machine later ∧
          (h.after machine later).world.epoch = h.world.epoch ∧
          (h.after machine later).voices[i]? = some (.done since stop t w)) ∧
        ∀ later, (h.after machine later).world.epoch = h.world.epoch →
          ∀ (since stop : Nat) (t : Task) (w : Player),
            (h.after machine later).voices[i]? = some (.done since stop t w) →
            ∃ first rest, later = first ++ rest ∧ w = (h.after machine first).world ∧
              ∀ log, Minutes alone (events ++ .turn i time :: first) log →
                ∃ before since, log = before ++ since ∧ Minutes alone events before ∧
                  Minutes e (.turn i time :: first) since ∧
                  Unabridged w.timeline before since) := by
  intro alone e
  have hplayed : Played equipment tosses coins e := ⟨start, events, rfl⟩
  refine ⟨exists_minutes _ start events, fun log hminutes => ⟨hminutes.account, ?_, ?_⟩,
    fun now p t deeds q u text hmove htext => ?_, fun i time call hbegun hplay hstep => ?_,
    fun i time hbegun => ?_⟩
  · obtain ⟨m, hlog, _⟩ := leads_minutes _ coins hminutes
    exact hlog.recited
  · exact numbered_minutes rfl hminutes
  · rw [text?_remarks] at htext
    exact hmove.asks (Option.mem_toList.1 htext)
  · obtain ⟨hfirst, haloof⟩ := aloof_of_begun hbegun hplay hstep
    refine ⟨hfirst, fun later time' log hnoted => ?_⟩
    exact (haloof.after (hplayed.step _) later).quiet hnoted
  · intro h
    refine ⟨fun hstatus => ?_, fun hstatus => ?_⟩
    · have hplaying := status_eq_playing_iff.1 hstatus
      obtain ⟨hworld, hvoice⟩ := voice_of_playing hbegun hplaying
      refine ⟨⟨hworld, hvoice, fun log => noted_of_playing hbegun hplaying⟩, fun hdeserted => ?_⟩
      exact (stuck_after_iff _ coins start events).1 ⟨hplaying, hdeserted⟩
    · have hidle : e.world.playing = false := by
        rw [Bool.eq_false_iff]
        exact fun hplaying => hstatus (status_eq_playing_iff.2 hplaying)
      have hplayed' : Played equipment tosses coins h := hplayed.step _
      have hplays : PlaysOn h i := playsOn_of_begun hplayed hbegun hidle
      refine ⟨exists_return hplayed' hplays, fun later hsame since stop t w hdone => ?_⟩
      rcases plays_after hplayed' hplays later hsame with
        ⟨since', t', ht', _⟩ | ⟨first, rest, since', stop', t', hlater, ht', hend⟩
      · rw [ht'] at hdone
        cases hdone
      · rw [ht'] at hdone
        cases hdone
        -- No new epoch began before the call returned.
        rw [hlater] at hsame
        have hkept := epoch_between hplayed' hsame
        exact ⟨first, rest, hlater, rfl, fun log hlog => exists_unabridged rfl hkept hend hlog⟩

/-- A timeline of one step with a narration is at its end, and to play it once more is halted while
    the stage is rebuilt. All calls have returned then. One more call to play is the only one, and it
    returns at once: the step is still to come, and the narrator was never asked for anything. -/
theorem play_asks_nothing :
    let node : Json := .obj [("command", .str "CREATE_NODE"), ("id", .str "a"),
      ("position", .obj [("x", .int 0), ("y", .int 0)])]
    let e := (Ensemble.alone 0 (fresh .usual [] [])).after machine
      [.join 0 (.load ⟨[node], [⟨[], some "Here it is.", none⟩]⟩), .turn 0 0, .turn 0 0,
        .join 0 (.seek 1), .turn 1 0, .turn 1 0,
        .join 0 .play, .turn 2 0, .join 0 .pause, .turn 3 0, .turn 2 0]
    let h := e.after machine [.join 5000 .play, .turn 4 5000]
    e.inFlight.isEmpty ∧ h.inFlight.isEmpty ∧ h.voices.length = 5 ∧
      h.world.epoch = e.world.epoch ∧
      h.world.timeline.steps[h.world.cursor]?.bind Step.spoken? = some "Here it is." ∧
      h.world.narrator.line.next = 0 := by
  decide +kernel

end Player

end Storyboard
