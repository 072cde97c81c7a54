import Storyboard.Proofs.Playback.Handover
import Storyboard.Proofs.Playback.Remark

/-! # Minutes

    Minutes tell, event by event, what is remarked of the moves of which each
    turn comes (`Noted`). There are minutes of every list of events
    (`exists_minutes`), they hold an account (`Minutes.account`), and what every
    move keeps, together with its remarks, holds of them (`minutes_induction`).

    So what is remarked leads to what the calls under way are at
    (`leads_minutes`). The narrator is asked to speak the texts that are
    remarked (`Move.asks`); it has given out one ticket for each of them, and
    whoever has a ticket has the text of that number (`numbered_minutes`). -/

namespace Storyboard

/-- What goes on with a step under way that was asked for in an epoch. -/
def Advance.passage? (cursor epoch : Nat) : Advance → Option Passage
  | .performing _ place step _ => some (.performing place step epoch)
  | .trailing _ step _ .ahead => some (.through cursor step epoch)
  | .trailing .. => some (.trailing cursor)
  | _ => none

/-- What goes on with a rebuilding under way. -/
def Rebuild.passage? : Rebuild → Option Passage
  | .performing .. => some .rebuilding
  | .over _ => none

namespace Player

open Ensemble

variable {p q : Player} {t u : Task} {ts : List Task} {a b : Advance} {deeds : List Deed}
  {log more : List Remark} {n now start epoch place : Nat}
  {e : Ensemble Player Call Task} {event : Event Call} {events : List (Event Call)}

/-! ### What is remarked -/

/-- Of a deed, with the player after it. -/
def remark? (q : Player) : Deed → Option Remark
  | .begins place => q.timeline.steps[place]?.map fun step => .begins place step q.epoch
  | .through place => some (.through place)
  | .ends lapsed => some (.ends lapsed)
  | .clears => some (.clears q.timeline)
  | .rebuilt place => some (.rebuilt place)

/-- What the narrator is asked to speak when the commands of a step are through: what there is to
    speak as long as the epoch lasts. Else a coin decides. -/
def asks? (p : Player) (epoch : Nat) (step : Step) : Option String :=
  if p.isCurrent epoch || p.toss.2 then step.spoken? else none

/-- Of a step that goes on with what follows its commands. -/
def followRemark? (p : Player) (epoch : Nat) : Advance → Option Remark
  | .trailing _ step _ .ahead => some (.follows (p.asks? epoch step) p.cursor p.epoch)
  | _ => none

/-- Of a call that does. -/
def Task.remark? (p : Player) (t : Task) : Option Remark :=
  t.advance?.bind fun x => p.followRemark? x.1 x.2

/-- Of a move of a call. -/
def Task.remarks (p : Player) (t : Task) (deeds : List Deed) (q : Player) : List Remark :=
  (t.remark? p).toList ++ deeds.filterMap q.remark?

/-- What is remarked besides is no deed. -/
theorem deed?_remark? (p : Player) (t : Task) : (t.remark? p).bind Remark.deed? = none := by
  have hfollow : ∀ epoch a, (p.followRemark? epoch a).bind Remark.deed? = none := by
    intro epoch a
    cases a with
    | trailing ticket step report tail => cases tail <;> rfl
    | _ => rfl
  unfold Task.remark?
  cases t.advance? with
  | none => rfl
  | some x => exact hfollow x.1 x.2

/-- A step that begins is in the timeline. -/
theorem Strides.exists_step (h : Strides epoch now p a deeds q b) (hplace : .begins place ∈ deeds) :
    ∃ step, q.timeline.steps[place]? = some step := by
  cases h with
  | @begin ticket step hleads hcurrent hstep =>
    cases List.mem_singleton.1 hplace
    exact ⟨step, hstep⟩
  | proceed hover => cases List.mem_singleton.1 hplace
  | finish => cases List.mem_singleton.1 hplace
  | _ => cases hplace

theorem Move.exists_step (h : Move now p t deeds q u) (hplace : .begins place ∈ deeds) :
    ∃ step, q.timeline.steps[place]? = some step := by
  have hrebuild : ∀ (q : Player) (r : Rebuild), .begins place ∉ .clears :: r.deeds q := by
    intro q r
    cases r <;> simp [Rebuild.deeds]
  cases h with
  | rewind hleads => exact absurd hplace (hrebuild _ _)
  | wrap hleads hcurrent => exact absurd hplace (hrebuild _ _)
  | rebuild hready hr => exact absurd (List.mem_cons_of_mem _ hplace) (hrebuild _ _)
  | rewrap hready hr => exact absurd (List.mem_cons_of_mem _ hplace) (hrebuild _ _)
  | play h => exact h.exists_step hplace
  | step h => exact h.exists_step hplace
  | _ => cases hplace

/-- The remarks of a move tell its deeds. -/
theorem Move.deeds_remarks (h : Move now p t deeds q u) :
    (t.remarks p deeds q).filterMap Remark.deed? = deeds := by
  have hdeeds : ∀ d ∈ deeds, (q.remark? d).bind Remark.deed? = some d := by
    intro d hd
    cases d with
    | begins place =>
      obtain ⟨step, hstep⟩ := h.exists_step hd
      unfold remark?
      dsimp only
      rw [hstep]
      rfl
    | _ => rfl
  have hnone := deed?_remark? p t
  unfold Task.remarks
  rw [List.filterMap_append, List.filterMap_filterMap, List.filterMap_congr hdeeds,
    List.filterMap_some]
  cases hr : t.remark? p with
  | none => rfl
  | some r =>
    rw [hr] at hnone
    have hr : r.deed? = none := hnone
    rw [Option.toList_some, List.filterMap_cons_none hr]
    rfl

/-- Whatever is remarked is remarked in the epoch of the player. -/
theorem Move.epoch_remarks (h : Move now p t deeds q u) {r : Remark}
    (hr : r ∈ t.remarks p deeds q) : ∀ epoch, r.epoch? = some epoch → epoch = q.epoch := by
  intro epoch hepoch
  rcases List.mem_append.1 hr with hr | hr
  · obtain ⟨⟨_, a⟩, _, hfollow⟩ := Option.bind_eq_some_iff.1 (Option.mem_toList.1 hr)
    rw [h.steers.same]
    cases a with
    | trailing ticket step report tail =>
      cases tail with
      | ahead =>
        obtain rfl := Option.some.inj hfollow
        exact (Option.some.inj hepoch).symm
      | _ => cases hfollow
    | _ => cases hfollow
  · obtain ⟨d, _, hd⟩ := List.mem_filterMap.1 hr
    cases d with
    | begins place =>
      obtain ⟨step, _, rfl⟩ := Option.map_eq_some_iff.1 hd
      exact (Option.some.inj hepoch).symm
    | _ =>
      obtain rfl := Option.some.inj hd
      cases hepoch

/-- Only who goes on with what follows the commands of a step asks the narrator for something. -/
theorem text?_remarks (p : Player) (t : Task) (deeds : List Deed) (q : Player) :
    (t.remarks p deeds q).filterMap Remark.text? =
      ((t.remark? p).bind Remark.text?).toList := by
  have hdeeds : (deeds.filterMap q.remark?).filterMap Remark.text? = [] := by
    rw [List.filterMap_filterMap, List.filterMap_eq_nil_iff]
    intro d _
    cases d with
    | begins place =>
      show (Option.map _ _).bind Remark.text? = none
      cases q.timeline.steps[place]? <;> rfl
    | _ => rfl
  unfold Task.remarks
  rw [List.filterMap_append, hdeeds, List.append_nil]
  cases t.remark? p with
  | none => rfl
  | some r =>
    show [r].filterMap Remark.text? = r.text?.toList
    rw [List.filterMap_cons]
    cases r.text? <;> rfl

/-- Nobody does who neither plays nor steps. -/
theorem remark?_of_epoch? (h : t.epoch? = none) : t.remark? p = none := by
  cases t with
  | playing epoch report a => cases h
  | stepping epoch a => cases h
  | _ => rfl

/-! ### What it leads to -/

/-- What goes on with a call under way. -/
def Task.passage? (cursor : Nat) : Task → Option Passage
  | .rebuilding _ r => r.passage?
  | .rewrapping _ _ r => r.passage?
  | .playing epoch _ a => a.passage? cursor epoch
  | .stepping epoch a => a.passage? cursor epoch
  | _ => none

/-- What goes on when nobody else is at anything. -/
def Task.moment (p : Player) (t : Task) : Moment :=
  ⟨p.timeline, (t.passage? p.cursor).getD (.idle p.cursor)⟩

/-- Who does nothing on the stage is at nothing. -/
theorem passage?_of_stretch? {cursor : Nat} (h : t.stretch? cursor = none) :
    t.passage? cursor = none := by
  have hadvance : ∀ (a : Advance) epoch,
      a.stretch? cursor = none → a.passage? cursor epoch = none := by
    intro a epoch h
    cases a with
    | performing ticket place step perf => cases h
    | trailing ticket step report tail => cases h
    | _ => rfl
  have hrebuild : ∀ r : Rebuild, r.stretch? = none → r.passage? = none := by
    intro r h
    cases r with
    | performing goal perf rest report => cases h
    | «over» report => rfl
  cases t with
  | rebuilding ticket r => exact hrebuild r h
  | rewrapping ticket epoch r => exact hrebuild r h
  | playing epoch report a => exact hadvance a epoch h
  | stepping epoch a => exact hadvance a epoch h
  | _ => rfl

theorem restaged_resumeRebuild (p : Player) (now : Nat) (r : Rebuild) :
    p.Restaged (p.resumeRebuild now r).1 := by
  cases r with
  | «over» report => exact ⟨_, _, rfl⟩
  | performing goal perf rest report =>
    unfold resumeRebuild
    dsimp only
    split
    · obtain ⟨stage, cursor, h⟩ := restaged_performLists
        { p with stage := (perf.resume now p.stage).1 } now goal
        (report.merge (perf.resume now p.stage).2.report) rest
      exact ⟨stage, cursor, h⟩
    · exact ⟨_, _, rfl⟩

/-- A step that is asked for goes from one moment to the next. -/
theorem Strides.leads (h : Strides epoch now p a deeds q b) :
    Moment.Leads ⟨p.timeline, (a.passage? p.cursor epoch).getD (.idle p.cursor)⟩
      ((p.followRemark? epoch a).toList ++ deeds.filterMap q.remark?)
      ⟨q.timeline, (b.passage? q.cursor epoch).getD (.idle q.cursor)⟩ := by
  cases h with
  | @begin ticket step hleads hcurrent hstep =>
    have hremark : ∀ stage, remark? { p with stage } (.begins p.cursor) =
        some (.begins p.cursor step epoch) := by
      intro stage
      show p.timeline.steps[p.cursor]?.map _ = _
      rw [hstep]
      show some (Remark.begins p.cursor step p.epoch) = _
      rw [hcurrent]
    rw [List.filterMap_cons_some (hremark _)]
    exact .cons (.begins hstep) .nil
  | pass hleads hnone => exact .nil
  | perform hready => exact .nil
  | proceed hover => exact .cons .through .nil
  | @follow ticket step report tail htail hready =>
    obtain ⟨narrator, coins, hfollow⟩ := narrated_follow p epoch now step tail
    -- However far it came, it has begun.
    have hbehind : ((Advance.trailing ticket step report
        (p.follow epoch now step tail).2).passage? p.cursor epoch) = some (.trailing p.cursor) := by
      rcases rests_follow p epoch now step htail with hover | hrests
      · rw [hover]
        rfl
      · cases htail' : (p.follow epoch now step tail).2 with
        | ahead =>
          rw [htail'] at hrests
          exact hrests.elim
        | _ => rfl
    rw [hfollow, hbehind]
    rcases htail with rfl | hrests
    · -- What is to be spoken is asked for now or, once the epoch is over, perhaps never.
      refine .cons (.follows ?_) .nil
      unfold asks?
      cases hlasts : p.isCurrent epoch with
      | true => exact .inl rfl
      | false =>
        have hlapsed : p.epoch ≠ epoch := beq_eq_false_iff_ne.1 hlasts
        cases p.toss.2 with
        | true => exact .inl rfl
        | false => exact .inr ⟨rfl, hlapsed⟩
    · cases tail with
      | ahead => exact hrests.elim
      | _ => exact .nil
  | finish => exact .cons .ends .nil

/-- So does a call. -/
theorem Move.leads (h : Move now p t deeds q u) :
    (t.moment p).Leads (t.remarks p deeds q) (u.moment q) := by
  -- A rebuilding that is over at once leads on to its place, and one that is not leads to itself.
  -- A remark is made of the former only.
  have hrebuild : ∀ (q : Player) (r : Rebuild), Moment.Leads ⟨q.timeline, .rebuilding⟩
      ((r.deeds q).filterMap q.remark?) ⟨q.timeline, r.passage?.getD (.idle q.cursor)⟩ := by
    intro q r
    cases r with
    | performing goal perf rest report => exact .nil
    | «over» report => exact .cons .rebuilt .nil
  have hresume : ∀ {q : Player} {r r' : Rebuild}, p.resumeRebuild now r = (q, r') →
      q.timeline = p.timeline := by
    intro q r r' hr
    obtain ⟨stage, cursor, hsame⟩ := p.restaged_resumeRebuild now r
    rw [hr] at hsame
    have hsame : q = _ := hsame
    rw [hsame]
  cases h with
  | rewind hleads => exact .cons .clears (hrebuild _ _)
  | wrap hleads hcurrent => exact .cons .clears (hrebuild _ _)
  | rebuild hready hr =>
    show Moment.Leads ⟨p.timeline, .rebuilding⟩ _ _
    rw [← hresume hr]
    exact hrebuild _ _
  | rewrap hready hr =>
    show Moment.Leads ⟨p.timeline, .rebuilding⟩ _ _
    rw [← hresume hr]
    exact hrebuild _ _
  | play h => exact h.leads
  | step h => exact h.leads
  | @finish epoch report =>
    obtain ⟨hcursor, htimeline, _⟩ := p.finishPlay_same epoch report
    show Moment.Leads ⟨p.timeline, .idle p.cursor⟩ []
      ⟨(p.finishPlay epoch report).1.timeline, .idle (p.finishPlay epoch report).1.cursor⟩
    rw [hcursor, htimeline]
    exact .nil
  | _ => exact .nil

/-! ### What the narrator is asked -/

/-- What a tail asks the narrator to speak when it goes on. -/
def tailAsks? (step : Step) : Tail → Option String
  | .ahead => step.spoken?
  | _ => none

/-- It takes a ticket for that, and none for anything else. -/
theorem next_resumeTail (p : Player) (now : Nat) (step : Step) (tail : Tail) :
    (p.resumeTail now step tail).1.narrator.line.next =
      p.narrator.line.next + (tailAsks? step tail).toList.length := by
  have hsettle : ∀ x : Narrator × Speech,
      (p.settleSpeech now step x).1.narrator.line.next = x.1.line.next := fun _ => rfl
  cases tail with
  | ahead =>
    unfold resumeTail tailAsks?
    cases hspoken : step.spoken? with
    | none => rfl
    | some text =>
      dsimp only
      rw [hsettle, Narrator.next_speak (Step.trimmed?_of_spoken? hspoken)]
      rfl
  | speaking s =>
    unfold resumeTail
    dsimp only
    rw [hsettle, Narrator.next_resume]
    rfl
  | _ => rfl

theorem next_dropTail (p : Player) (tail : Tail) :
    (p.dropTail tail).narrator.line.next = p.narrator.line.next := by
  cases tail with
  | speaking s => cases s <;> rfl
  | _ => rfl

/-- So it is with what follows the commands of a step, as long as the epoch lasts or a coin lets
    it. -/
theorem next_follow (p : Player) (epoch now : Nat) (step : Step) (tail : Tail) :
    (p.follow epoch now step tail).1.narrator.line.next = p.narrator.line.next +
      (if p.isCurrent epoch || p.toss.2 then tailAsks? step tail else none).toList.length := by
  cases hcurrent : p.isCurrent epoch with
  | true =>
    rw [follow_of_current (beq_iff_eq.1 hcurrent), Bool.true_or, if_pos rfl]
    exact next_resumeTail p now step tail
  | false =>
    rw [follow_of_stale hcurrent, Bool.false_or]
    cases p.toss.2 with
    | true =>
      rw [if_pos rfl, if_pos rfl, next_dropTail]
      exact next_resumeTail p.toss.1 now step tail
    | false =>
      rw [if_neg Bool.false_ne_true, if_neg Bool.false_ne_true, next_dropTail]
      rfl

theorem Strides.next_line (h : Strides epoch now p a deeds q b) : q.narrator.line.next =
    p.narrator.line.next + ((p.followRemark? epoch a).bind Remark.text?).toList.length := by
  cases h with
  | @follow ticket step report tail htail hready =>
    rw [next_follow]
    cases tail with
    | ahead => rfl
    | _ =>
      show _ + (if _ then none else none).toList.length = _
      split <;> rfl
  | _ => rfl

/-- With a move the narrator gives out a ticket for every text that it is asked to speak. -/
theorem Move.next_line (h : Move now p t deeds q u) : q.narrator.line.next =
    p.narrator.line.next + ((t.remarks p deeds q).filterMap Remark.text?).length := by
  rw [text?_remarks]
  cases h with
  | rewind hleads => exact congrArg (·.line.next) (reset_goal p now _).same.1
  | rebuild hready hr => exact congrArg (·.line.next) (reset_resumeRebuild hr).same.1
  | wrap hleads hcurrent => exact congrArg (·.line.next) (reset_rebuild p now 0).same.1
  | rewrap hready hr => exact congrArg (·.line.next) (reset_resumeRebuild hr).same.1
  | play h => exact h.next_line
  | step h => exact h.next_line
  | @finish epoch report =>
    obtain ⟨_, _, _, _, hline⟩ := p.finishPlay_same epoch report
    exact congrArg Line.next hline
  | _ => rfl

/-- A speech of which nobody hears any more is forgotten, unless it was over at once. -/
theorem narrator_dropTail_settleSpeech (p : Player) (now : Nat) (step : Step)
    (x : Narrator × Speech) :
    ((p.settleSpeech now step x).1.dropTail (p.settleSpeech now step x).2).narrator =
      x.1.abandon x.2 := by
  obtain ⟨n, s⟩ := x
  cases s with
  | «over» outcome =>
    -- What follows is the dwelling, of which the narrator knows nothing.
    unfold settleSpeech dwell
    simp only [Speech.isOver, ↓reduceIte]
    split <;> rfl
  | _ => rfl

/-- Where it is asked for a text it speaks that text, and forgets the speech at once if the epoch
    was over. -/
theorem narrator_follow {step : Step} {text : String} (h : p.asks? epoch step = some text) :
    let x : Narrator × Speech := p.narrator.speak now text
    (p.follow epoch now step .ahead).1.narrator = x.1 ∨
      (p.follow epoch now step .ahead).1.narrator = x.1.abandon x.2 := by
  have hbegins : ∀ q : Player, step.spoken? = some text →
      q.resumeTail now step .ahead = q.settleSpeech now step (q.narrator.speak now text) := by
    intro q hspoken
    unfold resumeTail
    rw [hspoken]
  intro x
  unfold asks? at h
  cases hcurrent : p.isCurrent epoch with
  | true =>
    rw [hcurrent, Bool.true_or, if_pos rfl] at h
    left
    rw [follow_of_current (beq_iff_eq.1 hcurrent), hbegins p h, settleSpeech_narrator]
  | false =>
    rw [hcurrent, Bool.false_or] at h
    rw [follow_of_stale hcurrent]
    cases htoss : p.toss.2 with
    | false =>
      rw [htoss] at h
      cases h
    | true =>
      -- A coin let the narrator be asked, but nobody waits for what it says.
      rw [htoss, if_pos rfl] at h
      right
      rw [if_pos rfl, hbegins p.toss.1 h]
      exact narrator_dropTail_settleSpeech p.toss.1 now step x

/-- So it is with the text that is asked for in a move. -/
theorem Move.asks (h : Move now p t deeds q u) {text : String}
    (htext : (t.remark? p).bind Remark.text? = some text) :
    let x : Narrator × Speech := p.narrator.speak now text
    q.narrator = x.1 ∨ q.narrator = x.1.abandon x.2 := by
  have hstrides : ∀ {epoch a b}, Strides epoch now p a deeds q b →
      (p.followRemark? epoch a).bind Remark.text? = some text →
      q.narrator = (p.narrator.speak now text).1 ∨ q.narrator =
        (p.narrator.speak now text).1.abandon (p.narrator.speak now text).2 := by
    intro epoch a b h hasks
    cases h with
    | @follow ticket step report tail htail hready =>
      cases tail with
      | ahead => exact narrator_follow hasks
      | _ => cases hasks
    | _ => cases hasks
  cases h with
  | play h => exact hstrides h htext
  | step h => exact hstrides h htext
  | _ => cases htext

/-- A call that has a turn after a move had it before, or it is the next one of the narrator and
    belongs to the text that is asked for in the move. -/
theorem Move.turn? (h : Move now p t deeds q u) {turn : Turn} (hu : u.turn? = some turn) :
    t.turn? = some turn ∨
      (t.remark? p).bind Remark.text? = some turn.text ∧ turn.ticket = p.narrator.line.next := by
  have hstrides : ∀ {epoch a b}, Strides epoch now p a deeds q b →
      b.said?.bind Speech.turn? = some turn → a.said?.bind Speech.turn? = some turn ∨
        (p.followRemark? epoch a).bind Remark.text? = some turn.text ∧
          turn.ticket = p.narrator.line.next := by
    intro epoch a b h hb
    rcases h.turn? hb with ha | ⟨hepoch, ticket, step, report, text, rfl, hspoken, rfl⟩
    · exact .inl ha
    · -- The epoch lasts, so what there is to speak is asked for.
      have hcurrent : p.isCurrent epoch = true := beq_iff_eq.2 hepoch
      have hasks : p.asks? epoch step = some text := by
        unfold asks?
        rw [hcurrent, Bool.true_or, if_pos rfl, hspoken]
      exact .inr ⟨hasks, rfl⟩
  cases h with
  | play h => exact hstrides h hu
  | step h => exact hstrides h hu
  | _ => cases hu

theorem Entered.next_line {call : Call} (h : Entered p call q t) :
    q.narrator.line.next = p.narrator.line.next := by
  rcases h.voices.2.2 with ⟨hsame, _⟩ | ⟨hstop, _⟩
  · rw [hsame]
  · rw [hstop]
    rfl

/-! ### What the calls are at -/

/-- These calls are at what goes on at a moment, or at nothing. -/
structure Agrees (p : Player) (ts : List Task) (m : Moment) : Prop where
  timeline : m.timeline = p.timeline
  at_it    : ∀ t ∈ ts, ∀ x, t.passage? p.cursor = some x → x = m.passage
  idle     : (∀ t ∈ ts, t.passage? p.cursor = none) → m.passage = .idle p.cursor

/-- What the calls are at can be read off the remarks so far. -/
structure Recorded (p : Player) (ts : List Task) (log : List Remark) : Prop where
  ordered : p.Ordered (ts.map Task.standing)
  leads   : ∃ m, Moment.first.Leads log m ∧ p.Agrees ts m

/-- Nothing is remarked of a move, or whoever makes it is at the head. -/
theorem Move.still_or_heads (ht : t.standing.Leads p.gate) (h : Move now p t deeds q u) :
    (t.remarks p deeds q = [] ∧ q.timeline = p.timeline ∧ q.cursor = p.cursor ∧
      t.passage? p.cursor = none ∧ u.passage? p.cursor = none) ∨ p.Heads t.standing := by
  cases h with
  | rewind hleads => exact .inr ⟨_, rfl, hleads⟩
  | wrap hleads hcurrent => exact .inr ⟨_, rfl, hleads⟩
  | unwrap hleads hstale => exact .inr ⟨_, rfl, hleads⟩
  | play h => exact .inr (h.heads ht)
  | step h => exact .inr (h.heads ht)
  | next hcurrent => exact .inl ⟨rfl, rfl, rfl, rfl, rfl⟩
  | stop hstale => exact .inl ⟨rfl, rfl, rfl, rfl, rfl⟩
  | @finish epoch report =>
    obtain ⟨hcursor, htimeline, _⟩ := p.finishPlay_same epoch report
    exact .inl ⟨rfl, htimeline, hcursor, rfl, rfl⟩
  | stepped => exact .inl ⟨rfl, rfl, rfl, rfl, rfl⟩
  | _ => exact .inr ⟨_, rfl, ht⟩

theorem Recorded.move (h : p.Recorded (t :: ts) log) (hmove : Move now p t deeds q u) :
    q.Recorded (u :: ts) (log ++ t.remarks p deeds q) := by
  obtain ⟨hordered, m, hlog, htimeline, hat, hidle⟩ := h
  refine ⟨hordered.move hmove, ?_⟩
  obtain ⟨ht, hts⟩ := List.forall_mem_cons.1 hat
  rcases hmove.still_or_heads (hordered.leads _ List.mem_cons_self) with
    ⟨hnil, hsame, hcursor, hbefore, hafter⟩ | hheads
  · -- This call was at nothing and still is.
    rw [hnil, List.append_nil]
    refine ⟨m, hlog, htimeline.trans hsame.symm, ?_, ?_⟩
    · rw [hcursor]
      refine List.forall_mem_cons.2 ⟨fun x hx => ?_, hts⟩
      rw [hafter] at hx
      cases hx
    · rw [hcursor]
      intro hnone
      exact hidle (List.forall_mem_cons.2 ⟨hbefore, (List.forall_mem_cons.1 hnone).2⟩)
  · -- Nobody else is at anything, so this call says what goes on, before and after.
    have hothers : ∀ v ∈ ts, ∀ cursor, v.passage? cursor = none := fun v hv cursor =>
      passage?_of_stretch? (hordered.stretch?_others hheads v hv cursor)
    have hm : m = t.moment p := by
      obtain ⟨timeline, passage⟩ := m
      obtain rfl : timeline = p.timeline := htimeline
      refine congrArg (Moment.mk p.timeline) ?_
      cases hx : t.passage? p.cursor with
      | some x => exact (ht x hx).symm
      | none => exact hidle (List.forall_mem_cons.2 ⟨hx, fun v hv => hothers v hv _⟩)
    rw [hm] at hlog
    refine ⟨u.moment q, hlog.append hmove.leads, rfl, ?_, ?_⟩
    · refine List.forall_mem_cons.2 ⟨fun x hx => ?_, fun v hv x hx => ?_⟩
      · unfold Task.moment
        rw [hx]
        rfl
      · rw [hothers v hv] at hx
        cases hx
    · intro hnone
      unfold Task.moment
      rw [hnone u List.mem_cons_self]
      rfl

theorem Recorded.enter {call : Call} (h : p.Recorded ts log) (henter : Entered p call q t) :
    q.Recorded (t :: ts) log := by
  obtain ⟨hordered, m, hlog, htimeline, hat, hidle⟩ := h
  obtain ⟨hcursor, hnone⟩ := henter.idle
  -- Another timeline is taken only at the gate.
  have htimeline' : q.timeline = p.timeline := by
    cases henter <;> rfl
  refine ⟨hordered.enter henter, m, hlog, htimeline.trans htimeline'.symm, ?_, ?_⟩
  · rw [hcursor]
    refine List.forall_mem_cons.2 ⟨fun x hx => ?_, hat⟩
    rw [passage?_of_stretch? hnone] at hx
    cases hx
  · rw [hcursor]
    exact fun h => hidle (List.forall_mem_cons.1 h).2

/-! ### Turns and events -/

/-- Moves of a call, with what is remarked of each. -/
inductive Notes (now : Nat) : Player → Task → List Remark → Player → Task → Prop
  | refl {p : Player} {t : Task} : Notes now p t [] p t
  | head {p q r : Player} {t u v : Task} {deeds : List Deed} {log : List Remark}
      (h : Move now p t deeds q u) (hs : Notes now q u log r v) :
      Notes now p t (t.remarks p deeds q ++ log) r v

/-- What is remarked with an event. -/
inductive Noted (e : Ensemble Player Call Task) (event : Event Call) : List Remark → Prop
  /-- A call begins. -/
  | begun {call : Call} {log : List Remark} (h : e.begun? event = some call)
      (hnotes : Notes (e.step machine event).now (e.world.enter call).1 (e.world.enter call).2 log
        (e.world.start (e.step machine event).now call).1
        (e.world.start (e.step machine event).now call).2) : Noted e event log
  /-- A call goes on. -/
  | resumed {t : Task} {log : List Remark} (h : e.resumed? event = some t)
      (hnotes : Notes (e.step machine event).now e.world t log
        (e.world.resume (e.step machine event).now t).1
        (e.world.resume (e.step machine event).now t).2) : Noted e event log
  /-- Nothing happens. -/
  | idle (hbegun : e.begun? event = none) (hresumed : e.resumed? event = none) : Noted e event []

/-- What is remarked with some events, one after another. -/
inductive Minutes (e : Ensemble Player Call Task) : List (Event Call) → List Remark → Prop
  | nil : Minutes e [] []
  | snoc {events : List (Event Call)} {event : Event Call} {log more : List Remark}
      (h : Minutes e events log) (hmore : Noted (e.after machine events) event more) :
      Minutes e (events ++ [event]) (log ++ more)

theorem exists_notes (h : Moves now n p t deeds q u) : ∃ log, Notes now p t log q u := by
  induction h with
  | refl => exact ⟨[], .refl⟩
  | head hfirst _ ih =>
    obtain ⟨log, hlog⟩ := ih
    exact ⟨_, .head hfirst hlog⟩

theorem Notes.moves (h : Notes now p t log q u) :
    ∃ n, Moves now n p t (log.filterMap Remark.deed?) q u := by
  induction h with
  | refl => exact ⟨0, .refl⟩
  | head hfirst _ ih =>
    obtain ⟨n, hmoves⟩ := ih
    rw [List.filterMap_append, hfirst.deeds_remarks]
    exact ⟨n + 1, .head hfirst hmoves⟩

/-- With every event something can be remarked. -/
theorem exists_noted (h : AllRest e.inFlight) (event : Event Call) : ∃ log, Noted e event log := by
  obtain ⟨deeds, htold⟩ := exists_told h event
  cases htold with
  | begun hbegun hmoves =>
    obtain ⟨log, hnotes⟩ := exists_notes hmoves
    exact ⟨log, .begun hbegun hnotes⟩
  | resumed hresumed hmoves =>
    obtain ⟨log, hnotes⟩ := exists_notes hmoves
    exact ⟨log, .resumed hresumed hnotes⟩
  | idle hbegun hresumed => exact ⟨[], .idle hbegun hresumed⟩

theorem Noted.told (h : Noted e event log) : Told e event (log.filterMap Remark.deed?) := by
  cases h with
  | begun hbegun hnotes =>
    obtain ⟨n, hmoves⟩ := hnotes.moves
    exact .begun hbegun hmoves
  | resumed hresumed hnotes =>
    obtain ⟨n, hmoves⟩ := hnotes.moves
    exact .resumed hresumed hmoves
  | idle hbegun hresumed => exact .idle hbegun hresumed

/-- There are minutes. -/
theorem exists_minutes (p : Player) (now : Nat) (events : List (Event Call)) :
    ∃ log, Minutes (alone now p) events log := by
  induction events using List.reverseRecOn with
  | nil => exact ⟨[], .nil⟩
  | append_singleton events event ih =>
    obtain ⟨log, hminutes⟩ := ih
    obtain ⟨more, hnoted⟩ := exists_noted (rests_after p now events) event
    exact ⟨log ++ more, .snoc hminutes hnoted⟩

/-- The minutes hold an account of what happens on the stage. -/
theorem Minutes.account (h : Minutes e events log) :
    Account e events (log.filterMap Remark.deed?) := by
  induction h with
  | nil => exact .nil
  | snoc _ hmore ih =>
    rw [List.filterMap_append]
    exact .snoc ih hmore.told

/-- Minutes of events one after another are minutes one after another. -/
theorem Minutes.split (h : Minutes e events log) {first rest : List (Event Call)}
    (hsplit : events = first ++ rest) : ∃ before since, log = before ++ since ∧
      Minutes e first before ∧ Minutes (e.after machine first) rest since := by
  induction h generalizing rest with
  | nil =>
    obtain ⟨rfl, rfl⟩ := List.append_eq_nil_iff.1 hsplit.symm
    exact ⟨[], [], rfl, .nil, .nil⟩
  | @snoc events event log more hlog hmore ih =>
    rcases List.eq_nil_or_concat rest with rfl | ⟨rest, last, rfl⟩
    · rw [List.append_nil] at hsplit
      subst hsplit
      exact ⟨log ++ more, [], (List.append_nil _).symm, .snoc hlog hmore, .nil⟩
    · -- The last event is one of the rest.
      rw [List.concat_eq_append, ← List.append_assoc] at hsplit
      obtain ⟨rfl, hlast⟩ := List.append_inj' hsplit rfl
      obtain rfl := List.singleton_inj.1 hlast
      obtain ⟨before, since, rfl, hbefore, hsince⟩ := ih rfl
      rw [after_append] at hmore
      refine ⟨before, since ++ more, List.append_assoc .., hbefore, ?_⟩
      rw [List.concat_eq_append]
      exact .snoc hsince hmore

/-! ### What moves keep -/

/-- What remarks lead to is kept by every move, together with what is remarked of it. -/
structure Upheld (I : Player → List Task → List Remark → Prop) : Prop where
  perm     : ∀ {p ts us log}, ts.Perm us → I p ts log → I p us log
  enter    : ∀ {p call q t ts log}, Entered p call q t → I p ts log → I q (t :: ts) log
  move     : ∀ {now p t deeds q u ts log}, Move now p t deeds q u → I p (t :: ts) log →
    I q (u :: ts) (log ++ t.remarks p deeds q)
  returned : ∀ {p report ts log}, I p (.over report :: ts) log → I p ts log

variable {I : Player → List Task → List Remark → Prop}

theorem Upheld.notes (h : Upheld I) (hnotes : Notes now p t more q u) (hI : I p (t :: ts) log) :
    I q (u :: ts) (log ++ more) := by
  induction hnotes generalizing log with
  | refl => rwa [List.append_nil]
  | head hfirst _ ih =>
    rw [← List.append_assoc]
    exact ih (h.move hfirst hI)

theorem Upheld.joined (h : Upheld I) (hI : I p (t :: ts) log) :
    I p (Ensemble.joined machine t ts) log := by
  cases t with
  | «over» report => exact h.returned hI
  | _ => exact hI

/-- What every move keeps is kept by every event. -/
theorem Upheld.noted (h : Upheld I) (hnoted : Noted e event more)
    (hI : I e.world e.inFlight log) :
    I (e.step machine event).world (e.step machine event).inFlight (log ++ more) := by
  cases hnoted with
  | begun hbegun hnotes =>
    obtain ⟨hworld, hperm⟩ := step_of_begun (m := machine) hbegun
    rw [hworld]
    exact h.perm hperm (h.joined (h.notes hnotes (h.enter (e.world.entered _) hI)))
  | resumed hresumed hnotes =>
    obtain ⟨hworld, ts, hbefore, hafter⟩ := step_of_resumed (m := machine) hresumed
    rw [hworld]
    exact h.perm hafter (h.joined (h.notes hnotes (h.perm hbefore hI)))
  | idle hbegun hresumed =>
    obtain ⟨hworld, hsame⟩ := step_of_idle (m := machine) hbegun hresumed
    rwa [hworld, hsame, List.append_nil]

/-- What holds at first and is kept by every move holds of all minutes. -/
theorem minutes_induction (h : Upheld I) (h₀ : I p [] [])
    (hminutes : Minutes (alone now p) events log) :
    I ((alone now p).after machine events).world ((alone now p).after machine events).inFlight
      log := by
  -- By induction on the events: the last one adds its remarks to those of the others.
  induction hminutes with
  | nil => exact h₀
  | snoc _ hmore ih =>
    rw [after_append]
    exact h.noted hmore ih

/-! ### What the minutes say -/

theorem upheld_recorded : Upheld Recorded where
  perm hperm h := by
    obtain ⟨hordered, m, hlog, htimeline, hat, hidle⟩ := h
    refine ⟨hordered.perm (hperm.map _), m, hlog, htimeline,
      fun t ht => hat t (hperm.mem_iff.2 ht), fun hnone => hidle fun t ht => ?_⟩
    exact hnone t (hperm.mem_iff.1 ht)
  enter henter h := h.enter henter
  move hmove h := h.move hmove
  returned h := by
    obtain ⟨hordered, m, hlog, htimeline, hat, hidle⟩ := h
    exact ⟨Ordered.away_iff.1 hordered, m, hlog, htimeline, (List.forall_mem_cons.1 hat).2,
      fun h => hidle (List.forall_mem_cons.2 ⟨rfl, h⟩)⟩

/-- The minutes can be read, and they lead to what the calls under way are at. -/
theorem leads_minutes (narrator : Narrator) (coins : List Bool)
    (h : Minutes (alone start (ofNarrator narrator coins)) events log) :
    let e := (alone start (ofNarrator narrator coins)).after machine events
    ∃ m, Moment.first.Leads log m ∧ e.world.Agrees e.inFlight m :=
  (minutes_induction upheld_recorded ⟨ordered_ofNarrator narrator coins, .first, .nil, rfl,
    List.forall_mem_nil _, fun _ => rfl⟩ h).leads

/-- The tickets are numbered as the texts are, so the turn of a call under way is for the text that
    was asked for when its ticket was given out. -/
structure Numbered (p : Player) (ts : List Task) (log : List Remark) : Prop where
  next  : p.narrator.line.next = (log.filterMap Remark.text?).length
  turns : ∀ t ∈ ts, ∀ turn, t.turn? = some turn →
    (log.filterMap Remark.text?)[turn.ticket]? = some turn.text

theorem upheld_numbered : Upheld Numbered where
  perm hperm h := ⟨h.next, fun t ht => h.turns t (hperm.mem_iff.2 ht)⟩
  enter henter h := by
    refine ⟨henter.next_line.trans h.next, List.forall_mem_cons.2 ⟨fun turn hturn => ?_, h.turns⟩⟩
    -- Nobody has a turn when a call begins.
    unfold Task.turn? at hturn
    rw [henter.voices.2.1] at hturn
    cases hturn
  move {now p t deeds q u ts log} hmove h := by
    obtain ⟨ht, hts⟩ := List.forall_mem_cons.1 h.turns
    have htexts : (log ++ t.remarks p deeds q).filterMap Remark.text? =
        log.filterMap Remark.text? ++ ((t.remark? p).bind Remark.text?).toList := by
      rw [List.filterMap_append, text?_remarks]
    -- Texts are only added behind the others, so the numbers given out stay right.
    have hkept : ∀ {turn : Turn}, (log.filterMap Remark.text?)[turn.ticket]? = some turn.text →
        ((log ++ t.remarks p deeds q).filterMap Remark.text?)[turn.ticket]? = some turn.text := by
      intro turn hturn
      obtain ⟨hless, _⟩ := List.getElem?_eq_some_iff.1 hturn
      rw [htexts, List.getElem?_append_left hless]
      exact hturn
    constructor
    · rw [hmove.next_line, h.next, List.filterMap_append, List.length_append]
    · refine List.forall_mem_cons.2 ⟨fun turn hturn => ?_, fun v hv turn hturn => ?_⟩
      · rcases hmove.turn? hturn with hbefore | ⟨hasks, hticket⟩
        · exact hkept (ht turn hbefore)
        · rw [htexts, hasks, hticket, h.next]
          exact List.getElem?_concat_length
      · exact hkept (hts v hv turn hturn)
  returned h := ⟨h.next, (List.forall_mem_cons.1 h.turns).2⟩

/-- The narrator has given out one ticket for every text that it was asked to speak, and whoever
    waits with a ticket or speaks has the text of that number. -/
theorem numbered_minutes (h₀ : p.narrator.line.next = 0)
    (h : Minutes (alone start p) events log) :
    let e : Ensemble Player Call Task := (alone start p).after machine events
    e.world.Numbered e.inFlight log :=
  minutes_induction upheld_numbered ⟨h₀, List.forall_mem_nil _⟩ h

/-- Whatever is remarked with an event is remarked in the epoch after it. -/
theorem Noted.epoch_eq (h : Noted e event log) {r : Remark} (hr : r ∈ log) :
    ∀ epoch, r.epoch? = some epoch → epoch = (e.step machine event).world.epoch := by
  have hnotes : ∀ {now p t log q u}, Notes now p t log q u → r ∈ log →
      ∀ epoch, r.epoch? = some epoch → epoch = q.epoch := by
    intro now p t log q u h
    induction h with
    | refl => exact nofun
    | head hfirst hs ih =>
      intro hr epoch hepoch
      rcases List.mem_append.1 hr with hr | hr
      · -- The moves that come after the first one stay in its epoch.
        obtain ⟨n, hmoves⟩ := hs.moves
        exact (hfirst.epoch_remarks hr epoch hepoch).trans (steers_of_moves hmoves).same.symm
      · exact ih hr epoch hepoch
  cases h with
  | begun hbegun h =>
    rw [(step_of_begun (m := machine) hbegun).1]
    exact hnotes h hr
  | resumed hresumed h =>
    rw [(step_of_resumed (m := machine) hresumed).1]
    exact hnotes h hr
  | idle _ _ => cases hr

end Player

end Storyboard
