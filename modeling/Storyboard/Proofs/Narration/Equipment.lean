import Storyboard.Proofs.Ensemble.Carry
import Storyboard.Proofs.Narration.Booth

/-! # The narrator is a booth

    The equipment of the narrator makes a studio: a voice service that takes
    its time, a player that paces clips and a local voice that keeps a
    transcript (`Equipment.studio`). A booth with it does what the narrator
    does, event by event (`carries_narrated`). -/

namespace Storyboard

namespace Narration

/-- What the devices of the narrator leave behind. -/
structure Output where
  transcript : List Utterance
  clips      : Nat

/-- The bytes of a recording. -/
def Recording.clip? : Recording → Option Nat
  | .clip bytes => some bytes
  | .failure => none

namespace Equipment

/-- Something that has come this far at a time, with a result at another one. -/
def await {R : Type} (now time : Nat) (r : R) : Progress R Nat :=
  if time ≤ now then .result r else .underway time

variable (q : Equipment)

/-- The voice service. -/
def service : Device Output String (Option Nat) Nat where
  begin now w _ :=
    match q.voice with
    | none => (w, .result none)
    | some v => (w, await now (Wait.endOf now v.delay) v.recording.clip?)
  proceed now w time := (w, await now time (q.voice.bind (·.recording.clip?)))
  drop _ w _ := w
  isReady now _ time := time ≤ now
  due? := some

/-- A clip came this far. -/
def paced (now : Nat) (w : Output) (time : Nat) : Output × Progress Bool Nat :=
  if time ≤ now then ({ w with clips := w.clips + 1 }, .result true) else (w, .underway time)

/-- The player. -/
def player : Device Output Nat Bool Nat where
  begin now w bytes :=
    match q.playerFails, playingTime? q.bitrate bytes with
    | false, some d => paced now w (Wait.endOf now d)
    | _, _ => (w, .result false)
  proceed := paced
  drop _ w _ := w
  isReady now _ time := time ≤ now
  due? := some

/-- The local voice. -/
def reader : Device Output Utterance Unit Nat where
  begin now w u := ({ w with transcript := w.transcript ++ [u] },
    await now (Wait.endOf now u.speakingTime) ())
  proceed now w time := (w, await now time ())
  drop _ w _ := w
  isReady now _ time := time ≤ now
  due? := some

/-- All of it. -/
def studio : Studio Output Nat Nat Nat Nat where
  voice := q.service
  player := q.player
  reader := reader
  profile := q.profile
  silence _ w := w

end Equipment

/-- How far a delivery is, for the narrator. -/
def Studio.Delivery.narrated : Option (Studio.Delivery Nat Nat Nat) → Storyboard.Delivery
  | none => .over
  | some (.synthesizing time) => .synthesizing time
  | some (.playing time) => .playing time
  | some (.reading time) => .reading time

end Narration

open Narration

namespace Booth

variable {q : Equipment} {b : Booth Output} {now : Nat} {text : String}

/-- A booth with some equipment as a narrator. -/
def narrator (q : Equipment) (b : Booth Output) : Narrator :=
  ⟨q, b.ledger.generation, b.ledger.line, b.world.transcript, b.world.clips, b.coins⟩

/-- A speech, for the narrator. -/
def Speech.narrated : Speech (Studio.Delivery Nat Nat Nat) → Storyboard.Speech
  | .queued turn => .queued turn
  | .delivering turn d => .delivering turn (Studio.Delivery.narrated (some d))
  | .over _ outcome => .over outcome

/-- An action under way, for the narrator. -/
def Task.narrated : Task (Studio.Delivery Nat Nat Nat) → Narrator.Task
  | .speaking _ s => .speaking s.narrated
  | .waiting time => .waiting time
  | .over => .over

/-- What comes of a delivery, for the narrator. -/
def handled (q : Equipment) (b : Booth Output)
    (x : Output × Option (Studio.Delivery Nat Nat Nat)) : Narrator × Storyboard.Delivery :=
  (narrator q { b with world := x.1 }, Studio.Delivery.narrated x.2)

/-! ### Deliveries -/

theorem read_narrated :
    (narrator q b).read now text = handled q b (q.studio.read now text b.world) := by
  let u : Utterance := ⟨clean text, q.profile⟩
  have hread : ∀ time, ({ narrator q b with transcript := b.world.transcript ++ [u] },
      if time ≤ now then Storyboard.Delivery.over else .reading time) =
      handled q b (Studio.settleReading
        ({ b.world with transcript := b.world.transcript ++ [u] },
          Equipment.await now time ())) := by
    intro time
    unfold Equipment.await
    by_cases htime : time ≤ now
    · rw [if_pos htime, if_pos htime]
      rfl
    · rw [if_neg htime, if_neg htime]
      rfl
  exact hread (Wait.endOf now u.speakingTime)

theorem paced_narrated (time : Nat) :
    (if time ≤ now then ((narrator q b).clipPlayed, Storyboard.Delivery.over)
      else (narrator q b, .playing time)) =
    handled q b (q.studio.settlePlaying now text (Equipment.paced now b.world time)) := by
  unfold Equipment.paced
  by_cases htime : time ≤ now
  · rw [if_pos htime, if_pos htime]
    rfl
  · rw [if_neg htime, if_neg htime]
    rfl

theorem play_narrated (bytes : Nat) :
    (narrator q b).play now text bytes =
      handled q b (q.studio.settlePlaying now text (q.player.begin now b.world bytes)) := by
  have hread : (narrator q b).read now text =
      handled q b (q.studio.read now text b.world) := read_narrated
  unfold Narrator.play Equipment.player
  dsimp only [narrator]
  cases q.playerFails with
  | true => exact hread
  | false =>
    cases playingTime? q.bitrate bytes with
    | none => exact hread
    | some d => exact paced_narrated (Wait.endOf now d)

theorem present_narrated (r : Recording) :
    (narrator q b).present now text r =
      handled q b (q.studio.settleVoice now text (b.world, .result r.clip?)) := by
  cases r with
  | clip bytes => exact play_narrated bytes
  | failure => exact read_narrated

theorem deliver_narrated :
    (narrator q b).deliver now text = handled q b (q.studio.deliver now text b.world) := by
  unfold Narrator.deliver Studio.deliver
  show _ = handled q b (q.studio.settleVoice now text (q.service.begin now b.world text))
  unfold Equipment.service
  dsimp only [narrator]
  cases hvoice : q.voice with
  | none => exact read_narrated
  | some v =>
    dsimp only
    have hpresent : (narrator q b).present now text v.recording = handled q b
        (q.studio.settleVoice now text (b.world, .result v.recording.clip?)) :=
      present_narrated v.recording
    generalize Wait.endOf now v.delay = time
    unfold Equipment.await
    by_cases htime : time ≤ now
    · rw [if_pos htime, if_pos htime]
      exact hpresent
    · rw [if_neg htime, if_neg htime]
      rfl

theorem proceed_narrated (d : Studio.Delivery Nat Nat Nat) :
    (narrator q b).proceed now text (Studio.Delivery.narrated (some d)) =
      handled q b (q.studio.proceed now text b.world d) := by
  -- Every stage of a delivery waits for one time, on both sides for the same one.
  cases d with
  | synthesizing time =>
    have hclip : q.voice.bind (·.recording.clip?) =
        ((q.voice.map (·.recording)).getD Recording.failure).clip? := by
      cases q.voice <;> rfl
    show (if time ≤ now then _ else _) = handled q b (q.studio.settleVoice now text
      (b.world, Equipment.await now time (q.voice.bind (·.recording.clip?))))
    unfold Equipment.await
    by_cases htime : time ≤ now
    · rw [if_pos htime, if_pos htime, hclip]
      exact present_narrated _
    · rw [if_neg htime, if_neg htime]
      rfl
  | playing time => exact paced_narrated time
  | reading time =>
    show (narrator q b, if time ≤ now then Storyboard.Delivery.over else .reading time) =
      handled q b (Studio.settleReading (b.world, Equipment.await now time ()))
    unfold Equipment.await
    by_cases htime : time ≤ now
    · rw [if_pos htime, if_pos htime]
      rfl
    · rw [if_neg htime, if_neg htime]
      rfl

/-! ### Speeches -/

/-- What comes of a speech, for the narrator. -/
def spoken (q : Equipment) (x : Booth Output × Speech (Studio.Delivery Nat Nat Nat)) :
    Narrator × Storyboard.Speech := (x.1.narrator q, x.2.narrated)

theorem settle_narrated (turn : Turn) (x : Output × Option (Studio.Delivery Nat Nat Nat)) :
    (handled q b x).1.settle turn (handled q b x).2 =
      spoken q ({ b with world := x.1 }.settle turn x.2) := by
  obtain ⟨w, d⟩ := x
  cases d with
  | none => rfl
  | some d => cases d <;> rfl

/-- A delivery that is broken off. -/
theorem breakOff_narrated {turn : Turn} (hstale : turn.generation ≠ b.ledger.generation)
    (d : Studio.Delivery Nat Nat Nat) :
    (narrator q b).resume now (.delivering turn (Studio.Delivery.narrated (some d))) =
      spoken q (b.breakOff q.studio.means now turn d) := by
  have htoss : (narrator q b).toss = (narrator q b.toss.1, b.toss.2) := rfl
  have hdrop : ∀ w d, q.studio.means.drop now w d = w := fun w d => by cases d <;> rfl
  have hmeans : ∀ w, q.studio.means.proceed now w turn.text d =
      q.studio.proceed now turn.text w d := fun _ => rfl
  simp only [Narrator.resume, show turn.generation ≠ (narrator q b).generation from hstale,
    ne_eq, not_false_eq_true, if_true, htoss, breakOff]
  rcases b.toss with ⟨b', coin⟩
  cases coin with
  | false =>
    dsimp only
    rw [hdrop]
    rfl
  | true =>
    dsimp only
    rw [proceed_narrated, hmeans]
    rcases q.studio.proceed now turn.text b'.world d with ⟨w, d'⟩
    cases d' with
    | none => rfl
    | some d' =>
      dsimp only
      rw [hdrop]
      cases d' <;> rfl

theorem resume_narrated (s : Speech (Studio.Delivery Nat Nat Nat)) :
    (narrator q b).resume now s.narrated = spoken q (b.resume q.studio.means now s) := by
  cases s with
  | queued turn =>
    -- Both sides decide by the generation and by the line, which they have in common. So the cases
    -- are split once for both.
    show (if turn.generation ≠ b.ledger.generation then _ else _) =
      spoken q (if turn.generation ≠ b.ledger.generation then _ else _)
    by_cases hgeneration : turn.generation ≠ b.ledger.generation
    · rw [if_pos hgeneration, if_pos hgeneration]
      rfl
    · rw [if_neg hgeneration, if_neg hgeneration]
      show (if b.ledger.line.leads turn.ticket then _ else _) =
        spoken q (if b.ledger.line.leads turn.ticket then _ else _)
      by_cases hleads : b.ledger.line.leads turn.ticket
      · rw [if_pos hleads, if_pos hleads, deliver_narrated]
        exact settle_narrated (b := { b with ledger := b.ledger.note (.begins turn.ticket) }) turn _
      · rw [if_neg hleads, if_neg hleads]
        rfl
  | delivering turn d =>
    by_cases hgeneration : turn.generation ≠ b.ledger.generation
    · refine (breakOff_narrated hgeneration d).trans ?_
      exact congrArg (spoken q) (if_pos hgeneration).symm
    · have hbooth : b.resume q.studio.means now (.delivering turn d) =
          { b with world := (q.studio.proceed now turn.text b.world d).1 }.settle turn
            (q.studio.proceed now turn.text b.world d).2 := if_neg hgeneration
      have hnarrator : (narrator q b).resume now
          (.delivering turn (Studio.Delivery.narrated (some d))) =
          ((narrator q b).proceed now turn.text (Studio.Delivery.narrated (some d))).1.settle turn
            ((narrator q b).proceed now turn.text (Studio.Delivery.narrated (some d))).2 :=
        if_neg hgeneration
      rw [hbooth]
      refine hnarrator.trans ?_
      rw [proceed_narrated]
      exact settle_narrated turn _
  | «over» ticket outcome => rfl

theorem speak_narrated (text : String) :
    (narrator q b).speak now text = spoken q (b.speak q.studio.means now text) := by
  unfold Narrator.speak speak
  cases Text.trimmed? text with
  | none => rfl
  | some text =>
    exact resume_narrated (b := { b with ledger := b.ledger.ask })
      (.queued ⟨b.ledger.line.next, b.ledger.generation, text⟩)

theorem isReady_narrated (s : Speech (Studio.Delivery Nat Nat Nat)) :
    s.narrated.isReady now (narrator q b) = s.isReady q.studio.means b now := by
  cases s with
  | delivering turn d => cases d <;> rfl
  | _ => rfl

theorem due?_narrated (t : Task (Studio.Delivery Nat Nat Nat)) :
    Narrator.machine.due? t.narrated = (machine q.studio.means).due? t := by
  cases t with
  | speaking text s =>
    cases s with
    | delivering turn d => cases d <;> rfl
    | _ => rfl
  | _ => rfl

theorem waitUntil_narrated (now time : Nat) :
    Narrator.Task.waitUntil now time = (Task.waitUntil now time).narrated := by
  unfold Narrator.Task.waitUntil Task.waitUntil
  split <;> rfl

/-- A booth with the equipment of a narrator does what the narrator does. -/
theorem carries_narrated (q : Equipment) :
    (machine q.studio.means).Carries Narrator.machine 0 (narrator q) Task.narrated where
  start now b a := by
    rw [Nat.add_zero]
    cases a with
    | speak text => simp only [Narrator.machine, machine, speak_narrated, spoken, Task.narrated]
    | wait d => simp only [Narrator.machine, machine, waitUntil_narrated]
    | _ => rfl
  resume now b t := by
    rw [Nat.add_zero]
    cases t with
    | speaking text s =>
      simp only [Narrator.machine, machine, Task.narrated, resume_narrated, spoken]
    | waiting time => exact congrArg (fun t => (narrator q b, t)) (waitUntil_narrated now time)
    | _ => rfl
  isDone t := by
    cases t with
    | speaking text s => cases s <;> rfl
    | _ => rfl
  isReady now b t := by
    cases t with
    | speaking text s => exact isReady_narrated s
    | _ => rfl
  due? t := by
    rw [due?_narrated (q := q)]
    cases (machine q.studio.means).due? t <;> rfl

open Ensemble in
/-- So it does whatever happens to both. -/
theorem after_narrated (q : Equipment) (coins : List Bool) (start : Nat)
    (events : List (Event Narrator.Action)) :
    (alone start (Narrator.ofEquipment q coins)).after Narrator.machine events =
      ((alone start (ofWorld ⟨[], 0⟩ coins)).after (machine q.studio.means) events).carry 0
        (narrator q) Task.narrated := by
  have hafter := after_carry (carries_narrated q) (alone start (ofWorld ⟨[], 0⟩ coins)) events
  have hsame : Event.later 0 = (id : Event Narrator.Action → Event Narrator.Action) := by
    funext event
    cases event <;> rfl
  rw [hsame, List.map_id] at hafter
  exact hafter

end Booth

end Storyboard
