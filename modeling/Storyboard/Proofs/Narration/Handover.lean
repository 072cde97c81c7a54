import Mathlib.Data.List.Basic
import Storyboard.Narration.Narrator

/-! # Who is handed the texts

    A text is handed to the voice service, if there is one, and to the local
    voice where there is none or its clip cannot be had or played. What a
    speech hands over when it goes on is told branch by branch
    (`resumeHands`, `speakHands`); the transcript of the local voice grows by
    what it is handed and by nothing else (`adds_resume`, `adds_speak`), and
    the voice service is at work on no text that it was not handed
    (`asked?_resume`, `asked?_speak`).

    A speech that was stopped hands over nothing any more, unless the voice
    service fails it at that very moment (`resumeHands_of_stale`). -/

namespace Storyboard

open Narration

/-- A text that is handed to somebody. -/
inductive Handover where
  /-- The voice service is to make a clip of it. -/
  | voice (text : String)
  /-- The local voice is to read it. -/
  | reader (u : Utterance)

/-- What the local voice is to read. -/
def Handover.read? : Handover → Option Utterance
  | .voice _ => none
  | .reader u => some u

/-- The turn of a speech that is not over. -/
def Speech.turn? : Speech → Option Turn
  | .queued turn => some turn
  | .delivering turn _ => some turn
  | .over _ => none

/-- The text that the voice service is at work on for a speech. -/
def Speech.asked? : Speech → Option String
  | .delivering turn (.synthesizing _) => some turn.text
  | _ => none

namespace Narrator

variable (n : Narrator) (now : Nat) (text : String)

/-! ### What is handed over -/

/-- By reading a text with the local voice. -/
def readHands : List Handover := [.reader ⟨clean text, n.equipment.profile⟩]

/-- By playing a clip for a text. -/
def playHands (bytes : Nat) : List Handover :=
  match n.equipment.playerFails, playingTime? n.equipment.bitrate bytes with
  | false, some _ => []
  | _, _ => n.readHands text

/-- By going on with what the voice service made of a text. -/
def presentHands : Recording → List Handover
  | .clip bytes => n.playHands text bytes
  | .failure => n.readHands text

/-- By beginning to deliver a text. -/
def deliverHands : List Handover :=
  match n.equipment.voice with
  | none => n.readHands text
  | some v =>
    .voice text :: if Wait.endOf now v.delay ≤ now then n.presentHands text v.recording else []

/-- By going on delivering a text. -/
def proceedHands : Delivery → List Handover
  | .synthesizing time =>
    if time ≤ now then
      n.presentHands text ((n.equipment.voice.map (·.recording)).getD .failure)
    else []
  | _ => []

/-- By going on with a speech. -/
def resumeHands : Speech → List Handover
  | .queued turn =>
    if turn.generation ≠ n.generation then []
    else if n.line.leads turn.ticket then n.deliverHands now turn.text
    else []
  | .delivering turn d =>
    if turn.generation ≠ n.generation then
      if n.toss.2 then n.proceedHands now turn.text d else []
    else n.proceedHands now turn.text d
  | .over _ => []

/-- By asking for a text to be spoken. -/
def speakHands : List Handover :=
  match Text.trimmed? text with
  | none => []
  | some text => resumeHands { n with line := n.line.join.1 } now
      (.queued ⟨n.line.join.2, n.generation, text⟩)

/-! ### The transcript -/

variable {n n' : Narrator} {now : Nat} {text : String} {hands : List Handover} {s : Speech}
  {turn : Turn}

/-- The transcript grows by what the local voice is handed, and no new generation begins. -/
structure Adds (n : Narrator) (hands : List Handover) (n' : Narrator) : Prop where
  transcript : n'.transcript = n.transcript ++ hands.filterMap Handover.read?
  generation : n'.generation = n.generation

theorem Adds.nil (htranscript : n'.transcript = n.transcript)
    (hgeneration : n'.generation = n.generation) : n.Adds [] n' :=
  ⟨htranscript.trans (List.append_nil _).symm, hgeneration⟩

theorem adds_read : n.Adds (n.readHands text) (n.read now text).1 := ⟨rfl, rfl⟩

theorem adds_present (r : Recording) :
    n.Adds (n.presentHands text r) (n.present now text r).1 := by
  cases r with
  | failure => exact adds_read
  | clip bytes =>
    unfold present presentHands play playHands
    dsimp only
    cases n.equipment.playerFails with
    | true => exact adds_read
    | false =>
      cases playingTime? n.equipment.bitrate bytes with
      | none => exact adds_read
      | some d =>
        dsimp only
        by_cases htime : Wait.endOf now d ≤ now
        · rw [if_pos htime]
          exact .nil rfl rfl
        · rw [if_neg htime]
          exact .nil rfl rfl

theorem adds_deliver : n.Adds (n.deliverHands now text) (n.deliver now text).1 := by
  unfold deliver deliverHands
  cases n.equipment.voice with
  | none => exact adds_read
  | some v =>
    dsimp only
    by_cases htime : Wait.endOf now v.delay ≤ now
    · rw [if_pos htime, if_pos htime]
      exact ⟨(adds_present v.recording).transcript, (adds_present v.recording).generation⟩
    · rw [if_neg htime, if_neg htime]
      exact ⟨(List.append_nil n.transcript).symm, rfl⟩

theorem adds_proceed (d : Delivery) :
    n.Adds (n.proceedHands now text d) (n.proceed now text d).1 := by
  cases d with
  | synthesizing time =>
    unfold proceed proceedHands
    dsimp only
    by_cases htime : time ≤ now
    · rw [if_pos htime, if_pos htime]
      exact adds_present _
    · rw [if_neg htime, if_neg htime]
      exact .nil rfl rfl
  | playing time =>
    unfold proceed
    dsimp only
    by_cases htime : time ≤ now
    · rw [if_pos htime]
      exact .nil rfl rfl
    · rw [if_neg htime]
      exact .nil rfl rfl
  | _ => exact .nil rfl rfl

theorem Adds.settle (h : n.Adds hands n') (turn : Turn) (d : Delivery) :
    n.Adds hands (n'.settle turn d).1 := by
  cases d <;> exact ⟨h.transcript, h.generation⟩

theorem adds_resume (s : Speech) : n.Adds (n.resumeHands now s) (n.resume now s).1 := by
  cases s with
  | queued turn =>
    unfold resume resumeHands
    dsimp only
    by_cases hstale : turn.generation ≠ n.generation
    · rw [if_pos hstale, if_pos hstale]
      exact .nil rfl rfl
    · rw [if_neg hstale, if_neg hstale]
      cases n.line.leads turn.ticket with
      | false => exact .nil rfl rfl
      | true => exact adds_deliver.settle turn _
  | delivering turn d =>
    unfold resume resumeHands
    dsimp only
    by_cases hstale : turn.generation ≠ n.generation
    · rw [if_pos hstale, if_pos hstale]
      rcases htoss : n.toss with ⟨n', coin⟩
      obtain rfl : { n with coins := n.coins.tail } = n' := congrArg (·.1) htoss
      cases coin with
      | false => exact .nil rfl rfl
      | true =>
        -- To toss a coin changes nothing that matters to the delivery.
        obtain ⟨htranscript, hgeneration⟩ : Adds { n with coins := n.coins.tail }
          (n.proceedHands now turn.text d) _ := adds_proceed d
        rw [if_pos rfl]
        dsimp only
        split
        · next heq =>
          rw [heq] at htranscript hgeneration
          exact ⟨htranscript, hgeneration⟩
        · next heq =>
          rw [heq] at htranscript hgeneration
          exact ⟨htranscript, hgeneration⟩
    · rw [if_neg hstale, if_neg hstale]
      exact (adds_proceed d).settle turn _
  | «over» outcome => exact .nil rfl rfl

theorem adds_speak (n : Narrator) (now : Nat) (text : String) :
    n.Adds (n.speakHands now text) (n.speak now text).1 := by
  unfold speak speakHands
  cases Text.trimmed? text with
  | none => exact .nil rfl rfl
  | some text =>
    let n' : Narrator := { n with line := n.line.join.1 }
    let s : Speech := .queued ⟨n.line.join.2, n.generation, text⟩
    have hadds : n'.Adds (n'.resumeHands now s) (n'.resume now s).1 := adds_resume s
    exact ⟨hadds.transcript, hadds.generation⟩

/-! ### The voice service -/

theorem read_ne_synthesizing (time : Nat) : (n.read now text).2 ≠ .synthesizing time := by
  unfold read
  dsimp only
  split <;> exact Delivery.noConfusion

theorem present_ne_synthesizing (r : Recording) (time : Nat) :
    (n.present now text r).2 ≠ .synthesizing time := by
  cases r with
  | failure => exact read_ne_synthesizing time
  | clip bytes =>
    unfold present play
    dsimp only
    split
    · split <;> exact Delivery.noConfusion
    · exact read_ne_synthesizing time

theorem voice_mem_deliverHands {time : Nat} (h : (n.deliver now text).2 = .synthesizing time) :
    .voice text ∈ n.deliverHands now text := by
  unfold deliver at h
  unfold deliverHands
  cases hvoice : n.equipment.voice with
  | none =>
    rw [hvoice] at h
    exact absurd h (read_ne_synthesizing time)
  | some v => exact List.mem_cons_self

theorem eq_of_proceed_synthesizing {d : Delivery} {time : Nat}
    (h : (n.proceed now text d).2 = .synthesizing time) : d = .synthesizing time := by
  cases d with
  | synthesizing due =>
    unfold proceed at h
    dsimp only at h
    split at h
    · exact absurd h (present_ne_synthesizing _ time)
    · exact h
  | «over» => cases h
  | _ =>
    unfold proceed at h
    dsimp only at h
    split at h <;> cases h

theorem asked?_settle {d : Delivery} (h : (n.settle turn d).2.asked? = some text) :
    ∃ time, d = .synthesizing time ∧ turn.text = text := by
  cases d with
  | synthesizing time => exact ⟨time, rfl, Option.some.inj h⟩
  | _ => cases h

/-- The voice service is at work on what it was handed, before or now. -/
theorem asked?_resume (h : (n.resume now s).2.asked? = some text) :
    s.asked? = some text ∨ .voice text ∈ n.resumeHands now s := by
  cases s with
  | queued turn =>
    unfold resume at h
    unfold resumeHands
    dsimp only at h ⊢
    split at h
    · cases h
    · next hcurrent =>
      rw [if_neg hcurrent]
      split at h
      · next hleads =>
        -- A turn that leads is handed over now.
        obtain ⟨time, hd, rfl⟩ := asked?_settle h
        rw [if_pos hleads]
        exact .inr (voice_mem_deliverHands hd)
      · cases h
  | delivering turn d =>
    unfold resume at h
    dsimp only at h
    split at h
    · rcases htoss : n.toss with ⟨n', coin⟩
      rw [htoss] at h
      cases coin with
      | false => cases h
      | true =>
        dsimp only at h
        split at h <;> cases h
    · obtain ⟨time, hd, rfl⟩ := asked?_settle h
      -- The service is still at work, so what goes on is the request of before.
      rw [eq_of_proceed_synthesizing hd]
      exact .inl rfl
  | «over» outcome => cases h

theorem asked?_speak {spoken : String} (h : (n.speak now text).2.asked? = some spoken) :
    .voice spoken ∈ n.speakHands now text := by
  unfold speak at h
  unfold speakHands
  cases htrimmed : Text.trimmed? text with
  | none =>
    rw [htrimmed] at h
    cases h
  | some trimmed =>
    rw [htrimmed] at h
    rcases asked?_resume h with hbefore | hhanded
    · cases hbefore
    · exact hhanded

/-! ### Turns -/

theorem turn?_settle {turn' : Turn} {d : Delivery}
    (h : (n.settle turn d).2.turn? = some turn') : turn = turn' := by
  cases d with
  | «over» => cases h
  | _ => exact Option.some.inj h

/-- A speech keeps its turn until it is over. -/
theorem turn?_resume (h : (n.resume now s).2.turn? = some turn) : s.turn? = some turn := by
  -- A speech that was stopped is over with this turn, whatever the coin says.
  cases s with
  | queued turn' =>
    unfold resume at h
    dsimp only at h
    split at h
    · cases h
    · split at h
      · exact congrArg some (turn?_settle h)
      · exact h
  | delivering turn' d =>
    unfold resume at h
    dsimp only at h
    split at h
    · rcases htoss : n.toss with ⟨n', coin⟩
      rw [htoss] at h
      cases coin with
      | false => cases h
      | true =>
        dsimp only at h
        split at h <;> cases h
    · exact congrArg some (turn?_settle h)
  | «over» outcome => cases h

/-- Whoever is asked for a text takes the next ticket for it, in this generation. -/
theorem turn_of_speak {spoken : String} (hspoken : Text.trimmed? text = some spoken)
    (h : (n.speak now text).2.turn? = some turn) : turn = ⟨n.line.next, n.generation, spoken⟩ := by
  unfold speak at h
  rw [hspoken] at h
  have hturn : Speech.turn? (.queued ⟨n.line.join.2, n.generation, spoken⟩) = some turn :=
    turn?_resume h
  exact (Option.some.inj hturn).symm

/-! ### Speeches that were stopped -/

theorem presentHands_cases (n : Narrator) (text : String) (r : Recording) :
    n.presentHands text r = [] ∨ n.presentHands text r = n.readHands text := by
  cases r with
  | failure => exact .inr rfl
  | clip bytes =>
    unfold presentHands playHands
    dsimp only
    split
    · exact .inl rfl
    · exact .inr rfl

/-- A speech that was stopped hands over nothing, unless the voice service is done with it now, and
    to no avail, and a coin lets it go on first. -/
theorem resumeHands_of_stale (hturn : s.turn? = some turn) (hstale : turn.generation ≠ n.generation)
    (hheard : n.resumeHands now s ≠ []) : ∃ time, s = .delivering turn (.synthesizing time) ∧
      time ≤ now ∧ n.toss.2 = true ∧ n.resumeHands now s = n.readHands turn.text := by
  -- A queued speech is cancelled. One that is delivered hands something over only where the request
  -- to the voice service ends now and the text is presented instead.
  cases s with
  | queued turn' =>
    obtain rfl := Option.some.inj hturn
    exact absurd (if_pos hstale) hheard
  | delivering turn' d =>
    obtain rfl := Option.some.inj hturn
    have hhands : n.resumeHands now (.delivering turn' d) =
        if n.toss.2 then n.proceedHands now turn'.text d else [] := if_pos hstale
    rw [hhands] at hheard ⊢
    split at hheard
    · next htoss =>
      rw [if_pos htoss]
      cases d with
      | synthesizing time =>
        unfold proceedHands at hheard ⊢
        dsimp only at hheard ⊢
        split at hheard
        · next htime =>
          rw [if_pos htime]
          exact ⟨time, rfl, htime, htoss, (presentHands_cases n _ _).resolve_left hheard⟩
        · exact absurd rfl hheard
      | _ => exact absurd rfl hheard
    · exact absurd rfl hheard
  | «over» outcome => cases hturn

end Narrator

end Storyboard
