import Storyboard.Narration.Narrator
import Storyboard.Proofs.Shift.Basic

/-! # Shifted narrators

    A narrator who spoke before goes on like a fresh one, with later tickets
    and generations and a longer transcript. -/

namespace Storyboard

variable {σ : Shift} {now : Nat}

/-- A delivery that goes on at a later time. -/
def Delivery.shift (σ : Shift) : Delivery → Delivery
  | .synthesizing time => .synthesizing (time + σ.time)
  | .playing time => .playing (time + σ.time)
  | .reading time => .reading (time + σ.time)
  | .over => .over

/-- A later place in line. -/
def Turn.shift (σ : Shift) (t : Turn) : Turn :=
  { t with ticket := t.ticket + σ.turn, generation := t.generation + σ.generation }

/-- A speech at a later place in line. -/
def Speech.shift (σ : Shift) : Speech → Speech
  | .queued turn => .queued (turn.shift σ)
  | .delivering turn d => .delivering (turn.shift σ) (d.shift σ)
  | .over outcome => .over outcome

namespace Narrator

/-- A narrator who spoke before. -/
def shift (σ : Shift) (n : Narrator) : Narrator :=
  { n with
    generation := n.generation + σ.generation
    line := n.line.shift σ.turn
    transcript := σ.transcript ++ n.transcript
    clips := n.clips + σ.clips }

variable (n : Narrator)

@[simp] theorem equipment_shift : (n.shift σ).equipment = n.equipment := rfl

@[simp] theorem coins_shift : (n.shift σ).coins = n.coins := rfl

theorem stop_shift : (n.shift σ).stop = n.stop.shift σ := by
  simp only [stop, shift, Nat.add_right_comm]

theorem toss_shift : (n.shift σ).toss = (n.toss.1.shift σ, n.toss.2) := rfl

theorem leave_shift (ticket : Nat) :
    (n.shift σ).leave (ticket + σ.turn) = (n.leave ticket).shift σ := by
  simp only [leave, shift, Line.leave_shift]

/-! ### Delivery -/

theorem read_shift (text : String) : (n.shift σ).read (now + σ.time) text =
    ((n.read now text).1.shift σ, (n.read now text).2.shift σ) := by
  simp only [read, shift, Wait.endOf_shift, Nat.add_le_add_iff_right, List.append_assoc]
  split <;> rfl

theorem clipPlayed_shift : (n.shift σ).clipPlayed = n.clipPlayed.shift σ := by
  simp only [clipPlayed, shift, Nat.add_right_comm]

theorem play_shift (text : String) (bytes : Nat) : (n.shift σ).play (now + σ.time) text bytes =
    ((n.play now text bytes).1.shift σ, (n.play now text bytes).2.shift σ) := by
  unfold play
  rw [equipment_shift]
  cases n.equipment.playerFails with
  | true => exact read_shift n text
  | false =>
    cases Narration.playingTime? n.equipment.bitrate bytes with
    | none => exact read_shift n text
    | some d =>
      simp only [Wait.endOf_shift, Nat.add_le_add_iff_right, clipPlayed_shift]
      split <;> rfl

theorem present_shift (text : String) (r : Narration.Recording) :
    (n.shift σ).present (now + σ.time) text r =
      ((n.present now text r).1.shift σ, (n.present now text r).2.shift σ) := by
  cases r with
  | clip bytes => exact play_shift n text bytes
  | failure => exact read_shift n text

theorem deliver_shift (text : String) : (n.shift σ).deliver (now + σ.time) text =
    ((n.deliver now text).1.shift σ, (n.deliver now text).2.shift σ) := by
  unfold deliver
  rw [equipment_shift]
  cases n.equipment.voice with
  | none => exact read_shift n text
  | some v =>
    simp only [Wait.endOf_shift, Nat.add_le_add_iff_right]
    generalize Wait.endOf now v.delay = time
    split
    · exact present_shift n text v.recording
    · rfl

theorem proceed_shift (text : String) (d : Delivery) :
    (n.shift σ).proceed (now + σ.time) text (d.shift σ) =
      ((n.proceed now text d).1.shift σ, (n.proceed now text d).2.shift σ) := by
  cases d with
  | synthesizing time =>
    simp only [Delivery.shift, proceed, Nat.add_le_add_iff_right, equipment_shift]
    split
    · exact present_shift n text _
    · rfl
  | playing time =>
    simp only [Delivery.shift, proceed, Nat.add_le_add_iff_right, clipPlayed_shift]
    split <;> rfl
  | reading time =>
    simp only [Delivery.shift, proceed, Nat.add_le_add_iff_right]
    split <;> rfl
  | «over» => rfl

/-! ### Speeches -/

theorem settle_shift (turn : Turn) (d : Delivery) :
    (n.shift σ).settle (turn.shift σ) (d.shift σ) =
      ((n.settle turn d).1.shift σ, (n.settle turn d).2.shift σ) := by
  cases d with
  | «over» => exact Prod.ext (leave_shift n turn.ticket) rfl
  | _ => rfl

theorem cancel_shift (turn : Turn) : (n.shift σ).cancel (turn.shift σ) =
    ((n.cancel turn).1.shift σ, (n.cancel turn).2.shift σ) :=
  Prod.ext (leave_shift n turn.ticket) rfl

/-- A speech is of the present generation as before. -/
theorem generation_shift_iff (turn : Turn) :
    (turn.shift σ).generation = (n.shift σ).generation ↔ turn.generation = n.generation :=
  Nat.add_right_cancel_iff

theorem leads_shift (ticket : Nat) :
    (n.shift σ).line.leads (ticket + σ.turn) = n.line.leads ticket := Line.leads_shift n.line

theorem resume_shift (s : Speech) : (n.shift σ).resume (now + σ.time) (s.shift σ) =
    ((n.resume now s).1.shift σ, (n.resume now s).2.shift σ) := by
  -- The generations are shifted alike, so the same speeches are out of date.
  cases s with
  | queued turn =>
    simp only [Speech.shift, resume, ne_eq, generation_shift_iff]
    split
    · exact cancel_shift n turn
    · rw [show (turn.shift σ).ticket = turn.ticket + σ.turn from rfl, leads_shift]
      split
      · rw [show (turn.shift σ).text = turn.text from rfl, deliver_shift]
        exact settle_shift _ turn _
      · rfl
  | delivering turn d =>
    simp only [Speech.shift, resume, ne_eq, generation_shift_iff,
      show (turn.shift σ).text = turn.text from rfl, proceed_shift, toss_shift]
    split
    · rcases n.toss with ⟨m, coin⟩
      cases coin with
      | false => exact cancel_shift m turn
      | true =>
        simp only [proceed_shift]
        rcases m.proceed now turn.text d with ⟨m', d'⟩
        cases d' with
        | «over» => exact settle_shift m' turn .over
        | _ => exact cancel_shift m' turn
    · exact settle_shift _ turn _
  | «over» outcome => rfl

theorem speak_shift (text : String) : (n.shift σ).speak (now + σ.time) text =
    ((n.speak now text).1.shift σ, (n.speak now text).2.shift σ) := by
  unfold speak
  cases Text.trimmed? text with
  | none => rfl
  | some text =>
    simp only [show (n.shift σ).line = n.line.shift σ.turn from rfl, Line.join_shift]
    exact resume_shift { n with line := n.line.join.1 }
      (.queued ⟨n.line.join.2, n.generation, text⟩)

theorem abandon_shift (s : Speech) : (n.shift σ).abandon (s.shift σ) = (n.abandon s).shift σ := by
  cases s with
  | queued turn => exact leave_shift n turn.ticket
  | delivering turn d => exact leave_shift n turn.ticket
  | «over» outcome => rfl

end Narrator

@[simp] theorem Delivery.due?_shift (d : Delivery) :
    (d.shift σ).due? = d.due?.map (· + σ.time) := by
  cases d <;> rfl

namespace Speech

@[simp] theorem isOver_shift (s : Speech) : (s.shift σ).isOver = s.isOver := by
  cases s <;> rfl

@[simp] theorem isReady_shift (n : Narrator) (s : Speech) :
    (s.shift σ).isReady (now + σ.time) (n.shift σ) = s.isReady now n := by
  have hstale : ∀ turn : Turn, ((turn.shift σ).generation != (n.shift σ).generation) =
      (turn.generation != n.generation) := by
    intro turn
    rw [Bool.eq_iff_iff, bne_iff_ne, bne_iff_ne, Ne, Narrator.generation_shift_iff]
  cases s with
  | queued turn =>
    simp only [shift, isReady, hstale, show (turn.shift σ).ticket = turn.ticket + σ.turn from rfl,
      Narrator.leads_shift]
  | delivering turn d =>
    simp only [shift, isReady, hstale, Delivery.due?_shift, Option.any_map,
      Nat.add_le_add_iff_right]
  | «over» outcome => rfl

@[simp] theorem due?_shift (s : Speech) : (s.shift σ).due? = s.due?.map (· + σ.time) := by
  cases s with
  | delivering turn d => exact Delivery.due?_shift d
  | _ => rfl

end Speech

end Storyboard
