import Mathlib.Logic.Basic
import Storyboard.Narration.Narrator

/-! # Speeches that go on

    A speech that can go on comes closer to its end every time that it does,
    and leaves the line of the narrator with its end and not before
    (`Speech.Proceeds`). A speech that cannot go on stays where it is. -/

namespace Storyboard

/-- How many more times a delivery can go on. -/
def Delivery.waits : Delivery → Nat
  | .synthesizing _ => 3
  | .playing _ => 2
  | .reading _ => 1
  | .over => 0

namespace Speech

/-- The ticket in the line of the narrator. -/
def ticket? : Speech → Option Nat
  | .queued turn => some turn.ticket
  | .delivering turn _ => some turn.ticket
  | .over _ => none

/-- How many more times a speech can go on. -/
def waits : Speech → Nat
  | .queued _ => 5
  | .delivering _ d => d.waits + 1
  | .over _ => 0

/-- The speech has something to wait for. -/
def Rests : Speech → Prop
  | .queued _ => True
  | .delivering _ d => d ≠ .over
  | .over _ => False

/-- A speech with a ticket went on, and the narrator with it. -/
structure Proceeds (n : Narrator) (s : Speech) (ticket : Nat) (x : Narrator × Speech) : Prop where
  /-- It is over and has left the line, or it waits for something and keeps its place in it. -/
  line : x.2.isOver = true ∧ x.1.line = n.line.leave ticket ∨
    x.2.Rests ∧ x.2.ticket? = some ticket ∧ x.1.line = n.line
  less : x.2.waits < s.waits

end Speech

namespace Narrator

variable {n n' : Narrator} {now : Nat} {s : Speech} {turn : Turn} {d : Delivery} {text : String}

/-! ### Delivery -/

/-- To read takes one wait at most. -/
theorem read_spec (n : Narrator) (now : Nat) (text : String) :
    (n.read now text).1.line = n.line ∧ (n.read now text).2.waits ≤ 1 := by
  refine ⟨rfl, ?_⟩
  show Delivery.waits (if Wait.endOf now _ ≤ now then .over else .reading _) ≤ 1
  split
  · exact Nat.zero_le _
  · exact Nat.le_refl _

/-- To present a recording takes two at most. -/
theorem present_spec (n : Narrator) (now : Nat) (text : String) (r : Narration.Recording) :
    (n.present now text r).1.line = n.line ∧ (n.present now text r).2.waits ≤ 2 := by
  have hread := n.read_spec now text
  cases r with
  | failure => exact ⟨hread.1, by show (n.read now text).2.waits ≤ 2; omega⟩
  | clip bytes =>
    unfold present play
    dsimp only
    split
    · split
      · exact ⟨rfl, Nat.zero_le _⟩
      · exact ⟨rfl, Nat.le_refl _⟩
    · exact ⟨hread.1, by omega⟩

theorem deliver_spec (n : Narrator) (now : Nat) (text : String) :
    (n.deliver now text).1.line = n.line ∧ (n.deliver now text).2.waits ≤ 3 := by
  unfold deliver
  cases n.equipment.voice with
  | none =>
    obtain ⟨hline, hwaits⟩ := n.read_spec now text
    exact ⟨hline, Nat.le_trans hwaits (by omega)⟩
  | some v =>
    dsimp only
    by_cases htime : Wait.endOf now v.delay ≤ now
    · obtain ⟨hline, hwaits⟩ := n.present_spec now text v.recording
      rw [if_pos htime]
      exact ⟨hline, Nat.le_succ_of_le hwaits⟩
    · rw [if_neg htime]
      exact ⟨rfl, Nat.le_refl 3⟩

theorem proceed_line (n : Narrator) (now : Nat) (text : String) (d : Delivery) :
    (n.proceed now text d).1.line = n.line := by
  cases d with
  | synthesizing time =>
    unfold proceed
    dsimp only
    split
    · exact (n.present_spec now text _).1
    · rfl
  | playing time =>
    unfold proceed
    dsimp only
    split <;> rfl
  | _ => rfl

/-- A delivery whose time has come goes on. -/
theorem proceed_of_due (h : d.due?.any (· ≤ now) = true) :
    (n.proceed now text d).2.waits < d.waits := by
  cases d with
  | synthesizing time =>
    have hdue : time ≤ now := by simpa [Delivery.due?] using h
    have hpresent := n.present_spec now text ((n.equipment.voice.map (·.recording)).getD .failure)
    have hwaits : (Delivery.synthesizing time).waits = 3 := rfl
    simp only [proceed, if_pos hdue, hwaits]
    omega
  | playing time =>
    have hdue : time ≤ now := by simpa [Delivery.due?] using h
    simp only [proceed, if_pos hdue]
    exact Nat.zero_lt_succ _
  | reading time =>
    have hdue : time ≤ now := by simpa [Delivery.due?] using h
    simp only [proceed, if_pos hdue]
    exact Nat.zero_lt_succ _
  | «over» => cases h

/-- Any other one does not. -/
theorem proceed_of_not_due (h : d.due?.any (· ≤ now) = false) :
    n.proceed now text d = (n, d) := by
  cases d with
  | «over» => rfl
  | _ time =>
    have hdue : ¬time ≤ now := by simpa [Delivery.due?] using h
    simp only [proceed, if_neg hdue]

/-! ### Speeches -/

theorem proceeds_cancel (hline : n'.line = n.line) (hs : 0 < s.waits) :
    Speech.Proceeds n s turn.ticket (n'.cancel turn) :=
  ⟨.inl ⟨rfl, congrArg (Line.leave · turn.ticket) hline⟩, hs⟩

theorem proceeds_settle (hline : n'.line = n.line) (hs : d.waits + 1 < s.waits) :
    Speech.Proceeds n s turn.ticket (n'.settle turn d) := by
  cases d with
  | «over» => exact ⟨.inl ⟨rfl, congrArg (Line.leave · turn.ticket) hline⟩, Nat.zero_lt_of_lt hs⟩
  | _ => exact ⟨.inr ⟨Delivery.noConfusion, rfl, hline⟩, hs⟩

/-- A speech that can go on proceeds. -/
theorem proceeds_resume (h : s.isReady now n = true) {ticket : Nat}
    (hticket : s.ticket? = some ticket) : Speech.Proceeds n s ticket (n.resume now s) := by
  cases s with
  | «over» outcome => cases h
  | queued turn =>
    -- A speech whose turn was stopped is cancelled. Another one is delivered once it leads the
    -- line.
    obtain rfl := Option.some.inj hticket
    simp only [resume]
    by_cases hgeneration : turn.generation ≠ n.generation
    · rw [if_pos hgeneration]
      exact proceeds_cancel rfl (Nat.succ_pos 4)
    · rw [if_neg hgeneration]
      have hleads : n.line.leads turn.ticket = true := by
        simpa [Speech.isReady, not_not.1 hgeneration] using h
      have hdeliver := n.deliver_spec now turn.text
      rw [if_pos hleads]
      refine proceeds_settle hdeliver.1 ?_
      show _ < 5
      omega
  | delivering turn d =>
    obtain rfl := Option.some.inj hticket
    have hwaits : (Speech.delivering turn d).waits = d.waits + 1 := rfl
    simp only [resume]
    by_cases hgeneration : turn.generation ≠ n.generation
    · rw [if_pos hgeneration]
      -- The coin decides whether the delivery is polled once more before it is cancelled.
      rcases htoss : n.toss with ⟨n', coin⟩
      have hline : n'.line = n.line := by
        rw [show n' = n.toss.1 by rw [htoss]]
        rfl
      cases coin with
      | false => exact proceeds_cancel hline (by omega)
      | true =>
        have hproceed := (n'.proceed_line now turn.text d).trans hline
        dsimp only
        split
        · next heq =>
          rw [heq] at hproceed
          exact ⟨.inl ⟨rfl, congrArg (Line.leave · turn.ticket) hproceed⟩, Nat.succ_pos _⟩
        · next heq =>
          rw [heq] at hproceed
          exact proceeds_cancel hproceed (by omega)
    · rw [if_neg hgeneration]
      have hdue : d.due?.any (· ≤ now) = true := by
        simpa [Speech.isReady, not_not.1 hgeneration] using h
      have hless : (n.proceed now turn.text d).2.waits < d.waits := proceed_of_due hdue
      exact proceeds_settle (n.proceed_line now turn.text d) (by omega)

/-- A speech that cannot go on stays where it is. -/
theorem resume_of_not_ready (h : s.isReady now n = false) (hs : s.Rests) :
    n.resume now s = (n, s) := by
  cases s with
  | «over» outcome => exact hs.elim
  | queued turn =>
    obtain ⟨hgeneration, hleads⟩ := Bool.or_eq_false_iff.1 h
    have hsame : ¬turn.generation ≠ n.generation := by simpa using hgeneration
    simp only [resume, if_neg hsame, hleads, Bool.false_eq_true, if_false]
  | delivering turn d =>
    obtain ⟨hgeneration, hdue⟩ := Bool.or_eq_false_iff.1 h
    have hsame : ¬turn.generation ≠ n.generation := by simpa using hgeneration
    simp only [resume, if_neg hsame, proceed_of_not_due hdue]
    cases d with
    | «over» => exact absurd rfl hs
    | _ => rfl

/-- A text that is to be spoken comes to its end at once or has a place in the line. -/
theorem speak_spec (n : Narrator) (now : Nat) (text : String) :
    (n.speak now text).2.isOver = true ∧
      ((n.speak now text).1.line = n.line ∨
        (n.speak now text).1.line = n.line.join.1.leave n.line.join.2) ∨
    (n.speak now text).2.Rests ∧ (n.speak now text).2.waits ≤ 5 ∧
      (n.speak now text).2.ticket? = some n.line.join.2 ∧
      (n.speak now text).1.line = n.line.join.1 := by
  unfold speak
  -- A blank text takes no ticket. Any other joins the line and goes on at once, if it can.
  cases Text.trimmed? text with
  | none => exact .inl ⟨rfl, .inl rfl⟩
  | some text =>
    let m : Narrator := { n with line := n.line.join.1 }
    let s : Speech := .queued ⟨n.line.join.2, n.generation, text⟩
    show (m.resume now s).2.isOver = true ∧ _ ∨ _
    cases hready : s.isReady now m with
    | true =>
      obtain ⟨hline, hless⟩ := proceeds_resume hready rfl
      rcases hline with ⟨hover, hline⟩ | ⟨hrests, hplace⟩
      · exact .inl ⟨hover, .inr hline⟩
      · exact .inr ⟨hrests, Nat.le_of_lt hless, hplace⟩
    | false =>
      have hsame : m.resume now s = (m, s) := resume_of_not_ready hready trivial
      refine .inr ?_
      show (m.resume now s).2.Rests ∧ (m.resume now s).2.waits ≤ 5 ∧
        (m.resume now s).2.ticket? = _ ∧ (m.resume now s).1.line = _
      rw [hsame]
      exact ⟨trivial, Nat.le_refl _, rfl, rfl⟩

/-! ### Tickets -/

theorem next_settle (n : Narrator) (turn : Turn) (d : Delivery) :
    (n.settle turn d).1.line.next = n.line.next := by
  cases d <;> rfl

/-- A speech that goes on takes no ticket. -/
theorem next_resume (n : Narrator) (now : Nat) (s : Speech) :
    (n.resume now s).1.line.next = n.line.next := by
  cases s with
  | queued turn =>
    unfold resume
    dsimp only
    split
    · rfl
    · split
      · rw [next_settle, (n.deliver_spec now turn.text).1]
      · rfl
  | delivering turn d =>
    unfold resume
    dsimp only
    split
    · -- A stopped delivery is polled once more or not, and a poll leaves the line alone.
      rcases htoss : n.toss with ⟨n', coin⟩
      have hsame : n'.line.next = n.line.next := by
        rw [show n' = n.toss.1 by rw [htoss]]
        rfl
      have hproceed : (n'.proceed now turn.text d).1.line.next = n.line.next := by
        rw [proceed_line, hsame]
      cases coin with
      | false => exact hsame
      | true =>
        dsimp only
        split
        · next heq =>
          rw [heq] at hproceed
          exact hproceed
        · next heq =>
          rw [heq] at hproceed
          exact hproceed
    · rw [next_settle, proceed_line]
  | «over» outcome => rfl

/-- Whoever is asked for a text takes one. -/
theorem next_speak {n : Narrator} {now : Nat} {text trimmed : String}
    (h : Text.trimmed? text = some trimmed) :
    (n.speak now text).1.line.next = n.line.next + 1 := by
  unfold speak
  rw [h]
  exact next_resume _ _ _

end Narrator

end Storyboard
