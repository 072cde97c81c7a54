import Storyboard.Proofs.Narration.Speech
import Storyboard.Proofs.Playback.Gate

/-! # What follows a step

    The speech and the dwelling that follow the commands of a step. Whenever
    they can go on, which is at once if their epoch is over, they come closer
    to their end (`trails_follow`); else nothing changes. Who speaks stands
    in the line of the narrator, and nobody else does. -/

namespace Storyboard

namespace Tail

/-- How many more times it can go on. -/
def waits : Tail → Nat
  | .ahead => 7
  | .speaking s => s.waits + 1
  | .dwelling _ => 1
  | .over => 0

/-- It has something to wait for. -/
def Rests : Tail → Prop
  | .speaking s => s.Rests
  | .dwelling _ => True
  | _ => False

/-- The ticket in the line of the narrator. -/
def ticket? : Tail → Option Nat
  | .speaking s => s.ticket?
  | _ => none

end Tail

/-- The line of a narrator, with the ticket of a tail and those of others. -/
def Narrator.Lines (n : Narrator) (t : Tail) (others : List Nat) : Prop :=
  n.line.Holds (t.ticket?.toList ++ others)

namespace Player

variable {p : Player} {epoch now : Nat} {step : Step} {tail : Tail} {others : List Nat}

theorem dwell_spec (p : Player) (now : Nat) (step : Step) :
    (p.dwell now step = .over ∨ (p.dwell now step).Rests) ∧ (p.dwell now step).waits ≤ 1 ∧
      (p.dwell now step).ticket? = none := by
  unfold dwell
  dsimp only
  split
  · exact ⟨.inl rfl, Nat.zero_le _, rfl⟩
  · exact ⟨.inr trivial, Nat.le_refl _, rfl⟩

/-- A tail came this far, with so many waits left at most. -/
structure Trails (n : Narrator) (t : Tail) (most : Nat) (x : Player × Tail) : Prop where
  rests : x.2 = .over ∨ x.2.Rests
  less  : x.2.waits ≤ most
  lines : ∀ others, n.Lines t others → x.1.narrator.Lines x.2 others

variable {n : Narrator} {most : Nat}

theorem trails_dwell (hline : ∀ others, n.Lines tail others → p.narrator.line.Holds others)
    (hmost : 1 ≤ most) (now : Nat) (step : Step) : Trails n tail most (p, p.dwell now step) := by
  obtain ⟨hrests, hless, hticket⟩ := p.dwell_spec now step
  refine ⟨hrests, by show (p.dwell now step).waits ≤ most; omega, fun others hlines => ?_⟩
  show Line.Holds p.narrator.line ((p.dwell now step).ticket?.toList ++ others)
  rw [hticket]
  exact hline others hlines

/-- A speech that is over has left the line, and the dwelling follows; any other one is in line. -/
theorem trails_settleSpeech {x : Narrator × Speech} (hmost : 1 ≤ most)
    (hx : x.2.isOver = true ∧ (∀ others, n.Lines tail others → x.1.line.Holds others) ∨
      x.2.Rests ∧ x.2.waits + 1 ≤ most ∧
        ∀ others, n.Lines tail others → x.1.Lines (.speaking x.2) others) :
    Trails n tail most (p.settleSpeech now step x) := by
  obtain ⟨m, s⟩ := x
  show Trails n tail most ({ p with narrator := m },
    if s.isOver = true then dwell { p with narrator := m } now step else .speaking s)
  rcases hx with ⟨hover, hline⟩ | ⟨hrests, hless, hlines⟩
  · have hover : s.isOver = true := hover
    rw [if_pos hover]
    exact trails_dwell (p := { p with narrator := m }) hline hmost now step
  · have hopen : ¬s.isOver = true := by
      cases s with
      | «over» outcome => exact hrests.elim
      | _ => exact Bool.false_ne_true
    rw [if_neg hopen]
    exact ⟨.inr hrests, hless, hlines⟩

/-- A tail that begins. -/
theorem trails_ahead (p : Player) (now : Nat) (step : Step) :
    Trails p.narrator .ahead 6 (p.resumeTail now step .ahead) := by
  unfold resumeTail
  cases step.spoken? with
  | none =>
    refine trails_dwell ?_ (by decide) now step
    exact fun _ hline => hline
  | some text =>
    refine trails_settleSpeech (by decide) ?_
    rcases p.narrator.speak_spec now text with
      ⟨hover, hsame | hleft⟩ | ⟨hrests, hless, hticket, hjoined⟩
    · rw [hsame]
      exact .inl ⟨hover, fun others hline => hline⟩
    · rw [hleft]
      exact .inl ⟨hover, fun others hline => (Line.Holds.join hline).leave⟩
    · refine .inr ⟨hrests, Nat.succ_le_succ hless, fun others hline => ?_⟩
      show Line.Holds _ ((p.narrator.speak now text).2.ticket?.toList ++ others)
      rw [hticket, hjoined]
      exact Line.Holds.join hline

/-- A speech that goes on. -/
theorem trails_speaking {s : Speech} (hready : s.isReady now p.narrator = true) (step : Step) :
    Trails p.narrator (.speaking s) s.waits
      (p.settleSpeech now step (p.narrator.resume now s)) := by
  obtain ⟨ticket, hticket⟩ : ∃ ticket, s.ticket? = some ticket := by
    cases s with
    | queued turn => exact ⟨_, rfl⟩
    | delivering turn d => exact ⟨_, rfl⟩
    | «over» outcome => cases hready
  have hline : ∀ others, p.narrator.Lines (.speaking s) others →
      p.narrator.line.Holds (ticket :: others) := by
    intro others hlines
    have hline : p.narrator.line.Holds (s.ticket?.toList ++ others) := hlines
    rwa [hticket] at hline
  -- The speech is over and left the line, or it has its place still and fewer waits.
  obtain ⟨hplace, hless⟩ := Narrator.proceeds_resume hready hticket
  generalize p.narrator.resume now s = x at hplace hless
  refine trails_settleSpeech (Nat.lt_of_le_of_lt (Nat.zero_le _) hless) ?_
  rcases hplace with ⟨hover, hleft⟩ | ⟨hrests, hkept, hsame⟩
  · rw [hleft]
    exact .inl ⟨hover, fun others hlines => (hline others hlines).leave⟩
  · refine .inr ⟨hrests, hless, fun others hlines => ?_⟩
    show Line.Holds x.1.line (x.2.ticket?.toList ++ others)
    rw [hkept, hsame]
    exact hline others hlines

/-- A tail that can go on comes closer to its end. -/
theorem trails_resumeTail (hready : tail.isReady now p.narrator = true) :
    Trails p.narrator tail (tail.waits - 1) (p.resumeTail now step tail) := by
  cases tail with
  | «over» => cases hready
  | ahead => exact trails_ahead p now step
  | speaking s => exact trails_speaking hready step
  | dwelling time =>
    have htime : time ≤ now := by simpa [Tail.isReady] using hready
    show Trails p.narrator (.dwelling time) 0 (p, if time ≤ now then .over else .dwelling time)
    rw [if_pos htime]
    exact ⟨.inl rfl, Nat.le_refl _, fun others hlines => hlines⟩

/-- A tail that cannot go on stays where it is. -/
theorem resumeTail_of_not_ready (hready : tail.isReady now p.narrator = false)
    (hrests : tail.Rests) : p.resumeTail now step tail = (p, tail) := by
  cases tail with
  | speaking s =>
    have hsame : p.narrator.resume now s = (p.narrator, s) :=
      Narrator.resume_of_not_ready hready hrests
    have hopen : s.isOver = false := by
      cases s with
      | «over» outcome => exact hrests.elim
      | _ => rfl
    simp only [resumeTail, hsame, settleSpeech, hopen, Bool.false_eq_true, if_false]
  | dwelling time =>
    have htime : ¬time ≤ now := by simpa [Tail.isReady] using hready
    simp only [resumeTail, if_neg htime]
  | _ => exact hrests.elim

/-- Nobody speaks any more when the tail is dropped. -/
theorem holds_dropTail (hlines : p.narrator.Lines tail others) :
    (p.dropTail tail).narrator.line.Holds others := by
  cases tail with
  | speaking s =>
    have hline : p.narrator.line.Holds (s.ticket?.toList ++ others) := hlines
    cases s with
    | «over» outcome => exact hline
    | _ => exact hline.leave
  | _ => exact hlines

/-- As long as the epoch lasts, what follows the commands goes on. -/
theorem follow_of_current (h : p.epoch = epoch) (now : Nat) (step : Step) (tail : Tail) :
    p.follow epoch now step tail = p.resumeTail now step tail :=
  if_pos (show p.isCurrent epoch = true from beq_iff_eq.2 h)

/-- When it is over, a coin decides whether the tail goes on first. -/
theorem follow_of_stale (h : p.isCurrent epoch = false) (now : Nat) (step : Step) (tail : Tail) :
    p.follow epoch now step tail =
      if p.toss.2 then
        ((p.toss.1.resumeTail now step tail).1.dropTail (p.toss.1.resumeTail now step tail).2, .over)
      else (p.toss.1.dropTail tail, .over) := by
  unfold follow
  rw [h]
  rcases p.toss with ⟨p', coin⟩
  cases coin <;> rfl

/-- When the epoch is over, so is the tail. -/
theorem trails_follow_of_stale (now : Nat) (step : Step) (hstale : p.isCurrent epoch = false)
    (htail : tail = .ahead ∨ tail.Rests) :
    Trails p.narrator tail 0 (p.follow epoch now step tail) := by
  rw [follow_of_stale hstale]
  cases p.toss.2 with
  | false =>
    rw [if_neg Bool.false_ne_true]
    exact ⟨.inl rfl, Nat.le_refl _, fun others hlines => holds_dropTail (p := p.toss.1) hlines⟩
  | true =>
    rw [if_pos rfl]
    refine ⟨.inl rfl, Nat.le_refl _, fun others hlines => holds_dropTail ?_⟩
    cases hready : tail.isReady now p.narrator with
    | true => exact (trails_resumeTail (p := p.toss.1) hready).lines others hlines
    | false =>
      have hrests : tail.Rests := by
        rcases htail with rfl | hrests
        · cases hready
        · exact hrests
      rw [resumeTail_of_not_ready (p := p.toss.1) hready hrests]
      exact hlines

/-- A tail that can go on, or whose epoch is over, comes closer to its end. -/
theorem trails_follow (step : Step)
    (hready : (!p.isCurrent epoch || tail.isReady now p.narrator) = true)
    (htail : tail = .ahead ∨ tail.Rests) :
    Trails p.narrator tail (tail.waits - 1) (p.follow epoch now step tail) := by
  cases hcurrent : p.isCurrent epoch with
  | true =>
    rw [hcurrent] at hready
    rw [follow_of_current (beq_iff_eq.1 hcurrent)]
    exact trails_resumeTail hready
  | false =>
    obtain ⟨hrests, hless, hlines⟩ :=
      trails_follow_of_stale now step hcurrent htail
    exact ⟨hrests, by omega, hlines⟩

/-- A tail that cannot go on stays where it is. -/
theorem follow_of_not_ready (hready : (!p.isCurrent epoch || tail.isReady now p.narrator) = false)
    (hrests : tail.Rests) : p.follow epoch now step tail = (p, tail) := by
  obtain ⟨hcurrent, htail⟩ := Bool.or_eq_false_iff.1 hready
  rw [follow_of_current (by simpa [isCurrent] using hcurrent)]
  exact resumeTail_of_not_ready htail hrests

/-- Whatever becomes of a tail has something to wait for, or the tail is over. -/
theorem rests_follow (p : Player) (epoch now : Nat) (step : Step)
    (htail : tail = .ahead ∨ tail.Rests) :
    (p.follow epoch now step tail).2 = .over ∨ (p.follow epoch now step tail).2.Rests := by
  cases hready : !p.isCurrent epoch || tail.isReady now p.narrator with
  | true => exact (trails_follow step hready htail).rests
  | false =>
    have hrests : tail.Rests := by
      rcases htail with rfl | hrests
      · have hahead := (Bool.or_eq_false_iff.1 hready).2
        cases hahead
      · exact hrests
    rw [follow_of_not_ready hready hrests]
    exact .inr hrests

end Player

end Storyboard
