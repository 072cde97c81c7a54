import Storyboard.Motion.Transition

/-! # Waiting

    What a wait is for, in either pacing: a time to come, or just the next
    turn. -/

namespace Storyboard

/-- What is waited for. -/
inductive Wait where
  /-- The next turn, whenever it comes. -/
  | turn
  /-- A time. -/
  | time (t : Nat)
  deriving DecidableEq, Repr, Inhabited

namespace Wait

/-- How many milliseconds the clock can count. -/
def clockSpan : Nat := Nat.pow 2 63 * 1000

/-- Thirty years, to be waited instead of a span that the clock cannot count. -/
def longest : Nat := 946080000000

/-- How long a wait of `d` takes. -/
def length (d : Span) : Nat := if d.ticks < clockSpan then d.ticks else longest

/-- The time at which a wait of `d` from `now` on ends. -/
def endOf (now : Nat) (d : Span) : Nat := now + length d

/-- Whether the wait is over. -/
def isOver (now : Nat) : Wait → Bool
  | .turn => true
  | .time t => t ≤ now

/-- The time at which it is over, if it is for one. -/
def time? : Wait → Option Nat
  | .turn => none
  | .time t => some t

end Wait

/-- What a wait of `d` is for. Only real time is spent waiting, and no time at all is still a turn
    of waiting. -/
def Pacing.wait (p : Pacing) (now : Nat) (d : Span) : Wait :=
  match p with
  | .realtime => if d.isZero then .turn else .time (Wait.endOf now d)
  | .instant => .turn

end Storyboard
