import Storyboard.Number.Layout

/-! # Spans of time

    A span is a whole number of nanoseconds, at most `Span.longest`. The clock
    of the library ticks in whole milliseconds: a wait for a span ends at the
    first tick that is not before its end. -/

namespace Storyboard

/-- A length of time. -/
structure Span where
  /-- Its length in nanoseconds. -/
  nanos : Nat
  deriving DecidableEq, Repr, Inhabited

namespace Span

/-- No time at all. -/
def zero : Span := ⟨0⟩

/-- Nanoseconds in a second. -/
def perSecond : Nat := 1000000000

/-- Nanoseconds in a millisecond. -/
def perMilli : Nat := 1000000

/-- The longest span: as many whole seconds as 64 bits hold, and a second but one nanosecond. -/
def longest : Span := ⟨Nat.pow 2 64 * perSecond - 1⟩

/-- `n` milliseconds. -/
def ofMillis (n : Nat) : Span := ⟨n * perMilli⟩

/-- Whether the span is empty. -/
def isZero (d : Span) : Bool := d.nanos == 0

/-- The span in seconds, its whole seconds and the rest each rounded before they are added. -/
def seconds (d : Span) : Float :=
  Number.ofNat (d.nanos / perSecond) + Number.ofNat (d.nanos % perSecond) / 1000000000.0

/-- `x` seconds to the nearest nanosecond, a half to the even one. Anything that is not positive
    is no time at all, and anything too long the longest span. -/
def ofSeconds (x : Float) : Span :=
  match Number.parts x with
  | ⟨_, .undefined⟩ => zero
  | ⟨negative, .infinite⟩ => if negative then zero else longest
  | ⟨negative, .finite m q⟩ =>
    if negative then zero
    else
      let n :=
        if q < 0 then Number.roundDiv (m * perSecond) (Nat.pow 2 q.natAbs)
        else m * perSecond * Nat.pow 2 q.natAbs
      ⟨min n longest.nanos⟩

/-- The number of ticks of a millisecond that the span needs. -/
def ticks (d : Span) : Nat := (d.nanos + (perMilli - 1)) / perMilli

/-- `d` taken `n` times, or nothing when that is longer than any span. -/
def times? (d : Span) (n : Nat) : Option Span :=
  if d.nanos * n ≤ longest.nanos then some ⟨d.nanos * n⟩ else none

/-- The span as seconds with nine places. -/
def text (d : Span) : String :=
  let rest := Number.natDigits (d.nanos % perSecond)
  String.ofList (Number.natDigits (d.nanos / perSecond) ++
    '.' :: (List.replicate (9 - rest.length) '0' ++ rest))

/-- Milliseconds need as many ticks. -/
theorem ticks_ofMillis (n : Nat) : (ofMillis n).ticks = n := by
  simp only [ticks, ofMillis, perMilli]
  omega

/-- A span needs no tick exactly when it is empty. -/
theorem ticks_eq_zero (d : Span) : d.ticks = 0 ↔ d.isZero = true := by
  simp only [ticks, isZero, perMilli, beq_iff_eq]
  omega

end Span

end Storyboard
