import Storyboard.Time.Span

/-! # Reconnecting

    When the connection is lost it is tried again a number of times, each time
    after a longer delay. -/

namespace Storyboard

/-- How often to try again, and how long to wait before the first time. -/
structure ReconnectPolicy where
  attempts : Nat
  base     : Span
  deriving DecidableEq, Repr

namespace ReconnectPolicy

/-- Five times, after two seconds and more. -/
def usual : ReconnectPolicy := ⟨5, .ofMillis 2000⟩

instance : Inhabited ReconnectPolicy := ⟨usual⟩

/-- When to try again. -/
inductive Retry where
  /-- Not any more, or not yet. -/
  | never
  /-- After a delay. -/
  | after (d : Span)
  /-- After a delay longer than any span, so there is no answer. -/
  | beyond
  deriving DecidableEq, Repr, Inhabited

/-- When to try for the `n`-th time, counted from one: after the base delay taken `n` times. -/
def retry (p : ReconnectPolicy) (n : Nat) : Retry :=
  if 1 ≤ n ∧ n ≤ p.attempts then
    match p.base.times? n with
    | some d => .after d
    | none => .beyond
  else .never

end ReconnectPolicy

end Storyboard
