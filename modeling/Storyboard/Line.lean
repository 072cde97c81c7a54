/-! # Waiting lines

    Whoever needs something that only one can have at a time takes a ticket
    and joins a line. The one at the head has it until it leaves; anyone may
    leave early. -/

namespace Storyboard

/-- Tickets in the order in which they were taken. -/
structure Line where
  /-- The next ticket. -/
  next    : Nat
  /-- Those who wait, and at the head the one who does not. -/
  waiting : List Nat
  deriving DecidableEq, Repr, Inhabited

namespace Line

/-- Nobody is there. -/
def empty : Line := ⟨0, []⟩

/-- Join the line at its end with a new ticket. -/
def join (l : Line) : Line × Nat := (⟨l.next + 1, l.waiting ++ [l.next]⟩, l.next)

/-- Whether a ticket is at the head. -/
def leads (l : Line) (ticket : Nat) : Bool := l.waiting.head? == some ticket

/-- Leave the line. -/
def leave (l : Line) (ticket : Nat) : Line :=
  { l with waiting := l.waiting.filter fun t => t != ticket }

/-- Who joins an empty line is at its head. -/
theorem leads_join {l : Line} (h : l.waiting = []) : l.join.1.leads l.join.2 = true := by
  simp [join, leads, h]

/-- Joining does not change who is at the head. -/
theorem leads_join_of_leads {l : Line} {t : Nat} (h : l.leads t = true) :
    l.join.1.leads t = true := by
  simp only [leads, join, beq_iff_eq, List.head?_append] at *
  simp [h]

/-- Only one is at the head. -/
theorem eq_of_leads {l : Line} {s t : Nat} (hs : l.leads s = true) (ht : l.leads t = true) :
    s = t := by
  simp only [leads, beq_iff_eq] at hs ht
  simpa [hs] using ht

end Line

end Storyboard
