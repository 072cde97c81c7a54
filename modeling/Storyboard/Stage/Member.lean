import Storyboard.Stage.Cue

/-! # Who goes on first

    Of the strands that some commands left, those go on in a turn whose waits
    are over. They are woken in a certain order (`woken`): a time before a
    later one, at the same time whoever waited first, and those who wait for
    the turn itself in reverse. Up to thirty commands go on in the order in
    which they were given. More are a crowd, of which nobody is asked who was
    not woken: they go on in the order in which they were woken (`lineUp`).
    The same holds among the strands of one command. -/

namespace Storyboard

/-- Whether so many are asked in the order in which they were woken, not in their own. -/
def isCrowd (n : Nat) : Bool := 30 < n

/-- A strand under way and where it belongs. -/
structure Member where
  /-- The place of its command among those that took effect. -/
  course : Nat
  /-- Its place among the strands of its command, all the same in a crowd. -/
  place  : Nat
  strand : Strand
  deriving Inhabited

namespace Member

/-- The strands that a command left. -/
def ofStrands (course : Nat) (strands : List Strand) : List Member :=
  strands.zipIdx.map fun t => ⟨course, if isCrowd strands.length then 0 else t.2, t.1⟩

/-- Whether the strand can go on. -/
def isReady (now : Nat) (m : Member) : Bool := m.strand.isReady now

/-- It went on so far. -/
def goOn (m : Member) (strand : Strand) : Member := { m with strand }

/-! ### Lines -/

/-- Somebody joins a line, in front of the first whom they may precede. -/
def join (precedes : Member → Member → Bool) (m : Member) : List Member → List Member
  | [] => [m]
  | n :: rest => if precedes m n then m :: n :: rest else n :: join precedes m rest

/-- Some in line. Those who may precede each other stay as they are. -/
def inLine (precedes : Member → Member → Bool) (members : List Member) : List Member :=
  members.foldr (join precedes) []

/-- Whether the time for which one waits comes no later than that of another. -/
def isDueBefore (m n : Member) : Bool :=
  match m.strand.due?, n.strand.due? with
  | some t, some u => t ≤ u
  | _, _ => true

/-- Those whose waits are over, out of some in the order in which they began to wait, in the order
    in which they are woken. -/
def woken (now : Nat) (members : List Member) : List Member :=
  let ready := members.filter (·.isReady now)
  -- Timers fire by their times, and those that only let others go first are woken last in, first
  -- out.
  inLine isDueBefore (ready.filter (·.strand.due?.isSome)) ++
    (ready.filter (·.strand.due?.isNone)).reverse

/-- Whether one may go on before another, if the commands are asked in the order of these ranks. -/
def precedes (rank : Nat → Nat) (m n : Member) : Bool :=
  if m.course = n.course then m.place ≤ n.place else rank m.course ≤ rank n.course

/-- The commands in the order in which the first strand of each was woken. -/
def wakeRank (woken : List Member) (course : Nat) : Nat := woken.findIdx (·.course == course)

/-- Those whose waits are over, in the order in which they go on. -/
def lineUp (crowded : Bool) (now : Nat) (members : List Member) : List Member :=
  let woken := woken now members
  inLine (precedes (if crowded then wakeRank woken else id)) woken

end Member

end Storyboard
