import Storyboard.Stage.Member
import Storyboard.Stage.Opening

/-! # Performances

    A list of commands is performed by opening all of them, one after another,
    and letting what they leave to be done run side by side. The performance
    is over when every strand is. A command that is refused leaves nothing to
    be done, but it still counts when the list is a crowd; the report tells how
    many took effect and which were skipped. -/

namespace Storyboard

/-- A command that was skipped. -/
structure Skipped where
  /-- Its place in the list. -/
  index   : Nat
  problem : CommandProblem

/-- What became of some commands. -/
structure Report where
  /-- How many took effect. -/
  applied : Nat
  /-- The others. -/
  skipped : List Skipped

namespace Report

/-- Nothing was performed. -/
def empty : Report := ⟨0, []⟩

instance : Inhabited Report := ⟨empty⟩

/-- Both reports as one. -/
def merge (a b : Report) : Report := ⟨a.applied + b.applied, a.skipped ++ b.skipped⟩

/-- How many commands took effect and how many were skipped, in words. -/
def text (r : Report) : String :=
  Number.natText r.applied ++ " commands applied, " ++ Number.natText r.skipped.length ++ " skipped"

end Report

/-- What became of one command. -/
inductive Course where
  /-- It was refused. -/
  | refused (problem : CommandProblem)
  /-- It took effect and left these strands. -/
  | taken (strands : List Strand)

namespace Course

/-- Open a command. -/
def start (now : Nat) (pacing : Pacing) (s : Stage) (command : Json) : Stage × Course :=
  match Command.ofJson command with
  | .error p => (s, .refused p)
  | .ok c =>
    match s.opening now pacing c with
    | .error p => (s, .refused p)
    | .ok (s, cues) =>
      let (s, strands) := Strand.followAll now pacing s cues
      (s, .taken strands)

/-- The strands that are left. -/
def strands : Course → List Strand
  | .refused _ => []
  | .taken strands => strands

/-- Open several commands, one after another. -/
def startAll (now : Nat) (pacing : Pacing) (s : Stage) : List Json → Stage × List Course
  | [] => (s, [])
  | command :: rest =>
    let (s, course) := start now pacing s command
    let (s, courses) := startAll now pacing s rest
    (s, course :: courses)

/-- What these commands left, if the first to take effect has place `i` among those that did. -/
def membersFrom (i : Nat) : List Course → List Member
  | [] => []
  -- A refused command has nothing to wait for, so it takes no place among the others.
  | .refused _ :: rest => membersFrom i rest
  | .taken strands :: rest => Member.ofStrands i strands ++ membersFrom (i + 1) rest

/-- What became of the commands from place `i` on. -/
def reportFrom (i : Nat) : List Course → Report
  | [] => .empty
  | .refused p :: rest => Report.merge ⟨0, [⟨i, p⟩]⟩ (reportFrom (i + 1) rest)
  | .taken _ :: rest => Report.merge ⟨1, []⟩ (reportFrom (i + 1) rest)

end Course

/-- Commands under way. -/
structure Performance where
  pacing  : Pacing
  /-- What became of the commands. -/
  report  : Report
  /-- Whether there are so many that they go on in the order in which they are woken. -/
  crowded : Bool
  /-- What they left, in the order in which it began to wait. -/
  members : List Member

namespace Performance

/-- Open all commands. -/
def start (now : Nat) (pacing : Pacing) (s : Stage) (commands : List Json) : Stage × Performance :=
  let (s, courses) := Course.startAll now pacing s commands
  (s, ⟨pacing, Course.reportFrom 0 courses, isCrowd courses.length, Course.membersFrom 0 courses⟩)

/-- Let everything go on that can. What went on begins to wait behind what waits already. -/
def resume (now : Nat) (s : Stage) (p : Performance) : Stage × Performance :=
  let line := Member.lineUp p.crowded now p.members
  let (s, strands) := Strand.resumeAll now p.pacing s (line.map (·.strand))
  (s, { p with
    members := p.members.filter (!·.isReady now) ++ List.zipWith Member.goOn line strands })

/-- All strands. -/
def strands (p : Performance) : List Strand := p.members.map (·.strand)

/-- Whether everything is over. -/
def isOver (p : Performance) : Bool := p.strands.all (·.isOver)

/-- Whether something can go on. -/
def isReady (now : Nat) (p : Performance) : Bool := p.strands.any (·.isReady now)

/-- The next time at which something can. -/
def due? (p : Performance) : Option Nat := (p.strands.filterMap (·.due?)).min?

end Performance

end Storyboard
