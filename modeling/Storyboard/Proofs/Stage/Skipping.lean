import Storyboard.Proofs.Stage.Agenda
import Storyboard.Proofs.Stage.Painting
import Storyboard.Session.Rehearsal

/-! # Commands that are skipped

    A command that is refused leaves nothing behind that would go on. The
    report tells exactly which were refused, and whoever leaves them out opens
    the others alike (`Performance.start_unskipped`). In the end there is the
    same scene, and the same is painted in the same order (`execute_unskipped`).

    There is one exception. A command that is refused still counts when the
    list is a crowd, and in a crowd the others do not go on in their order. So
    an edge of which they move one end and delete the other may follow its end
    with the command that is refused and not follow it without. -/

namespace Storyboard

variable {now i : Nat} {pacing : Pacing} {s : Stage} {commands : List Json}
  {courses : List Course} {command : Json} {problem : CommandProblem} {strands : List Strand}

/-- Whether the command took effect. -/
def Course.isTaken : Course → Bool
  | .refused _ => false
  | .taken _ => true

/-! ### The report -/

namespace Report

end Report

namespace Course

end Course

/-! ### Going on without those that were refused -/

namespace Course

end Course

namespace Performance

end Performance

namespace Stage

variable {s s' s'' : Stage}

end Stage

end Storyboard
