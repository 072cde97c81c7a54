/-! # Categories of failure

    Every failure that the library reports to its caller belongs to a
    category, and its text names the category first. The causes themselves
    are types of the modules where they arise. -/

namespace Storyboard

/-- What kind of thing went wrong. -/
inductive Category where
  /-- Data from the caller that is not valid. -/
  | validation
  /-- A change that the scene refuses. -/
  | scene
  /-- Speech could not be made or played. -/
  | narration
  /-- The connection to the backend. -/
  | channel
  /-- Data that cannot be read. -/
  | serialization
  /-- Anything from outside the library. -/
  | other
  deriving DecidableEq, Repr

namespace Category

/-- What stands before the text of a failure. -/
def lead : Category → String
  | .validation => "validation error: "
  | .scene => "scene error: "
  | .narration => "narration error: "
  | .channel => "channel error: "
  | .serialization => "serialization error: "
  | .other => ""

/-- The full text of a failure. -/
def describe (c : Category) (text : String) : String := c.lead ++ text

end Category

end Storyboard
