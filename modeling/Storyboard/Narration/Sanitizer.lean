import Storyboard.Text.Word

/-! # Texts made fit for speech

    A text is cleaned before it is read aloud, in passes: back quotes are
    dropped, quotes around a single word are taken off, the usual running
    times are written out in words, and all blanks become single spaces.

    Every pass but the first and the last replaces what a rule finds, from left
    to right and without looking at its own output again. -/

namespace Storyboard.Narration

/-! ### Rules -/

/-- A rule looks at the start of a text. If something is to be replaced there, it gives what
    stands in its place and the number of characters that are replaced, at least one. -/
abbrev Rule := List Char → Option (List Char × Nat)

/-- Replace everything that a rule finds after the first `skip` characters, which are left out. -/
def Rule.replaceFrom (r : Rule) : Nat → List Char → List Char
  | _, [] => []
  | skip + 1, _ :: cs => Rule.replaceFrom r skip cs
  | 0, c :: cs =>
    match r (c :: cs) with
    | some (words, n) => words ++ Rule.replaceFrom r (n - 1) cs
    | none => c :: Rule.replaceFrom r 0 cs

/-- Replace everything that a rule finds. -/
def Rule.replaceAll (r : Rule) (cs : List Char) : List Char := r.replaceFrom 0 cs

/-- Skipping characters is the same as taking them away first. -/
theorem Rule.replaceFrom_eq_drop (r : Rule) (n : Nat) (cs : List Char) :
    r.replaceFrom n cs = r.replaceAll (cs.drop n) := by
  induction cs generalizing n with
  | nil => cases n <;> simp [Rule.replaceFrom, Rule.replaceAll]
  | cons c cs ih =>
    cases n with
    | zero => rfl
    | succ n => simpa [Rule.replaceFrom] using ih n

/-- Take the quotes `q` off a single word. -/
def unquote (q : Char) : Rule
  | [] => none
  | c :: cs =>
    let word := cs.takeWhile Text.isWord
    if c = q ∧ word ≠ [] ∧ (cs.drop word.length).head? = some q then some (word, word.length + 2)
    else none

/-! ### Spellings -/

/-- One piece of a spelling. -/
inductive Piece where
  /-- These characters. -/
  | word (cs : List Char)
  /-- Blanks or nothing. -/
  | gap
  /-- At least one blank. -/
  | space
  deriving DecidableEq, Repr, Inhabited

/-- How a running time may be spelled. No piece begins with a blank after a gap. -/
abbrev Spelling := List Piece

/-- What follows a spelling at the start of a text. -/
def Spelling.rest? : Spelling → List Char → Option (List Char)
  | [], cs => some cs
  | .word w :: pieces, cs => (Text.dropStart? w cs).bind (rest? pieces)
  | .gap :: pieces, cs => rest? pieces (cs.dropWhile Text.isBlank)
  | .space :: _, [] => none
  | .space :: pieces, c :: cs =>
    if Text.isBlank c then rest? pieces (cs.dropWhile Text.isBlank) else none

/-- Put words in place of a spelling. -/
def Spelling.spoken (s : Spelling) (words : String) : Rule := fun cs =>
  (s.rest? cs).map fun rest => (words.toList, cs.length - rest.length)

/-- A spelling inside the parentheses of a running time. -/
def Spelling.ofOrder (pieces : List Piece) : Spelling :=
  [.word ['O', '('], .gap] ++ pieces ++ [.gap, .word [')']]

/-- The running times that are written out, the longer spellings first. -/
def orders : List (Spelling × String) := [
  (.ofOrder [.word ['N'], .gap, .word ['^'], .gap, .word ['2']], "O of N squared"),
  (.ofOrder [.word ['N'], .space, .word ['l', 'o', 'g'], .gap, .word ['N']], "O of N log N"),
  (.ofOrder [.word ['l', 'o', 'g'], .gap, .word ['N']], "O of log N"),
  (.ofOrder [.word ['N']], "O of N"),
  (.ofOrder [.word ['1']], "O of 1")]

/-! ### Cleaning -/

/-- Whether `c` is a back quote. -/
def isBackQuote (c : Char) : Bool := c == '\x60'

/-- The rules in the order in which they are applied. -/
def rules : List Rule :=
  -- One pass for each kind of quote: quotes that a pass uncovers are not looked at again.
  [unquote '\'', unquote '"'] ++ orders.map fun o => o.1.spoken o.2

/-- All passes, one after another. -/
def cleanChars (cs : List Char) : List Char :=
  let plain := cs.filter fun c => !isBackQuote c
  Text.trimChars (Text.collapseBlanks (rules.foldl (fun cs r => r.replaceAll cs) plain))

/-- The text as it is spoken. -/
def clean (s : String) : String := String.ofList (cleanChars s.toList)

end Storyboard.Narration
