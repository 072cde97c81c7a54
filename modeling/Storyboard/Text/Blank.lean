/-! # Blank characters

    White space of any script: the tests, trimming and splitting that the
    rest of the library means by "blank", "trimmed" and "words". -/

namespace Storyboard.Text

/-- Whether `c` is white space: the ASCII blanks and controls that count as such, the no-break
    space, the ideographic space and the typographic spaces between them. -/
def isBlank (c : Char) : Bool :=
  let n := c.toNat
  (0x09 ≤ n && n ≤ 0x0D) || n == 0x20 || n == 0x85 || n == 0xA0 || n == 0x1680 ||
    (0x2000 ≤ n && n ≤ 0x200A) || n == 0x2028 || n == 0x2029 || n == 0x202F || n == 0x205F ||
    n == 0x3000

/-! ### Characters -/

/-- Drop the blanks at both ends. -/
def trimChars (cs : List Char) : List Char :=
  ((cs.dropWhile isBlank).reverse.dropWhile isBlank).reverse

/-- The maximal runs of characters that are not blank. -/
def wordsOf (cs : List Char) : List (List Char) :=
  let rec go (cur : List Char) : List Char → List (List Char)
    | [] => if cur.isEmpty then [] else [cur.reverse]
    | c :: rest =>
      if isBlank c then
        if cur.isEmpty then go [] rest else cur.reverse :: go [] rest
      else go (c :: cur) rest
  go [] cs

/-- Replace every maximal run of blanks by one space. -/
def collapseBlanks : List Char → List Char
  | [] => []
  | c :: rest =>
    if isBlank c then
      match rest with
      | [] => [' ']
      | d :: _ => if isBlank d then collapseBlanks rest else ' ' :: collapseBlanks rest
    else c :: collapseBlanks rest

/-! ### Texts -/

/-- `s` without the blanks at both ends. -/
def trim (s : String) : String := String.ofList (trimChars s.toList)

/-- The words of `s`. -/
def words (s : String) : List String := (wordsOf s.toList).map String.ofList

/-- Whether `s` holds nothing but blanks. -/
def isBlankText (s : String) : Bool := s.toList.all isBlank

/-- `s` trimmed, unless nothing is left. -/
def trimmed? (s : String) : Option String :=
  let t := trim s
  if t.isEmpty then none else some t

/-- `s` with ASCII letters in lower case. -/
def lower (s : String) : String := s.map Char.toLower

/-- `s` with ASCII letters in upper case. -/
def upper (s : String) : String := s.map Char.toUpper

/-- `rest` when `cs` is `start` followed by `rest`. -/
def dropStart? {α : Type} [BEq α] : List α → List α → Option (List α)
  | [], rest => some rest
  | _ :: _, [] => none
  | p :: ps, c :: cs => if p == c then dropStart? ps cs else none

/-- `cs` cut at every `sep`. -/
def splitAtChar (sep : Char) : List Char → List (List Char)
  | [] => [[]]
  | c :: rest =>
    if c = sep then [] :: splitAtChar sep rest
    else match splitAtChar sep rest with
      | [] => [[c]]
      | part :: parts => (c :: part) :: parts

end Storyboard.Text
