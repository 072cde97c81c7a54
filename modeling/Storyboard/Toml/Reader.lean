import Storyboard.Text.Blank
import Storyboard.Toml.Scalar
import Storyboard.Toml.Table

/-! # Reading TOML

    A document is a list of lines: headers, keys with values, comments. Its
    value is an object; a date is an object of its own kind. -/

namespace Storyboard.Toml

/-! ### Blanks and comments -/

/-- What follows blanks on a line. -/
def skipBlanks (cs : List Char) : List Char := cs.dropWhile fun c => c = ' ' || c = '\t'

/-- Whether a character may not stand in a comment or a text. -/
def isControl (c : Char) : Bool := (c.toNat < 0x20 && c ≠ '\t') || c.toNat = 0x7F

/-- What follows a line break. -/
def newline? : List Char → Option (List Char)
  | '\n' :: rest => some rest
  | '\r' :: '\n' :: rest => some rest
  | _ => none

/-- What follows a comment, if there is one, up to the line break. -/
def skipComment : List Char → List Char
  | '#' :: rest => rest.dropWhile (!isControl ·)
  | cs => cs

/-- What follows the rest of a line that has nothing more to say. -/
def endLine? (cs : List Char) : Option (List Char) :=
  match skipComment (skipBlanks cs) with
  | [] => some []
  | cs => newline? cs

/-- What follows blanks, comments and line breaks; `fuel` bounds how many lines. -/
def skipLines : Nat → List Char → List Char
  | 0, cs => cs
  | fuel + 1, cs =>
    let cs := skipBlanks cs
    match newline? (skipComment cs) with
    | some rest => skipLines fuel rest
    | none => cs

/-! ### Texts -/

/-- The character of exactly so many hexadecimal digits, and what follows them. -/
def escapedPoint? (digits : Nat) (cs : List Char) : Option (Char × List Char) := do
  let ds := cs.take digits
  if ds.length ≠ digits then none
  let n ← ds.foldl (fun n c => do some (16 * (← n) + (← Number.hexValue? c))) (some 0)
  if n.isValidChar then some (Char.ofNat n, cs.drop digits) else none

/-- The character of an escape after its backslash, and what follows it. -/
def escape? : List Char → Option (Char × List Char)
  | 'b' :: rest => some ('\x08', rest)
  | 't' :: rest => some ('\t', rest)
  | 'n' :: rest => some ('\n', rest)
  | 'f' :: rest => some ('\x0c', rest)
  | 'r' :: rest => some ('\r', rest)
  | 'e' :: rest => some ('\x1b', rest)
  | '"' :: rest => some ('"', rest)
  | '\\' :: rest => some ('\\', rest)
  | 'x' :: rest => escapedPoint? 2 rest
  | 'u' :: rest => escapedPoint? 4 rest
  | 'U' :: rest => escapedPoint? 8 rest
  | _ => none

/-- The rest of a text on one line, and what follows its closing quote. `taken` holds the
    characters so far, the last one first. -/
def line? (quote : Char) (taken : List Char) : Nat → List Char → Option (List Char × List Char)
  | 0, _ => none
  | fuel + 1, cs =>
    match cs with
    | [] => none
    | c :: rest =>
      if c = quote then some (taken.reverse, rest)
      else if c = '\\' && quote = '"' then
        match escape? rest with
        | some (c, rest) => line? quote (c :: taken) fuel rest
        | none => none
      else if isControl c then none
      else line? quote (c :: taken) fuel rest

/-- What follows a backslash at the end of a line: all blanks and line breaks. -/
def continued? (fuel : Nat) (cs : List Char) : Option (List Char) :=
  (newline? (skipBlanks cs)).map fun rest =>
    let rec go : Nat → List Char → List Char
      | 0, cs => cs
      | fuel + 1, cs =>
        match newline? (skipBlanks cs) with
        | some rest => go fuel rest
        | none => skipBlanks cs
    go fuel rest

/-- The rest of a text over several lines, and what follows its three closing quotes, before which
    two more may stand. -/
def lines? (quote : Char) (taken : List Char) : Nat → List Char → Option (List Char × List Char)
  | 0, _ => none
  | fuel + 1, cs =>
    -- Of three to five quotes the last three close the text and the others belong to it.
    let quotes := (cs.takeWhile (· = quote)).length
    if 3 ≤ quotes then
      if quotes ≤ 5 then some ((List.replicate (quotes - 3) quote ++ taken).reverse, cs.drop quotes)
      else none
    else
      match newline? cs, cs with
      | some rest, _ => lines? quote ('\n' :: taken) fuel rest
      | none, [] => none
      | none, c :: rest =>
        if c = '\\' && quote = '"' then
          match continued? rest.length rest, escape? rest with
          | some rest, _ => lines? quote taken fuel rest
          | none, some (c, rest) => lines? quote (c :: taken) fuel rest
          | none, none => none
        else if isControl c then none
        else lines? quote (c :: taken) fuel rest

/-- A text after its first quote, and what follows it. -/
def text? (quote : Char) (cs : List Char) : Option (String × List Char) :=
  let read := match cs with
    | a :: b :: rest =>
      if a = quote && b = quote then
        let rest := (newline? rest).getD rest
        lines? quote [] (rest.length + 1) rest
      else line? quote [] (cs.length + 1) cs
    | cs => line? quote [] (cs.length + 1) cs
  read.map fun (taken, rest) => (String.ofList taken, rest)

/-! ### Keys -/

/-- Whether a character may stand in a key without quotes. -/
def isBare (c : Char) : Bool := c.isAlphanum || c = '_' || c = '-'

/-- One part of a key, and what follows it. -/
def simpleKey? (cs : List Char) : Option (String × List Char) :=
  match cs with
  | '"' :: rest =>
    (line? '"' [] (rest.length + 1) rest).map fun (k, rest) => (String.ofList k, rest)
  | '\'' :: rest =>
    (line? '\'' [] (rest.length + 1) rest).map fun (k, rest) => (String.ofList k, rest)
  | cs =>
    let k := cs.takeWhile isBare
    if k.isEmpty then none else some (String.ofList k, cs.dropWhile isBare)

/-- A key with its parts, and what follows it and its blanks. -/
def key? : Nat → List Char → Option (List String × List Char)
  | 0, _ => none
  | fuel + 1, cs => do
    let (k, rest) ← simpleKey? (skipBlanks cs)
    match skipBlanks rest with
    | '.' :: rest =>
      let (ks, rest) ← key? fuel rest
      some (k :: ks, rest)
    | rest => some ([k], rest)

/-! ### Values -/

/-- The scalar in front, and what follows it. A date may have its time after a blank. -/
def readScalar? (cs : List Char) : Option (Json × List Char) :=
  let token := cs.takeWhile isScalarChar
  let rest := cs.dropWhile isScalarChar
  let time := (rest.drop 1).takeWhile isScalarChar
  match rest with
  | ' ' :: _ =>
    -- The blank belongs to the value only between a whole date and something with a digit in it.
    if afterDate? token == some [] && time.any Char.isDigit then
      (scalar? (token ++ ' ' :: time)).map fun v => (v, rest.drop (time.length + 1))
    else (scalar? token).map fun v => (v, rest)
  | _ => (scalar? token).map fun v => (v, rest)

mutual

/-- A value and what follows it; `fuel` bounds the steps. -/
def value? : Nat → List Char → Option (Json × List Char)
  | 0, _ => none
  | fuel + 1, cs =>
    match cs with
    | '"' :: rest => (text? '"' rest).map fun (s, rest) => (.str s, rest)
    | '\'' :: rest => (text? '\'' rest).map fun (s, rest) => (.str s, rest)
    | '[' :: rest => items? fuel [] rest
    | '\x7b' :: rest => members? fuel [] rest
    | cs => readScalar? cs

/-- The items of an array up to its closing bracket. -/
def items? : Nat → List Json → List Char → Option (Json × List Char)
  | 0, _, _ => none
  | fuel + 1, taken, cs =>
    match skipLines cs.length cs with
    | ']' :: rest => some (.arr taken.reverse, rest)
    | cs =>
      match value? fuel cs with
      | none => none
      | some (v, rest) =>
        match skipLines rest.length rest with
        | ',' :: rest => items? fuel (v :: taken) rest
        | ']' :: rest => some (.arr (v :: taken).reverse, rest)
        | _ => none

/-- The members of a table on one line up to its closing brace. -/
def members? : Nat → Entries → List Char → Option (Json × List Char)
  | 0, _, _ => none
  | fuel + 1, taken, cs =>
    match skipLines cs.length cs with
    | '\x7d' :: rest => some (.obj (membersOf taken), rest)
    | cs =>
      match key? (cs.length + 1) cs with
      | some (k, '=' :: rest) =>
        match value? fuel (skipBlanks rest) with
        | none => none
        | some (v, rest) =>
          match Entries.assign v k taken with
          | none => none
          | some taken =>
            match skipLines rest.length rest with
            | ',' :: rest => members? fuel taken rest
            | '\x7d' :: rest => some (.obj (membersOf taken), rest)
            | _ => none
      | _ => none

end

/-! ### Documents -/

/-- A header after its opening bracket: the table is opened, and what follows the line. -/
def header? (root : Entries) (cs : List Char) : Option (List String × Entries × List Char) :=
  match cs with
  | '[' :: cs =>
    match key? (cs.length + 1) cs with
    | some (path, ']' :: ']' :: rest) => do
      some (path, ← root.addTable path, ← endLine? rest)
    | _ => none
  | cs =>
    match key? (cs.length + 1) cs with
    | some (path, ']' :: rest) => do some (path, ← root.openTable path, ← endLine? rest)
    | _ => none

/-- A key with its value in the table under a header, and what follows the line. -/
def entry? (root : Entries) (path : List String) (cs : List Char) : Option (Entries × List Char) :=
  match key? (cs.length + 1) cs with
  | some (k, '=' :: rest) => do
    let (v, rest) ← value? (2 * rest.length + 2) (skipBlanks rest)
    some (← root.within (Entries.assign v k) path, ← endLine? rest)
  | _ => none

/-- Read lines; `path` is the header under which they stand, and `fuel` bounds how many. -/
def document? (root : Entries) (path : List String) : Nat → List Char → Option Entries
  | 0, _ => none
  | fuel + 1, cs =>
    match skipLines cs.length cs with
    | [] => some root
    | '#' :: _ => if (endLine? (skipLines cs.length cs)).isSome then some root else none
    | '[' :: rest =>
      match header? root rest with
      | some (path, root, rest) => document? root path fuel rest
      | none => none
    | cs =>
      match entry? root path cs with
      | some (root, rest) => document? root path fuel rest
      | none => none

/-- The value of a TOML document, which a byte order mark may precede. -/
def read? (s : String) : Option Json :=
  let cs := match s.toList with
    | '\ufeff' :: cs => cs
    | cs => cs
  (document? [] [] (cs.length + 1) cs).map fun es => .obj (membersOf es)

end Storyboard.Toml
