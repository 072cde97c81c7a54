import Storyboard.Url.Basic
import Storyboard.Url.Name
import Storyboard.Url.Numeric
import Storyboard.Url.Percent

/-! # Reading addresses

    The URL that a text stands for, or why there is none. Blanks and controls
    at the ends and line breaks anywhere are passed over. A backslash is as
    good as a slash where a scheme names a host. -/

namespace Storyboard.Url

/-- Why a text is no URL. -/
inductive Problem where
  /-- It does not begin with a scheme. -/
  | noScheme
  | emptyHost
  /-- The name of the host cannot be one. -/
  | hostName
  /-- The host has a character that it may not have. -/
  | hostCharacter
  /-- The host ends in a number and is no address of 32 bits. -/
  | hostV4
  /-- The host begins with a bracket and is no address of 128 bits. -/
  | hostV6
  | socket
  deriving DecidableEq, Repr, Inhabited

/-- The problem in words. -/
def Problem.message : Problem → String
  | .noScheme => "relative URL without a base"
  | .emptyHost => "empty host"
  | .hostName => "invalid international domain name"
  | .hostCharacter => "invalid domain character"
  | .hostV4 => "invalid IPv4 address"
  | .hostV6 => "invalid IPv6 address"
  | .socket => "invalid port number"

/-- The kinds of schemes. -/
inductive Family where
  /-- A scheme that names a host. -/
  | host
  /-- Files, on a host or not. -/
  | file
  | other
  deriving DecidableEq, Repr, Inhabited

/-- The kind of a scheme. -/
def Family.ofScheme (scheme : String) : Family :=
  if (usualSocket? scheme).isSome then .host else if scheme = "file" then .file else .other

/-- Whether a character separates segments. -/
def Family.isSlash (f : Family) (c : Char) : Bool := c = '/' || (c = '\\' && f ≠ .other)

/-! ### Cutting the text up -/

/-- The text without blanks and controls at its ends and without line breaks and tabs. -/
def tidy (cs : List Char) : List Char :=
  let blank (c : Char) : Bool := c.toNat ≤ 0x20
  let trimmed := ((cs.dropWhile blank).reverse.dropWhile blank).reverse
  trimmed.filter fun c => c ≠ '\t' && c ≠ '\n' && c ≠ '\r'

/-- What stands before the first `sep`, and after it if there is one. -/
def cutAt (sep : Char) (cs : List Char) : List Char × Option (List Char) :=
  (cs.takeWhile (· ≠ sep), (cs.dropWhile (· ≠ sep)).tail?)

/-- The scheme in small letters, and what follows its colon. -/
def scheme? (cs : List Char) : Option (String × List Char) :=
  let isPart (c : Char) : Bool := c.isAlphanum || c = '+' || c = '-' || c = '.'
  match cs, cs.dropWhile isPart with
  | c :: _, ':' :: rest =>
    if c.isAlpha then some (String.ofList ((cs.takeWhile isPart).map Char.toLower), rest) else none
  | _, _ => none

/-! ### The authority -/

/-- The host of a scheme that names one, or of a file. -/
def namedHost (cs : List Char) : Except Problem Host :=
  match cs with
  | '[' :: rest =>
    if rest.getLast? = some ']' then
      match v6? rest.dropLast with
      | some pieces => .ok (.v6 pieces)
      | none => .error .hostV6
    else .error .hostV6
  | _ =>
    match (unescape? cs).bind asciiName? with
    | none => .error .hostName
    | some name =>
      -- Escapes and soft characters may leave nothing of a name that was there.
      if name.isEmpty then .error .emptyHost
      else if endsInNumber name then
        match v4? name with
        | some n => .ok (.v4 n)
        | none => .error .hostV4
      else .ok (.name (String.ofList name))

/-- The host of any other scheme. -/
def plainHost (cs : List Char) : Except Problem Host :=
  match cs with
  | '[' :: _ => namedHost cs
  | _ =>
    if cs.any fun c => isForbidden c && c ≠ '%' && (c.toNat = 0 || 0x20 ≤ c.toNat && c.toNat ≠ 0x7F)
    then .error .hostCharacter
    else .ok (.name (escape needsEscape cs))

/-- What stands before the number of the socket, and that number with its colon; a colon between
    brackets does not count. -/
def cutSocket (inBrackets : Bool) : List Char → List Char × List Char
  | [] => ([], [])
  | c :: rest =>
    if c = ':' && !inBrackets then ([], c :: rest)
    else
      let inside := if c = '[' then true else if c = ']' then false else inBrackets
      let (host, socket) := cutSocket inside rest
      (c :: host, socket)

/-- The number of a socket after its colon, if there is one; nothing stands for the usual one. -/
def readSocket (cs : List Char) : Except Problem (Option Nat) :=
  match cs with
  | [] => .ok none
  | [_] => .ok none
  | _ :: digits =>
    if digits.all Char.isDigit && Number.digitsValue digits < 65536 then
      .ok (some (Number.digitsValue digits))
    else .error .socket

/-- What stands before the last `@`, if there is one, and what follows it. -/
def cutCredentials (cs : List Char) : Option (List Char) × List Char :=
  if cs.contains '@' then
    let tail := (cs.reverse.takeWhile (· ≠ '@')).reverse
    (some (cs.take (cs.length - tail.length - 1)), tail)
  else (none, cs)

/-- Everything that is said about who is addressed, and by whom. `atEnd` tells that nothing follows
    in the text. -/
def readAuthority (u : Url) (f : Family) (atEnd : Bool) (cs : List Char) : Except Problem Url := do
  let (credentials, address) := cutCredentials cs
  if credentials = some [] && address.isEmpty && !atEnd then throw .emptyHost
  let (user, password) := cutAt ':' (credentials.getD [])
  let (name, socket) := cutSocket false address
  if name.isEmpty && (f = .host || !socket.isEmpty) then throw .emptyHost
  let host ← if f = .host then namedHost name else plainHost name
  let socket ← readSocket socket
  return { u with
    user := escape inCredentials user
    password := escape inCredentials (password.getD [])
    host := some host
    socket := socketFor u.scheme socket }

/-! ### The path -/

/-- Whether a segment stands for the one it is in. -/
def isHere (s : List Char) : Bool :=
  let s := s.map Char.toLower
  s = ['.'] || s = "%2e".toList

/-- Whether a segment stands for the one above it. -/
def isAbove (s : List Char) : Bool :=
  let s := s.map Char.toLower
  s = "..".toList || s = ".%2e".toList || s = "%2e.".toList || s = "%2e%2e".toList

/-- The segments of a path between its slashes. -/
def splitSlashes (f : Family) : List Char → List (List Char)
  | [] => [[]]
  | c :: rest =>
    if f.isSlash c then [] :: splitSlashes f rest
    else
      match splitSlashes f rest with
      | [] => [[c]]
      | s :: more => (c :: s) :: more

/-- Follow segments from those that were passed, the last one first. -/
def walk (passed : List (List Char)) : List (List Char) → List (List Char)
  | [] => passed.reverse
  | s :: rest =>
    if isAbove s then walk (if rest.isEmpty then [] :: passed.tail else passed.tail) rest
    else if isHere s then walk (if rest.isEmpty then [] :: passed else passed) rest
    else walk (s :: passed) rest

/-- A path that begins with a slash, or is empty. -/
def readPath (f : Family) (cs : List Char) : Path :=
  match cs with
  | [] => .segments (if f = .other then [] else [""])
  | c :: rest =>
    let inner := if f.isSlash c then rest else c :: rest
    .segments ((walk [] (splitSlashes f inner)).map (escape inPath))

/-! ### The whole -/

/-- Whether a text is a letter with the mark of a drive. -/
def isDrive (cs : List Char) : Bool :=
  match cs with
  | [c, m] => c.isAlpha && (m = ':' || m = '|')
  | _ => false

/-- What follows the colon of a scheme, up to the query. -/
def readRest (u : Url) (f : Family) (atEnd : Bool) (cs : List Char) : Except Problem Url := do
  match f, cs with
  | .host, _ =>
    -- Any number of slashes, even none, leads to the authority.
    let cs := cs.dropWhile f.isSlash
    let path := cs.dropWhile (!f.isSlash ·)
    let u ← readAuthority u f (atEnd && path.isEmpty) (cs.takeWhile (!f.isSlash ·))
    return { u with path := readPath f path }
  | .file, a :: b :: rest =>
    if f.isSlash a && f.isSlash b then
      let name := rest.takeWhile (!f.isSlash ·)
      -- A drive in the place of a host is the start of the path.
      if name.isEmpty || isDrive name then
        return { u with host := some (.name ""), path := readPath f rest }
      let host ← namedHost name
      return { u with
        host := some (if host = .name "localhost" then .name "" else host)
        path := readPath f (rest.dropWhile (!f.isSlash ·)) }
    return { u with host := some (.name ""), path := readPath f cs }
  | .file, cs => return { u with host := some (.name ""), path := readPath f cs }
  | .other, '/' :: '/' :: rest =>
    let path := rest.dropWhile (!f.isSlash ·)
    let u ← readAuthority u f (atEnd && path.isEmpty) (rest.takeWhile (!f.isSlash ·))
    return { u with path := readPath f path }
  | .other, '/' :: rest => return { u with path := readPath f ('/' :: rest) }
  | .other, cs => return { u with path := .opaqueText (escape needsEscape cs) }

/-- The URL that a text stands for. -/
def read (s : String) : Except Problem Url := do
  let some (scheme, rest) := scheme? (tidy s.toList) | throw .noScheme
  let f := Family.ofScheme scheme
  -- The fragment goes first, since it may hold a question mark.
  let (rest, fragment) := cutAt '#' rest
  let (rest, query) := cutAt '?' rest
  let u : Url := ⟨scheme, "", "", none, none, .segments [], none, none⟩
  let u ← readRest u f (query.isNone && fragment.isNone) rest
  return { u with
    query := query.map (escape (if f = .other then inQuery else inHostQuery))
    fragment := fragment.map (escape inFragment) }

end Storyboard.Url
