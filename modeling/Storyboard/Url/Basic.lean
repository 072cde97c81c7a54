import Storyboard.Number.Layout

/-! # Addresses on the web

    A URL taken apart into its components, each in the form in which it is
    written, and its written form. -/

namespace Storyboard

/-- Who is addressed. -/
inductive Url.Host where
  /-- A name in ASCII, or nobody in particular. -/
  | name (s : String)
  /-- A number of 32 bits. -/
  | v4 (n : Nat)
  /-- Eight numbers of 16 bits. -/
  | v6 (pieces : List Nat)
  deriving DecidableEq, Repr, Inhabited

/-- Where at the host. -/
inductive Url.Path where
  /-- A text without structure. -/
  | opaqueText (s : String)
  | segments (l : List String)
  deriving DecidableEq, Repr, Inhabited

/-- A URL. -/
structure Url where
  scheme   : String
  user     : String
  password : String
  host     : Option Url.Host
  /-- The number of the socket at the host, unless it is the usual one of the scheme. -/
  socket   : Option Nat
  path     : Url.Path
  query    : Option String
  fragment : Option String
  deriving DecidableEq, Repr, Inhabited

namespace Url

/-! ### Schemes -/

/-- The schemes that name a host, with the socket that each of them usually goes to. -/
def hostSchemes : List (String × Nat) :=
  [("ftp", 21), ("http", 80), ("https", 443), ("ws", 80), ("wss", 443)]

/-- The usual socket of a scheme. -/
def usualSocket? (scheme : String) : Option Nat :=
  (hostSchemes.find? fun s => s.1 == scheme).map (·.2)

/-- Leave out a socket that goes without saying. -/
def socketFor (scheme : String) (socket : Option Nat) : Option Nat :=
  if socket = usualSocket? scheme then none else socket

/-- The same address under another scheme. -/
def withScheme (u : Url) (scheme : String) : Url :=
  { u with scheme, socket := socketFor scheme u.socket }

/-! ### Writing -/

/-- The four numbers of an address of 32 bits. -/
def v4Text (n : Nat) : String :=
  ".".intercalate ([n / Nat.pow 256 3 % 256, n / Nat.pow 256 2 % 256, n / 256 % 256, n % 256].map
    Number.natText)

/-- The length of the run of zeros at the front. -/
def zerosAtFront (pieces : List Nat) : Nat := (pieces.takeWhile (· == 0)).length

/-- The place and length of the longest run of at least two zeros, the first of several, where the
    list begins at place `i` and `best` was found before. -/
def longestZeros (best : Nat × Nat) (i : Nat) : List Nat → Nat × Nat
  | [] => best
  | p :: rest =>
    let n := zerosAtFront (p :: rest)
    longestZeros (if best.2 < n ∧ 2 ≤ n then (i, n) else best) (i + 1) rest

/-- Pieces of 16 bits with colons between them. -/
def piecesText (pieces : List Nat) : String :=
  ":".intercalate (pieces.map fun p => String.ofList (Nat.toDigits 16 p))

/-- An address of eight pieces, its longest run of zeros left out. -/
def v6Text (pieces : List Nat) : String :=
  let (i, n) := longestZeros (0, 0) 0 pieces
  if n = 0 then piecesText pieces
  else piecesText (pieces.take i) ++ "::" ++ piecesText (pieces.drop (i + n))

/-- The host as it is written. -/
def Host.text : Host → String
  | .name s => s
  | .v4 n => v4Text n
  | .v6 pieces => "[" ++ v6Text pieces ++ "]"

/-- The path as it is written. -/
def Path.text : Path → String
  | .opaqueText s => s
  | .segments l => String.join (l.map fun s => "/" ++ s)

/-- Who asks, as it is written before the host. -/
def credentials (u : Url) : String :=
  if u.user.isEmpty && u.password.isEmpty then ""
  else u.user ++ (if u.password.isEmpty then "" else ":" ++ u.password) ++ "@"

/-- Everything between the scheme and the path. A path that begins with two slashes needs a mark in
    front where there is no host. -/
def authority (u : Url) : String :=
  match u.host with
  | some h =>
    "//" ++ u.credentials ++ h.text ++
      (match u.socket with
      | some p => ":" ++ Number.natText p
      | none => "")
  | none =>
    match u.path with
    | .segments ("" :: _ :: _) => "/."
    | _ => ""

/-- The URL as it is written. -/
def text (u : Url) : String :=
  u.scheme ++ ":" ++ u.authority ++ u.path.text ++
    ((u.query.map fun q => "?" ++ q).getD "") ++ ((u.fragment.map fun f => "#" ++ f).getD "")

end Url

end Storyboard
