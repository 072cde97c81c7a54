import Storyboard.Number.Reading

/-! # Percent escapes

    Bytes that may not stand for themselves in a component of a URL are
    written as a percent sign and two hexadecimal digits. What may stand for
    itself differs from component to component. -/

namespace Storyboard.Url

/-- Whether `c` is a control or no ASCII at all; such characters are escaped everywhere. -/
def needsEscape (c : Char) : Bool := c.toNat < 0x20 || 0x7F ≤ c.toNat

/-- What is escaped in a fragment. -/
def inFragment (c : Char) : Bool := needsEscape c || [' ', '"', '<', '>', '\x60'].contains c

/-- What is escaped in a query. -/
def inQuery (c : Char) : Bool := needsEscape c || [' ', '"', '#', '<', '>'].contains c

/-- What is escaped in the query of a URL that names a host. -/
def inHostQuery (c : Char) : Bool := inQuery c || c == '\''

/-- What is escaped in a path. -/
def inPath (c : Char) : Bool := inFragment c || ['#', '?', '\x7b', '\x7d'].contains c

/-- What is escaped in a name or a password. -/
def inCredentials (c : Char) : Bool :=
  inPath c || ['/', ':', ';', '=', '@', '[', '\\', ']', '^', '|'].contains c

/-- The digit for a number below sixteen, in upper case. -/
def upperHex (n : Nat) : Char := (Nat.digitChar n).toUpper

/-- One byte, escaped. -/
def escapeByte (b : UInt8) : List Char := ['%', upperHex (b.toNat / 16), upperHex (b.toNat % 16)]

/-- A text with the characters that `set` holds escaped. -/
def escape (set : Char → Bool) (cs : List Char) : String :=
  String.ofList (cs.flatMap fun c =>
    if set c then (String.utf8EncodeChar c).flatMap escapeByte else [c])

/-- The bytes of a text with all escapes undone. A percent sign without two digits after it stands
    for itself. -/
def unescapedBytes : List Char → List UInt8
  | [] => []
  | '%' :: a :: b :: rest =>
    match Number.hexValue? a, Number.hexValue? b with
    | some x, some y => UInt8.ofNat (16 * x + y) :: unescapedBytes rest
    | _, _ => String.utf8EncodeChar '%' ++ unescapedBytes (a :: b :: rest)
  | c :: rest => String.utf8EncodeChar c ++ unescapedBytes rest

/-- A text with all escapes undone, if that is a text. -/
def unescape? (cs : List Char) : Option (List Char) :=
  (String.fromUTF8? (ByteArray.mk (unescapedBytes cs).toArray)).map (·.toList)

end Storyboard.Url
