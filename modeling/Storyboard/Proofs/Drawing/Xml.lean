import Mathlib.Data.List.Nodup
import Storyboard.Drawing.Markup

/-! # Well-formed documents

    The part of the grammar of XML 1.0 that is left without declarations,
    comments, processing instructions, sections and names outside of ASCII: an
    element is an empty tag or stands between two tags of one name, the names of
    the attributes of a tag differ, and in values and texts the characters of
    markup stand under their names. What a tree of markup with such names writes
    is an element, whatever its texts and values are (`isElement_write`). A
    document is well-formed if moreover each of its characters is one that XML
    allows, and here it does matter what the texts and the values are
    (`all_write`). -/

namespace Storyboard

namespace Xml

/-! ### The grammar -/

/-- Whether a document may hold `c` at all: of the controls only tabs and ends of lines, and neither
    of the last two characters of the basic plane. -/
def isChar (c : Char) : Bool :=
  let n := c.toNat
  n == 0x9 || n == 0xA || n == 0xD || (0x20 ≤ n && n ≤ 0xD7FF) || (0xE000 ≤ n && n ≤ 0xFFFD) ||
    0x10000 ≤ n

/-- Whether a name may begin with `c`. -/
def isNameStart (c : Char) : Bool := c.isAlpha || c == '_' || c == ':'

/-- Whether `c` may stand in a name. -/
def isNameChar (c : Char) : Bool := isNameStart c || c.isDigit || c == '-' || c == '.'

/-- Whether `cs` is a name. -/
def isName : List Char → Bool
  | [] => false
  | c :: cs => isNameStart c && cs.all isNameChar

/-- The references that need no declaration. -/
def references : List (List Char) :=
  ["&amp;".toList, "&lt;".toList, "&gt;".toList, "&quot;".toList, "&apos;".toList]

/-- Characters and references up to a character at which they stop. -/
inductive IsRaw (stop : Char) : List Char → Prop
  | nil : IsRaw stop []
  | char {c : Char} {cs : List Char} : c ≠ '<' → c ≠ '&' → c ≠ stop → IsRaw stop cs →
      IsRaw stop (c :: cs)
  | reference {r cs : List Char} : r ∈ references → IsRaw stop cs → IsRaw stop (r ++ cs)

/-- Attributes with some names, in this order. -/
inductive IsAttributes : List (List Char) → List Char → Prop
  | nil : IsAttributes [] []
  | cons {name value : List Char} {names : List (List Char)} {cs : List Char} :
      isName name = true → IsRaw '"' value → IsAttributes names cs →
      IsAttributes (name :: names) (' ' :: name ++ '=' :: '"' :: value ++ '"' :: cs)

/-- The inside of a tag that begins or is an element with some name. -/
inductive IsTag (name : List Char) : List Char → Prop
  | mk {names : List (List Char)} {cs : List Char} : isName name = true → names.Nodup →
      IsAttributes names cs → IsTag name (name ++ cs)

mutual

/-- One element. -/
inductive IsElement : List Char → Prop
  | empty {name tag : List Char} : IsTag name tag → IsElement ('<' :: tag ++ ['/', '>'])
  | around {name tag inner : List Char} : IsTag name tag → IsContent inner →
      IsElement ('<' :: tag ++ '>' :: inner ++ '<' :: '/' :: name ++ ['>'])

/-- What may stand between two tags. -/
inductive IsContent : List Char → Prop
  | nil : IsContent []
  | text {t cs : List Char} : IsRaw '>' t → IsContent cs → IsContent (t ++ cs)
  | element {e cs : List Char} : IsElement e → IsContent cs → IsContent (e ++ cs)

end

/-- A document: one element, in which every character is allowed. -/
structure IsWellFormed (cs : List Char) : Prop where
  element : IsElement cs
  chars   : ∀ c ∈ cs, isChar c = true

/-! ### Characters that are allowed -/

theorem isChar_of_ascii {c : Char} (hlow : 0x20 ≤ c.toNat) (hhigh : c.toNat < 0x7F) :
    isChar c = true := by
  have hrange : 0x20 ≤ c.toNat ∧ c.toNat ≤ 0xD7FF := by omega
  simp [isChar, hrange]

end Xml

namespace Markup

open Xml

/-! ### Trees with such names -/

/-- Whether a tag has a name and names of its attributes that differ. -/
def isXmlTag (t : Tag) : Bool :=
  Xml.isName t.name.toList && t.attributes.all (fun a => Xml.isName a.1.toList) &&
    decide (t.attributes.map Prod.fst).Nodup

mutual

/-- Whether all tags of a piece have such names. -/
def isXml : Markup → Bool
  | .text _ => true
  | .leaf t => isXmlTag t
  | .node t inner => isXmlTag t && isXmlAll inner

/-- Whether all tags of several pieces do. -/
def isXmlAll : List Markup → Bool
  | [] => true
  | m :: rest => isXml m && isXmlAll rest

end

/-! ### What they write -/

/-- The characters that markup is made of. -/
def marks : List Char := ['&', '<', '>', '"', '\'']

/-- Each of them is escaped to a reference, and no other character is changed. -/
theorem escapeChar_cases (c : Char) :
    c ∈ marks ∧ escapeChar c ∈ references ∨ c ∉ marks ∧ escapeChar c = [c] := by
  by_cases hc : c ∈ marks
  · left
    refine ⟨hc, ?_⟩
    simp only [marks, List.mem_cons, List.not_mem_nil, or_false] at hc
    rcases hc with rfl | rfl | rfl | rfl | rfl
    all_goals decide
  · right
    refine ⟨hc, ?_⟩
    simp only [marks, List.mem_cons, List.not_mem_nil, or_false, not_or] at hc
    simp [escapeChar, hc]

/-- An escaped text goes on to the end of a value or to the next tag. -/
theorem isRaw_escape {stop : Char} (hstop : stop ∈ marks) (s : String) :
    IsRaw stop (escape s) := by
  unfold escape
  induction s.toList with
  | nil => exact .nil
  | cons c cs ih =>
    rw [List.flatMap_cons]
    rcases escapeChar_cases c with ⟨_, href⟩ | ⟨hc, hsame⟩
    · exact .reference href ih
    · have hne : ∀ m ∈ marks, c ≠ m := fun m hm heq => hc (heq ▸ hm)
      rw [hsame]
      exact .char (hne '<' (by decide)) (hne '&' (by decide)) (hne stop hstop) ih

theorem isAttributes_write {attributes : List (String × String)}
    (h : ∀ a ∈ attributes, Xml.isName a.1.toList = true) :
    IsAttributes (attributes.map fun a => a.1.toList) (attributes.flatMap writeAttribute) := by
  induction attributes with
  | nil => exact .nil
  | cons a attributes ih =>
    rw [List.forall_mem_cons] at h
    have hcons := IsAttributes.cons h.1 (isRaw_escape (by decide) a.2) (ih h.2)
    simpa [writeAttribute] using hcons

theorem isTag_write {t : Tag} (h : isXmlTag t = true) : IsTag t.name.toList (writeTag t) := by
  simp only [isXmlTag, Bool.and_eq_true, List.all_eq_true, decide_eq_true_eq] at h
  obtain ⟨⟨hname, hnames⟩, hdiffer⟩ := h
  have hnodup : (t.attributes.map fun a => a.1.toList).Nodup := by
    have hmap := hdiffer.map (fun a b => String.toList_inj.1 : Function.Injective String.toList)
    rwa [List.map_map] at hmap
  exact .mk hname hnodup (isAttributes_write hnames)

mutual

theorem isContent_write (m : Markup) (h : isXml m = true) {rest : List Char}
    (hrest : IsContent rest) : IsContent (write m ++ rest) := by
  cases m with
  | text s => exact .text (isRaw_escape (by decide) s) hrest
  | leaf t => exact .element (.empty (isTag_write h)) hrest
  | node t inner =>
    obtain ⟨ht, hinner⟩ := Bool.and_eq_true_iff.1 h
    exact .element (.around (isTag_write ht) (isContent_writeAll inner hinner)) hrest

theorem isContent_writeAll (ms : List Markup) (h : isXmlAll ms = true) :
    IsContent (writeAll ms) := by
  cases ms with
  | nil => exact .nil
  | cons m rest =>
    obtain ⟨hm, hrest⟩ := Bool.and_eq_true_iff.1 h
    exact isContent_write m hm (isContent_writeAll rest hrest)

end

/-- A tree with one element around everything writes an element. -/
theorem isElement_write {t : Tag} {inner : List Markup} (h : isXml (.node t inner) = true) :
    IsElement (write (.node t inner)) := by
  obtain ⟨ht, hinner⟩ := Bool.and_eq_true_iff.1 h
  exact .around (isTag_write ht) (isContent_writeAll inner hinner)

/-! ### The characters that they write -/

section Chars

variable (p : Char → Bool)

/-- Whether all names and values of a tag consist of characters that satisfy `p`. -/
def holdsTag (t : Tag) : Bool :=
  t.name.toList.all p && t.attributes.all fun a => a.1.toList.all p && a.2.toList.all p

mutual

/-- Whether the names, the values and the texts of a piece do. -/
def holds : Markup → Bool
  | .text s => s.toList.all p
  | .leaf t => holdsTag p t
  | .node t inner => holdsTag p t && holdsAll inner

/-- Whether those of several pieces do. -/
def holdsAll : List Markup → Bool
  | [] => true
  | m :: rest => holds m && holdsAll rest

end

end Chars

/-- Escaping brings in no character that is not allowed, and it takes none away. -/
theorem all_escape (s : String) : (escape s).all isChar = s.toList.all isChar := by
  unfold escape
  rw [List.all_flatMap]
  have hallowed : marks.all isChar = true ∧ ∀ r ∈ references, r.all isChar = true := by decide
  have hchar : ∀ c, (escapeChar c).all isChar = isChar c := by
    intro c
    rcases escapeChar_cases c with ⟨hc, href⟩ | ⟨_, hsame⟩
    · rw [List.all_eq_true.1 hallowed.1 c hc, hallowed.2 _ href]
    · simp [hsame]
  simp only [hchar]

theorem all_writeTag (t : Tag) : (writeTag t).all isChar = holdsTag isChar t := by
  have hattribute : ∀ a, (writeAttribute a).all isChar =
      (a.1.toList.all isChar && a.2.toList.all isChar) := by
    intro a
    have hmarks : isChar ' ' = true ∧ isChar '=' = true ∧ isChar '"' = true := by decide
    simp only [writeAttribute, List.all_append, List.all_cons, List.all_nil, all_escape, hmarks,
      Bool.true_and, Bool.and_true]
  rw [writeTag, List.all_append, List.all_flatMap, holdsTag]
  simp only [hattribute]

mutual

theorem all_write (m : Markup) : (write m).all isChar = holds isChar m := by
  have hmarks : isChar '<' = true ∧ isChar '/' = true ∧ isChar '>' = true := by decide
  cases m with
  | text s => exact all_escape s
  | leaf t =>
    simp only [write, List.cons_append, List.all_cons, List.all_append, List.all_nil, hmarks,
      Bool.true_and, Bool.and_true, all_writeTag, holds]
  | node t inner =>
    simp only [write, List.cons_append, List.all_cons, List.all_append, List.all_nil, hmarks,
      Bool.true_and, Bool.and_true, all_writeTag, holds, all_writeAll inner]
    -- The name stands once more in the tag at the end.
    rw [holdsTag]
    by_cases hname : t.name.toList.all isChar = true
    · rw [hname, Bool.and_true]
    · simp [Bool.eq_false_iff.2 hname]

theorem all_writeAll (ms : List Markup) : (writeAll ms).all isChar = holdsAll isChar ms := by
  cases ms with
  | nil => rfl
  | cons m rest => rw [writeAll, List.all_append, all_write m, all_writeAll rest, holdsAll]

end

end Markup

end Storyboard
