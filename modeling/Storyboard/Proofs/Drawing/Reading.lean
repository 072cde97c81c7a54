import Storyboard.Drawing.Markup

/-! # Reading markup

    A reader goes through a text one character at a time and knows nothing of
    how it was written: a tag begins at `<`, an attribute ends at the next
    quotation mark, and `&` begins the name of a character. Whatever is written
    with names that can stand in a tag is read again as it was, whatever the
    texts and the values of attributes are (`read?_write`). In particular no
    text and no value begins or ends anything. -/

namespace Storyboard

/-- An element as it is found in a text. -/
structure Element where
  tag      : Tag
  /-- The characters between its tags that belong to no element inside. -/
  text     : List Char
  /-- The elements inside, in their order. -/
  children : List Element
  deriving Inhabited

namespace Element

/-- An element with nothing inside yet. -/
def ofTag (t : Tag) : Element := ⟨t, [], []⟩

/-- More characters at the end. -/
def addText (e : Element) (s : List Char) : Element := { e with text := e.text ++ s }

/-- More elements at the end. -/
def addChildren (e : Element) (es : List Element) : Element :=
  { e with children := e.children ++ es }

variable (e : Element) (s s' : List Char) (es es' : List Element)

@[simp] theorem addText_nil : e.addText [] = e := by
  cases e
  simp [addText]

@[simp] theorem addText_addText : (e.addText s).addText s' = e.addText (s ++ s') := by
  simp [addText]

@[simp] theorem addChildren_nil : e.addChildren [] = e := by
  cases e
  simp [addChildren]

@[simp] theorem addChildren_addChildren :
    (e.addChildren es).addChildren es' = e.addChildren (es ++ es') := by
  simp [addChildren]

@[simp] theorem addText_addChildren :
    (e.addChildren es).addText s = (e.addText s).addChildren es := rfl

end Element

/-! ### Names of characters -/

namespace Entity

/-- The character that goes under a name. -/
def ofName? (name : List Char) : Option Char :=
  if name = ['a', 'm', 'p'] then some '&'
  else if name = ['l', 't'] then some '<'
  else if name = ['g', 't'] then some '>'
  else if name = ['q', 'u', 'o', 't'] then some '"'
  else if name = ['a', 'p', 'o', 's'] then some '\''
  else none

/-- What one more character gives, inside a name or not: the name so far, and what was read. -/
def next? (name : Option (List Char)) (c : Char) : Option (Option (List Char) × List Char) :=
  match name with
  | some name => if c = ';' then (ofName? name).map fun d => (none, [d]) else some (some (name ++ [c]), [])
  | none => some (if c = '&' then (some [], []) else (none, [c]))

end Entity

/-! ### The reader -/

/-- Where a reader is. -/
inductive Reader.Mode where
  /-- Between tags, perhaps in the name of a character. -/
  | text (name : Option (List Char))
  /-- Behind the `<` of a tag. -/
  | start
  /-- In the name of an element. -/
  | element (name : List Char)
  /-- Behind a name or an attribute. -/
  | tag (t : Tag)
  /-- In the name of an attribute. -/
  | label (t : Tag) (a : List Char)
  /-- In front of a value. -/
  | equals (t : Tag) (a : String)
  /-- In a value, perhaps in the name of a character. -/
  | value (t : Tag) (a : String) (v : List Char) (name : Option (List Char))
  /-- Behind the `/` at the end of an element that holds nothing. -/
  | stop (t : Tag)
  /-- In the tag that ends an element. -/
  | close (name : List Char)

/-- A reader with what it has found. -/
structure Reader where
  mode    : Reader.Mode
  /-- The element that it is in. -/
  current : Element
  /-- Those around it, the innermost first. -/
  outer   : List Element

namespace Reader

/-- Whether a character can stand in a name. -/
def isNameChar (c : Char) : Bool := c.isAlphanum || c == '-'

/-- Behind a name or an attribute: another attribute, or the end of the tag. -/
def stepTag (r : Reader) (t : Tag) (c : Char) : Option Reader :=
  if c = ' ' then some { r with mode := .label t [] }
  else if c = '/' then some { r with mode := .stop t }
  else if c = '>' then some ⟨.text none, .ofTag t, r.current :: r.outer⟩
  else none

/-- Leave an element. -/
def leave? (r : Reader) (name : List Char) : Option Reader :=
  match r.outer with
  | [] => none
  | e :: outer =>
    if String.ofList name = r.current.tag.name then
      some ⟨.text none, e.addChildren [r.current], outer⟩
    else none

/-- Read one character. -/
def step (r : Reader) (c : Char) : Option Reader :=
  match r.mode with
  | .text name =>
    if name = none ∧ c = '<' then some { r with mode := .start }
    else (Entity.next? name c).map fun x =>
      { r with mode := .text x.1, current := r.current.addText x.2 }
  | .start =>
    if c = '/' then some { r with mode := .close [] }
    else if isNameChar c then some { r with mode := .element [c] }
    else none
  | .element name =>
    if isNameChar c then some { r with mode := .element (name ++ [c]) }
    else r.stepTag ⟨String.ofList name, []⟩ c
  | .tag t => r.stepTag t c
  | .label t name =>
    if isNameChar c then some { r with mode := .label t (name ++ [c]) }
    else if c = '=' then some { r with mode := .equals t (String.ofList name) }
    else none
  | .equals t a => if c = '"' then some { r with mode := .value t a [] none } else none
  | .value t a v name =>
    if name = none ∧ c = '"' then
      some { r with mode := .tag { t with attributes := t.attributes ++ [(a, String.ofList v)] } }
    else (Entity.next? name c).map fun x => { r with mode := .value t a (v ++ x.2) x.1 }
  | .stop t =>
    if c = '>' then
      some { r with mode := .text none, current := r.current.addChildren [.ofTag t] }
    else none
  | .close name =>
    if isNameChar c then some { r with mode := .close (name ++ [c]) }
    else if c = '>' then r.leave? name
    else none

/-- Read some characters. -/
def run (r : Reader) : List Char → Option Reader
  | [] => some r
  | c :: rest => (r.step c).bind fun r => r.run rest

/-- A reader at the beginning of a text. -/
def fresh : Reader := ⟨.text none, .ofTag ⟨"", []⟩, []⟩

/-- The element that it has found, if it is outside of every element and found nothing else. -/
def only? (r : Reader) : Option Element :=
  match r.mode with
  | .text name =>
    if name = none ∧ r.outer.length = 0 ∧ r.current.text.length = 0 ∧ r.current.children.length = 1
    then r.current.children.head?
    else none
  | _ => none

end Reader

/-- The one element of which a text consists, if it does. -/
def Element.read? (s : List Char) : Option Element := (Reader.fresh.run s).bind Reader.only?

/-! ### What there is to be read -/

namespace Markup

/-- The characters of some pieces that belong to no element among them. -/
def textAll : List Markup → List Char
  | [] => []
  | .text s :: rest => s.toList ++ textAll rest
  | _ :: rest => textAll rest

mutual

/-- The elements of a piece. -/
def elements : Markup → List Element
  | .text _ => []
  | .leaf t => [.ofTag t]
  | .node t inner => [⟨t, textAll inner, elementsAll inner⟩]

/-- The elements of several pieces, one after another. -/
def elementsAll : List Markup → List Element
  | [] => []
  | m :: rest => elements m ++ elementsAll rest

end

/-- Whether a text can stand as a name in a tag. -/
def isName (s : String) : Bool := !s.toList.isEmpty && s.toList.all Reader.isNameChar

/-- Whether all names of a tag can stand there. -/
def isNamed (t : Tag) : Bool := isName t.name && t.attributes.all fun a => isName a.1

mutual

/-- Whether all tags of a piece have names that can stand there. -/
def isWell : Markup → Bool
  | .text _ => true
  | .leaf t => isNamed t
  | .node t inner => isNamed t && isWellAll inner

/-- Whether all tags of several pieces do. -/
def isWellAll : List Markup → Bool
  | [] => true
  | m :: rest => isWell m && isWellAll rest

end

end Markup

/-! ### Reading what was written -/

namespace Reader

open Markup

variable {r r' : Reader} {s s' : List Char} {c : Char} {t : Tag}

theorem run_append (s s' : List Char) (r : Reader) :
    r.run (s ++ s') = (r.run s).bind fun r => r.run s' := by
  induction s generalizing r with
  | nil => rfl
  | cons c s ih =>
    simp only [List.cons_append, run, Option.bind_assoc]
    exact congrArg _ (funext fun r => ih r)

/-- What is read first leads to where the rest is read from. -/
theorem run_append_of_run (h : r.run s = some r') (s' : List Char) :
    r.run (s ++ s') = r'.run s' := by
  rw [run_append, h]
  rfl

theorem run_cons_of_step (h : r.step c = some r') (s : List Char) : r.run (c :: s) = r'.run s := by
  rw [run, h]
  rfl

/-! ### Characters and names -/

/-- The reader collects the characters up to one at which it stops, unless that goes under a
    name. -/
def Collects (f : Option (List Char) → List Char → Reader) (last : Char) : Prop :=
  ∀ name s c, (name = none → c ≠ last) →
    (f name s).step c = (Entity.next? name c).map fun x => f x.1 (s ++ x.2)

section Collecting

variable {f : Option (List Char) → List Char → Reader} {last : Char}

/-- Inside the name of a character nothing is collected. -/
theorem run_name (hf : Collects f last) (s name : List Char) {more : List Char}
    (hmore : ';' ∉ more) : (f (some name) s).run more = some (f (some (name ++ more)) s) := by
  induction more generalizing name with
  | nil =>
    rw [List.append_nil]
    rfl
  | cons c more ih =>
    obtain ⟨hc, hmore⟩ := not_or.1 (mt List.mem_cons.2 hmore)
    have hstep : (f (some name) s).step c = some (f (some (name ++ [c])) s) := by
      rw [hf (some name) s c (fun h => by cases h), Entity.next?, if_neg (Ne.symm hc),
        Option.map_some, List.append_nil]
    rw [run_cons_of_step hstep, ih _ hmore, List.append_assoc]
    rfl

/-- A name stands for its character. -/
theorem run_reference (hf : Collects f last) (hlast : last ≠ '&') (s : List Char)
    (name : List Char) {c : Char} (hname : ';' ∉ name) (hc : Entity.ofName? name = some c) :
    (f none s).run ('&' :: (name ++ [';'])) = some (f none (s ++ [c])) := by
  have hopen : (f none s).step '&' = some (f (some []) s) := by
    rw [hf none s '&' (fun _ => hlast.symm)]
    simp [Entity.next?]
  have hclose : (f (some name) s).step ';' = some (f none (s ++ [c])) := by
    rw [hf (some name) s ';' (fun h => by cases h), Entity.next?, if_pos rfl, hc]
    rfl
  rw [run_cons_of_step hopen, run_append_of_run (run_name hf s [] hname)]
  exact run_cons_of_step hclose []

/-- An escaped character is collected as what it was. -/
theorem run_escapeChar (hf : Collects f last) (hlast : last = '<' ∨ last = '"') (s : List Char)
    (c : Char) : (f none s).run (escapeChar c) = some (f none (s ++ [c])) := by
  have hne : last ≠ '&' := by
    rcases hlast with rfl | rfl <;> decide
  unfold escapeChar
  split
  · next h => exact h ▸ run_reference hf hne s ['a', 'm', 'p'] (by decide) rfl
  split
  · next h => exact h ▸ run_reference hf hne s ['l', 't'] (by decide) rfl
  split
  · next h => exact h ▸ run_reference hf hne s ['g', 't'] (by decide) rfl
  split
  · next h => exact h ▸ run_reference hf hne s ['q', 'u', 'o', 't'] (by decide) rfl
  split
  · next h => exact h ▸ run_reference hf hne s ['a', 'p', 'o', 's'] (by decide) rfl
  · next hamp hlt _ hquot _ =>
    have hstep : (f none s).step c = some (f none (s ++ [c])) := by
      rw [hf none s c (fun _ => by rcases hlast with rfl | rfl <;> assumption)]
      simp [Entity.next?, hamp]
    exact run_cons_of_step hstep []

/-- So it is with a whole text. -/
theorem run_escape (hf : Collects f last) (hlast : last = '<' ∨ last = '"') (s : List Char)
    (x : String) : (f none s).run (escape x) = some (f none (s ++ x.toList)) := by
  unfold escape
  induction x.toList generalizing s with
  | nil =>
    rw [List.append_nil]
    rfl
  | cons c rest ih =>
    rw [List.flatMap_cons, run_append_of_run (run_escapeChar hf hlast s c), ih,
      List.append_assoc]
    rfl

end Collecting

/-- Names are read to their end. -/
theorem run_isNameChar {f : List Char → Reader}
    (hf : ∀ name c, isNameChar c = true → (f name).step c = some (f (name ++ [c])))
    {s : List Char} (hs : s.all isNameChar = true) (name : List Char) :
    (f name).run s = some (f (name ++ s)) := by
  induction s generalizing name with
  | nil =>
    rw [List.append_nil]
    rfl
  | cons c s ih =>
    obtain ⟨hc, hs⟩ := Bool.and_eq_true_iff.1 hs
    rw [run_cons_of_step (hf name c hc), ih hs, List.append_assoc]
    rfl

/-! ### Tags -/

/-- What is read of an attribute. -/
theorem run_attribute {a : String × String} (ha : isName a.1 = true) (t : Tag) (e : Element)
    (outer : List Element) :
    Reader.run ⟨.tag t, e, outer⟩ (writeAttribute a) =
      some ⟨.tag { t with attributes := t.attributes ++ [a] }, e, outer⟩ := by
  obtain ⟨label, v⟩ := a
  -- A blank, the name, the equals sign, and the value between quotes.
  have hlabel := run_isNameChar (f := fun name => ⟨.label t name, e, outer⟩)
    (fun name c hc => if_pos hc) (Bool.and_eq_true_iff.1 ha).2 []
  have hvalue := run_escape (f := fun name s => ⟨.value t label s name, e, outer⟩)
    (fun name s c hc => if_neg fun h => hc h.1 h.2) (.inr rfl) [] v
  have hblank : Reader.step ⟨.tag t, e, outer⟩ ' ' = some ⟨.label t [], e, outer⟩ := rfl
  have hequals : Reader.step ⟨.label t label.toList, e, outer⟩ '=' =
      some ⟨.equals t label, e, outer⟩ := by
    simp [step, isNameChar]
  have hquote : Reader.step ⟨.equals t label, e, outer⟩ '"' =
      some ⟨.value t label [] none, e, outer⟩ := rfl
  have hend : Reader.step ⟨.value t label v.toList none, e, outer⟩ '"' =
      some ⟨.tag { t with attributes := t.attributes ++ [(label, v)] }, e, outer⟩ := by
    simp [step]
  unfold writeAttribute
  rw [List.append_assoc, List.cons_append, run_cons_of_step hblank, run_append_of_run hlabel,
    List.nil_append, List.cons_append, run_cons_of_step hequals, List.cons_append,
    run_cons_of_step hquote, run_append_of_run hvalue]
  exact run_cons_of_step hend []

theorem run_attributes {l : List (String × String)} (hl : l.all (fun a => isName a.1) = true)
    (t : Tag) (e : Element) (outer : List Element) :
    Reader.run ⟨.tag t, e, outer⟩ (l.flatMap writeAttribute) =
      some ⟨.tag { t with attributes := t.attributes ++ l }, e, outer⟩ := by
  induction l generalizing t with
  | nil =>
    rw [List.append_nil]
    rfl
  | cons a l ih =>
    obtain ⟨ha, hl⟩ := Bool.and_eq_true_iff.1 hl
    rw [List.flatMap_cons, run_append_of_run (run_attribute ha t e outer), ih hl]
    simp

/-- Behind the name of an element the reader is where it is behind an attribute. -/
theorem step_element {c : Char} (hc : isNameChar c = false) (name : List Char) (e : Element)
    (outer : List Element) :
    Reader.step ⟨.element name, e, outer⟩ c =
      Reader.step ⟨.tag ⟨String.ofList name, []⟩, e, outer⟩ c := by
  simp only [step, hc, Bool.false_eq_true, ↓reduceIte]
  rfl

/-- What is read of the inside of a tag, up to its last character. -/
theorem run_tag {t : Tag} (ht : isNamed t = true) {c : Char} (hc : isNameChar c = false)
    (rest : List Char) (e : Element) (outer : List Element) :
    Reader.run ⟨.start, e, outer⟩ (writeTag t ++ c :: rest) =
      Reader.run ⟨.tag t, e, outer⟩ (c :: rest) := by
  obtain ⟨name, attributes⟩ := t
  obtain ⟨hname, hattributes⟩ := Bool.and_eq_true_iff.1 ht
  have hread : Reader.run ⟨.start, e, outer⟩ name.toList =
      some ⟨.element name.toList, e, outer⟩ := by
    obtain ⟨hsome, hall⟩ := Bool.and_eq_true_iff.1 hname
    cases hchars : name.toList with
    | nil =>
      rw [show name.toList = [] from hchars] at hsome
      cases hsome
    | cons first more =>
      rw [show name.toList = first :: more from hchars] at hall
      obtain ⟨hfirst, hmore⟩ := Bool.and_eq_true_iff.1 hall
      have hstart : Reader.step ⟨.start, e, outer⟩ first = some ⟨.element [first], e, outer⟩ := by
        have hne : first ≠ '/' := by
          rintro rfl
          cases hfirst
        simp only [step, hne, ↓reduceIte, hfirst]
      rw [run_cons_of_step hstart]
      exact run_isNameChar (f := fun name => ⟨.element name, e, outer⟩)
        (fun name c hc => if_pos hc) hmore [first]
  -- The first character behind the name begins an attribute or ends the tag.
  have hbehind : ∀ c rest, isNameChar c = false →
      Reader.run ⟨.element name.toList, e, outer⟩ (c :: rest) =
        Reader.run ⟨.tag ⟨name, []⟩, e, outer⟩ (c :: rest) := by
    intro c rest hc
    rw [run, run, step_element hc, String.ofList_toList]
  unfold writeTag
  rw [List.append_assoc, run_append_of_run hread]
  have hall := run_attributes hattributes ⟨name, []⟩ e outer
  cases attributes with
  | nil => exact hbehind c rest hc
  | cons a l =>
    rw [show (a :: l).flatMap writeAttribute ++ c :: rest = ' ' :: _ from rfl,
      hbehind _ _ (by decide)]
    exact run_append_of_run hall _

/-! ### Pieces -/

/-- The reader has found more in the element that it is in. -/
def found (e : Element) (outer : List Element) (text : List Char) (children : List Element) :
    Reader :=
  ⟨.text none, (e.addText text).addChildren children, outer⟩

theorem run_text (x : String) (e : Element) (outer : List Element) :
    Reader.run ⟨.text none, e, outer⟩ (escape x) = some (found e outer x.toList []) := by
  have hcollects : Collects (fun name s => ⟨.text name, e.addText s, outer⟩) '<' := by
    intro name s c hc
    refine (if_neg fun h => hc h.1 h.2).trans (congrArg (Option.map · _) (funext fun x => ?_))
    rw [Element.addText_addText]
  have hread := run_escape hcollects (.inl rfl) [] x
  simpa [found] using hread

/-- An element that cannot hold anything. -/
theorem run_leaf {t : Tag} (ht : isNamed t = true) (e : Element) (outer : List Element) :
    Reader.run ⟨.text none, e, outer⟩ (write (.leaf t)) =
      some (found e outer [] [.ofTag t]) := by
  have hopen : Reader.step ⟨.text none, e, outer⟩ '<' = some ⟨.start, e, outer⟩ := rfl
  have hslash : Reader.step ⟨.tag t, e, outer⟩ '/' = some ⟨.stop t, e, outer⟩ := rfl
  have hend : Reader.step ⟨.stop t, e, outer⟩ '>' =
      some ⟨.text none, e.addChildren [.ofTag t], outer⟩ := rfl
  unfold write
  rw [List.cons_append, run_cons_of_step hopen, run_tag ht (by decide),
    run_cons_of_step hslash, run_cons_of_step hend]
  simp [run, found]

/-- The tag that ends an element is the end of the one that the reader is in. -/
theorem run_close {t : Tag} (ht : isName t.name = true) (text : List Char)
    (children : List Element) (e : Element) (outer : List Element) :
    Reader.run ⟨.text none, ⟨t, text, children⟩, e :: outer⟩
        ('<' :: '/' :: t.name.toList ++ ['>']) =
      some ⟨.text none, e.addChildren [⟨t, text, children⟩], outer⟩ := by
  have hopen : Reader.step ⟨.text none, ⟨t, text, children⟩, e :: outer⟩ '<' =
      some ⟨.start, ⟨t, text, children⟩, e :: outer⟩ := rfl
  have hslash : Reader.step ⟨.start, ⟨t, text, children⟩, e :: outer⟩ '/' =
      some ⟨.close [], ⟨t, text, children⟩, e :: outer⟩ := rfl
  have hname := run_isNameChar (f := fun name => ⟨.close name, ⟨t, text, children⟩, e :: outer⟩)
    (fun name c hc => if_pos hc) (Bool.and_eq_true_iff.1 ht).2 []
  have hend : Reader.step ⟨.close t.name.toList, ⟨t, text, children⟩, e :: outer⟩ '>' =
      some ⟨.text none, e.addChildren [⟨t, text, children⟩], outer⟩ := by
    simp [step, isNameChar, leave?]
  rw [List.cons_append, run_cons_of_step hopen, List.cons_append, run_cons_of_step hslash,
    run_append_of_run hname]
  exact run_cons_of_step hend []

mutual

/-- A piece is read as what it is, whatever the reader found before. -/
theorem run_write (m : Markup) (h : isWell m = true) (e : Element) (outer : List Element) :
    Reader.run ⟨.text none, e, outer⟩ (write m) =
      some (found e outer (textAll [m]) (elements m)) := by
  cases m with
  | text x =>
    have hread := run_text x e outer
    simpa [write, textAll, elements] using hread
  | leaf t => exact run_leaf h e outer
  | node t inner =>
    unfold isWell at h
    obtain ⟨ht, hinner⟩ := Bool.and_eq_true_iff.1 h
    -- The reader goes through the opening tag, then through what is inside with the element open,
    -- and the closing tag hands the element to the one around it.
    have hopen : Reader.step ⟨.text none, e, outer⟩ '<' = some ⟨.start, e, outer⟩ := rfl
    have hinside : Reader.step ⟨.tag t, e, outer⟩ '>' =
        some ⟨.text none, .ofTag t, e :: outer⟩ := rfl
    have hread := run_writeAll inner hinner (.ofTag t) (e :: outer)
    have hclose := run_close (Bool.and_eq_true_iff.1 ht).1 (textAll inner) (elementsAll inner) e outer
    have hsame : found (.ofTag t) (e :: outer) (textAll inner) (elementsAll inner) =
        ⟨.text none, ⟨t, textAll inner, elementsAll inner⟩, e :: outer⟩ := rfl
    rw [hsame] at hread
    unfold write
    rw [List.append_assoc, List.append_assoc, List.cons_append, run_cons_of_step hopen,
      List.cons_append, run_tag ht (by decide), run_cons_of_step hinside, run_append_of_run hread,
      hclose]
    simp [found, textAll, elements]

/-- So are several pieces, one after another. -/
theorem run_writeAll (ms : List Markup) (h : isWellAll ms = true) (e : Element)
    (outer : List Element) :
    Reader.run ⟨.text none, e, outer⟩ (writeAll ms) =
      some (found e outer (textAll ms) (elementsAll ms)) := by
  cases ms with
  | nil => simp [writeAll, run, found, textAll, elementsAll]
  | cons m rest =>
    unfold isWellAll at h
    obtain ⟨hm, hrest⟩ := Bool.and_eq_true_iff.1 h
    have hfirst := run_write m hm e outer
    have hmore := run_writeAll rest hrest ((e.addText (textAll [m])).addChildren (elements m)) outer
    have htext : textAll (m :: rest) = textAll [m] ++ textAll rest := by
      cases m <;> simp [textAll]
    unfold writeAll
    rw [run_append_of_run hfirst, show found e outer _ _ = ⟨.text none, _, outer⟩ from rfl, hmore,
      htext]
    simp [found, elementsAll]

end

end Reader

/-- A document with one element around everything is read as that element. -/
theorem Element.read?_write {t : Tag} {inner : List Markup}
    (h : Markup.isWell (.node t inner) = true) :
    Element.read? (Markup.write (.node t inner)) =
      some ⟨t, Markup.textAll inner, Markup.elementsAll inner⟩ := by
  unfold Element.read? Reader.fresh
  rw [Reader.run_write _ h]
  simp [Reader.only?, Reader.found, Markup.textAll, Markup.elements, Element.ofTag, Element.addText,
    Element.addChildren]

end Storyboard
