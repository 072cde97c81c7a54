import Storyboard.Proofs.Drawing.Document
import Storyboard.Proofs.Drawing.Xml

/-! # When the document of a canvas is well-formed

    Tags, names and quotes come out right in the document of every canvas, so it
    is one element whatever the canvas was told. But characters are written as
    they are where they mean nothing in markup, and XML does not allow all of
    them: the document is well-formed exactly if every character in the ids and
    the texts of the items is allowed (`isWellFormed_drawing_iff`). -/

namespace Storyboard

namespace Markup

open Xml

section Mapped

variable {α : Type} {f : α → Markup}

theorem isXmlAll_map (h : ∀ x, isXml (f x) = true) (l : List α) : isXmlAll (l.map f) = true := by
  induction l with
  | nil => rfl
  | cons x l ih => exact Bool.and_eq_true_iff.2 ⟨h x, ih⟩

theorem holdsAll_map {p : Char → Bool} {g : α → Bool} (h : ∀ x, holds p (f x) = g x)
    (l : List α) : holdsAll p (l.map f) = l.all g := by
  induction l with
  | nil => rfl
  | cons x l ih => rw [List.map_cons, holdsAll, h, ih, List.all_cons]

end Mapped

/-! ### Tame attributes -/

theorem isChar_of_isTame {c : Char} (h : isTame c = true) : isChar c = true := by
  simp only [isTame, Bool.and_eq_true, decide_eq_true_eq] at h
  exact isChar_of_ascii h.1.2 h.2

/-- A tag is one of XML if the names in it are among some that are and that differ. -/
theorem isXmlTag_of_sublist {name : String} {attributes : List (String × String)}
    {names : List String} (hname : Xml.isName name.toList = true)
    (hnames : ∀ a ∈ names, Xml.isName a.toList = true) (hdiffer : names.Nodup)
    (h : (attributes.map Prod.fst).Sublist names) : isXmlTag ⟨name, attributes⟩ = true := by
  simp only [isXmlTag, Bool.and_eq_true, List.all_eq_true, decide_eq_true_eq]
  refine ⟨⟨hname, ?_⟩, hdiffer.sublist h⟩
  intro a ha
  exact hnames a.1 (h.subset (List.mem_map_of_mem ha))

theorem isChar_of_isNameChar {c : Char} (h : Reader.isNameChar c = true) : isChar c = true := by
  rw [Reader.isNameChar, Bool.or_eq_true, beq_iff_eq] at h
  rcases h with hletter | rfl
  · have hranges : (decide ('A'.val ≤ c.val ∧ c.val ≤ 'Z'.val) ||
        decide ('a'.val ≤ c.val) && decide (c.val ≤ 'z'.val) ||
        decide ('0'.val ≤ c.val) && decide (c.val ≤ '9'.val)) = true := hletter
    have hnat : c.val.toNat = c.toNat := rfl
    simp only [Bool.or_eq_true, Bool.and_eq_true, decide_eq_true_eq, UInt32.le_iff_toNat_le, hnat,
      Char.reduceVal, UInt32.reduceToNat] at hranges
    apply isChar_of_ascii
    · omega
    · omega
  · decide

end Markup

namespace Document

open Markup Xml

/-! ### Names in the tags of parts -/

/-- The names that the attributes of a shape may have. -/
def shapeNames : Shape → List String
  | .circle .. => ["cx", "cy", "r"]
  | .rect .. => ["x", "y", "width", "height"]
  | .line .. | .arrow .. => ["x1", "y1", "x2", "y2"]
  | .text .. =>
    ["x", "y", "font-family", "font-size", "font-weight", "text-anchor", "dominant-baseline"]

/-- The names that the attributes of a paint may have. -/
def paintNames : List String :=
  ["fill", "fill-opacity", "stroke", "stroke-width", "stroke-opacity", "stroke-dasharray"]

/-- The names that all attributes of a part may have, in their order. -/
def partNames (s : Shape) : List String := shapeNames s ++ (paintNames ++ ["marker-end"])

variable (now : Nat) (reveal : Float)

theorem names_opacityAttribute (name : String) (c : Color) :
    ((opacityAttribute name c).map Prod.fst).Sublist [name] := by
  unfold opacityAttribute
  split <;> simp

theorem names_paintAttributes (p : Paint) :
    ((paintAttributes p).map Prod.fst).Sublist paintNames := by
  obtain ⟨fill, stroke, width, dash⟩ := p
  have hfill : ((fillAttributes fill).map Prod.fst).Sublist ["fill", "fill-opacity"] := by
    cases fill with
    | none => simp [fillAttributes]
    | some c => exact (names_opacityAttribute "fill-opacity" c).cons_cons "fill"
  have hdash : ((dashAttribute dash).map Prod.fst).Sublist ["stroke-dasharray"] := by
    cases dash <;> simp [dashAttribute]
  -- Dashes are written for a line that is drawn, and for no other.
  have hstroke : ((strokeAttributes ⟨fill, stroke, width, dash⟩).map Prod.fst).Sublist
      ["stroke", "stroke-width", "stroke-opacity", "stroke-dasharray"] := by
    cases stroke with
    | none => simp [strokeAttributes]
    | some c =>
      have hopacity := names_opacityAttribute "stroke-opacity" c
      have hrest := (hopacity.append hdash).cons_cons "stroke-width"
      simpa [strokeAttributes] using hrest
  rw [paintAttributes, List.map_append]
  exact hfill.append hstroke

theorem names_element (p : Part) :
    ((element reveal p).tag.attributes.map Prod.fst).Sublist (partNames p.shape) := by
  obtain ⟨role, shape, paint⟩ := p
  have hpaint := names_paintAttributes paint
  have hrest : ((paintAttributes paint).map Prod.fst).Sublist (paintNames ++ ["marker-end"]) :=
    hpaint.trans (List.sublist_append_left _ _)
  -- An arrow has its mark behind the paint, and only a text has a lettering.
  cases shape with
  | circle center radius => simpa [element, ofPart, tag, partNames, shapeNames] using hrest
  | rect r => simpa [element, ofPart, tag, partNames, shapeNames] using hrest
  | line start stop =>
    simpa [element, ofPart, tag, lineAttributes, partNames, shapeNames] using hrest
  | arrow start stop =>
    have hmarked := hpaint.append (List.Sublist.refl ["marker-end"])
    simpa [element, ofPart, tag, lineAttributes, partNames, shapeNames] using hmarked
  | text t =>
    have hlettering : ((letteringAttributes t).map Prod.fst).Sublist (shapeNames (.text t)) := by
      cases hcentered : t.centered <;> simp [letteringAttributes, shapeNames, hcentered]
    rw [partNames]
    simpa [element, ofPart, tag] using hlettering.append hrest

/-- All of them are names, and no two are the same. -/
theorem partNames_differ (s : Shape) : (∀ a ∈ partNames s, Xml.isName a.toList = true) ∧
    (partNames s).Nodup := by
  cases s
  all_goals
    simp only [partNames, shapeNames]
    decide

/-! ### Tags of parts and items -/

theorem isXml_ofPart (p : Part) : isXml (ofPart reveal p) = true := by
  have hnames := names_element reveal p
  obtain ⟨hvalid, hdiffer⟩ := partNames_differ p.shape
  obtain ⟨role, shape, paint⟩ := p
  cases shape with
  | text t =>
    simp only [ofPart, isXml, isXmlAll, Bool.and_true]
    exact isXmlTag_of_sublist (by decide) hvalid hdiffer hnames
  | _ => exact isXmlTag_of_sublist (by decide) hvalid hdiffer hnames

theorem isXml_ofItem (i : Item) : isXml (ofItem now i) = true := by
  have hvalid : ∀ a ∈ ["data-id", "data-kind", "transform", "opacity"],
      Xml.isName a.toList = true := by decide
  have htag : isXmlTag (group now i).tag = true :=
    isXmlTag_of_sublist (by decide) hvalid (by decide) (List.Sublist.refl _)
  exact Bool.and_eq_true_iff.2 ⟨htag, isXmlAll_map (isXml_ofPart _) _⟩

theorem isXml_ofCanvas (c : Canvas) : isXml (ofCanvas now c) = true := by
  have htag : isXmlTag (sheet []).tag = true := by decide
  have harrow : isXml arrowHead = true := by decide
  have hbackdrop : isXml backdrop = true := by decide
  have hitems := isXmlAll_map (isXml_ofItem now) c.stacked
  exact Bool.and_eq_true_iff.2
    ⟨htag, Bool.and_eq_true_iff.2 ⟨harrow, Bool.and_eq_true_iff.2 ⟨hbackdrop, hitems⟩⟩⟩

/-! ### Characters in them -/

theorem all_isChar_of_isTamed {a : String × String} (h : isTamed a = true) :
    a.1.toList.all isChar = true ∧ a.2.toList.all isChar = true := by
  simp only [isTamed, Markup.isName, Bool.and_eq_true, List.all_eq_true] at h
  simp only [List.all_eq_true]
  refine ⟨?_, ?_⟩
  · intro c hc
    exact isChar_of_isNameChar (h.1.2 c hc)
  · intro c hc
    exact isChar_of_isTame (h.2 c hc)

theorem holdsTag_of_tamed {name : String} {attributes : List (String × String)}
    (hname : name.toList.all isChar = true) (h : attributes.all isTamed = true) :
    holdsTag isChar ⟨name, attributes⟩ = true := by
  rw [holdsTag, hname, Bool.true_and, List.all_eq_true]
  intro a ha
  have hboth := all_isChar_of_isTamed (List.all_eq_true.1 h a ha)
  rw [hboth.1, hboth.2, Bool.and_self]

/-- In the element of a part only its text may hold other characters. -/
theorem holds_ofPart (p : Part) : holds isChar (ofPart reveal p) = p.shape.content.all isChar := by
  have htamed := tamed_element reveal p
  obtain ⟨role, shape, paint⟩ := p
  cases shape with
  | text t =>
    have htag : holdsTag isChar (element reveal ⟨role, .text t, paint⟩).tag = true :=
      holdsTag_of_tamed (by decide) htamed
    have hwhole : holds isChar (ofPart reveal ⟨role, .text t, paint⟩) =
        (holdsTag isChar (element reveal ⟨role, .text t, paint⟩).tag &&
          (t.content.toList.all isChar && true)) := rfl
    rw [hwhole, htag, Bool.true_and, Bool.and_true, Shape.content]
  | _ => exact holdsTag_of_tamed (by decide) htamed

end Document

/-- Whether the id and the texts of an item hold only characters that a document may hold. -/
def Item.isWritable (i : Item) : Bool :=
  i.id.text.toList.all Xml.isChar && i.figure.parts.all fun p => p.shape.content.all Xml.isChar

namespace Document

open Markup Xml

variable (now : Nat)

/-- In the group of an item only its id and the texts of its parts may. -/
theorem holds_ofItem (i : Item) : holds isChar (ofItem now i) = i.isWritable := by
  have hparts := holdsAll_map (holds_ofPart (i.revealAt now)) i.figure.parts
  have htag : holdsTag isChar (group now i).tag = i.id.text.toList.all isChar := by
    have hname : (group now i).tag.name.toList.all isChar = true := by
      show "g".toList.all isChar = true
      decide
    rw [holdsTag, hname, Bool.true_and, Bool.eq_iff_iff, List.all_eq_true]
    constructor
    · intro h
      exact (Bool.and_eq_true_iff.1 (h ("data-id", i.id.text) List.mem_cons_self)).2
    · intro hid a ha
      rcases tamed_group now i a ha with htamed | rfl
      · have hboth := all_isChar_of_isTamed htamed
        rw [hboth.1, hboth.2, Bool.and_self]
      · rw [hid, Bool.and_true]
        show "data-id".toList.all isChar = true
        decide
  have hgroup : holds isChar (ofItem now i) = (holdsTag isChar (group now i).tag &&
      holdsAll isChar (i.figure.parts.map (ofPart (i.revealAt now)))) := rfl
  rw [hgroup, htag, hparts, Item.isWritable]

theorem holds_ofCanvas (c : Canvas) :
    holds isChar (ofCanvas now c) = c.stacked.all Item.isWritable := by
  have htag : holdsTag isChar (sheet []).tag = true := by decide
  have harrow : holds isChar arrowHead = true := by decide
  have hbackdrop : holds isChar backdrop = true := by decide
  have hsheet : holds isChar (ofCanvas now c) = (holdsTag isChar (sheet []).tag &&
      (holds isChar arrowHead && (holds isChar backdrop &&
        holdsAll isChar (c.stacked.map (ofItem now))))) := rfl
  rw [hsheet, htag, harrow, hbackdrop, holdsAll_map (holds_ofItem now)]
  simp

end Document

namespace Canvas

theorem toList_drawing (c : Canvas) (now : Nat) :
    (c.drawing now).toList = (Document.ofCanvas now c).write := by
  rw [drawing, Markup.document, String.toList_ofList]

/-- Tags are balanced and values quoted in the document of every canvas. -/
theorem isElement_drawing (c : Canvas) (now : Nat) : Xml.IsElement (c.drawing now).toList := by
  rw [toList_drawing]
  exact Markup.isElement_write (Document.isXml_ofCanvas now c)

/-- It is well-formed exactly if the ids and the texts of the items hold no character that XML does
    not allow. -/
theorem isWellFormed_drawing_iff (c : Canvas) (now : Nat) :
    Xml.IsWellFormed (c.drawing now).toList ↔ ∀ i ∈ c.items.values, i.isWritable = true := by
  have hchars : (∀ ch ∈ (c.drawing now).toList, Xml.isChar ch = true) ↔
      ∀ i ∈ c.items.values, i.isWritable = true := by
    rw [toList_drawing, ← List.all_eq_true, Markup.all_write, Document.holds_ofCanvas,
      List.all_eq_true]
    constructor
    · intro h i hi
      exact h i ((stacked_perm c).mem_iff.2 hi)
    · intro h i hi
      exact h i ((stacked_perm c).mem_iff.1 hi)
  rw [← hchars]
  constructor
  · intro h
    exact h.chars
  · intro h
    exact ⟨isElement_drawing c now, h⟩

end Canvas

end Storyboard
