import Storyboard.Drawing.Document
import Storyboard.Proofs.Data.Lookup
import Storyboard.Proofs.Drawing.Reading
import Storyboard.Proofs.Drawing.Record

/-! # What the document of a canvas says

    A canvas may have been told anything, and its ids and texts may hold any
    characters. Whoever reads the document with the reader of markup finds
    behind the arrow head and the background one group for every item, layer
    by layer and within a layer in the order in which the items were created,
    and in the group one element for every part (`read_drawing`). The ids and
    the texts come back as they were, and without them the document is that
    of a canvas without any. -/

namespace Storyboard

/-! ### The order of creation -/

namespace Canvas

variable {c : Canvas} {record : List JournalEntry} {h : Nat}

/-- The handles of all items that were ever created, the oldest first: a handle that was not yet
    given out is that of a new item. -/
def created : List JournalEntry → List Nat
  | [] => []
  | e :: record =>
    let given := (ofRecord (e :: record)).last
    created record ++ if given = (ofRecord record).last then [] else [given]

/-- An instruction brings at most one item to the canvas, under a handle that was never used. -/
theorem perform_items (c : Canvas) (now : Nat) (kind : Kind) (id : EntityId) (target : Option Nat)
    (i : Instruction) : let c' := (c.perform now kind id target i).1
    c.last ≤ c'.last ∧ ∀ h item, c'.items.find? h = some item →
      (∃ item, c.items.find? h = some item) ∨ h = c'.last ∧ c.last < c'.last := by
  -- There are three ways to change the items: one is added, one is changed, one is erased.
  have hadd : ∀ f enter h item, (c.add now kind id f enter).1.items.find? h = some item →
      (∃ item, c.items.find? h = some item) ∨ h = c.last + 1 ∧ c.last < c.last + 1 := by
    intro f enter h item hitem
    have hfind := (Table.find?_insert ..).symm.trans hitem
    split at hfind
    · next heq => exact .inr ⟨heq, Nat.lt_succ_self _⟩
    · exact .inl ⟨item, hfind⟩
  have hchange : ∀ handle f h item, (c.change handle f).items.find? h = some item →
      ∃ item, c.items.find? h = some item := by
    intro handle f h item hitem
    have hfind := (Table.find?_modify ..).symm.trans hitem
    split at hfind
    · obtain ⟨old, hold, _⟩ := Option.map_eq_some_iff.1 hfind
      exact ⟨old, hold⟩
    · exact ⟨item, hfind⟩
  have herase : ∀ handle h item, (c.items.erase handle).find? h = some item →
      ∃ item, c.items.find? h = some item := by
    intro handle h item hitem
    have hfind := (Table.find?_erase ..).symm.trans hitem
    split at hfind
    · cases hfind
    · exact ⟨item, hfind⟩
  unfold perform
  cases i <;> cases target.filter fun h => c.items.contains h
  case create.none | create.some | update.none => exact ⟨Nat.le_succ _, hadd _ _⟩
  case update.some | move.some | exit.some =>
    exact ⟨Nat.le_refl _, fun h item hitem => .inl (hchange _ _ h item hitem)⟩
  case discard.some => exact ⟨Nat.le_refl _, fun h item hitem => .inl (herase _ h item hitem)⟩
  case move.none | exit.none | discard.none =>
    exact ⟨Nat.le_refl _, fun h item hitem => .inl ⟨item, hitem⟩⟩

/-- So does an entry. -/
theorem follow_items (c : Canvas) (e : JournalEntry) : c.last ≤ (c.follow e).last ∧
    ∀ h item, (c.follow e).items.find? h = some item →
      (∃ item, c.items.find? h = some item) ∨ h = (c.follow e).last ∧ c.last < (c.follow e).last := by
  cases e with
  | performed now k id target i handle => exact perform_items c now k id target i
  | cleared now => exact ⟨Nat.le_refl _, fun h item hitem => by cases hitem⟩

theorem le_last_of_created (hh : h ∈ created record) : h ≤ (ofRecord record).last := by
  induction record with
  | nil => cases hh
  | cons e record ih =>
    have hle := (follow_items (ofRecord record) e).1
    rcases List.mem_append.1 hh with hold | hnew
    · exact Nat.le_trans (ih hold) hle
    · split at hnew
      · cases hnew
      · exact Nat.le_of_eq (List.mem_singleton.1 hnew)

/-- Handles count up. -/
theorem pairwise_created (record : List JournalEntry) : (created record).Pairwise (· < ·) := by
  induction record with
  | nil => exact .nil
  | cons e record ih =>
    refine List.pairwise_append.2 ⟨ih, ?_, fun h hh h' hh' => ?_⟩
    · split
      · exact .nil
      · exact List.pairwise_singleton ..
    · split at hh'
      · cases hh'
      · next hne =>
        obtain rfl := List.mem_singleton.1 hh'
        have hle := (follow_items (ofRecord record) e).1
        exact Nat.lt_of_le_of_lt (le_last_of_created hh) (Nat.lt_of_le_of_ne hle (Ne.symm hne))

theorem mem_created {i : Item} (hi : (ofRecord record).items.find? h = some i) :
    h ∈ created record := by
  induction record generalizing i with
  | nil => cases hi
  | cons e record ih =>
    rcases (follow_items (ofRecord record) e).2 h i hi with ⟨i', hi'⟩ | ⟨heq, hlt⟩
    · exact List.mem_append_left _ (ih hi')
    · refine List.mem_append_right _ ?_
      have hne : (ofRecord (e :: record)).last ≠ (ofRecord record).last := Nat.ne_of_gt hlt
      rw [if_neg hne]
      exact List.mem_singleton.2 heq

/-- The items that are there, in the order in which they were created. -/
theorem values_eq_created (record : List JournalEntry) :
    (ofRecord record).items.values =
      (created record).filterMap (ofRecord record).items.find? := by
  refine Table.values_eq_filterMap ?_ fun h i hi => mem_created hi
  exact (pairwise_created record).imp fun hlt => Nat.compare_eq_lt.2 hlt

/-- Every item is in one layer. -/
theorem stacked_perm (c : Canvas) : c.stacked.Perm c.items.values := by
  unfold stacked inLayer
  induction c.items.values with
  | nil => exact .nil
  | cons i rest ih =>
    cases hlayer : i.figure.layer with
    | edges => simpa [hlayer] using ih
    | shapes =>
      rw [List.append_assoc] at ih
      simpa [hlayer] using List.perm_middle.trans (ih.cons i)
    | overlay => simpa [hlayer] using List.perm_middle.trans (ih.cons i)

end Canvas

/-! ### Values that are written as they are -/

namespace Markup

/-- Whether a character means nothing in markup. -/
def isPlain (c : Char) : Bool := escapeChar c == [c]

theorem escape_of_plain {s : String} (h : s.toList.all isPlain = true) : escape s = s.toList := by
  unfold escape
  have hchar : ∀ c ∈ s.toList, escapeChar c = [c] := fun c hc =>
    eq_of_beq (List.all_eq_true.1 h c hc)
  rw [List.flatMap_congr hchar, List.flatMap_singleton']

/-- Whether a character is one of those that can be printed in ASCII and means nothing in
    markup. -/
def isTame (c : Char) : Bool := isPlain c && 0x20 ≤ c.toNat && c.toNat < 0x7F

theorem isPlain_of_isTame {c : Char} (h : isTame c = true) : isPlain c = true := by
  simp only [isTame, Bool.and_eq_true] at h
  exact h.1.1

theorem isTame_of_isDigit {c : Char} (h : c.isDigit = true) : isTame c = true := by
  have hne : c ≠ '&' ∧ c ≠ '<' ∧ c ≠ '>' ∧ c ≠ '"' ∧ c ≠ '\'' := by
    refine ⟨?_, ?_, ?_, ?_, ?_⟩ <;> rintro rfl <;> cases h
  have hrange : 48 ≤ c.toNat ∧ c.toNat ≤ 57 := Char.isDigit_iff_toNat.1 h
  simp only [isTame, isPlain, escapeChar, hne, if_false, beq_self_eq_true, Bool.true_and,
    Bool.and_eq_true, decide_eq_true_eq]
  omega

end Markup

namespace Number

open Markup

theorem tame_natDigits (n : Nat) : (natDigits n).all isTame = true :=
  List.all_eq_true.2 fun _ hc => isTame_of_isDigit (Nat.isDigit_of_mem_toDigits (by decide) (by decide) hc)

theorem tame_intDigits (i : Int) : (intDigits i).all isTame = true := by
  unfold intDigits
  split
  · exact Bool.and_eq_true_iff.2 ⟨by decide, tame_natDigits _⟩
  · exact tame_natDigits _

theorem Layout.tame_setPositional (d : Decimal) :
    (Layout.plain.setPositional d).all isTame = true := by
  have hdigits := List.all_eq_true.1 (tame_natDigits d.digits)
  have hzero : isTame '0' = true := by decide
  have hpoint : isTame '.' = true := by decide
  rw [List.all_eq_true]
  intro c hc
  -- The point stands before the digits, behind them, or among them.
  unfold setPositional at hc
  dsimp only at hc
  split at hc
  · simp only [List.mem_cons, List.mem_append, List.mem_replicate] at hc
    rcases hc with rfl | rfl | ⟨_, rfl⟩ | hc
    · exact hzero
    · exact hpoint
    · exact hzero
    · exact hdigits c hc
  split at hc
  · simp only [Layout.plain, List.append_nil, List.mem_append, List.mem_replicate] at hc
    rcases hc with hc | ⟨_, rfl⟩
    · exact hdigits c hc
    · exact hzero
  · simp only [List.mem_cons, List.mem_append] at hc
    rcases hc with hc | rfl | hc
    · exact hdigits c (List.mem_of_mem_take hc)
    · exact hpoint
    · exact hdigits c (List.mem_of_mem_drop hc)

theorem Layout.tame_write (f : Format) (p : Parts) :
    (Layout.plain.write f p).all isTame = true := by
  obtain ⟨negative, magnitude⟩ := p
  have hsize : ∀ s : List Char, s.all isTame = true →
      (if negative && magnitude != .undefined then '-' :: s else s).all isTame = true := by
    intro s hs
    split
    · exact Bool.and_eq_true_iff.2 ⟨by decide, hs⟩
    · exact hs
  refine hsize _ ?_
  cases magnitude with
  | undefined =>
    show Layout.plain.undefined.all isTame = true
    decide
  | infinite =>
    show Layout.plain.infinite.all isTame = true
    decide
  | finite m q =>
    show (if m = 0 then _ else _ : List Char).all isTame = true
    split
    · decide
    · exact tame_setPositional _

theorem tame_drawingText (x : Float) : (drawingText x).all isTame = true := by
  unfold drawingText
  dsimp only
  split
  · exact tame_intDigits _
  · exact Layout.tame_write ..

end Number

theorem Color.tame_hexSolid (c : Color) : c.hexSolid.all Markup.isTame = true := by
  have hdigit : ∀ n : Fin 16, Markup.isTame (Nat.digitChar n) = true := by decide
  have hpair : ∀ b : UInt8, (hexPair b).all Markup.isTame = true := by
    intro b
    have hb := b.toNat_lt
    have hhigh := hdigit ⟨b.toNat / 16, by omega⟩
    have hlow := hdigit ⟨b.toNat % 16, by omega⟩
    simp only [hexPair, List.all_cons, hhigh, hlow, List.all_nil, Bool.and_self]
  simp only [hexSolid, List.all_append, List.all_cons, hpair, Bool.and_true]
  decide

/-! ### Elements -/

namespace Markup

/-- The tag of an element; that of a text has no name. -/
def tag : Markup → Tag
  | .text _ => ⟨"", []⟩
  | .leaf t => t
  | .node t _ => t

section Mapped

variable {α : Type} {f : α → Markup}

theorem elementsAll_map {g : α → Element} (h : ∀ x, elements (f x) = [g x]) (l : List α) :
    elementsAll (l.map f) = l.map g := by
  induction l with
  | nil => rfl
  | cons x l ih =>
    show elements (f x) ++ elementsAll (l.map f) = g x :: l.map g
    rw [h, ih, List.singleton_append]

theorem textAll_map (h : ∀ x, textAll [f x] = []) (l : List α) : textAll (l.map f) = [] := by
  induction l with
  | nil => rfl
  | cons x l ih =>
    have hcons : textAll (f x :: l.map f) = textAll [f x] ++ textAll (l.map f) := by
      cases f x <;> simp [textAll]
    rw [List.map_cons, hcons, h, ih, List.append_nil]

theorem isWellAll_map (h : ∀ x, isWell (f x) = true) (l : List α) :
    isWellAll (l.map f) = true := by
  induction l with
  | nil => rfl
  | cons x l ih => exact Bool.and_eq_true_iff.2 ⟨h x, ih⟩

end Mapped

end Markup

/-- The characters that a shape consists of. -/
def Shape.content : Shape → List Char
  | .text t => t.content.toList
  | _ => []

namespace Document

open Markup

/-- The element for a part. Nothing but its text stands in it. -/
def element (reveal : Float) (p : Part) : Element :=
  ⟨(ofPart reveal p).tag, p.shape.content, []⟩

/-- The group for an item, with its parts one after another. -/
def group (now : Nat) (i : Item) : Element :=
  let origin := i.originAt now
  ⟨⟨"g", [("data-id", i.id.text), ("data-kind", i.kind.name),
      ("transform", "translate(" ++ coordinate origin.x ++ " " ++ coordinate origin.y ++ ")"),
      ("opacity", coordinate (i.opacityAt now))]⟩,
    [], i.figure.parts.map (element (i.revealAt now))⟩

/-- A document with some groups behind the arrow head and the background. -/
def sheet (groups : List Element) : Element :=
  let width := coordinate Canvas.width
  let height := coordinate Canvas.height
  ⟨⟨"svg", [("xmlns", "http://www.w3.org/2000/svg"), ("width", width), ("height", height),
      ("viewBox", "0 0 " ++ width ++ " " ++ height)]⟩,
    [], elementsAll [arrowHead, backdrop] ++ groups⟩

/-! ### Reading a document -/

variable (now : Nat) (reveal : Float)

theorem elements_ofPart (p : Part) : elements (ofPart reveal p) = [element reveal p] := by
  obtain ⟨role, shape, paint⟩ := p
  cases shape with
  | text t => simp [ofPart, element, elements, tag, Shape.content, textAll, elementsAll]
  | _ => rfl

theorem textAll_ofPart (p : Part) : textAll [ofPart reveal p] = [] := by
  obtain ⟨role, shape, paint⟩ := p
  cases shape <;> rfl

theorem elements_ofItem (i : Item) : elements (ofItem now i) = [group now i] := by
  unfold ofItem elements group
  dsimp only
  rw [textAll_map (textAll_ofPart _), elementsAll_map (elements_ofPart _)]

theorem textAll_ofItem (i : Item) : textAll [ofItem now i] = [] := rfl

/-! ### Attributes -/

/-- Whether an attribute has a name and a value that is written as it is. -/
def isClean (a : String × String) : Bool := isName a.1 && a.2.toList.all isPlain

/-- Whether an attribute has a name and a value of tame characters. -/
def isTamed (a : String × String) : Bool := isName a.1 && a.2.toList.all isTame

theorem isClean_of_isTamed {a : String × String} (h : isTamed a = true) : isClean a = true := by
  obtain ⟨hname, hvalue⟩ := Bool.and_eq_true_iff.1 h
  refine Bool.and_eq_true_iff.2 ⟨hname, List.all_eq_true.2 ?_⟩
  intro c hc
  exact isPlain_of_isTame (List.all_eq_true.1 hvalue c hc)

section Tamed

variable {name : String} (hname : isName name = true)

include hname

theorem tamed_ofList {s : List Char} (hs : s.all isTame = true) :
    isTamed (name, String.ofList s) = true := by
  unfold isTamed
  rw [hname, String.toList_ofList, hs]
  rfl

theorem tamed_coordinate (x : Float) : isTamed (name, coordinate x) = true :=
  tamed_ofList hname (Number.tame_drawingText x)

theorem tamed_hexSolid (c : Color) : isTamed (name, String.ofList c.hexSolid) = true :=
  tamed_ofList hname c.tame_hexSolid

theorem tamed_opacityAttribute (c : Color) : (opacityAttribute name c).all isTamed = true := by
  unfold opacityAttribute
  split
  · rfl
  · exact Bool.and_eq_true_iff.2 ⟨tamed_coordinate hname _, rfl⟩

end Tamed

theorem tamed_fillAttributes (c : Option Color) : (fillAttributes c).all isTamed = true := by
  cases c with
  | none => decide
  | some c =>
    exact Bool.and_eq_true_iff.2
      ⟨tamed_hexSolid (by decide) c, tamed_opacityAttribute (by decide) c⟩

theorem tamed_dashAttribute (dash : Option (Float × Float)) :
    (dashAttribute dash).all isTamed = true := by
  rcases dash with _ | ⟨on, off⟩
  · rfl
  have htext : coordinate on ++ "," ++ coordinate off =
      String.ofList (Number.drawingText on ++ ',' :: Number.drawingText off) := by
    apply String.toList_inj.1
    simp [coordinate]
  have htame : (Number.drawingText on ++ ',' :: Number.drawingText off).all isTame = true := by
    rw [List.all_append, List.all_cons, Number.tame_drawingText, Number.tame_drawingText]
    decide
  show ([(_, coordinate on ++ "," ++ coordinate off)] : List (String × String)).all isTamed = true
  rw [htext, List.all_cons, tamed_ofList (by decide) htame]
  rfl

theorem tamed_paintAttributes (p : Paint) : (paintAttributes p).all isTamed = true := by
  unfold paintAttributes strokeAttributes
  rw [List.all_append, tamed_fillAttributes, Bool.true_and]
  cases p.stroke with
  | none => rfl
  | some c =>
    simp (disch := decide) only [List.all_append, List.all_cons, List.all_nil, tamed_hexSolid,
      tamed_coordinate, tamed_opacityAttribute, tamed_dashAttribute, Bool.and_self]

theorem tamed_lineAttributes (start stop : Point) :
    (lineAttributes start stop reveal).all isTamed = true := by
  simp (disch := decide) only [lineAttributes, List.all_cons, List.all_nil, tamed_coordinate,
    Bool.and_self]

theorem tamed_letteringAttributes (t : Lettering) :
    (letteringAttributes t).all isTamed = true := by
  have hfamily : isTamed ("font-family", "sans-serif") = true := by decide
  have hweight : isTamed ("font-weight", Number.natText t.weight) = true :=
    tamed_ofList (by decide) (Number.tame_natDigits _)
  have hstart : isTamed ("text-anchor", "start") = true := by decide
  have hmiddle : isTamed ("text-anchor", "middle") = true := by decide
  have hbaseline : (if t.centered then [("dominant-baseline", "central")] else []).all isTamed =
      true := by
    cases t.centered <;> decide
  unfold letteringAttributes
  rw [List.all_append, hbaseline]
  cases t.anchor <;>
    simp (disch := decide) only [List.all_cons, List.all_nil, tamed_coordinate, hfamily, hweight,
      hstart, hmiddle, Bool.and_self]

/-- The values in the tag of a part are tame. -/
theorem tamed_element (p : Part) : (element reveal p).tag.attributes.all isTamed = true := by
  obtain ⟨role, shape, paint⟩ := p
  have hpaint := tamed_paintAttributes paint
  cases shape with
  | circle center radius =>
    show ([_, _, _] ++ _ : List (String × String)).all isTamed = true
    simp (disch := decide) only [List.all_append, List.all_cons, List.all_nil, tamed_coordinate,
      hpaint, Bool.and_self]
  | rect r =>
    show ([_, _, _, _] ++ _ : List (String × String)).all isTamed = true
    simp (disch := decide) only [List.all_append, List.all_cons, List.all_nil, tamed_coordinate,
      hpaint, Bool.and_self]
  | line start stop =>
    show (_ ++ _ : List (String × String)).all isTamed = true
    rw [List.all_append, tamed_lineAttributes, hpaint]
    rfl
  | arrow start stop =>
    show (_ ++ _ ++ _ : List (String × String)).all isTamed = true
    rw [List.all_append, List.all_append, tamed_lineAttributes, hpaint]
    decide
  | text t =>
    show (_ ++ _ : List (String × String)).all isTamed = true
    rw [List.all_append, tamed_letteringAttributes, hpaint]
    rfl

/-- In that of a group all but the id are. -/
theorem tamed_group (i : Item) :
    ∀ a ∈ (group now i).tag.attributes, isTamed a = true ∨ a = ("data-id", i.id.text) := by
  have hkind : isTamed ("data-kind", i.kind.name) = true := by
    cases i.kind <;> decide
  have hplace : ∀ x y, isTamed
      ("transform", "translate(" ++ coordinate x ++ " " ++ coordinate y ++ ")") = true := by
    intro x y
    have htext : "translate(" ++ coordinate x ++ " " ++ coordinate y ++ ")" =
        String.ofList ("translate(".toList ++ Number.drawingText x ++ ' ' ::
          Number.drawingText y ++ [')']) := by
      apply String.toList_inj.1
      simp [coordinate]
    rw [htext]
    refine tamed_ofList (by decide) ?_
    rw [List.all_append, List.all_append, List.all_append, List.all_cons,
      Number.tame_drawingText, Number.tame_drawingText]
    decide
  intro a ha
  rcases List.mem_cons.1 ha with rfl | hrest
  · exact .inr rfl
  refine .inl (List.all_eq_true.1 ?_ a hrest)
  simp (disch := decide) only [List.all_cons, List.all_nil, hkind, hplace, tamed_coordinate,
    Bool.and_self]

/-- Nothing in the tag of a part has to be written in another way. -/
theorem clean_element (p : Part) : (element reveal p).tag.attributes.all isClean = true := by
  rw [List.all_eq_true]
  intro a ha
  exact isClean_of_isTamed (List.all_eq_true.1 (tamed_element reveal p) a ha)

/-- In that of a group only the id has to. -/
theorem clean_group (i : Item) :
    ∀ a ∈ (group now i).tag.attributes, isClean a = true ∨ a = ("data-id", i.id.text) := by
  intro a ha
  exact (tamed_group now i a ha).imp_left isClean_of_isTamed

theorem escape_of_clean {a : String × String} (h : isClean a = true) : escape a.2 = a.2.toList :=
  escape_of_plain (Bool.and_eq_true_iff.1 h).2

/-! ### The whole document -/

theorem isName_of_clean {a : String × String} (h : isClean a = true) : isName a.1 = true :=
  (Bool.and_eq_true_iff.1 h).1

theorem isNamed_of_clean {name : String} {attributes : List (String × String)}
    (hname : isName name = true) (h : attributes.all isClean = true) :
    isNamed ⟨name, attributes⟩ = true :=
  Bool.and_eq_true_iff.2 ⟨hname, List.all_eq_true.2 fun a ha =>
    isName_of_clean (List.all_eq_true.1 h a ha)⟩

theorem isWell_ofPart (p : Part) : isWell (ofPart reveal p) = true := by
  have hclean := clean_element reveal p
  obtain ⟨role, shape, paint⟩ := p
  cases shape with
  | text t =>
    unfold ofPart isWell
    exact Bool.and_eq_true_iff.2 ⟨isNamed_of_clean (by decide) hclean, rfl⟩
  | _ => exact isNamed_of_clean (by decide) hclean

theorem isWell_ofItem (i : Item) : isWell (ofItem now i) = true := by
  have hnames : ∀ a ∈ (group now i).tag.attributes, isName a.1 = true := by
    intro a ha
    rcases clean_group now i a ha with hclean | rfl
    · exact isName_of_clean hclean
    · show isName "data-id" = true
      decide
  have hname : isName "g" = true := by decide
  have hnamed : isNamed (group now i).tag = true :=
    Bool.and_eq_true_iff.2 ⟨hname, List.all_eq_true.2 hnames⟩
  exact Bool.and_eq_true_iff.2 ⟨hnamed, isWellAll_map (isWell_ofPart _) _⟩

theorem read?_ofCanvas (c : Canvas) :
    Element.read? (ofCanvas now c).write = some (sheet (c.stacked.map (group now))) := by
  have hnamed : isNamed (sheet []).tag = true := by decide
  have harrow : isWell arrowHead = true := by decide
  have hbackdrop : isWell backdrop = true := by decide
  have hwell : isWell (ofCanvas now c) = true := by
    have hgroups := isWellAll_map (isWell_ofItem now) c.stacked
    exact Bool.and_eq_true_iff.2
      ⟨hnamed, Bool.and_eq_true_iff.2 ⟨harrow, Bool.and_eq_true_iff.2 ⟨hbackdrop, hgroups⟩⟩⟩
  have htext := textAll_map (textAll_ofItem now) c.stacked
  have helements := elementsAll_map (elements_ofItem now) c.stacked
  refine (Element.read?_write hwell).trans (congrArg some ?_)
  show Element.mk _ (textAll (c.stacked.map (ofItem now)))
    (elements arrowHead ++ (elements backdrop ++ elementsAll (c.stacked.map (ofItem now)))) = _
  rw [htext, helements]
  rfl

end Document

/-! ### What does not depend on texts -/

/-- The tag without the id in it. -/
def Tag.bare (t : Tag) : Tag :=
  { t with attributes := t.attributes.map fun a => if a.1 = "data-id" then (a.1, "") else a }

namespace Element

mutual

/-- What is left of an element without the texts and the ids in it. -/
def bare : Element → Element
  | ⟨t, _, children⟩ => ⟨t.bare, [], bareAll children⟩

/-- The same for several elements. -/
def bareAll : List Element → List Element
  | [] => []
  | e :: rest => bare e :: bareAll rest

end

theorem bareAll_map_congr {α : Type} {f g : α → Element} (h : ∀ x, (f x).bare = (g x).bare)
    (l : List α) : bareAll (l.map f) = bareAll (l.map g) := by
  induction l with
  | nil => rfl
  | cons x l ih =>
    simp only [List.map_cons, bareAll, h, ih]

end Element

/-- A part with an empty text. -/
def Part.unlettered (p : Part) : Part :=
  match p.shape with
  | .text t => { p with shape := .text { t with content := "" } }
  | _ => p

/-- An item with an empty id and empty texts. -/
def Item.unlettered (i : Item) : Item :=
  { i with
    id := ⟨""⟩
    figure := { i.figure with parts := i.figure.parts.map Part.unlettered } }

namespace Document

variable (now : Nat) (reveal : Float)

/-- The skeleton of a document with some items. -/
def skeleton (items : List Item) : Element := (sheet (items.map (group now))).bare

theorem bare_element_unlettered (p : Part) :
    (element reveal p.unlettered).bare = (element reveal p).bare := by
  obtain ⟨role, shape, paint⟩ := p
  cases shape <;> rfl

theorem bare_group_unlettered (i : Item) :
    (group now i.unlettered).bare = (group now i).bare := by
  have hchildren : Element.bareAll (group now i.unlettered).children =
      Element.bareAll (group now i).children := by
    show Element.bareAll ((i.figure.parts.map Part.unlettered).map _) = _
    rw [List.map_map]
    exact Element.bareAll_map_congr (bare_element_unlettered (i.revealAt now)) i.figure.parts
  -- The tags differ in the id only, which is left out.
  exact congrArg (Element.mk (group now i).tag.bare []) hchildren

theorem skeleton_unlettered (items : List Item) :
    skeleton now (items.map Item.unlettered) = skeleton now items := by
  have hgroups : Element.bareAll ((items.map Item.unlettered).map (group now)) =
      Element.bareAll (items.map (group now)) := by
    rw [List.map_map]
    exact Element.bareAll_map_congr (bare_group_unlettered now) items
  show Element.mk _ [] (_ :: _ :: Element.bareAll ((items.map Item.unlettered).map (group now))) =
    Element.mk _ [] (_ :: _ :: Element.bareAll (items.map (group now)))
  rw [hgroups]

end Document

/-! ### The result -/

/-- The reader finds a group for every item in the document of a canvas, whatever the canvas was
    told: first those of the edges, then those of the shapes and of the overlay, each layer in the
    order in which its items were created. In the group are the elements of the parts in their
    order. The id of the item and the texts of the parts are read as what they are, all else that
    is read depends on neither, and every other value of an attribute is written as it is. -/
theorem Canvas.read_drawing (record : List JournalEntry) (now : Nat) :
    Element.read? ((ofRecord record).drawing now).toList =
        some (Document.sheet ((ofRecord record).stacked.map (Document.group now))) ∧
      (ofRecord record).stacked.Perm (ofRecord record).items.values ∧
      (ofRecord record).stacked = [Layer.edges, .shapes, .overlay].flatMap (fun l =>
        ((created record).filterMap (ofRecord record).items.find?).filter
          fun i => i.figure.layer = l) ∧
      (Element.read? ((ofRecord record).drawing now).toList).map Element.bare =
        some (Document.skeleton now ((ofRecord record).stacked.map Item.unlettered)) ∧
      ∀ i ∈ (ofRecord record).stacked,
        (∀ a ∈ (Document.group now i).tag.attributes,
          Markup.escape a.2 = a.2.toList ∨ a = ("data-id", i.id.text)) ∧
        ∀ p ∈ i.figure.parts, ∀ a ∈ (Document.element (i.revealAt now) p).tag.attributes,
          Markup.escape a.2 = a.2.toList := by
  have hread : Element.read? ((ofRecord record).drawing now).toList =
      some (Document.sheet ((ofRecord record).stacked.map (Document.group now))) := by
    unfold drawing Markup.document
    rw [String.toList_ofList]
    exact Document.read?_ofCanvas now _
  refine ⟨hread, stacked_perm _, ?_, ?_, fun i _ => ⟨fun a ha => ?_, fun p _ a ha => ?_⟩⟩
  · rw [← values_eq_created]
    simp [stacked, inLayer]
  · rw [hread, Document.skeleton_unlettered]
    rfl
  · exact (Document.clean_group now i a ha).imp_left Document.escape_of_clean
  · have hclean := Document.clean_element (i.revealAt now) p
    exact Document.escape_of_clean (List.all_eq_true.1 hclean a ha)

end Storyboard
