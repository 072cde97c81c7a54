import Storyboard.Command.Basic
import Storyboard.Proofs.Data.Lookup
import Storyboard.Proofs.Decode.Making
import Storyboard.Proofs.Text.Blank

/-! # The two forms of a command

    A command may have its parameters in an object of their own or beside its
    word. Either way they come down to one envelope (`Envelope.ofJson_nested`,
    `Envelope.ofJson_flat`), so they decode alike, errors included. An object
    in canonical form is a table of its members.

    The word of a command is looked up in the table of tags, and the word that
    this table has for the tag is looked up in the union of all commands. Both
    tables have the same words in the same order, and what a variant of the
    union decodes to has the tag that its word belongs to (`agrees_variants`). -/

namespace Storyboard

open Decode

/-! ### Members -/

section
variable {κ α : Type} [Ord κ] [Std.LawfulEqOrd κ] [DecidableEq κ]

/-- What is found under a key once other keys are left out. -/
theorem Entries.find?_filter (p : κ → Bool) (l : List (κ × α)) (k : κ) :
    find? k (l.filter fun e => p e.1) = if p k then find? k l else none := by
  induction l with
  | nil => simp [find?]
  | cons e l ih =>
    obtain ⟨k', v⟩ := e
    by_cases hk : k = k'
    · subst hk
      cases hp : p k with
      | true => simp [find?, hp]
      | false =>
        rw [hp] at ih
        simpa [List.filter_cons, hp] using ih
    · have hfind : find? k ((k', v) :: l) = find? k l := by
        simp [find?, Table.compare_ne_eq hk]
      rw [hfind, ← ih]
      cases hp : p k' with
      | true => simp [find?, hp, Table.compare_ne_eq hk]
      | false => simp [hp]

end

/-! ### Words and tags -/

namespace CommandTag

variable {word other : String} {t : CommandTag}

theorem mem_all (t : CommandTag) : t ∈ all := by
  cases t <;> decide

theorem name_ne_empty (t : CommandTag) : t.name ≠ "" := by
  cases t <;> decide

theorem name_injective : Function.Injective name := by
  intro t u
  have hall : ∀ t ∈ all, ∀ u ∈ all, t.name = u.name → t = u := by decide +kernel
  exact hall t (mem_all t) u (mem_all u)

/-- A word names the tag whose name it is once it is trimmed and in capitals. -/
theorem ofName?_eq_some : ofName? word = some t ↔ Text.upper (Text.trim word) = t.name := by
  have hnamed : ∀ {w : String} {u : CommandTag}, (all.find? fun u => u.name == w) = some u →
      u.name = w := by
    intro w u h
    have hname := List.find?_some h
    exact beq_iff_eq.1 hname
  unfold ofName?
  dsimp only
  constructor
  · intro h
    exact (hnamed h).symm
  · intro h
    rw [h]
    cases hfind : all.find? fun u => u.name == t.name with
    | none => simpa using List.find?_eq_none.1 hfind t (mem_all t)
    | some u => rw [name_injective (hnamed hfind)]

theorem ofName?_trim (word : String) : ofName? (Text.trim word) = ofName? word := by
  unfold ofName?
  rw [Text.trim_trim]

theorem ofName?_congr (h : Text.upper (Text.trim other) = Text.upper (Text.trim word)) :
    ofName? other = ofName? word := by
  unfold ofName?
  rw [h]

/-- A word that names a tag is not blank. -/
theorem trimmed?_of_ofName? (h : ofName? word = some t) :
    Text.trimmed? word = some (Text.trim word) := by
  refine Text.trimmed?_eq_some.2 ⟨rfl, fun hempty => t.name_ne_empty ?_⟩
  rw [← ofName?_eq_some.1 h, hempty, Text.upper_empty]

end CommandTag

/-! ### The union of all commands -/

namespace Command

variable {word other : String} {tag : CommandTag} {c d : Command}

/-- A variant has the word for a tag, and what it decodes to has that tag. -/
def Agrees (variant : Variant Command) (tag : CommandTag) : Prop :=
  variant.tag = tag.name ∧ variant.record.Makes (·.tag = tag)

/-- The variants of the union and the tags of the table agree, one by one and in their order. -/
theorem agrees_variants : List.Forall₂ Agrees variants CommandTag.all := by
  unfold variants CommandTag.all
  repeat' apply List.Forall₂.cons
  any_goals
    refine ⟨by decide +kernel, ?_⟩
    -- All fields but the first are put behind the others; the command is the same in the end.
    repeat with_reducible apply Record.Makes.seq
    exact Record.Makes.map (by intros; rfl)
  exact .nil

/-- Every tag has a variant in the union, and it is found by the word for the tag. -/
theorem exists_variant (tag : CommandTag) :
    ∃ variant, Variant.ofTag variants (.str tag.name) = .ok variant ∧ Agrees variant tag := by
  have hfound : ∀ {vs : List (Variant Command)} {ts : List CommandTag},
      List.Forall₂ Agrees vs ts → tag ∈ ts →
        ∃ variant, vs.find? (·.tag == tag.name) = some variant ∧ Agrees variant tag := by
    intro vs ts h htag
    induction h with
    | nil => cases htag
    | @cons v t vs ts hv _ ih =>
      by_cases ht : t = tag
      · subst ht
        exact ⟨v, List.find?_cons_of_pos (beq_iff_eq.2 hv.1), hv⟩
      · have hne : (v.tag == tag.name) = false := by
          rw [beq_eq_false_iff_ne, hv.1]
          exact fun h => ht (CommandTag.name_injective h)
        obtain ⟨variant, hfind, hagrees⟩ := ih ((List.mem_cons.1 htag).resolve_left (Ne.symm ht))
        exact ⟨variant, by rw [List.find?_cons, hne, hfind], hagrees⟩
  obtain ⟨variant, hfind, hagrees⟩ := hfound agrees_variants (CommandTag.mem_all tag)
  refine ⟨variant, ?_, hagrees⟩
  unfold Variant.ofTag
  dsimp only
  rw [hfind]

theorem eq_of_check (h : check c = .ok d) : c = d := by
  unfold check at h
  split at h
  · split at h
    · cases h
    · exact Except.ok.inj h
  · exact Except.ok.inj h

/-- What the parameters of a command decode to has its tag. -/
theorem tag_of_ofParameters {parameters : List (String × Json)}
    (h : ofParameters tag parameters = .ok c) : c.tag = tag := by
  obtain ⟨variant, hvariant, hagrees⟩ := exists_variant tag
  have hmembers : Variant.memberOf (canonicalForm tag parameters) "command" = .ok (.str tag.name) ∧
      Variant.memberOf (canonicalForm tag parameters) "params" = .ok (.obj parameters) := by
    have hne := Table.compare_ne_eq (a := "params") (b := "command") (by decide)
    simp [Variant.memberOf, canonicalForm, Entries.find?, hne]
  unfold ofParameters at h
  split at h
  · cases h
  · next d hd =>
    unfold Variant.ofApart at hd
    rw [hmembers.1, hmembers.2] at hd
    obtain ⟨_, hword, hd⟩ := exists_ok_of_bind hd
    obtain rfl := Except.ok.inj hword
    obtain ⟨_, hfound, hd⟩ := exists_ok_of_bind hd
    obtain rfl := Except.ok.inj (hvariant.symm.trans hfound)
    obtain ⟨_, _, hd⟩ := exists_ok_of_bind hd
    rw [← eq_of_check h]
    exact hagrees.2.decoder hd

/-- A command has the tag that its word names. -/
theorem tag_of_ofEnvelope {e : Envelope} (h : ofEnvelope e = .ok c) :
    CommandTag.ofName? e.word = some c.tag := by
  unfold ofEnvelope at h
  split at h
  · cases h
  · next tag htag => rw [htag, tag_of_ofParameters h]

/-! ### Envelopes -/

/-- The envelope of a word, unless it is blank, and of parameters. -/
def Envelope.of (word : String) (parameters : Table String Json) : Except CommandProblem Envelope :=
  match Text.trimmed? word with
  | none => .error .missingTag
  | some word => .ok ⟨word, parameters.entries⟩

/-- A command with its parameters in an object of their own, among other members. -/
def nested (word : String) (parameters siblings : Table String Json) : Table String Json :=
  (siblings.insert "command" (.str word)).insert "params" (.obj parameters.entries)

/-- A command with its parameters beside its word. -/
def flat (word : String) (parameters : Table String Json) : Table String Json :=
  parameters.insert "command" (.str word)

variable {parameters siblings object : Table String Json}

theorem wordOf?_of_find? (h : object.find? "command" = some (.str word)) :
    wordOf? object.entries = Text.trimmed? word := by
  have hfind : Entries.find? "command" object.entries = some (.str word) := h
  unfold wordOf?
  rw [hfind]

theorem Envelope.ofJson_nested (word : String) (parameters siblings : Table String Json) :
    Envelope.ofJson (.obj (nested word parameters siblings).entries) =
      Envelope.of word parameters := by
  have hword : (nested word parameters siblings).find? "command" = some (.str word) := by
    rw [nested, Table.find?_insert, if_neg (by decide), Table.find?_insert, if_pos rfl]
  have hparams : Entries.find? "params" (nested word parameters siblings).entries =
      some (.obj parameters.entries) := by
    have h : (nested word parameters siblings).find? "params" = some (.obj parameters.entries) := by
      rw [nested, Table.find?_insert, if_pos rfl]
    exact h
  have hmember := wordOf?_of_find? hword
  unfold Envelope.ofJson Envelope.of
  cases htrimmed : Text.trimmed? word with
  | none => simp only [hmember, htrimmed]
  | some w => simp only [hmember, hparams, htrimmed]

/-- Parameters that stand beside the word are those members that are neither the word nor an empty
    place for parameters. -/
theorem Envelope.ofJson_flat (hword : object.find? "command" = some (.str word))
    (hparams : object.find? "params" = none ∨ object.find? "params" = some .null)
    (hcommand : parameters.find? "command" = none) (hfree : parameters.find? "params" = none)
    (hothers : ∀ key, key ≠ "command" → key ≠ "params" →
      object.find? key = parameters.find? key) :
    Envelope.ofJson (.obj object.entries) = Envelope.of word parameters := by
  -- The members that are left as parameters, as a table of their own.
  let others : Table String Json :=
    ⟨object.entries.filter fun m => m.1 != "command" && m.1 != "params", object.sorted.filter _⟩
  have hrest : others = parameters := by
    refine Table.ext_find? fun key => ?_
    have hfilter : others.find? key =
        if (key != "command" && key != "params") = true then object.find? key else none :=
      Entries.find?_filter (fun key => key != "command" && key != "params") object.entries key
    rw [hfilter]
    by_cases hc : key = "command"
    · subst hc
      simp [hcommand]
    · by_cases hp : key = "params"
      · subst hp
        simp [hfree]
      · rw [if_pos (by simp [hc, hp]), hothers key hc hp]
  have hentries : object.entries.filter (fun m => m.1 != "command" && m.1 != "params") =
      parameters.entries := congrArg Table.entries hrest
  unfold Envelope.ofJson Envelope.of
  dsimp only
  rw [wordOf?_of_find? hword, hentries]
  cases Text.trimmed? word with
  | none => rfl
  | some trimmed =>
    have hplace : Entries.find? "params" object.entries = none ∨
        Entries.find? "params" object.entries = some .null := hparams
    rcases hplace with hnone | hnull
    · rw [hnone]
    · rw [hnull]

/-- Only what the word names counts, not how it is written. -/
theorem bind_of_congr {tag : CommandTag} (htag : CommandTag.ofName? word = some tag)
    (hother : Text.upper (Text.trim other) = Text.upper (Text.trim word))
    (parameters : Table String Json) :
    (Envelope.of other parameters >>= ofEnvelope) = (Envelope.of word parameters >>= ofEnvelope) := by
  have hdecode : ∀ w, CommandTag.ofName? w = some tag →
      (Envelope.of w parameters >>= ofEnvelope) = ofParameters tag parameters.entries := by
    intro w hw
    have htrimmed : CommandTag.ofName? (Text.trim w) = some tag :=
      (CommandTag.ofName?_trim w).trans hw
    unfold Envelope.of
    rw [CommandTag.trimmed?_of_ofName? hw]
    show ofEnvelope ⟨Text.trim w, parameters.entries⟩ = _
    unfold ofEnvelope
    dsimp only
    rw [htrimmed]
  rw [hdecode other ((CommandTag.ofName?_congr hother).trans htag), hdecode word htag]

/-- A command that decodes has a word, and the word names its tag. -/
theorem tag_of_ofJson {v : Json} (h : ofJson v = .ok c) :
    ∃ word, v.member? "command" = some (.str word) ∧ CommandTag.ofName? word = some c.tag := by
  obtain ⟨e, he, hc⟩ := exists_ok_of_bind h
  have htag := tag_of_ofEnvelope hc
  unfold Envelope.ofJson at he
  split at he
  · next members =>
    -- Whatever the parameters are, the word of the envelope is that of the object, trimmed.
    have hword : wordOf? members = some e.word := by
      cases hw : wordOf? members with
      | none =>
        rw [hw] at he
        cases he
      | some w =>
        rw [hw] at he
        dsimp only at he
        split at he
        · exact congrArg some (congrArg Envelope.word (Except.ok.inj he))
        · exact congrArg some (congrArg Envelope.word (Except.ok.inj he))
        · exact congrArg some (congrArg Envelope.word (Except.ok.inj he))
        · cases he
    unfold wordOf? at hword
    split at hword
    · next word hfind =>
      obtain ⟨htrim, _⟩ := Text.trimmed?_eq_some.1 hword
      rw [← htrim, CommandTag.ofName?_trim] at htag
      exact ⟨word, hfind, htag⟩
    · cases hword
  · cases he

/-- The two forms of a command decode alike, to the same command or the same problem, whatever else
    stands beside parameters in an object of their own and whether or not those beside the word
    have an empty place. Of a word that names a command only that matters. A command that decodes
    has the tag that its word names, and the tables of tags and of variants agree. -/
theorem ofJson_forms (word : String) {parameters : Table String Json}
    (hcommand : parameters.find? "command" = none) (hparams : parameters.find? "params" = none) :
    (∀ siblings, ofJson (.obj (nested word parameters siblings).entries) =
        ofJson (.obj (flat word parameters).entries)) ∧
      ofJson (.obj ((flat word parameters).insert "params" .null).entries) =
        ofJson (.obj (flat word parameters).entries) ∧
      (∀ other tag, CommandTag.ofName? word = some tag →
        Text.upper (Text.trim other) = Text.upper (Text.trim word) →
          ofJson (.obj (flat other parameters).entries) =
            ofJson (.obj (flat word parameters).entries)) ∧
      (∀ v c, ofJson v = .ok c → ∃ w, v.member? "command" = some (.str w) ∧
        CommandTag.ofName? w = some c.tag ∧ Text.upper (Text.trim w) = c.tag.name) ∧
      List.Forall₂ Agrees variants CommandTag.all := by
  -- Both forms come down to the same envelope, of the word and the parameters alone.
  have hflat : ∀ w, Envelope.ofJson (.obj (flat w parameters).entries) =
      Envelope.of w parameters := by
    intro w
    refine Envelope.ofJson_flat ?_ (.inl ?_) hcommand hparams fun key hkey _ => ?_
    · rw [flat, Table.find?_insert, if_pos rfl]
    · rw [flat, Table.find?_insert, if_neg (by decide), hparams]
    · rw [flat, Table.find?_insert, if_neg hkey]
  have hnull : Envelope.ofJson (.obj ((flat word parameters).insert "params" .null).entries) =
      Envelope.of word parameters := by
    refine Envelope.ofJson_flat ?_ (.inr ?_) hcommand hparams fun key hkey hkey' => ?_
    · rw [Table.find?_insert, if_neg (by decide), flat, Table.find?_insert, if_pos rfl]
    · rw [Table.find?_insert, if_pos rfl]
    · rw [Table.find?_insert, if_neg hkey', flat, Table.find?_insert, if_neg hkey]
  refine ⟨fun siblings => ?_, ?_, fun other tag htag hother => ?_, fun v c h => ?_,
    agrees_variants⟩
  · unfold ofJson
    rw [Envelope.ofJson_nested, hflat]
  · unfold ofJson
    rw [hnull, hflat]
  · unfold ofJson
    rw [hflat, hflat]
    exact bind_of_congr htag hother parameters
  · obtain ⟨w, hmember, htag⟩ := tag_of_ofJson h
    exact ⟨w, hmember, htag, CommandTag.ofName?_eq_some.1 htag⟩

/-- The members of an edge between two nodes. -/
def edgeMembers : Table String Json :=
  (((Table.empty.insert "from" (.str "a")).insert "id" (.str "e")).insert "to" (.str "b")).insert
    "weight" (.int 4)

/-- An edge between two nodes, its word in small letters between blanks. -/
theorem ofJson_forms_createEdge :
    edgeMembers.find? "command" = none ∧ edgeMembers.find? "params" = none ∧
      CommandTag.ofName? " create_edge " = some .createEdge ∧
      ofJson (.obj (nested " create_edge " edgeMembers edgeMembers).entries) =
        ofJson (.obj (flat " create_edge " edgeMembers).entries) ∧
      ofJson (.obj (flat "CREATE_EDGE" edgeMembers).entries) =
        ofJson (.obj (flat " create_edge " edgeMembers).entries) ∧
      (ofJson (.obj (flat "CREATE_EDGE" edgeMembers).entries)).toOption =
        some (.createEdge ⟨"e"⟩ ⟨"a"⟩ ⟨"b"⟩ true (some "4") none) := by
  have hcommand : edgeMembers.find? "command" = none := by decide +kernel
  have hparams : edgeMembers.find? "params" = none := by decide +kernel
  have htag : CommandTag.ofName? " create_edge " = some .createEdge := by decide +kernel
  have htag' : CommandTag.ofName? "CREATE_EDGE" = some .createEdge := by decide +kernel
  have hother : Text.upper (Text.trim "CREATE_EDGE") = Text.upper (Text.trim " create_edge ") :=
    (CommandTag.ofName?_eq_some.1 htag').trans (CommandTag.ofName?_eq_some.1 htag).symm
  have hforms := ofJson_forms " create_edge " hcommand hparams
  refine ⟨hcommand, hparams, htag, hforms.1 edgeMembers, ?_, by decide +kernel⟩
  exact hforms.2.2.1 "CREATE_EDGE" .createEdge htag hother

end Command

end Storyboard
