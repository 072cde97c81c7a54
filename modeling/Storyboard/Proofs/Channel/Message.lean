import Storyboard.Channel.Message
import Storyboard.Proofs.Command.Forms
import Storyboard.Proofs.Json.Canonical

/-! # Messages read back

    A message that is written as a value and decoded is the same message
    (`messages_read_back`). There is one exception: an empty place that is
    given on purpose cannot be told from one that is not given at all. What a
    message decodes from does not matter: whatever decodes to a message holds
    its values in canonical form and no such empty place, so writing it and
    decoding once more makes no difference. -/

namespace Storyboard

open Decode Decode.Record

/-! ### What a union makes -/

namespace Decode

variable {α : Type}

namespace Variant

variable {variants : List (Variant α)} {variant : Variant α}

theorem mem_of_ofTag {tag : Json} (h : ofTag variants tag = .ok variant) : variant ∈ variants := by
  unfold ofTag at h
  split at h
  · split at h
    · next v hv =>
      rw [← Except.ok.inj h]
      exact List.mem_of_find?_eq_some hv
    · cases h
  · cases h

theorem mem_of_split {found : Option (Variant α)} {members others : List (String × Json)}
    (hfound : ∀ v, found = some v → v ∈ variants)
    (h : split variants found members = .ok (variant, others)) : variant ∈ variants := by
  -- The tag may stand anywhere among the members: before these, or still among them.
  induction members generalizing found variant others with
  | nil =>
    cases found with
    | none => cases h
    | some v =>
      simp only [split, Except.ok.injEq, Prod.mk.injEq] at h
      rw [← h.1]
      exact hfound v rfl
  | cons e rest ih =>
    obtain ⟨key, v⟩ := e
    unfold split at h
    split at h
    · cases found with
      | some w => cases h
      | none =>
        obtain ⟨w, hw, hrest⟩ := exists_ok_of_bind h
        apply ih _ hrest
        intro u hu
        rw [← Option.some.inj hu]
        exact mem_of_ofTag hw
    · obtain ⟨⟨w, rest'⟩, hrest, hlast⟩ := exists_ok_of_bind h
      simp only [Except.ok.injEq, Prod.mk.injEq] at hlast
      rw [← hlast.1]
      exact ih hfound hrest

/-- Whatever a union decodes to was made by one of its variants. -/
theorem makes_of_variants {P : α → Prop} {what : String} {o : Origin} {v : Json} {a : α}
    (hvariants : ∀ variant ∈ variants, variant.record.Makes P)
    (h : Variant.decoder what variants o v = .ok a) : P a := by
  unfold Variant.decoder at h
  split at h
  · next members =>
    obtain ⟨⟨variant, others⟩, hsplit, hfields⟩ := exists_ok_of_bind h
    have hmem : variant ∈ variants := mem_of_split (by simp) hsplit
    have hmade : variant.record.decoder variant.what .buffered (.obj others) = .ok a := hfields
    exact (hvariants variant hmem).decoder hmade
  · cases h
  · next tag items =>
    obtain ⟨variant, htag, hfields⟩ := exists_ok_of_bind h
    have hmem := mem_of_ofTag htag
    have hmade : variant.record.decoder variant.what .buffered (.arr items) = .ok a := hfields
    exact (hvariants variant hmem).decoder hmade
  · cases h

end Variant

theorem mapM_text (o : Origin) (texts : List String) :
    (texts.map Json.str).mapM (text o) = .ok texts := by
  induction texts with
  | nil => rfl
  | cons s rest ih =>
    rw [List.map_cons, List.mapM_cons, ih]
    rfl

end Decode

/-! ### Messages as they are held -/

/-- All values in the message are in canonical form. -/
def ClientMessage.IsCanonical : ClientMessage → Prop
  | .visualizationRequest _ context => ∀ v, context = some v → v.IsCanonical
  | .userMessage _ codeContext => ∀ v, codeContext = some v → v.IsCanonical
  | .requestContext => True

/-- All values in the message are in canonical form. -/
def ServerMessage.IsCanonical : ServerMessage → Prop
  | .visualizationResponse data => data.IsCanonical
  | .contextSync _ context => context.IsCanonical
  | _ => True

/-- A value that is there and is not null. -/
def present : Option Json → Option Json
  | some .null => none
  | v => v

/-- The message without the places that were left empty on purpose. -/
def ClientMessage.withoutNull : ClientMessage → ClientMessage
  | .visualizationRequest request context => .visualizationRequest request (present context)
  | .userMessage text codeContext => .userMessage text (present codeContext)
  | .requestContext => .requestContext

/-- What an optional value decodes to. -/
def Settled (context : Option Json) : Prop :=
  present context = context ∧ ∀ v, context = some v → v.IsCanonical

theorem settled_of_optional {o : Origin} {v : Json} {context : Option Json}
    (h : optional any o v = .ok context) : Settled context := by
  cases v with
  | null =>
    rw [← Except.ok.inj h]
    exact ⟨rfl, by simp⟩
  | _ =>
    all_goals
      rw [← Except.ok.inj h]
      constructor
      · simp [present, Json.canonical]
      · intro w hw
        rw [← Option.some.inj hw]
        exact Json.canonical_canonical _

/-- A value that may be absent is made in canonical form. -/
theorem makes_settled (name : String) : (maybe name any).Makes Settled := by
  apply Record.Makes.field
  · intro o v a h
    exact settled_of_optional h
  · intro a h
    rw [← Option.some.inj h]
    exact ⟨rfl, by simp⟩

theorem makes_canonical {name : String} {default : Option Json}
    (hdefault : ∀ v, default = some v → v.IsCanonical) :
    (field name [] any default).Makes Json.IsCanonical := by
  apply Record.Makes.field
  · intro o v a h
    rw [← Except.ok.inj h]
    exact Json.canonical_canonical v
  · exact hdefault

namespace ServerMessage

theorem isCanonical_of_decoder {o : Origin} {v : Json} {m : ServerMessage}
    (h : ServerMessage.decoder o v = .ok m) : m.IsCanonical := by
  refine Variant.makes_of_variants ?_ h
  simp only [ServerMessage.variants, List.forall_mem_cons, List.not_mem_nil, false_imp_iff,
    implies_true, and_true]
  -- One goal for each kind of message; only responses and contexts hold values.
  refine ⟨?_, ?_, ?_, ?_, ?_, ?_⟩
  · exact Record.Makes.first (fun a ha => ha) (makes_canonical (by simp))
  · exact Record.Makes.map fun _ => trivial
  · exact Record.Makes.map fun _ => trivial
  · exact Record.Makes.map fun _ => trivial
  · refine Record.Makes.apply (Record.Makes.map ?_) (makes_canonical ?_)
    · intro files context hcontext
      exact hcontext
    · intro v hv
      rw [← Option.some.inj hv]
      rfl
  · exact Record.Makes.seq (Record.Makes.seq (Record.Makes.map fun _ _ _ => trivial))

/-- The members of a message are in the order of their keys. -/
theorem isCanonical_toJson {m : ServerMessage} (h : m.IsCanonical) : m.toJson.IsCanonical := by
  cases m with
  | visualizationResponse data =>
    have hdata : data.IsCanonical := h
    exact Json.isCanonical_obj ["data", "type"] rfl (by decide) (by simp [hdata])
  | llmMessage text =>
    exact Json.isCanonical_obj ["text", "type"] rfl (by decide) (by simp)
  | status message =>
    exact Json.isCanonical_obj ["message", "type"] rfl (by decide) (by simp)
  | error message =>
    exact Json.isCanonical_obj ["message", "type"] rfl (by decide) (by simp)
  | contextSync files context =>
    have hcontext : context.IsCanonical := h
    exact Json.isCanonical_obj ["context", "files", "type"] rfl (by decide)
      (by simp [hcontext])
  | contextUpdate filename content timestamp =>
    have htimestamp : (orNull Json.str timestamp).IsCanonical := by
      cases timestamp <;> simp [orNull]
    exact Json.isCanonical_obj ["content", "filename", "timestamp", "type"] rfl
      (by decide) (by simp [htimestamp])

/-- A message from the backend is read back as it was. -/
theorem ofValue_toJson {m : ServerMessage} (h : m.IsCanonical) :
    ofValue ServerMessage.decoder m.toJson = .ok m := by
  rw [ofValue, isCanonical_toJson h]
  cases m with
  | visualizationResponse data =>
    have hdata : data.canonical = data := h
    have hread : ServerMessage.decoder .value (visualizationResponse data).toJson =
        .ok (visualizationResponse data.canonical) := rfl
    rw [hread, hdata]
  | contextSync files context =>
    have hcontext : context.canonical = context := h
    have hfiles : (files.map Json.str).mapM (text .buffered) = .ok files := mapM_text _ files
    -- The names of the files decode one by one, so this does not come down to a computation.
    have hread : ServerMessage.decoder .value (contextSync files context).toJson =
        .ok (contextSync files context.canonical) := by
      simp [toJson, kind, ServerMessage.decoder, Variant.decoder, Variant.split, Variant.ofTag,
        Variant.tagKey, ServerMessage.variants, ofMembers, checkMembers, memberFor?,
        Slot.answersTo, withDefault, field, Record.apply, Record.const, Decode.list, any, hfiles,
        Functor.map, Seq.seq, bind, Except.bind, Except.map]
    rw [hread, hcontext]
  | contextUpdate filename content timestamp => cases timestamp <;> rfl
  | _ => rfl

end ServerMessage

namespace ClientMessage

/-- The message holds its values as they are held, and no null where nothing is meant. -/
def IsSettled (m : ClientMessage) : Prop := m.IsCanonical ∧ m.withoutNull = m

theorem isSettled_of_decoder {o : Origin} {v : Json} {m : ClientMessage}
    (h : ClientMessage.decoder o v = .ok m) : m.IsSettled := by
  refine Variant.makes_of_variants ?_ h
  simp only [ClientMessage.variants, List.forall_mem_cons, List.not_mem_nil, false_imp_iff,
    implies_true, and_true]
  refine ⟨?_, ?_, ?_⟩
  · refine Record.Makes.apply (Record.Makes.map ?_) (makes_settled "context")
    intro request context hcontext
    simpa [IsSettled, IsCanonical, withoutNull] using hcontext.symm
  · refine Record.Makes.apply (Record.Makes.map ?_) (makes_settled "code_context")
    intro text context hcontext
    simpa [IsSettled, IsCanonical, withoutNull] using hcontext.symm
  · intro o value absent m hm
    rw [← Except.ok.inj hm]
    exact ⟨trivial, rfl⟩

theorem isCanonical_orNull {context : Option Json} (h : ∀ v, context = some v → v.IsCanonical) :
    (orNull (·) context).IsCanonical := by
  cases context with
  | none => simp [orNull]
  | some v => exact h v rfl

/-- The members of a message are in the order of their keys. -/
theorem isCanonical_toJson {m : ClientMessage} (h : m.IsCanonical) : m.toJson.IsCanonical := by
  cases m with
  | visualizationRequest request context =>
    have hcontext := isCanonical_orNull h
    exact Json.isCanonical_obj ["context", "request", "type"] rfl (by decide)
      (by simp [hcontext])
  | userMessage text context =>
    have hcontext := isCanonical_orNull h
    exact Json.isCanonical_obj ["code_context", "text", "type"] rfl (by decide)
      (by simp [hcontext])
  | requestContext => exact Json.isCanonical_obj ["type"] rfl (by decide) (by simp)

/-- What is there is read in canonical form, and what is null is not there. -/
theorem decoder_toJson (m : ClientMessage) : ClientMessage.decoder .value m.toJson = .ok
    (match m with
      | .visualizationRequest request context =>
        .visualizationRequest request (present (context.map Json.canonical))
      | .userMessage text context => .userMessage text (present (context.map Json.canonical))
      | .requestContext => .requestContext) := by
  cases m with
  | requestContext => rfl
  | visualizationRequest request context | userMessage request context =>
    -- Whether a value is null is seen before it is brought into canonical form.
    cases context with
    | none => rfl
    | some v => cases v <;> rfl

/-- A message to the backend is read back without the nulls in it. -/
theorem ofValue_toJson {m : ClientMessage} (h : m.IsCanonical) :
    ofValue ClientMessage.decoder m.toJson = .ok m.withoutNull := by
  have hsame (context : Option Json) (hcontext : ∀ v, context = some v → v.IsCanonical) :
      context.map Json.canonical = context := by
    cases context with
    | none => rfl
    | some v => exact congrArg some (hcontext v rfl)
  rw [ofValue, isCanonical_toJson h, decoder_toJson]
  cases m with
  | requestContext => rfl
  | visualizationRequest request context | userMessage request context =>
    simp only [withoutNull, hsame context h]

end ClientMessage

namespace Channel

/-- Messages read back. A message from the backend that is written as a value and decoded is the
    same message, and so is one to the backend, but for a null in place of an optional value, which
    is read as none. Whatever a message was decoded from, with fields left out, with members that
    are no fields or as an array, a held value or a text: written and decoded once more it is the
    same message, and so it is written as the same value. -/
theorem messages_read_back :
    (∀ m : ServerMessage, m.IsCanonical → ofValue ServerMessage.decoder m.toJson = .ok m) ∧
      (∀ m : ClientMessage, m.IsCanonical →
        ofValue ClientMessage.decoder m.toJson = .ok m.withoutNull) ∧
      (∀ o v m, ServerMessage.decoder o v = .ok m →
        ofValue ServerMessage.decoder m.toJson = .ok m) ∧
      (∀ o v m, ClientMessage.decoder o v = .ok m →
        ofValue ClientMessage.decoder m.toJson = .ok m) := by
  refine ⟨?_, ?_, ?_, ?_⟩
  · intro m h
    exact ServerMessage.ofValue_toJson h
  · intro m h
    exact ClientMessage.ofValue_toJson h
  · intro o v m h
    apply ServerMessage.ofValue_toJson
    exact ServerMessage.isCanonical_of_decoder h
  · intro o v m h
    obtain ⟨hcanonical, hsettled⟩ := ClientMessage.isSettled_of_decoder h
    rw [ClientMessage.ofValue_toJson hcanonical, hsettled]

/-- A response with an object in it is read back, a null in a request is not, and an array with a
    file name alone comes back with the other fields in their places. -/
theorem messages_read_back_mixed :
    let data : Json := .obj [("steps", .arr [.int 1, .null]), ("topic", .str "Bubble Sort")]
    let request : ClientMessage := .visualizationRequest "Show me" (some .null)
    let file : ServerMessage := .contextUpdate "main.py" "" none
    (data.IsCanonical ∧ ofValue ServerMessage.decoder
        (ServerMessage.visualizationResponse data).toJson = .ok (.visualizationResponse data)) ∧
      (request.IsCanonical ∧ ofValue ClientMessage.decoder request.toJson =
        .ok (.visualizationRequest "Show me" none)) ∧
      (ServerMessage.decoder .text (.arr [.str "context_update", .str "main.py"]) = .ok file ∧
        ofValue ServerMessage.decoder file.toJson = .ok file) ∧
      (ClientMessage.decoder .value (.obj [("id", .int 7), ("type", .str "request_context")]) =
          .ok .requestContext ∧
        ofValue ClientMessage.decoder ClientMessage.requestContext.toJson = .ok .requestContext) := by
  obtain ⟨hserver, hclient, hagain, hagain'⟩ := messages_read_back
  have hrequest : (ClientMessage.visualizationRequest "Show me" (some .null)).IsCanonical := by
    simp [ClientMessage.IsCanonical]
  exact ⟨⟨rfl, hserver (.visualizationResponse _) rfl⟩, ⟨hrequest, hclient _ hrequest⟩,
    ⟨rfl, hagain .text (.arr [.str "context_update", .str "main.py"]) _ rfl⟩,
    ⟨rfl, hagain' .value (.obj [("id", .int 7), ("type", .str "request_context")]) _ rfl⟩⟩

end Channel

end Storyboard
