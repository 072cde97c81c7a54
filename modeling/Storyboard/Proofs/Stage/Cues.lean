import Storyboard.Proofs.Stage.Acts

/-! # The cues of commands

    What a command leaves to be done in real time depends on nothing but the
    command, on whether what it deletes is already on its way out, and on the
    ticket for its exit (`opening_cues`). So what commands leave that are
    opened one after another can be told from the drafts that they meet
    (`begins_startAll`). -/

namespace Storyboard

open Stage

/-! ### Single commands -/

/-- What follows when a thing of an incarnation begins to go. -/
def Stage.exitCues (d : Draft) (incarnation : Nat) (k : Kind) (id : EntityId) : List (List Cue) :=
  if id ∈ d.leaving then []
  else [[.wait exitSpan, .act (.finishExit ⟨id, incarnation⟩ k id)]]

/-- Highlights of several nodes at once. -/
def Stage.highlights (elements : List EntityId) (h : Option Highlight) : List Act :=
  elements.map fun id => .highlight id h

/-- A comparison consists of highlights of all its nodes, with waits between them. -/
theorem Stage.compareCues_eq (elements : List EntityId) (result : Bool) :
    compareCues elements result =
      (highlights elements (some ⟨.amber, .medium⟩)).map .act ++ (.wait (.ofMillis 500) ::
      ((highlights elements (some ⟨if result then .success else .failure, .high⟩)).map .act ++
        (.wait (.ofMillis 800) ::
      ((highlights elements (some ⟨.amber, .medium⟩)).map .act ++ (.wait (.ofMillis 200) ::
      ((highlights elements none).map .act ++ [])))))) := by
  simp only [compareCues, highlights, List.map_map, List.append_nil, List.append_assoc,
    List.cons_append]
  rfl

/-- The cues that a command leaves in real time. -/
def Command.cues (d : Draft) (incarnation : Nat) : Command → List (List Cue)
  | .createNode _ => [[.wait enterSpan]]
  | .updateNode .. => []
  | .deleteNode id => exitCues d incarnation .node id
  | .moveNode id _ span _ => [[.wait span, .act (.followNode id)]]
  | .highlight id color intensity span =>
    [flash id ⟨Color.readOr color .cyan, .ofName intensity⟩ span]
  | .compare elements _ result => [compareCues elements result]
  | .pulse id count color => [[.flashes count id ⟨Color.readOr color .cyan, .high⟩ pulseSpan]]
  | .createEdge .. => [[.wait edgeSpan]]
  | .deleteEdge id => exitCues d incarnation .edge id
  | .highlightPath nodes color span sequential =>
    let h : Highlight := ⟨Color.readOr color .cyan, .high⟩
    if sequential then pathCues h 0 nodes else nodes.map fun id => flash id h span
  | .createArray r => [[.wait enterSpan, .act (.followRow r.id)]]
  | .swap row _ span => [[.wait span, .act (.tint row [])]]
  | .updateCell row _ _ lit => if lit then [[.wait cellSpan, .act (.tint row [])]] else []
  | .setPointer .. => [[.wait enterSpan]]
  | .addLabel .. => [[.wait enterSpan]]
  | .addCallout .. => [[.wait enterSpan]]

namespace Stage

variable {s s' : Stage} {d : Draft} {owed : Set Act} {now : Nat} {tag : CommandTag}
  {id : EntityId} {k : Kind} {c : Command} {cues : List (List Cue)}

/-- What is marked is what is seen to be on its way out. -/
theorem Matches.mem_leaving_iff (hd : s.Matches d) (hs : s.presenter.Sound) {v : Sight}
    (hv : s.presenter.sight? id = some v) : id ∈ d.leaving ↔ v.exiting = true := by
  rw [← hd.leaving, hs.isExiting_iff]
  constructor
  · rintro ⟨v', hv', hx⟩
    rw [hv] at hv'
    rw [Option.some.inj hv']
    exact hx
  · exact fun hx => ⟨v, hv, hx⟩

theorem delete_cues (hs : s.Coherent owed) (hd : s.Matches d)
    (h : s.delete now .realtime tag k id = .ok (s', cues)) :
    ∃ incarnation, cues = exitCues d incarnation k id := by
  unfold delete at h
  cases hk : s.scene.has k id with
  | false => simp [hk] at h
  | true =>
    obtain ⟨v, hv, rfl⟩ := (hs.listed k id).1 hk
    have hshows : s.presenter.shows id = true := hs.sound.shows_iff.2 ⟨v, hv⟩
    have hleaving := hd.mem_leaving_iff hs.sound hv
    simp only [hk, hshows, Bool.not_true, Bool.false_eq_true, if_false] at h
    cases hx : v.exiting with
    | true =>
      -- It is on its way out already, and nothing more is to be done.
      have hgone : ∀ v', s.presenter.sight? id = some v' → v'.exiting = true := by
        intro v' hv'
        rw [hv] at hv'
        rw [← Option.some.inj hv', hx]
      rw [Presenter.beginExit_of_not_staying hs.sound _ hgone] at h
      cases h
      refine ⟨0, ?_⟩
      rw [exitCues, if_pos (hleaving.2 hx)]
    | false =>
      obtain ⟨hticket, _⟩ := Presenter.beginExit_of_staying hs.sound now
        (Pacing.realtime.transition (.fadeOut exitSpan)) hv hx
      have hbegin : s.presenter.beginExit now id (Pacing.realtime.transition (.fadeOut exitSpan)) =
          ((s.presenter.beginExit now id (Pacing.realtime.transition (.fadeOut exitSpan))).1,
            some ⟨id, v.incarnation⟩) := Prod.ext rfl hticket
      rw [hbegin] at h
      cases h
      have hstays : id ∉ d.leaving := fun hid => by
        rw [hleaving, hx] at hid
        cases hid
      refine ⟨v.incarnation, ?_⟩
      rw [exitCues, if_neg hstays]
      rfl

/-- A command that takes effect leaves its cues. -/
theorem opening_cues (hs : s.Coherent owed) (hd : s.Matches d)
    (h : s.opening now .realtime c = .ok (s', cues)) :
    ∃ incarnation, cues = c.cues d incarnation := by
  cases effect_of_opening h with
  | deleteNode hdelete | deleteEdge hdelete => exact delete_cues hs hd hdelete
  | createNode hcreate | createEdge _ hcreate | createArray hcreate | setPointer _ hcreate
  | addLabel hcreate | addCallout _ hcreate => exact ⟨0, create_cues hcreate⟩
  | moveNode hnode ht =>
    rw [ht]
    exact ⟨0, rfl⟩
  | _ => exact ⟨0, rfl⟩

end Stage

/-! ### Lists of commands -/

namespace Draft

/-- What a command is that takes effect. -/
def taken? (d : Draft) (command : Json) : Option Command :=
  match Command.ofJson command with
  | .error _ => none
  | .ok c =>
    match d.take c with
    | .error _ => none
    | .ok _ => some c

variable {d d' : Draft} {command : Json} {p : CommandProblem}

theorem taken?_of_error (h : d.takeJson command = .error p) : d.taken? command = none := by
  unfold takeJson at h
  unfold taken?
  cases hc : Command.ofJson command with
  | error p => rfl
  | ok c =>
    rw [hc] at h
    dsimp only
    rw [show d.take c = .error p from h]

theorem exists_taken? (h : d.takeJson command = .ok d') :
    ∃ c, Command.ofJson command = .ok c ∧ d.taken? command = some c := by
  unfold takeJson at h
  unfold taken?
  cases hc : Command.ofJson command with
  | error p =>
    rw [hc] at h
    cases h
  | ok c =>
    rw [hc] at h
    refine ⟨c, rfl, ?_⟩
    dsimp only
    rw [show d.take c = .ok d' from h]

theorem ofJson_of_taken? {c : Command} (h : d.taken? command = some c) :
    Command.ofJson command = .ok c := by
  unfold taken? at h
  cases hc : Command.ofJson command with
  | error p =>
    rw [hc] at h
    cases h
  | ok c' =>
    rw [hc] at h
    dsimp only at h
    split at h
    · cases h
    · rw [Option.some.inj h]

end Draft

namespace Course

/-- How the course of a command begins in real time that meets a draft. -/
inductive Begins (now : Nat) : Draft × Json → Course → Prop
  | refused {d : Draft} {command : Json} {p : CommandProblem} (h : d.taken? command = none) :
    Begins now (d, command) (.refused p)
  | taken {d : Draft} {command : Json} {c : Command} (h : d.taken? command = some c) (s : Stage)
    (incarnation : Nat) :
    Begins now (d, command)
      (.taken (Strand.followAll now .realtime s (c.cues d incarnation)).2)

variable {s : Stage} {d : Draft} {owed : Set Act} {now : Nat}

/-- A command is refused and changes nothing, or it takes effect and its cues begin. -/
theorem start_cases (hs : s.Coherent owed) (hd : s.Matches d) (now : Nat) (command : Json) :
    (d.taken? command = none ∧ ∃ p, start now .realtime s command = (s, .refused p)) ∨
    ∃ c s' incarnation, d.taken? command = some c ∧
      s.opening now .realtime c = .ok (s', c.cues d incarnation) ∧
      start now .realtime s command =
        ((Strand.followAll now .realtime s' (c.cues d incarnation)).1,
          .taken (Strand.followAll now .realtime s' (c.cues d incarnation)).2) := by
  -- Whether the command is taken is the draft's to say, and its cues are those that were opened.
  have hstart := start_spec now .realtime hs hd command
  cases htake : d.takeJson command with
  | error p =>
    rw [htake] at hstart
    exact .inl ⟨Draft.taken?_of_error htake, p, hstart⟩
  | ok d' =>
    rw [htake] at hstart
    obtain ⟨_, _, heq, _⟩ := hstart
    obtain ⟨c, hc, htaken⟩ := Draft.exists_taken? htake
    unfold start at heq ⊢
    rw [hc] at heq ⊢
    dsimp only at heq ⊢
    cases hopen : s.opening now .realtime c with
    | error p =>
      rw [hopen] at heq
      cases heq
    | ok opened =>
      obtain ⟨s', cues⟩ := opened
      obtain ⟨incarnation, rfl⟩ := opening_cues hs hd hopen
      exact .inr ⟨c, s', incarnation, htaken, hopen, rfl⟩

theorem begins_start (hs : s.Coherent owed) (hd : s.Matches d) (now : Nat) (command : Json) :
    Begins now (d, command) (start now .realtime s command).2 := by
  rcases start_cases hs hd now command with ⟨htaken, p, heq⟩ | ⟨c, s', incarnation, htaken, _, heq⟩
  · rw [heq]
    exact .refused htaken
  · rw [heq]
    exact .taken htaken s' incarnation

/-- A command that begins leaves the stage of the draft after it. -/
theorem matches_start (hs : s.Coherent owed) (hd : s.Matches d) (now : Nat) (pacing : Pacing)
    (command : Json) : (∃ owed', (start now pacing s command).1.Coherent owed') ∧
      (start now pacing s command).1.Matches (d.step command) := by
  have hstart := start_spec now pacing hs hd command
  unfold Draft.step
  cases htake : d.takeJson command with
  | error p =>
    rw [htake] at hstart
    rw [show start now pacing s command = (s, .refused p) from hstart]
    exact ⟨⟨owed, hs⟩, hd⟩
  | ok d' =>
    rw [htake] at hstart
    obtain ⟨s', strands, heq, hs', _, hd', _⟩ := hstart
    rw [heq]
    exact ⟨⟨_, hs'⟩, hd'⟩

theorem matches_startAll (hs : s.Coherent owed) (hd : s.Matches d) (now : Nat) (pacing : Pacing)
    (commands : List Json) : (∃ owed', (startAll now pacing s commands).1.Coherent owed') ∧
      (startAll now pacing s commands).1.Matches (commands.foldl Draft.step d) := by
  induction commands generalizing s d owed with
  | nil => exact ⟨⟨owed, hs⟩, hd⟩
  | cons command rest ih =>
    obtain ⟨⟨owed', hs'⟩, hd'⟩ := matches_start hs hd now pacing command
    exact ih hs' hd'

/-- Commands that are opened one after another begin on the drafts that they meet. -/
theorem begins_startAll (hs : s.Coherent owed) (hd : s.Matches d) (now : Nat)
    (commands : List Json) :
    List.Forall₂ (Begins now) (d.along commands) (startAll now .realtime s commands).2 := by
  induction commands generalizing s d owed with
  | nil => exact .nil
  | cons command rest ih =>
    obtain ⟨⟨owed', hs'⟩, hd'⟩ := matches_start hs hd now .realtime command
    exact .cons (begins_start hs hd now command) (ih hs' hd')

end Course

end Storyboard
