import Storyboard.Proofs.Command.Forms
import Storyboard.Proofs.Decode.Members
import Storyboard.Proofs.Session.Screening

/-! # Initial scenes

    The entries of an initial state are commands without their words, to be
    performed all in one go: first those for nodes, then those for edges. What
    each of them comes to depends on those before it. A later node takes the
    place of an earlier one with its identifier, an edge needs both its ends
    and an identifier that no node has, and what does not decode is passed
    over. So it is known from the entries alone which things there are in the
    end, and which entries come to nothing (`initial_scene`). -/

namespace Storyboard

/-- What a command for an edge comes to. -/
def Draft.addEdge (d : Draft) (e : Edge) : Except CommandProblem Draft := do
  let d ← d.requireNodes .createEdge [e.source, e.target]
  d.put .createEdge (.edge e)

/-! ### What the entries describe -/

namespace InitialState

/-- The command that an entry stands for. -/
def wrapped (tag : CommandTag) (entry : Json) : Json :=
  .obj [("command", .str tag.name), ("params", entry)]

/-- The node that an entry describes, if it decodes. -/
def node? (entry : Json) : Option Node :=
  match Command.ofJson (wrapped .createNode entry) with
  | .ok (.createNode n) => some n
  | _ => none

/-- The edge that an entry describes, if it decodes. -/
def edge? (entry : Json) : Option Edge :=
  match Command.ofJson (wrapped .createEdge entry) with
  | .ok (.createEdge id source target directed weight style) =>
    some ⟨id, source, target, directed, weight, .ofName style⟩
  | _ => none

/-- Whether there is a place for an edge among some nodes: both its ends are such nodes, and its
    identifier belongs to none of them. -/
def hasPlace (nodes : List Node) (e : Edge) : Bool :=
  let among (id : EntityId) : Bool := nodes.any (·.id = id)
  among e.source && among e.target && !among e.id

/-- The edge that an entry describes, if it decodes and there is a place for the edge. -/
def placed? (nodes : List Node) (entry : Json) : Option Edge :=
  (edge? entry).filter (hasPlace nodes)

/-- All nodes that are described. -/
def givenNodes (s : InitialState) : List Node := s.nodes.filterMap node?

/-- All edges that are described and have a place. -/
def givenEdges (s : InitialState) : List Edge := s.edges.filterMap (placed? s.givenNodes)

/-- Whether an entry comes to nothing, for those for nodes and then for those for edges. -/
def failures (s : InitialState) : List Bool :=
  s.nodes.map (fun entry => (node? entry).isNone) ++
    s.edges.map fun entry => (placed? s.givenNodes entry).isNone

/-- The places of the entries that come to nothing. -/
def refused (s : InitialState) : List Nat := (s.failures.zipIdx.filter (·.1)).map (·.2)

theorem commands_eq (s : InitialState) :
    s.commands = s.nodes.map (wrapped .createNode) ++ s.edges.map (wrapped .createEdge) := rfl

/-- What the command of an entry decodes to has its tag. -/
theorem tag_of_wrapped {tag : CommandTag} {entry : Json} {c : Command}
    (h : Command.ofJson (wrapped tag entry) = .ok c) : c.tag = tag := by
  obtain ⟨word, hword, htag⟩ := Command.tag_of_ofJson h
  obtain rfl : tag.name = word := Json.str.inj (Option.some.inj hword)
  have hname : CommandTag.ofName? tag.name = some tag := by
    cases tag <;> decide +kernel
  exact Option.some.inj (htag.symm.trans hname)

/-- A command that an entry for a node stands for creates one, if it decodes. -/
theorem node?_of_ofJson {entry : Json} {c : Command}
    (h : Command.ofJson (wrapped .createNode entry) = .ok c) :
    ∃ n, c = .createNode n ∧ node? entry = some n := by
  have hc := tag_of_wrapped h
  cases c with
  | createNode n =>
    refine ⟨n, rfl, ?_⟩
    unfold node?
    rw [h]
  | _ => cases hc

theorem node?_of_error {entry : Json} {p : CommandProblem}
    (h : Command.ofJson (wrapped .createNode entry) = .error p) : node? entry = none := by
  unfold node?
  rw [h]

/-- A command that an entry for an edge stands for adds one, if it decodes. -/
theorem edge?_of_ofJson {entry : Json} {c : Command}
    (h : Command.ofJson (wrapped .createEdge entry) = .ok c) :
    ∃ e, (∀ d, Draft.take d c = d.addEdge e) ∧ edge? entry = some e := by
  have hc := tag_of_wrapped h
  cases c with
  | createEdge id source target directed weight style =>
    refine ⟨⟨id, source, target, directed, weight, .ofName style⟩, fun d => rfl, ?_⟩
    unfold edge?
    rw [h]
  | _ => cases hc

theorem edge?_of_error {entry : Json} {p : CommandProblem}
    (h : Command.ofJson (wrapped .createEdge entry) = .error p) : edge? entry = none := by
  unfold edge?
  rw [h]

end InitialState

/-! ### Scenes that are made of nodes and edges -/

namespace Scene

variable {s : Scene} {k : Kind} {e : Entity} {nodes : List Node} {edges : List Edge}

section
variable {α : Type}

/-- The last of some things that has an identifier. -/
def lastUnder (key : α → EntityId) (things : List α) (id : EntityId) : Option α :=
  things.reverse.find? (key · = id)

theorem lastUnder_concat (key : α → EntityId) (things : List α) (a : α) (id : EntityId) :
    lastUnder key (things ++ [a]) id = if id = key a then some a else lastUnder key things id := by
  rw [lastUnder, List.reverse_append, List.reverse_singleton, List.singleton_append,
    List.find?_cons]
  by_cases hid : id = key a
  · simp [hid]
  · simp [hid, Ne.symm hid, lastUnder]

theorem isSome_lastUnder (key : α → EntityId) (things : List α) (id : EntityId) :
    (lastUnder key things id).isSome = things.any (key · = id) := by
  rw [lastUnder, Bool.eq_iff_iff, List.find?_isSome, List.any_eq_true]
  simp only [List.mem_reverse]

end

/-- What is found where, of some nodes and of some edges, the last one under each identifier is
    kept. -/
def lastOf (nodes : List Node) (edges : List Edge) : Kind → EntityId → Option Entity
  | .node, id => (lastUnder Node.id nodes id).map .node
  | .edge, id => (lastUnder Edge.id edges id).map .edge
  | _, _ => none

/-- The scene is made of some nodes and edges, later ones in the place of earlier ones. -/
def MadeOf (s : Scene) (nodes : List Node) (edges : List Edge) : Prop :=
  ∀ k id, s.get? k id = lastOf nodes edges k id

theorem madeOf_empty : Scene.empty.MadeOf [] [] :=
  fun k _ => get?_empty.trans (by cases k <;> rfl)

namespace MadeOf

theorem has_node (h : s.MadeOf nodes edges) (id : EntityId) :
    s.has .node id = nodes.any (·.id = id) := by
  rw [has, h .node id, lastOf, Option.isSome_map, isSome_lastUnder]

theorem has_edge (h : s.MadeOf nodes edges) (id : EntityId) :
    s.has .edge id = edges.any (·.id = id) := by
  rw [has, h .edge id, lastOf, Option.isSome_map, isSome_lastUnder]

/-- There is nothing but nodes and edges. -/
theorem kind_of_has (h : s.MadeOf nodes edges) {id : EntityId} (hhas : s.has k id = true) :
    k = .node ∨ k = .edge := by
  rw [has, h k id] at hhas
  cases k with
  | node => exact .inl rfl
  | edge => exact .inr rfl
  | _ => cases hhas

/-- One more node takes the place of an earlier one. -/
theorem put_node (h : s.MadeOf nodes []) (n : Node) :
    (s.put (.node n)).MadeOf (nodes ++ [n]) [] := by
  intro k id
  rw [get?_put, h]
  cases k with
  | node =>
    simp only [Entity.kind, Entity.id, true_and, lastOf, lastUnder_concat]
    split <;> rfl
  | _ => rfl

/-- One more edge takes the place of an earlier one. -/
theorem put_edge (h : s.MadeOf nodes edges) (e : Edge) :
    (s.put (.edge e)).MadeOf nodes (edges ++ [e]) := by
  intro k id
  rw [get?_put, h]
  cases k with
  | edge =>
    simp only [Entity.kind, Entity.id, true_and, lastOf, lastUnder_concat]
    split <;> rfl
  | _ => rfl

end MadeOf

/-- A thing is put where nothing of another kind is. -/
theorem insert_of_kind (h : ∀ k, s.has k e.id = true → k = e.kind) :
    s.insert e = .ok (s.put e) := by
  unfold insert
  cases hheld : s.kindOf? e.id with
  | none => rfl
  | some held =>
    dsimp only
    rw [if_pos (h held (has_of_kindOf? hheld))]

/-- Nothing but a node is put where a node is. -/
theorem insert_of_node (h : s.has .node e.id = true) (hkind : e.kind ≠ .node) :
    s.insert e = .error ⟨e.id, .node, e.kind⟩ := by
  have hheld : s.kindOf? e.id = some .node := List.find?_cons_of_pos h
  unfold insert
  rw [hheld]
  dsimp only
  rw [if_neg hkind.symm]

end Scene

/-! ### Drafts -/

namespace Draft

open InitialState

variable {d d' : Draft} {p : CommandProblem} {command : Json} {nodes : List Node}
  {edges : List Edge}

/-- Nothing is marked, and the scene is made of some nodes and edges. -/
structure MadeOf (d : Draft) (nodes : List Node) (edges : List Edge) : Prop where
  leaving : d.leaving = []
  scene   : d.scene.MadeOf nodes edges

theorem step_of_error (h : d.takeJson command = .error p) :
    (d.problem? command).isSome = true ∧ d.step command = d := by
  unfold problem? step
  rw [h]
  exact ⟨rfl, rfl⟩

theorem step_of_ok (h : d.takeJson command = .ok d') :
    (d.problem? command).isSome = false ∧ d.step command = d' := by
  unfold problem? step
  rw [h]
  exact ⟨rfl, rfl⟩

theorem takeJson_of_ofJson {c : Command} (h : Command.ofJson command = .ok c) :
    d.takeJson command = d.take c := by
  rw [takeJson, h]
  rfl

theorem takeJson_of_error (h : Command.ofJson command = .error p) :
    d.takeJson command = .error p := by
  rw [takeJson, h]
  rfl

theorem requireNodes_of_all {tag : CommandTag} {ids : List EntityId}
    (h : ∀ id ∈ ids, d.scene.has .node id = true) : d.requireNodes tag ids = .ok d := by
  have hnone : (ids.find? fun id => !d.scene.has .node id) = none :=
    List.find?_eq_none.2 fun id hid => by simp [h id hid]
  rw [requireNodes, hnone]

theorem requireNodes_of_missing (tag : CommandTag) {ids : List EntityId} {id : EntityId}
    (hid : id ∈ ids) (h : d.scene.has .node id = false) :
    ∃ p, d.requireNodes tag ids = .error p := by
  have hsome : (ids.find? fun id => !d.scene.has .node id).isSome = true :=
    List.find?_isSome.2 ⟨id, hid, by simp [h]⟩
  obtain ⟨missing, hmissing⟩ := Option.isSome_iff_exists.1 hsome
  exact ⟨.dangling tag .node missing, by rw [requireNodes, hmissing]⟩

namespace MadeOf

/-- An entry for a node brings one, if it decodes. -/
theorem node (h : d.MadeOf nodes []) (entry : Json) :
    (d.problem? (wrapped .createNode entry)).isSome = (node? entry).isNone ∧
      (d.step (wrapped .createNode entry)).MadeOf (nodes ++ (node? entry).toList) [] := by
  cases hc : Command.ofJson (wrapped .createNode entry) with
  | error p =>
    obtain ⟨hproblem, hstep⟩ := step_of_error (takeJson_of_error (d := d) hc)
    rw [hproblem, hstep, node?_of_error hc]
    exact ⟨rfl, (List.append_nil nodes).symm ▸ h⟩
  | ok c =>
    obtain ⟨n, rfl, hnode⟩ := node?_of_ofJson hc
    -- There are no edges yet, so nothing but a node can have the identifier.
    have hinsert : d.scene.insert (.node n) = .ok (d.scene.put (.node n)) := by
      refine Scene.insert_of_kind fun k hk => (h.scene.kind_of_has hk).resolve_right ?_
      rintro rfl
      rw [h.scene.has_edge] at hk
      cases hk
    have htake : d.takeJson (wrapped .createNode entry) = .ok ⟨d.scene.put (.node n), []⟩ := by
      rw [takeJson_of_ofJson hc, take, put, hinsert, h.leaving]
      rfl
    obtain ⟨hproblem, hstep⟩ := step_of_ok htake
    rw [hproblem, hstep, hnode]
    exact ⟨rfl, rfl, h.scene.put_node n⟩

/-- An edge that has a place is put into the scene. -/
theorem addEdge_ok (h : d.MadeOf nodes edges) {e : Edge} (hplace : hasPlace nodes e = true) :
    d.addEdge e = .ok ⟨d.scene.put (.edge e), []⟩ := by
  simp only [hasPlace, ← h.scene.has_node, Bool.and_eq_true, Bool.not_eq_true'] at hplace
  obtain ⟨⟨hsource, htarget⟩, hid⟩ := hplace
  have hends : ∀ i ∈ [e.source, e.target], d.scene.has .node i = true := by
    simp [hsource, htarget]
  have hinsert : d.scene.insert (.edge e) = .ok (d.scene.put (.edge e)) := by
    refine Scene.insert_of_kind fun k hk => (h.scene.kind_of_has hk).resolve_left ?_
    rintro rfl
    exact Bool.false_ne_true (hid.symm.trans hk)
  rw [addEdge, requireNodes_of_all hends]
  show d.put .createEdge (.edge e) = _
  rw [put, hinsert, h.leaving]
  rfl

/-- Any other edge is refused. -/
theorem addEdge_error (h : d.MadeOf nodes edges) {e : Edge} (hplace : hasPlace nodes e = false) :
    ∃ p, d.addEdge e = .error p := by
  unfold addEdge
  by_cases hends : ∀ i ∈ [e.source, e.target], d.scene.has .node i = true
  · -- Both ends are there, so it is the identifier that is in use.
    have hid : d.scene.has .node e.id = true := by
      simp only [List.forall_mem_cons] at hends
      simpa [hasPlace, ← h.scene.has_node, hends.1, hends.2.1] using hplace
    rw [requireNodes_of_all hends]
    refine ⟨.clash .createEdge ⟨e.id, .node, .edge⟩, ?_⟩
    show d.put .createEdge (.edge e) = _
    rw [put, Scene.insert_of_node hid (by simp [Entity.kind])]
    rfl
  · push Not at hends
    obtain ⟨i, hi, hmissing⟩ := hends
    obtain ⟨p, hrequire⟩ := requireNodes_of_missing .createEdge hi (Bool.eq_false_iff.2 hmissing)
    exact ⟨p, by rw [hrequire]; rfl⟩

/-- An entry for an edge brings one, if it decodes and there is a place for the edge. -/
theorem edge (h : d.MadeOf nodes edges) (entry : Json) :
    (d.problem? (wrapped .createEdge entry)).isSome = (placed? nodes entry).isNone ∧
      (d.step (wrapped .createEdge entry)).MadeOf nodes
        (edges ++ (placed? nodes entry).toList) := by
  -- Whatever is refused leaves the draft as it is.
  have hrefused : ∀ p, d.takeJson (wrapped .createEdge entry) = .error p →
      placed? nodes entry = none →
      (d.problem? (wrapped .createEdge entry)).isSome = (placed? nodes entry).isNone ∧
        (d.step (wrapped .createEdge entry)).MadeOf nodes
          (edges ++ (placed? nodes entry).toList) := by
    intro p htake hnone
    obtain ⟨hproblem, hstep⟩ := step_of_error htake
    rw [hproblem, hstep, hnone]
    exact ⟨rfl, (List.append_nil edges).symm ▸ h⟩
  cases hc : Command.ofJson (wrapped .createEdge entry) with
  | error p =>
    refine hrefused p (takeJson_of_error hc) ?_
    rw [placed?, edge?_of_error hc]
    rfl
  | ok c =>
    obtain ⟨e, htakes, hedge⟩ := edge?_of_ofJson hc
    have htake : d.takeJson (wrapped .createEdge entry) = d.addEdge e :=
      (takeJson_of_ofJson hc).trans (htakes d)
    have hplaced : placed? nodes entry = if hasPlace nodes e = true then some e else none := by
      rw [placed?, hedge]
      rfl
    cases hplace : hasPlace nodes e with
    | false =>
      obtain ⟨p, hp⟩ := h.addEdge_error hplace
      exact hrefused p (htake.trans hp) (by rw [hplaced, hplace]; rfl)
    | true =>
      obtain ⟨hproblem, hstep⟩ := step_of_ok (htake.trans (h.addEdge_ok hplace))
      rw [hproblem, hstep, hplaced, hplace]
      exact ⟨rfl, rfl, h.scene.put_edge e⟩

end MadeOf

/-! ### Entry by entry -/

/-- Entries that are taken one after another, each with its effect on some list. -/
theorem foldl_entries {α : Type} {P : Draft → List α → Prop} {wrap : Json → Json}
    {read? : Json → Option α}
    (hstep : ∀ d l entry, P d l → (d.problem? (wrap entry)).isSome = (read? entry).isNone ∧
      P (d.step (wrap entry)) (l ++ (read? entry).toList))
    {d : Draft} {l : List α} (h : P d l) (entries : List Json) :
    (d.problems (entries.map wrap)).map Option.isSome =
        entries.map (fun entry => (read? entry).isNone) ∧
      P ((entries.map wrap).foldl step d) (l ++ entries.filterMap read?) := by
  induction entries generalizing d l with
  | nil => exact ⟨rfl, by simpa using h⟩
  | cons entry rest ih =>
    obtain ⟨hproblem, hnext⟩ := hstep d l entry h
    obtain ⟨hproblems, hlast⟩ := ih hnext
    refine ⟨congrArg₂ (· :: ·) hproblem hproblems, ?_⟩
    have hlist : l ++ (entry :: rest).filterMap read? =
        l ++ (read? entry).toList ++ rest.filterMap read? := by
      rw [List.append_assoc, List.filterMap_cons]
      cases read? entry <;> rfl
    rw [hlist]
    exact hlast

/-- The places of what is skipped. -/
theorem indices_skipped (d : Draft) (i : Nat) (commands : List Json) :
    (d.perform i commands).2.skipped.map (·.index) =
      ((((d.problems commands).map Option.isSome).zipIdx i).filter (·.1)).map (·.2) := by
  rw [skipped_perform]
  induction d.problems commands generalizing i with
  | nil => rfl
  | cons problem? rest ih =>
    cases problem? with
    | none => exact ih (i + 1)
    | some p => exact congrArg (i :: ·) (ih (i + 1))

end Draft

namespace InitialState

/-- What becomes of the entries, one after another. -/
theorem draft_commands (s : InitialState) :
    (Draft.problems ⟨.empty, []⟩ s.commands).map Option.isSome = s.failures ∧
      (s.commands.foldl Draft.step ⟨.empty, []⟩).MadeOf s.givenNodes s.givenEdges := by
  -- The nodes are all there before the first edge, and no edge changes them.
  obtain ⟨hnodes, hmade⟩ := Draft.foldl_entries (P := fun d l => d.MadeOf l [])
    (fun _ _ entry h => Draft.MadeOf.node h entry) (d := ⟨.empty, []⟩) (l := [])
    ⟨rfl, Scene.madeOf_empty⟩ s.nodes
  obtain ⟨hedges, hlast⟩ := Draft.foldl_entries (P := fun d l => d.MadeOf s.givenNodes l)
    (fun _ _ entry h => Draft.MadeOf.edge h entry) hmade s.edges
  rw [commands_eq, Draft.problems_append, List.map_append, List.foldl_append]
  exact ⟨congrArg₂ (· ++ ·) hnodes hedges, hlast⟩

/-- The entries leave the last node under each identifier, and the last edge that has a place. -/
theorem after_commands (s : InitialState) :
    (Scene.empty.after s.commands).MadeOf s.givenNodes s.givenEdges := by
  have hmade := s.draft_commands.2
  rw [Scene.after, Draft.perform_fst, Draft.settled, hmade.leaving]
  exact hmade.scene

/-- The entries that come to nothing are skipped. -/
theorem skipped_commands (s : InitialState) :
    (Scene.empty.report s.commands).skipped.map (·.index) = s.refused := by
  rw [Scene.report, Draft.indices_skipped, s.draft_commands.1, refused]

end InitialState

/-! ### Payloads that are loaded -/

/-- What a payload lists. Without an initial state that is nothing. -/
def Payload.initial (p : Payload) : InitialState := p.initialState.getD ⟨[], []⟩

theorem Payload.setup_eq (p : Payload) : p.timeline.setup = p.initial.commands := by
  unfold timeline initial
  cases p.initialState <;> rfl

namespace Session

open Ensemble

/-- A payload that is loaded while nobody calls leaves nothing in the scene but the last node under
    each identifier of those that decode, and the last edge under each identifier of those that
    decode and have a place among these nodes. Skipped are the other entries, and no more. In which
    order the nodes and the edges are given does not matter: the payload is the same. -/
theorem initial_scene (equipment : Narration.Equipment) (tosses coins : List Bool) (start : Nat)
    (events : List (Event Action))
    (hidle : Idle ((alone start (ofNarrator (.ofEquipment equipment tosses) coins)).after machine
      events)) (now : Nat) (payload : Payload) {rounds : Nat}
    (hrounds : payload.timeline.rounds ≤ rounds) :
    let w := ((alone start (ofNarrator (.ofEquipment equipment tosses) coins)).after machine
      events).world
    let initial := payload.initial
    (∃ stop w' report,
      (ofActions now w [(now, .load payload)]).run machine rounds =
        ⟨stop, w', [.done now stop (.calling (.over (some report))) w']⟩ ∧
      (∀ k id, w'.player.stage.scene.get? k id =
        Scene.lastOf initial.givenNodes initial.givenEdges k id) ∧
      report.skipped.map (·.index) = initial.refused ∧
      report.count = initial.nodes.length + initial.edges.length) ∧
    ∀ o before behind members others, members.Perm others →
      (Payload.decoder o (.obj (before ++ ("initialState", .obj members) :: behind))).toOption =
        (Payload.decoder o (.obj (before ++ ("initialState", .obj others) :: behind))).toOption := by
  intro w initial
  refine ⟨?_, fun _ before behind _ _ => Payload.decoder_initialState_perm before behind⟩
  -- The scene after the load is what the setup comes to, and the setup of a payload is nothing but
  -- its entries as commands.
  obtain ⟨stop, q, hrun, hordered, _, htimeline, hcursor, _⟩ :=
    run_load (ordered_of_idle _ coins start events hidle)
      (lines_of_idle equipment tosses coins start events hidle) now payload hrounds
  refine ⟨stop, ⟨payload.header, q⟩, _, hrun, ?_, ?_, ?_⟩
  · have hscene : q.stage.scene = Scene.empty.after initial.commands := by
      have hsettled := hordered.settled fun s hs => nomatch hs
      rw [hsettled.scene, htimeline, hcursor, ← payload.setup_eq]
      rfl
    intro k id
    show q.stage.scene.get? k id = _
    rw [hscene]
    exact initial.after_commands k id
  · rw [Timeline.setupReport, payload.setup_eq]
    exact initial.skipped_commands
  · rw [Timeline.setupReport, payload.setup_eq, Scene.count_report, initial.commands_eq]
    simp

/-- A node that is given twice, an entry that does not decode, an edge that is given twice, one
    without an end, and one with the identifier of a node. -/
theorem initial_scene_mixed :
    let node (id value : String) : Json := .obj [("id", .str id), ("value", .str value),
      ("position", .obj [("x", .int 0), ("y", .int 0)])]
    let edge (id source target : String) : Json :=
      .obj [("id", .str id), ("from", .str source), ("to", .str target)]
    let initial : InitialState :=
      ⟨[node "a" "x", .obj [("id", .str "c")], node "a" "y", node "b" "z"],
        [edge "e" "a" "b", edge "f" "a" "c", edge "b" "a" "b", edge "e" "b" "a"]⟩
    let payload : Payload := ⟨none, none, none, some initial, []⟩
    let s := ofNarrator (.ofEquipment .usual []) []
    let e := (alone 0 s).after machine [.join 0 (.call .play), .turn 0 0]
    Idle e ∧ ∃ stop w report,
      (ofActions 0 e.world [(0, .load payload)]).run machine payload.timeline.rounds =
        ⟨stop, w, [.done 0 stop (.calling (.over (some report))) w]⟩ ∧
      ((w.player.stage.scene.get? .node ⟨"a"⟩).any fun
        | .node n => n.value == "y"
        | _ => false) ∧
      ((w.player.stage.scene.get? .edge ⟨"e"⟩).any fun
        | .edge e => e.source == ⟨"b"⟩
        | _ => false) ∧
      w.player.stage.scene.get? .edge ⟨"b"⟩ = none ∧
      report.skipped.map (·.index) = [1, 5, 6] := by
  intro node edge initial payload s e
  have hidle : Idle e := List.isEmpty_iff.1 (by decide +kernel)
  subst e s
  obtain ⟨⟨stop, w, report, hrun, hscene, hskipped, _⟩, _⟩ :=
    initial_scene .usual [] [] 0 [.join 0 (.call .play), .turn 0 0] hidle 0 payload (Nat.le_refl _)
  refine ⟨hidle, stop, w, report, hrun, ?_, ?_, ?_, ?_⟩
  · rw [hscene]
    decide +kernel
  · rw [hscene]
    decide +kernel
  · rw [hscene]
    exact Option.isNone_iff_eq_none.1 (by decide +kernel)
  · rw [hskipped]
    decide +kernel

end Session

end Storyboard
