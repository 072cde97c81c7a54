import Storyboard.Command.Basic
import Storyboard.Stage.Cue

/-! # How commands open

    Every command has an immediate effect on the stage, or is refused and has
    none. What remains to be done is left as lists of cues, which run side by
    side. -/

namespace Storyboard

namespace Stage

/-- What became of a command: the stage after its immediate effect and the cues that are left. -/
abbrev Opening := Except CommandProblem (Stage × List (List Cue))

/-- How long things take to appear. -/
def enterSpan : Span := .ofMillis 300

/-- How long things take to go. -/
def exitSpan : Span := .ofMillis 300

/-- How long an edge takes to be drawn. -/
def edgeSpan : Span := .ofMillis 500

/-- How long a pulse lasts. -/
def pulseSpan : Span := .ofMillis 400

/-- How long a changed cell stays tinted. -/
def cellSpan : Span := .ofMillis 1000

/-- How long after one another the nodes of a path light up, in milliseconds. -/
def pathStagger : Nat := 300

/-- How long each of them stays lit. -/
def pathSpan : Span := .ofMillis 800

/-- The first of some nodes that is not in the scene. -/
def missingNode? (s : Scene) (ids : List EntityId) : Option EntityId :=
  ids.find? fun id => !s.has .node id

/-- Refuse a command about nodes that are not there. -/
def requireNodes (s : Stage) (tag : CommandTag) (ids : List EntityId) :
    Except CommandProblem Unit :=
  match missingNode? s.scene ids with
  | some id => .error (.dangling tag .node id)
  | none => .ok ()

/-- The row of a command about cells, refused if it or one of the cells is not there. -/
def requireCells (s : Stage) (tag : CommandTag) (id : EntityId) (indices : List Nat) :
    Except CommandProblem Row :=
  match s.scene.rows.find? id with
  | none => .error (.dangling tag .array id)
  | some r =>
    match indices.find? fun i => !r.hasCell i with
    | some i => .error (.outOfBounds tag id i r.cells.length)
    | none => .ok r

/-- Let a thing enter; `after` is what follows once it is fully there. -/
def create (s : Stage) (now : Nat) (pacing : Pacing) (tag : CommandTag) (e : Entity) (f : Figure)
    (enter : Transition) (after : List Cue) : Opening :=
  let enter := pacing.transition enter
  match s.enter now e f enter with
  | .error c => .error (.clash tag c)
  | .ok s => .ok (s, [.wait enter.span :: after])

/-- Let a thing go. It stays in the scene until its exit is over. -/
def delete (s : Stage) (now : Nat) (pacing : Pacing) (tag : CommandTag) (k : Kind)
    (id : EntityId) : Opening :=
  let exit := pacing.transition (.fadeOut exitSpan)
  if !s.scene.has k id then .error (.dangling tag k id)
  -- What is not drawn has no exit to wait for and leaves the scene at once.
  else if !s.presenter.shows id then .ok ({ s with scene := s.scene.erase k id }, [])
  else
    match s.presenter.beginExit now id exit with
    -- It is on its way out already, and its first exit will take it from the scene.
    | (presenter, none) => .ok ({ s with presenter }, [])
    | (presenter, some ticket) =>
      .ok ({ s with presenter }, [[.wait exit.span, .act (.finishExit ticket k id)]])

/-- Highlight a node, and take the highlight away after `hold`. -/
def flash (id : EntityId) (h : Highlight) (hold : Span) : List Cue :=
  [.act (.highlight id (some h)), .wait hold, .act (.highlight id none)]

/-- Put a node into the scene; edges that wait for it follow. -/
def createNode (s : Stage) (now : Nat) (pacing : Pacing) (n : Node) : Opening := do
  let (s, cues) ← s.create now pacing .createNode (.node n) (.ofNode n none) (.fadeIn enterSpan) []
  .ok (s.followNode now n.id, cues)

/-- Change the text and the style of a node. An empty style counts as none. -/
def updateNode (s : Stage) (now : Nat) (id : EntityId) (value style : Option String) : Opening :=
  if !s.scene.has .node id then .error (.dangling .updateNode .node id)
  else
    -- An empty style is no style, but an empty text is a text.
    let style := style.filter fun t => !t.isEmpty
    let change (n : Node) : Node :=
      { n with value := value.getD n.value, style := style.orElse fun _ => n.style }
    .ok ({ s with scene := s.scene.modifyNode id change }.redrawNode now id none, [])

/-- Move a node; its edges follow when it has arrived. -/
def moveNode (s : Stage) (now : Nat) (pacing : Pacing) (id : EntityId) (destination : Point)
    (span : Span) (easing : Option String) : Opening :=
  match s.scene.nodes.find? id with
  | none => .error (.dangling .moveNode .node id)
  | some n =>
    let ease := (easing.bind Ease.ofName?).getD .usual
    let t := pacing.transition (.move n.position destination span ease)
    let scene := s.scene.modifyNode id fun n => { n with position := destination }
    -- The scene has the node at its destination from now on, only the canvas takes its time.
    .ok (⟨scene, (s.presenter.move now id destination t).1⟩,
      [[.wait t.span, .act (.followNode id)]])

/-- Compare nodes: the comparison is shown, then its result, then the comparison again. -/
def compareNodes (s : Stage) (elements : List EntityId) (result : Bool) : Opening := do
  s.requireNodes .compare elements
  let all (h : Option Highlight) : List Cue := elements.map fun id => .act (.highlight id h)
  let neutral : Highlight := ⟨.amber, .medium⟩
  let verdict : Highlight := ⟨if result then .success else .failure, .high⟩
  .ok (s, [all (some neutral) ++ .wait (.ofMillis 500) :: all (some verdict) ++
    .wait (.ofMillis 800) :: all (some neutral) ++ .wait (.ofMillis 200) :: all none])

/-- Put an edge between two nodes of the scene. -/
def createEdge (s : Stage) (now : Nat) (pacing : Pacing) (e : Edge) : Opening :=
  match missingNode? s.scene [e.source, e.target], edgeFigure? s.scene e with
  | some id, _ => .error (.dangling .createEdge .node id)
  -- Not reached: an edge with both ends has a figure.
  | none, none => .error (.dangling .createEdge .node e.source)
  | none, some f => s.create now pacing .createEdge (.edge e) f (.drawIn edgeSpan) []

/-- Light up nodes one after another. -/
def pathCues (h : Highlight) (i : Nat) : List EntityId → List (List Cue)
  | [] => []
  -- Each node waits from the beginning, so a turn does not depend on how long the others take.
  | id :: rest => (.wait (.ofMillis (pathStagger * i)) :: flash id h pathSpan) ::
      pathCues h (i + 1) rest

/-- Light up nodes, one after another or all at once. -/
def highlightPath (s : Stage) (nodes : List EntityId) (color : Option String) (span : Span)
    (sequential : Bool) : Opening := do
  s.requireNodes .highlightPath nodes
  let h : Highlight := ⟨Color.readOr color .cyan, .high⟩
  .ok (s, if sequential then pathCues h 0 nodes else nodes.map fun id => flash id h span)

/-- Exchange two cells. Both are tinted for a while. -/
def swapCells (s : Stage) (now : Nat) (id : EntityId) (i j : Nat) (span : Span) : Opening := do
  let _ ← s.requireCells .swap id [i, j]
  let tint := Color.amber.tint
  let s := { s with scene := s.scene.modifyRow id fun r => r.swapCells i j }
  .ok (s.redrawRow now id [(i, tint), (j, tint)], [[.wait span, .act (.tint id [])]])

/-- Change a cell, which may be tinted for a while. -/
def updateCell (s : Stage) (now : Nat) (id : EntityId) (i : Nat) (value : String)
    (highlight : Bool) : Opening := do
  let _ ← s.requireCells .updateCell id [i]
  let s := { s with scene := s.scene.modifyRow id fun r => r.setCell i value }
  if highlight then
    .ok (s.redrawRow now id [(i, Color.success.tint)], [[.wait cellSpan, .act (.tint id [])]])
  else .ok (s.redrawRow now id [], [])

/-- Point at a cell. -/
def setPointer (s : Stage) (now : Nat) (pacing : Pacing) (p : Pointer) : Opening := do
  let r ← s.requireCells .setPointer p.row [p.index]
  s.create now pacing .setPointer (.pointer p) (.ofPointer p r) (.fadeIn enterSpan) []

/-- Put an annotation on the canvas. Arrows are the only form there is. -/
def addCallout (s : Stage) (now : Nat) (pacing : Pacing) (form : String) (a : Callout) : Opening :=
  if plainName form == "arrow" then
    s.create now pacing .addCallout (.callout a) (.ofCallout a) (.fadeIn enterSpan) []
  else .error (.unknownCallout form)

/-- The immediate effect of a command and the cues that are left, or why it is refused. -/
def opening (s : Stage) (now : Nat) (pacing : Pacing) : Command → Opening
  | .createNode n => s.createNode now pacing n
  | .updateNode id value style => s.updateNode now id value style
  | .deleteNode id => s.delete now pacing .deleteNode .node id
  | .moveNode id destination span easing => s.moveNode now pacing id destination span easing
  | .highlight id color intensity span => do
    s.requireNodes .highlight [id]
    .ok (s, [flash id ⟨Color.readOr color .cyan, .ofName intensity⟩ span])
  | .compare elements _ result => s.compareNodes elements result
  | .pulse id count color => do
    s.requireNodes .pulse [id]
    .ok (s, [[.flashes count id ⟨Color.readOr color .cyan, .high⟩ pulseSpan]])
  | .createEdge id source target directed weight style =>
    s.createEdge now pacing ⟨id, source, target, directed, weight, .ofName style⟩
  | .deleteEdge id => s.delete now pacing .deleteEdge .edge id
  | .highlightPath nodes color span sequential => s.highlightPath nodes color span sequential
  | .createArray r =>
    s.create now pacing .createArray (.row r) (.ofRow r []) (.fadeIn enterSpan)
      [.act (.followRow r.id)]
  | .swap row (i, j) span => s.swapCells now row i j span
  | .updateCell row i value highlight => s.updateCell now row i value highlight
  | .setPointer id row index label color =>
    s.setPointer now pacing ⟨id, row, index, label.getD "", Color.readOr color .cyan⟩
  | .addLabel id text position style =>
    let l : Label := ⟨id, text, position, .ofName style⟩
    s.create now pacing .addLabel (.label l) (.ofLabel l) (.fadeIn enterSpan) []
  | .addCallout id form start stop label => s.addCallout now pacing form ⟨id, start, stop, label⟩

end Stage

end Storyboard
