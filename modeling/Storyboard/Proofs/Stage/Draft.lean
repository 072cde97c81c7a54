import Storyboard.Proofs.Scene.Lookup
import Storyboard.Stage.Performance

/-! # Drafts

    What a list of commands comes to, told without any drawing, waiting or
    taking turns. A draft is a scene in which some identifiers are marked.
    Every command has its effect on the draft once, in the order of the list:
    to delete a thing is to mark it, and whatever is put under an identifier
    bears no mark. In the end the marked things are taken out. -/

namespace Storyboard

/-- Take everything under an identifier out of the scene. -/
def Scene.remove (s : Scene) (id : EntityId) : Scene :=
  Kind.all.foldl (fun s k => s.erase k id) s

/-- A scene, and what is to be taken out of it in the end. -/
structure Draft where
  scene   : Scene
  /-- The identifiers that are marked. -/
  leaving : List EntityId

namespace Draft

/-! ### Single commands -/

/-- Put a thing into the scene. It bears no mark. -/
def put (d : Draft) (tag : CommandTag) (e : Entity) : Except CommandProblem Draft :=
  match d.scene.insert e with
  | .error c => .error (.clash tag c)
  | .ok scene => .ok ⟨scene, d.leaving.filter fun id => id != e.id⟩

/-- Mark a thing. -/
def mark (d : Draft) (tag : CommandTag) (k : Kind) (id : EntityId) : Except CommandProblem Draft :=
  if d.scene.has k id then .ok { d with leaving := id :: d.leaving }
  else .error (.dangling tag k id)

/-- Refuse a command about nodes that are not there. -/
def requireNodes (d : Draft) (tag : CommandTag) (ids : List EntityId) :
    Except CommandProblem Draft :=
  match ids.find? fun id => !d.scene.has .node id with
  | some id => .error (.dangling tag .node id)
  | none => .ok d

/-- Refuse a command about cells that are not there. -/
def requireCells (d : Draft) (tag : CommandTag) (id : EntityId) (indices : List Nat) :
    Except CommandProblem Draft :=
  match d.scene.rows.find? id with
  | none => .error (.dangling tag .array id)
  | some r =>
    match indices.find? fun i => !r.hasCell i with
    | some i => .error (.outOfBounds tag id i r.cells.length)
    | none => .ok d

/-- Change a node. -/
def changeNode (d : Draft) (tag : CommandTag) (id : EntityId) (f : Node → Node) :
    Except CommandProblem Draft := do
  let d ← d.requireNodes tag [id]
  .ok { d with scene := d.scene.modifyNode id f }

/-- Change cells of a row. -/
def changeCells (d : Draft) (tag : CommandTag) (id : EntityId) (indices : List Nat)
    (f : Row → Row) : Except CommandProblem Draft := do
  let d ← d.requireCells tag id indices
  .ok { d with scene := d.scene.modifyRow id f }

/-- What a command does, or why it is refused. -/
def take (d : Draft) : Command → Except CommandProblem Draft
  | .createNode n => d.put .createNode (.node n)
  | .updateNode id value style =>
    d.changeNode .updateNode id fun n => { n with
      value := value.getD n.value
      style := (style.filter fun t => !t.isEmpty).orElse fun _ => n.style }
  | .deleteNode id => d.mark .deleteNode .node id
  | .moveNode id destination _ _ =>
    d.changeNode .moveNode id fun n => { n with position := destination }
  | .highlight id _ _ _ => d.requireNodes .highlight [id]
  | .compare elements _ _ => d.requireNodes .compare elements
  | .pulse id _ _ => d.requireNodes .pulse [id]
  | .createEdge id source target directed weight style => do
    let d ← d.requireNodes .createEdge [source, target]
    d.put .createEdge (.edge ⟨id, source, target, directed, weight, .ofName style⟩)
  | .deleteEdge id => d.mark .deleteEdge .edge id
  | .highlightPath nodes _ _ _ => d.requireNodes .highlightPath nodes
  | .createArray r => d.put .createArray (.row r)
  | .swap row (i, j) _ => d.changeCells .swap row [i, j] fun r => r.swapCells i j
  | .updateCell row i value _ => d.changeCells .updateCell row [i] fun r => r.setCell i value
  | .setPointer id row index label color => do
    let d ← d.requireCells .setPointer row [index]
    d.put .setPointer (.pointer ⟨id, row, index, label.getD "", Color.readOr color .cyan⟩)
  | .addLabel id text position style =>
    d.put .addLabel (.label ⟨id, text, position, .ofName style⟩)
  | .addCallout id form start stop label =>
    if plainName form == "arrow" then d.put .addCallout (.callout ⟨id, start, stop, label⟩)
    else .error (.unknownCallout form)

/-- What a command does as it is written. -/
def takeJson (d : Draft) (command : Json) : Except CommandProblem Draft := do
  d.take (← Command.ofJson command)

/-- Why a command is refused, if it is. -/
def problem? (d : Draft) (command : Json) : Option CommandProblem :=
  match d.takeJson command with
  | .error p => some p
  | .ok _ => none

/-- The draft after a command. One that is refused leaves it as it is. -/
def step (d : Draft) (command : Json) : Draft :=
  match d.takeJson command with
  | .error _ => d
  | .ok d => d

/-! ### Lists of commands -/

/-- What commands from place `i` on do, and what became of them. -/
def perform (d : Draft) (i : Nat) : List Json → Draft × Report
  | [] => (d, .empty)
  | command :: rest =>
    match d.takeJson command with
    | .error p =>
      let (d, report) := d.perform (i + 1) rest
      (d, Report.merge ⟨0, [⟨i, p⟩]⟩ report)
    | .ok d =>
      let (d, report) := d.perform (i + 1) rest
      (d, Report.merge ⟨1, []⟩ report)

/-- The commands, each with the draft that it meets. -/
def along (d : Draft) : List Json → List (Draft × Json)
  | [] => []
  | command :: rest => (d, command) :: (d.step command).along rest

/-- What becomes of every command: why it is refused, if it is. -/
def problems (d : Draft) (commands : List Json) : List (Option CommandProblem) :=
  (d.along commands).map fun x => x.1.problem? x.2

/-- The scene without what is marked. -/
def settled (d : Draft) : Scene := d.leaving.foldl Scene.remove d.scene

end Draft

/-- The scene that some commands leave behind. -/
def Scene.after (s : Scene) (commands : List Json) : Scene :=
  (Draft.perform ⟨s, []⟩ 0 commands).1.settled

/-- What becomes of some commands. -/
def Scene.report (s : Scene) (commands : List Json) : Report :=
  (Draft.perform ⟨s, []⟩ 0 commands).2

/-- Why the command at a place was skipped, if it was. -/
def Report.problem? (r : Report) (place : Nat) : Option CommandProblem :=
  (r.skipped.find? fun k => k.index == place).map (·.problem)

/-! ### Command by command -/

theorem Command.ofJson_of_toOption {command : Json} {c : Command}
    (h : (Command.ofJson command).toOption = some c) : Command.ofJson command = .ok c := by
  cases hc : Command.ofJson command with
  | error p =>
    rw [hc] at h
    cases h
  | ok c' =>
    rw [hc] at h
    exact congrArg Except.ok (Option.some.inj h)

namespace Draft

variable {d : Draft} {i place : Nat} {commands behind : List Json}

theorem along_append (d : Draft) (commands behind : List Json) :
    d.along (commands ++ behind) = d.along commands ++ (commands.foldl step d).along behind := by
  induction commands generalizing d with
  | nil => rfl
  | cons command rest ih => exact congrArg (_ :: ·) (ih _)

theorem problems_append (d : Draft) (commands behind : List Json) :
    d.problems (commands ++ behind) =
      d.problems commands ++ (commands.foldl step d).problems behind := by
  rw [problems, along_append, List.map_append]
  rfl

theorem length_problems (d : Draft) (commands : List Json) :
    (d.problems commands).length = commands.length := by
  induction commands generalizing d with
  | nil => rfl
  | cons command rest ih => exact congrArg (· + 1) (ih _)

theorem perform_fst (d : Draft) (i : Nat) (commands : List Json) :
    (d.perform i commands).1 = commands.foldl step d := by
  induction commands generalizing d i with
  | nil => rfl
  | cons command rest ih =>
    rw [perform, List.foldl_cons, step]
    cases d.takeJson command with
    | error p => exact ih d (i + 1)
    | ok d' => exact ih d' (i + 1)

/-- What the report says of the first command and of the others. -/
theorem problem?_perform_cons (d : Draft) (i : Nat) (command : Json) (rest : List Json)
    (place : Nat) :
    (d.perform i (command :: rest)).2.problem? place =
      (if i = place then d.problem? command else none).or
        (((d.step command).perform (i + 1) rest).2.problem? place) := by
  rw [perform, problem?, step]
  cases d.takeJson command with
  | error p =>
    simp only [Report.problem?, Report.merge, List.cons_append, List.nil_append, List.find?_cons]
    by_cases h : i = place
    · simp [h]
    · simp [h, beq_false_of_ne h]
  | ok d' => simp [Report.problem?, Report.merge]

/-- Nothing is said of places before the first. -/
theorem problem?_perform_of_lt (h : place < i) (d : Draft) (commands : List Json) :
    (d.perform i commands).2.problem? place = none := by
  induction commands generalizing d i with
  | nil => rfl
  | cons command rest ih =>
    rw [problem?_perform_cons, ih (Nat.lt_succ_of_lt h), if_neg (Nat.ne_of_gt h), Option.or_none]

/-- The report says of every place what becomes of its command on the draft that it meets. -/
theorem problem?_perform (d : Draft) (i place : Nat) (commands : List Json) :
    (d.perform i commands).2.problem? (i + place) =
      (d.problems commands)[place]?.join := by
  induction commands generalizing d i place with
  | nil => rfl
  | cons command rest ih =>
    rw [problem?_perform_cons]
    cases place with
    | zero =>
      rw [Nat.add_zero, problem?_perform_of_lt (Nat.lt_succ_self i), if_pos rfl, Option.or_none]
      rfl
    | succ place =>
      rw [if_neg (by omega), Option.none_or, ← Nat.add_assoc, Nat.add_right_comm, ih]
      rfl

/-- As many commands take effect as are not refused. -/
theorem applied_perform (d : Draft) (i : Nat) (commands : List Json) :
    (d.perform i commands).2.applied = (d.problems commands).countP Option.isNone := by
  induction commands generalizing d i with
  | nil => rfl
  | cons command rest ih =>
    rw [perform, problems, along, List.map_cons, List.countP_cons, problem?, step]
    cases d.takeJson command with
    | error p => exact (Nat.zero_add _).trans (ih d (i + 1))
    | ok d' => exact (Nat.add_comm _ _).trans (congrArg (· + 1) (ih d' (i + 1)))

end Draft

/-! ### What is left -/

theorem Scene.get?_remove (s : Scene) (i : EntityId) (k : Kind) (id : EntityId) :
    (s.remove i).get? k id = if id = i then none else s.get? k id := by
  simp only [Scene.remove, Kind.all, List.foldl_cons, List.foldl_nil, Scene.get?_erase]
  by_cases h : id = i <;> cases k <;> simp [h]

theorem Draft.get?_settled (d : Draft) (k : Kind) (id : EntityId) :
    d.settled.get? k id = if id ∈ d.leaving then none else d.scene.get? k id := by
  obtain ⟨s, leaving⟩ := d
  simp only [Draft.settled]
  induction leaving generalizing s with
  | nil => simp
  | cons i rest ih =>
    rw [List.foldl_cons, ih, Scene.get?_remove]
    by_cases hrest : id ∈ rest
    · simp [hrest]
    · by_cases hi : id = i <;> simp [hrest, hi]

end Storyboard
