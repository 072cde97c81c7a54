import Storyboard.Proofs.Stage.Agenda

/-! # Paths

    A path lights its nodes up one after another, each for longer than it
    takes to get to the next. Where a path comes back to a node before the
    light of an earlier turn is out, that light takes the later one with it
    when it goes out. So a node is lit from one of its turns on, until any of
    its turns ends (`path_standing`). -/

namespace Storyboard

open Stage

/-! ### What was drawn last -/

namespace Stage

variable {s : Stage} {t : Scene} {j : EntityId} {deeds : List (Nat × Act)}

/-- What several acts draw for a thing in the end, if anything. -/
def drawnBy (t : Scene) (j : EntityId) : List (Nat × Act) → Option Figure
  | [] => none
  | x :: rest => (drawnBy t j rest).or (x.2.figure? t j)

/-- Acts that finish no exit do nothing but draw figures, and of each thing the last one stays. -/
theorem enact_redraws (hs : s.presenter.Sound) (hk : s.scene.Keyed)
    (hdeeds : ∀ x ∈ deeds, ¬x.2.IsExit) :
    Redrawn s (s.enact deeds) fun j => drawnBy s.scene j deeds := by
  induction deeds generalizing s with
  | nil => exact Redrawn.refl hs
  | cons x rest ih =>
    obtain ⟨hx, hrest⟩ := List.forall_mem_cons.1 hdeeds
    have hfirst := perform_redraws hs hk x.1 hx
    have hothers := ih hfirst.sound (hfirst.scene ▸ hk) hrest
    rw [hfirst.scene] at hothers
    exact hfirst.trans hothers

theorem drawnBy_eq_none_iff : drawnBy t j deeds = none ↔ ∀ x ∈ deeds, x.2.figure? t j = none := by
  induction deeds with
  | nil => simp [drawnBy]
  | cons x rest ih => rw [drawnBy, Option.or_eq_none_iff, ih, List.forall_mem_cons, and_comm]

/-- What is drawn in the end was drawn by one of the acts, and no later act draws the thing. -/
theorem exists_drawnBy (hordered : deeds.Pairwise fun a b => a.1 ≤ b.1) {f : Figure}
    (h : drawnBy t j deeds = some f) : ∃ x ∈ deeds, x.2.figure? t j = some f ∧
      ∀ y ∈ deeds, y.2.figure? t j ≠ none → y.1 ≤ x.1 := by
  induction deeds with
  | nil => cases h
  | cons x rest ih =>
    obtain ⟨hx, hrest⟩ := List.pairwise_cons.1 hordered
    rw [drawnBy] at h
    -- A later act has the last word, and the first one has it if none of the later draws the thing.
    cases hlater : drawnBy t j rest with
    | some g =>
      rw [hlater, Option.some_or] at h
      obtain ⟨y, hy, hfigure, hlast⟩ := ih hrest (hlater.trans h)
      refine ⟨y, List.mem_cons_of_mem _ hy, hfigure, ?_⟩
      intro z hz hdraws
      rcases List.mem_cons.1 hz with rfl | hz
      · exact hx y hy
      · exact hlast z hz hdraws
    | none =>
      rw [hlater, Option.none_or] at h
      refine ⟨x, List.mem_cons_self, h, ?_⟩
      intro z hz hdraws
      rcases List.mem_cons.1 hz with rfl | hz
      · exact Nat.le_refl _
      · exact absurd (drawnBy_eq_none_iff.1 hlater z hz) hdraws

/-! ### The agenda of a path -/

/-- The time at which a path comes to the node at a place. -/
def turnOf (now i : Nat) : Nat := Wait.endOf now (.ofMillis (pathStagger * i))

/-- One of the turns of a node has come, and none of them has ended since. -/
def LitAt (now : Nat) (nodes : List EntityId) (time : Nat) (id : EntityId) : Prop :=
  ∃ i, nodes[i]? = some id ∧ turnOf now i ≤ time ∧
    ∀ k, nodes[k]? = some id → turnOf now i < turnOf now k + 800 → time < turnOf now k + 800

variable {now time : Nat} {h : Highlight} {nodes : List EntityId} {id : EntityId} {x : Nat × Act}

/-- Turns begin whole steps of the path after it. -/
theorem exists_turnOf_eq (now i : Nat) : ∃ n, turnOf now i = now + 300 * n := by
  unfold turnOf Wait.endOf Wait.length
  rw [Span.ticks_ofMillis]
  split
  · exact ⟨i, rfl⟩
  · exact ⟨3153600000, rfl⟩

/-- No turn begins at the moment at which another one ends. -/
theorem turnOf_ne (now i k : Nat) : turnOf now i ≠ turnOf now k + 800 := by
  obtain ⟨n, hn⟩ := exists_turnOf_eq now i
  obtain ⟨m, hm⟩ := exists_turnOf_eq now k
  omega

theorem mem_agenda_pathCues (now : Nat) (h : Highlight) (i : Nat) (nodes : List EntityId) :
    x ∈ (pathCues h i nodes).flatMap (Cue.agendaOf now) ↔
      ∃ k id, nodes[k]? = some id ∧ (x = (turnOf now (i + k), .highlight id (some h)) ∨
        x = (turnOf now (i + k) + 800, .highlight id none)) := by
  -- By induction on the nodes, with the place of the first one.
  induction nodes generalizing i with
  | nil => simp [pathCues]
  | cons id rest ih =>
    have hfirst : Cue.agendaOf now (.wait (.ofMillis (pathStagger * i)) :: flash id h pathSpan) =
        [(turnOf now i, .highlight id (some h)), (turnOf now i + 800, .highlight id none)] := by
      rw [← Wait.endOf_ofMillis (n := 800) (by decide)]
      rfl
    rw [pathCues, List.flatMap_cons, hfirst, List.mem_append, ih]
    constructor
    · rintro (hx | ⟨k, id', hk, hx⟩)
      · refine ⟨0, id, rfl, ?_⟩
        simpa using hx
      · refine ⟨k + 1, id', hk, ?_⟩
        rw [Nat.add_comm k 1, ← Nat.add_assoc]
        exact hx
    · rintro ⟨k, id', hk, hx⟩
      cases k with
      | zero =>
        obtain rfl : id = id' := Option.some.inj hk
        left
        simpa using hx
      | succ k =>
        refine .inr ⟨k, id', hk, ?_⟩
        rw [Nat.add_comm k 1, ← Nat.add_assoc] at hx
        exact hx

theorem leadingOf_pathCues (i : Nat) : Cue.leadingOf now (pathCues h i nodes) = [] := by
  induction nodes generalizing i with
  | nil => rfl
  | cons id rest ih =>
    rw [pathCues, Cue.leadingOf, List.flatMap_cons, ← Cue.leadingOf, ih]
    rfl

/-! ### Lighting up -/

variable {command : Json} {color : Option String} {span : Span}

/-- The light of a path. -/
def pathLight (color : Option String) : Highlight := ⟨Color.readOr color .cyan, .high⟩

/-- A path begins with a wait for every node, and nothing else. -/
theorem start_path (now : Nat)
    (hcommand : Command.ofJson command = .ok (.highlightPath nodes color span true))
    (hnodes : ∀ id ∈ nodes, s.scene.has .node id = true) :
    (Performance.start now .realtime s [command]).1 = s ∧
      (Strand.agendaOf now (Performance.start now .realtime s [command]).2.strands).Perm
        ((pathCues (pathLight color) 0 nodes).flatMap (Cue.agendaOf now)) := by
  have hall : missingNode? s.scene nodes = none := by
    unfold missingNode?
    rw [List.find?_eq_none]
    intro id hid
    rw [hnodes id hid]
    exact Bool.false_ne_true
  -- All nodes are there, so the path is opened, and each of its strands begins with a wait.
  have hopening : s.opening now .realtime (.highlightPath nodes color span true) =
      .ok (s, pathCues (pathLight color) 0 nodes) := by
    simp only [opening, highlightPath, requireNodes, hall]
    rfl
  have hstart : Course.start now .realtime s command =
      ((Strand.followAll now .realtime s (pathCues (pathLight color) 0 nodes)).1,
        .taken (Strand.followAll now .realtime s (pathCues (pathLight color) 0 nodes)).2) := by
    unfold Course.start
    rw [hcommand]
    dsimp only
    rw [hopening]
  obtain ⟨hstage, hagenda⟩ :=
    Strand.followAll_agenda now s (pathCues (pathLight color) 0 nodes)
  rw [leadingOf_pathCues] at hstage hagenda
  rw [Performance.strands_start]
  simp only [Performance.start, Course.startAll, hstart, Course.strandsOf, List.flatMap_cons,
    List.flatMap_nil, Course.strands, List.append_nil]
  exact ⟨hstage, hagenda.symm⟩

/-- What is drawn for a node by highlighting something. -/
theorem figure?_highlight {l : Option Highlight} {n : Node} (hn : t.nodes.find? j = some n) :
    (Act.highlight id l).figure? t j = if j = id then some (.ofNode n l) else none := by
  simp only [Act.figure?]
  by_cases hid : j = id
  · rw [if_pos hid, if_pos hid, ← hid, hn]
    rfl
  · rw [if_neg hid, if_neg hid]

theorem figure?_highlight_self {l : Option Highlight} {n : Node} (hn : t.nodes.find? j = some n) :
    (Act.highlight j l).figure? t j = some (.ofNode n l) := by
  rw [figure?_highlight hn, if_pos rfl]

theorem eq_of_figure?_highlight {l : Option Highlight} {n : Node} {f : Figure}
    (hn : t.nodes.find? j = some n) (hf : (Act.highlight id l).figure? t j = some f) :
    id = j ∧ f = .ofNode n l := by
  rw [figure?_highlight hn] at hf
  by_cases hid : j = id
  · rw [if_pos hid] at hf
    exact ⟨hid.symm, (Option.some.inj hf).symm⟩
  · rw [if_neg hid] at hf
    cases hf

section Deeds

/- What a path has done by a time, in the order of its times. -/
variable {n : Node} (hn : t.nodes.find? j = some n)
  (hordered : deeds.Pairwise fun a b => a.1 ≤ b.1)
  (hdeeds : ∀ x, x ∈ deeds ↔ x.1 ≤ time ∧ ∃ k id, nodes[k]? = some id ∧
    (x = (turnOf now k, .highlight id (some h)) ∨ x = (turnOf now k + 800, .highlight id none)))

include hn hordered hdeeds

/-- A node that is lit was drawn with the light last. -/
theorem drawnBy_of_lit (hlit : LitAt now nodes time j) :
    drawnBy t j deeds = some (.ofNode n (some h)) := by
  obtain ⟨i, hi, hpast, hlit⟩ := hlit
  have hdeed : (turnOf now i, .highlight j (some h)) ∈ deeds :=
    (hdeeds _).2 ⟨hpast, i, j, hi, .inl rfl⟩
  cases hdrawn : drawnBy t j deeds with
  | none =>
    have hnone := drawnBy_eq_none_iff.1 hdrawn _ hdeed
    rw [figure?_highlight_self hn] at hnone
    cases hnone
  | some f =>
    obtain ⟨x, hx, hfigure, hlast⟩ := exists_drawnBy hordered hdrawn
    obtain ⟨hended, k, id, hk, rfl | rfl⟩ := (hdeeds x).1 hx
    · obtain ⟨_, rfl⟩ := eq_of_figure?_highlight hn hfigure
      rfl
    · -- The turn that ended last would have ended after the other one began.
      obtain ⟨rfl, _⟩ := eq_of_figure?_highlight hn hfigure
      have hle : turnOf now i ≤ turnOf now k + 800 :=
        hlast _ hdeed (by rw [figure?_highlight_self hn]; exact Option.some_ne_none _)
      have hne := turnOf_ne now i k
      have hlater := hlit k hk (by omega)
      omega

/-- A node that is not lit was drawn without the light last, if it was drawn at all. -/
theorem drawnBy_of_not_lit (hdark : ¬LitAt now nodes time j) :
    drawnBy t j deeds = none ∨ drawnBy t j deeds = some (.ofNode n none) := by
  cases hdrawn : drawnBy t j deeds with
  | none => exact .inl rfl
  | some f =>
    right
    obtain ⟨x, hx, hfigure, hlast⟩ := exists_drawnBy hordered hdrawn
    obtain ⟨hbegun, k, id, hk, rfl | rfl⟩ := (hdeeds x).1 hx
    · -- The turn that began last would have been ended by another one since.
      obtain ⟨rfl, _⟩ := eq_of_figure?_highlight hn hfigure
      refine absurd ⟨k, hk, hbegun, fun i hi hafter => ?_⟩ hdark
      by_contra hended
      have hdeed : (turnOf now i + 800, .highlight id none) ∈ deeds :=
        (hdeeds _).2 ⟨by omega, i, id, hi, .inr rfl⟩
      have hle : turnOf now i + 800 ≤ turnOf now k :=
        hlast _ hdeed (by rw [figure?_highlight_self hn]; exact Option.some_ne_none _)
      omega
    · obtain ⟨_, rfl⟩ := eq_of_figure?_highlight hn hfigure
      rfl

end Deeds

/-- A path that is performed alone in real time on a stage at rest, and whose nodes are there. It
    stands at every time; and then a node has the light of the path if one of its turns has come
    and none has ended since, and otherwise it is drawn without it. -/
theorem path_standing (start : Nat) (events : List (Ensemble.Event Action))
    (hrest : AtRest ((Ensemble.alone start empty).after machine events))
    (now : Nat) (command : Json) (nodes : List EntityId) (color : Option String) (span : Span)
    (hcommand : Command.ofJson command = .ok (.highlightPath nodes color span true))
    (hnodes : ∀ id ∈ nodes,
      ((Ensemble.alone start empty).after machine events).world.scene.has .node id = true)
    (time : Nat) (htime : now ≤ time) :
    let s := ((Ensemble.alone start empty).after machine events).world
    let e := s.execute now .realtime [command]
    (∃ rounds, Ensemble.StandsAt machine (e rounds) time) ∧
    ∀ rounds, Ensemble.StandsAt machine (e rounds) time → ∀ id n, s.scene.nodes.find? id = some n →
      (LitAt now nodes time id →
        (e rounds).world.Draws .node id (.ofNode n (some (pathLight color)))) ∧
      (¬LitAt now nodes time id → (e rounds).world.Draws .node id (.ofNode n none)) := by
  intro s e
  have hs : s.Coherent ∅ := coherent_of_atRest hrest
  refine ⟨hs.exists_standing [command] htime, ?_⟩
  intro rounds hstands id n hn
  obtain ⟨deeds, hworld, hordered, hperm⟩ := execute_standing hstands
  obtain ⟨hstage, hagenda⟩ := start_path now hcommand hnodes
  rw [hstage] at hworld
  -- All that was done by then is that turns began and ended.
  have hdeeds : ∀ x, x ∈ deeds ↔ x.1 ≤ time ∧ ∃ k id, nodes[k]? = some id ∧
      (x = (turnOf now k, .highlight id (some (pathLight color))) ∨
        x = (turnOf now k + 800, .highlight id none)) := by
    intro x
    have hmem := mem_agenda_pathCues (x := x) now (pathLight color) 0 nodes
    simp only [Nat.zero_add] at hmem
    rw [hperm.mem_iff, List.mem_filter, hagenda.mem_iff, hmem, decide_eq_true_eq, and_comm]
  have hredrawn : Redrawn s (e rounds).world fun j => drawnBy s.scene j deeds := by
    rw [show (e rounds).world = s.enact deeds from hworld]
    refine enact_redraws hs.sound hs.keyed fun x hx => ?_
    obtain ⟨_, _, _, _, rfl | rfl⟩ := (hdeeds x).1 hx <;> exact fun hexit => hexit
  obtain ⟨v, hv, hkind, hstays, hfigure⟩ := hs.sight (Scene.get?_node.2 hn) rfl
  have hdraws : ∀ f, Sight.drawnOver (drawnBy s.scene id deeds) (some v) =
      some { v with figure := f } → (e rounds).world.Draws .node id f := by
    intro f hf
    rw [← hkind]
    exact draws_of_sight hredrawn.sound (((hredrawn.sight id).trans (by rw [hv])).trans hf)
  have hover : ∀ f, Sight.drawnOver (some f) (some v) = some { v with figure := f } := by
    intro f
    simp [Sight.drawnOver, Sight.redrawn, hstays]
  constructor
  · intro hlit
    refine hdraws _ ?_
    rw [drawnBy_of_lit hn hordered hdeeds hlit, hover]
  · intro hdark
    refine hdraws _ ?_
    rcases drawnBy_of_not_lit hn hordered hdeeds hdark with hnone | hdark
    · rw [hnone, ← hfigure]
      rfl
    · rw [hdark, hover]

/-- A path that stays at one node: the node is lit until the first turn ends. -/
theorem path_standing_repeated :
    let a : EntityId := ⟨"a"⟩
    let node : Json := .obj [("command", .str "CREATE_NODE"), ("id", .str "a"),
      ("position", .obj [("x", .int 0), ("y", .int 0)])]
    let path : Json := .obj [("command", .str "HIGHLIGHT_PATH"),
      ("nodes", .arr [.str "a", .str "a"])]
    let n : Node := ⟨a, "", ⟨0, 0⟩, none⟩
    let start := (Ensemble.alone 0 empty).after machine
      [.join 0 (.perform [node] .instant), .turn 0 0, .turn 0 0]
    let e := start.world.execute 0 .realtime [path]
    AtRest start ∧ Command.ofJson path = .ok (.highlightPath [a, a] none (.ofMillis 2000) true) ∧
      (∀ id ∈ [a, a], start.world.scene.has .node id = true) ∧ 0 ≤ 799 ∧
      start.world.scene.nodes.find? a = some n ∧ LitAt 0 [a, a] 799 a ∧
      ∃ rounds, Ensemble.StandsAt machine (e rounds) 799 ∧
        (e rounds).world.Draws .node a (.ofNode n (some (pathLight none))) := by
  intro a node path n start e
  have hrest : AtRest start := atRest_of_isEmpty (by decide +kernel)
  have hcommand : Command.ofJson path =
      .ok (.highlightPath [a, a] none (.ofMillis 2000) true) :=
    Command.ofJson_of_toOption (by decide +kernel)
  have hnodes : ∀ id ∈ [a, a], start.world.scene.has .node id = true := by decide +kernel
  have hn : start.world.scene.nodes.find? a = some n := by decide +kernel
  -- No turn of the node ends before eight hundred milliseconds.
  have hlit : LitAt 0 [a, a] 799 a := by
    refine ⟨0, rfl, by decide, fun k hk _ => ?_⟩
    omega
  obtain ⟨⟨rounds, hstands⟩, hdraws⟩ :=
    path_standing 0 _ hrest 0 path [a, a] none (.ofMillis 2000) hcommand hnodes 799 (by decide)
  exact ⟨hrest, hcommand, hnodes, by decide, hn, hlit, rounds, hstands,
    (hdraws rounds hstands a n hn).1 hlit⟩

/-- The end of the first turn takes the light away from the second, which began in the meantime and
    would last for two hundred milliseconds more. -/
theorem path_dark_in_turn :
    let a : EntityId := ⟨"a"⟩
    let node : Json := .obj [("command", .str "CREATE_NODE"), ("id", .str "a"),
      ("position", .obj [("x", .int 0), ("y", .int 0)])]
    let path : Json := .obj [("command", .str "HIGHLIGHT_PATH"),
      ("nodes", .arr [.str "a", .str "a"])]
    let n : Node := ⟨a, "", ⟨0, 0⟩, none⟩
    let start := (Ensemble.alone 0 empty).after machine
      [.join 0 (.perform [node] .instant), .turn 0 0, .turn 0 0]
    let e := start.world.execute 0 .realtime [path] 4
    Ensemble.StandsAt machine e 900 ∧ [a, a][1]? = some a ∧ 300 * 1 ≤ 900 ∧ 900 < 300 * 1 + 800 ∧
      (e.world.presenter.canvas.item? a).map (·.figure) = some (.ofNode n none) ∧
      Figure.ofNode n none ≠ .ofNode n (some (pathLight none)) := by
  intro a node path n start e
  have hdue : e.due? machine = some 1100 := by decide +kernel
  refine ⟨⟨by decide +kernel, by decide +kernel, fun due hsome => ?_⟩, rfl, by decide, by decide,
    by decide +kernel, by decide +kernel⟩
  rw [hdue] at hsome
  cases hsome
  decide

end Stage

end Storyboard
