import Mathlib.Logic.Equiv.Basic
import Storyboard.Proofs.Stage.Execution

/-! # Footprints

    Of a draft, a command reads and changes only what is under the identifiers
    that it mentions (`within_take`). Two commands that stand side by side and
    mention nothing in common can therefore be exchanged: what they come to,
    and what becomes of every command, stays the same (`execute_exchange`). -/

namespace Storyboard

namespace Command

/-- The identifiers that a command mentions. -/
def mentions : Command → List EntityId
  | .createNode n => [n.id]
  | .updateNode id _ _ => [id]
  | .deleteNode id => [id]
  | .moveNode id _ _ _ => [id]
  | .highlight id _ _ _ => [id]
  | .compare elements _ _ => elements
  | .pulse id _ _ => [id]
  | .createEdge id source target _ _ _ => [id, source, target]
  | .deleteEdge id => [id]
  | .highlightPath nodes _ _ _ => nodes
  | .createArray r => [r.id]
  | .swap row _ _ => [row]
  | .updateCell row _ _ _ => [row]
  | .setPointer id row _ _ _ => [id, row]
  | .addLabel id _ _ _ => [id]
  | .addCallout id _ _ _ _ => [id]

/-- The identifiers that a command mentions as it is written. One that does not decode mentions
    none. -/
def mentionsAsWritten (command : Json) : List EntityId :=
  match ofJson command with
  | .ok c => c.mentions
  | .error _ => []

end Command

namespace Draft

variable {S T : Set EntityId} {d d' : Draft} {id : EntityId} {k : Kind}

/-! ### What is under an identifier -/

/-- What is under an identifier: the things of every kind, and whether it is marked. -/
def under (d : Draft) (id : EntityId) : (Kind → Option Entity) × Prop :=
  (fun k => d.scene.get? k id, id ∈ d.leaving)

/-- The same is under these identifiers. -/
def AgreeOn (S : Set EntityId) (d d' : Draft) : Prop := ∀ id ∈ S, d.under id = d'.under id

theorem AgreeOn.mono (hST : S ⊆ T) (h : AgreeOn T d d') : AgreeOn S d d' :=
  fun id hid => h id (hST hid)

theorem get?_of_under (h : d.under id = d'.under id) : d.scene.get? k id = d'.scene.get? k id :=
  congrFun (congrArg Prod.fst h) k

theorem has_of_under (h : d.under id = d'.under id) : d.scene.has k id = d'.scene.has k id :=
  congrArg Option.isSome (get?_of_under h)

theorem kindOf?_of_under (h : d.under id = d'.under id) :
    d.scene.kindOf? id = d'.scene.kindOf? id := by
  unfold Scene.kindOf?
  exact congrArg (Kind.all.find? ·) (funext fun k => has_of_under h)

theorem nodes_of_under (h : d.under id = d'.under id) :
    d.scene.nodes.find? id = d'.scene.nodes.find? id :=
  Option.map_injective (fun _ _ h => Entity.node.inj h) (get?_of_under (k := .node) h)

theorem rows_of_under (h : d.under id = d'.under id) :
    d.scene.rows.find? id = d'.scene.rows.find? id :=
  Option.map_injective (fun _ _ h => Entity.row.inj h) (get?_of_under (k := .array) h)

/-- Drafts with the same under every identifier come to the same scene. -/
theorem settled_of_under (h : ∀ id, d.under id = d'.under id) : d.settled = d'.settled := by
  refine Scene.ext_get? fun k id => ?_
  have hmarked : (id ∈ d.leaving) = (id ∈ d'.leaving) := congrArg Prod.snd (h id)
  rw [get?_settled, get?_settled, get?_of_under (h id)]
  simp only [hmarked]

/-! ### Changes within some identifiers -/

/-- The outcomes of one change on two drafts: both are refused for the same reason, or both take
    effect and leave the same under these identifiers. -/
inductive Alike (S : Set EntityId) :
    Except CommandProblem Draft → Except CommandProblem Draft → Prop where
  | refused (p : CommandProblem) : Alike S (.error p) (.error p)
  | taken {r r' : Draft} (h : AgreeOn S r r') : Alike S (.ok r) (.ok r')

/-- A change of drafts reads and changes only what is under these identifiers. -/
structure Within (S : Set EntityId) (f : Draft → Except CommandProblem Draft) : Prop where
  reads   : ∀ d d', AgreeOn S d d' → Alike S (f d) (f d')
  changes : ∀ d r, f d = .ok r → AgreeOn Sᶜ d r

namespace Within

variable {f g : Draft → Except CommandProblem Draft}

theorem mono (hST : S ⊆ T) (hf : Within S f) : Within T f where
  reads d d' h := by
    have halike := hf.reads d d' (h.mono hST)
    generalize hd : f d = x at halike
    generalize hd' : f d' = x' at halike
    cases halike with
    | refused p => exact .refused p
    | taken hr =>
      refine .taken fun id hid => ?_
      by_cases hS : id ∈ S
      · exact hr id hS
      · -- Nothing has changed here, so the drafts agree as they did before.
        rw [← hf.changes d _ hd id hS, ← hf.changes d' _ hd' id hS]
        exact h id hid
  changes d r h := (hf.changes d r h).mono fun _ hid hS => hid (hST hS)

theorem bind (hf : Within S f) (hg : Within S g) : Within S fun d => f d >>= g where
  reads d d' h := by
    have halike := hf.reads d d' h
    generalize f d = x at halike
    generalize f d' = x' at halike
    cases halike with
    | refused p => exact .refused p
    | taken hr => exact hg.reads _ _ hr
  changes d r h := by
    generalize hd : f d = x at h
    cases x with
    | error p => cases h
    | ok r' => exact fun id hid => (hf.changes d r' hd id hid).trans (hg.changes r' r h id hid)

/-- A change that is never refused. -/
theorem ok {f : Draft → Draft} (reads : ∀ d d', AgreeOn S d d' → AgreeOn S (f d) (f d'))
    (changes : ∀ d, AgreeOn Sᶜ d (f d)) : Within S fun d => .ok (f d) where
  reads d d' h := .taken (reads d d' h)
  changes d _ h := Except.ok.inj h ▸ changes d

/-- A change that is always refused. -/
theorem refused {p : CommandProblem} : Within S fun _ => .error p where
  reads _ _ _ := .refused p
  changes _ _ h := nomatch h

end Within

/-! ### Single commands -/

theorem marked_of_under (h : d.under id = d'.under id) : (id ∈ d.leaving) = (id ∈ d'.leaving) :=
  congrArg Prod.snd h

theorem under_ext (hscene : ∀ k, d.scene.get? k id = d'.scene.get? k id)
    (hmarked : id ∈ d.leaving ↔ id ∈ d'.leaving) : d.under id = d'.under id :=
  Prod.ext (funext hscene) (propext hmarked)

theorem missing_of_under {ids : List EntityId} (h : ∀ id ∈ ids, d.under id = d'.under id) :
    (ids.find? fun id => !d.scene.has .node id) = ids.find? fun id => !d'.scene.has .node id := by
  induction ids with
  | nil => rfl
  | cons id rest ih =>
    rw [List.find?_cons, List.find?_cons, has_of_under (h id List.mem_cons_self),
      ih fun i hi => h i (List.mem_cons_of_mem _ hi)]

theorem within_requireNodes (tag : CommandTag) {ids : List EntityId} (h : ∀ id ∈ ids, id ∈ S) :
    Within S (·.requireNodes tag ids) where
  reads d d' hd := by
    unfold requireNodes
    rw [missing_of_under fun id hid => hd id (h id hid)]
    split
    · exact .refused _
    · exact .taken hd
  changes d r hr := by
    unfold requireNodes at hr
    split at hr
    · cases hr
    · obtain rfl := Except.ok.inj hr
      exact fun _ _ => rfl

theorem within_requireCells (tag : CommandTag) (id : EntityId) (indices : List Nat) :
    Within {id} (·.requireCells tag id indices) where
  reads d d' hd := by
    unfold requireCells
    rw [rows_of_under (hd id rfl)]
    cases d'.scene.rows.find? id with
    | none => exact .refused _
    | some r =>
      dsimp only
      split
      · exact .refused _
      · exact .taken hd
  changes d r hr := by
    unfold requireCells at hr
    split at hr
    · cases hr
    · split at hr
      · cases hr
      · obtain rfl := Except.ok.inj hr
        exact fun _ _ => rfl

theorem within_put (tag : CommandTag) {e : Entity} (hid : e.id = id) :
    Within {id} (·.put tag e) where
  reads d d' hd := by
    subst hid
    have hkind : d.scene.kindOf? e.id = d'.scene.kindOf? e.id := kindOf?_of_under (hd e.id rfl)
    have hput : AgreeOn {e.id} ⟨d.scene.put e, d.leaving.filter fun id => id != e.id⟩
        ⟨d'.scene.put e, d'.leaving.filter fun id => id != e.id⟩ := by
      rintro _ rfl
      refine under_ext (fun k => ?_) (by simp)
      rw [Scene.get?_put, Scene.get?_put, get?_of_under (hd e.id rfl)]
    -- Whether the id is taken by another kind is read off what is under the id.
    unfold put Scene.insert
    rw [hkind]
    cases d'.scene.kindOf? e.id with
    | none => exact .taken hput
    | some held =>
      by_cases hheld : held = e.kind
      · simp only [hheld, if_true]
        exact .taken hput
      · simp only [hheld, if_false]
        exact .refused _
  changes d r hr := by
    subst hid
    -- What is put there is under its own id, and so is the exit it calls off.
    have hput : AgreeOn ({e.id} : Set EntityId)ᶜ d
        ⟨d.scene.put e, d.leaving.filter fun id => id != e.id⟩ := by
      intro id hid
      have hne : id ≠ e.id := hid
      exact under_ext (fun k => by simp [Scene.get?_put, hne]) (by simp [hne])
    unfold put at hr
    split at hr
    · cases hr
    · next s hs =>
      obtain rfl := Except.ok.inj hr
      unfold Scene.insert at hs
      split at hs
      · split at hs
        · obtain rfl := Except.ok.inj hs
          exact hput
        · cases hs
      · obtain rfl := Except.ok.inj hs
        exact hput

theorem within_mark (tag : CommandTag) (k : Kind) (id : EntityId) :
    Within {id} (·.mark tag k id) where
  reads d d' hd := by
    unfold mark
    rw [has_of_under (hd id rfl)]
    split
    · refine .taken ?_
      rintro _ rfl
      have hsame := hd _ rfl
      exact under_ext (fun k => (get?_of_under hsame :)) (by simp)
    · exact .refused _
  changes d r hr := by
    unfold mark at hr
    split at hr
    · obtain rfl := Except.ok.inj hr
      intro i hi
      have hne : i ≠ id := hi
      exact under_ext (fun _ => rfl) (by simp [hne])
    · cases hr

theorem within_changeNode (tag : CommandTag) (id : EntityId) (f : Node → Node) :
    Within {id} (·.changeNode tag id f) := by
  refine (within_requireNodes tag fun i hi => List.mem_singleton.1 hi).bind
    (Within.ok (fun d d' hd => ?_) fun d i hi => ?_)
  · rintro _ rfl
    have hsame := hd _ rfl
    refine under_ext (fun k => ?_) (iff_of_eq (marked_of_under hsame :))
    rw [Scene.get?_modifyNode, Scene.get?_modifyNode, nodes_of_under hsame,
      get?_of_under hsame]
  · have hne : i ≠ id := hi
    exact under_ext (fun k => by simp [Scene.get?_modifyNode, hne]) Iff.rfl

theorem within_changeCells (tag : CommandTag) (id : EntityId) (indices : List Nat)
    (f : Row → Row) : Within {id} (·.changeCells tag id indices f) := by
  refine (within_requireCells tag id indices).bind
    (Within.ok (fun d d' hd => ?_) fun d i hi => ?_)
  · rintro _ rfl
    have hsame := hd _ rfl
    refine under_ext (fun k => ?_) (iff_of_eq (marked_of_under hsame :))
    rw [Scene.get?_modifyRow, Scene.get?_modifyRow, rows_of_under hsame,
      get?_of_under hsame]
  · have hne : i ≠ id := hi
    exact under_ext (fun k => by simp [Scene.get?_modifyRow, hne]) Iff.rfl

/-- A command reads and changes only what is under the identifiers that it mentions. -/
theorem within_take (c : Command) : Within {id | id ∈ c.mentions} (·.take c) := by
  -- Most of what commands do is about one of the identifiers that they mention.
  have one : ∀ {id f}, id ∈ c.mentions → Within {id} f → Within {id | id ∈ c.mentions} f := by
    intro id f hid hf
    refine hf.mono ?_
    rintro _ rfl
    exact hid
  cases c with
  | createNode n => exact one List.mem_cons_self (within_put _ rfl)
  | updateNode id value style => exact one List.mem_cons_self (within_changeNode _ _ _)
  | deleteNode id => exact one List.mem_cons_self (within_mark _ _ _)
  | moveNode id destination span easing => exact one List.mem_cons_self (within_changeNode _ _ _)
  | highlight id color intensity span => exact within_requireNodes _ fun _ hid => hid
  | compare elements operator result => exact within_requireNodes _ fun _ hid => hid
  | pulse id count color => exact within_requireNodes _ fun _ hid => hid
  | createEdge id source target directed weight style =>
    exact (within_requireNodes _ fun _ hid => List.mem_cons_of_mem _ hid).bind
      (one List.mem_cons_self (within_put _ rfl))
  | deleteEdge id => exact one List.mem_cons_self (within_mark _ _ _)
  | highlightPath nodes color span sequential => exact within_requireNodes _ fun _ hid => hid
  | createArray r => exact one List.mem_cons_self (within_put _ rfl)
  | swap row indices span => exact one List.mem_cons_self (within_changeCells _ _ _ _)
  | updateCell row i value highlight => exact one List.mem_cons_self (within_changeCells _ _ _ _)
  | setPointer id row index label color =>
    exact (one (List.mem_cons_of_mem _ List.mem_cons_self) (within_requireCells _ _ _)).bind
      (one List.mem_cons_self (within_put _ rfl))
  | addLabel id text position style => exact one List.mem_cons_self (within_put _ rfl)
  | addCallout id form start stop label =>
    change Within _ fun d => if plainName form == "arrow" then d.put _ _ else _
    by_cases hform : plainName form == "arrow"
    · simp only [hform, if_true]
      exact one List.mem_cons_self (within_put _ rfl)
    · simp only [hform]
      exact Within.refused

theorem within_takeJson (command : Json) :
    Within {id | id ∈ Command.mentionsAsWritten command} (·.takeJson command) := by
  unfold takeJson Command.mentionsAsWritten
  cases Command.ofJson command with
  | error p => exact Within.refused
  | ok c => exact within_take c

/-! ### Whether it takes effect or not -/

variable {command : Json}

/-- Commands do the same to drafts with the same under the identifiers that they mention. -/
theorem agree_step (hmentions : ∀ id ∈ Command.mentionsAsWritten command, id ∈ S)
    (h : AgreeOn S d d') : d.problem? command = d'.problem? command ∧
      AgreeOn S (d.step command) (d'.step command) := by
  have halike := ((within_takeJson command).mono hmentions).reads d d' h
  unfold problem? step
  generalize d.takeJson command = x at halike
  generalize d'.takeJson command = x' at halike
  cases halike with
  | refused p => exact ⟨rfl, h⟩
  | taken hr => exact ⟨rfl, hr⟩

/-- What is not mentioned stays as it is. -/
theorem under_step (h : id ∉ Command.mentionsAsWritten command) :
    d.under id = (d.step command).under id := by
  unfold step
  cases hd : d.takeJson command with
  | error p => rfl
  | ok r => exact (within_takeJson command).changes d r hd id h

/-- Drafts with the same under every identifier meet the same fate. -/
theorem problems_congr (h : ∀ id, d.under id = d'.under id) (commands : List Json) :
    d.problems commands = d'.problems commands ∧
      ∀ id, (commands.foldl step d).under id = (commands.foldl step d').under id := by
  induction commands generalizing d d' with
  | nil => exact ⟨rfl, h⟩
  | cons command rest ih =>
    obtain ⟨hproblem, hstep⟩ := agree_step (S := Set.univ) (fun _ _ => trivial) fun id _ => h id
    obtain ⟨hproblems, hlast⟩ := ih fun id => hstep id trivial
    exact ⟨congrArg₂ List.cons hproblem hproblems, hlast⟩

/-! ### Commands that mention nothing in common -/

variable {a b : Json}
  (hdisjoint : (Command.mentionsAsWritten a).Disjoint (Command.mentionsAsWritten b))

include hdisjoint

/-- Commands do not meet what others leave that mention nothing that they do. -/
theorem agree_step_step (d : Draft) :
    (d.step a).problem? b = d.problem? b ∧
      AgreeOn {id | id ∈ Command.mentionsAsWritten b} ((d.step a).step b) (d.step b) :=
  agree_step (fun _ hid => hid) fun _ hid => (under_step fun ha => hdisjoint ha hid).symm

/-- Their order does not matter. -/
theorem under_step_comm (d : Draft) (id : EntityId) :
    ((d.step a).step b).under id = ((d.step b).step a).under id := by
  by_cases hb : id ∈ Command.mentionsAsWritten b
  · rw [(agree_step_step hdisjoint d).2 id hb, under_step fun ha => hdisjoint ha hb]
  · rw [← under_step hb]
    by_cases ha : id ∈ Command.mentionsAsWritten a
    · exact ((agree_step_step (fun _ hb ha => hdisjoint ha hb) d).2 id ha).symm
    · rw [← under_step ha, ← under_step ha, ← under_step hb]

/-- What commands come to, and what becomes of the others, stays the same when two of them are
    exchanged that stand side by side. -/
theorem problems_exchange (d : Draft) (before behind : List Json) :
    ∃ x y rest,
      d.problems (before ++ a :: b :: behind) = d.problems before ++ x :: y :: rest ∧
      d.problems (before ++ b :: a :: behind) = d.problems before ++ y :: x :: rest ∧
      ∀ id, ((before ++ a :: b :: behind).foldl step d).under id =
        ((before ++ b :: a :: behind).foldl step d).under id := by
  have hreverse : (Command.mentionsAsWritten b).Disjoint (Command.mentionsAsWritten a) :=
    fun _ hb ha => hdisjoint ha hb
  generalize hd : before.foldl step d = d'
  obtain ⟨hproblems, hlast⟩ := problems_congr (under_step_comm hdisjoint d') behind
  refine ⟨d'.problem? a, d'.problem? b, ((d'.step a).step b).problems behind, ?_, ?_, fun id => ?_⟩
  · rw [problems_append, hd, ← (agree_step_step hdisjoint d').1]
    rfl
  · rw [problems_append, hd, ← (agree_step_step hreverse d').1, hproblems]
    rfl
  · rw [List.foldl_append, List.foldl_append, hd]
    exact hlast id

end Draft

/-- What stands at a place when two neighbors are exchanged. -/
theorem getElem?_exchange {α : Type} (xs ys : List α) (x y : α) (i : Nat) :
    (xs ++ y :: x :: ys)[i]? =
      (xs ++ x :: y :: ys)[Equiv.swap xs.length (xs.length + 1) i]? := by
  rcases Nat.lt_trichotomy i xs.length with h | rfl | h
  · rw [Equiv.swap_apply_of_ne_of_ne (by omega) (by omega), List.getElem?_append_left h,
      List.getElem?_append_left h]
  · simp [Equiv.swap_apply_left]
  · obtain ⟨j, rfl⟩ := Nat.exists_eq_add_of_lt h
    cases j with
    | zero => simp [Equiv.swap_apply_right]
    | succ j =>
      rw [Equiv.swap_apply_of_ne_of_ne (by omega) (by omega), Nat.add_assoc,
        List.getElem?_append_right (Nat.le_add_right _ _),
        List.getElem?_append_right (Nat.le_add_right _ _), Nat.add_sub_cancel_left]
      rfl

namespace Stage

open Command in
/-- Two commands of a list that is performed alone on a stage at rest, side by side and without an
    identifier that both mention: when they are exchanged, the scene in the end is the same, and
    so is what becomes of every command. -/
theorem execute_exchange (start : Nat) (events : List (Ensemble.Event Action))
    (hrest : AtRest ((Ensemble.alone start empty).after machine events))
    (now : Nat) (pacing : Pacing) (before behind : List Json) (a b : Json)
    (hdisjoint : (mentionsAsWritten a).Disjoint (mentionsAsWritten b)) (rounds : Nat)
    (hrounds : waitsOf (before ++ a :: b :: behind) < rounds) :
    let s := ((Ensemble.alone start empty).after machine events).world
    ∃ stop stop' s₁ s₂ p p',
      s.execute now pacing (before ++ a :: b :: behind) rounds =
        ⟨stop, s₁, [.done now stop (.performing p) s₁]⟩ ∧
      s.execute now pacing (before ++ b :: a :: behind) rounds =
        ⟨stop', s₂, [.done now stop' (.performing p') s₂]⟩ ∧
      s₁.scene = s₂.scene ∧ p.report.applied = p'.report.applied ∧
      ∀ place, p'.report.problem? place =
        p.report.problem? (Equiv.swap before.length (before.length + 1) place) := by
  intro s
  have hs : s.Coherent ∅ := coherent_of_atRest hrest
  have hwaits : waitsOf (before ++ b :: a :: behind) = waitsOf (before ++ a :: b :: behind) := by
    simp only [waitsOf, List.foldr_append, List.foldr_cons]
    rw [Nat.add_left_comm]
  obtain ⟨stop, s₁, p, hrun, _, hscene, hreport⟩ := hs.execute now pacing _ hrounds
  obtain ⟨stop', s₂, p', hrun', _, hscene', hreport'⟩ :=
    hs.execute now pacing _ (hwaits.symm ▸ hrounds)
  -- The drafts agree under every identifier after the two commands, and with their problems
  -- exchanged they are answered alike.
  obtain ⟨x, y, rest, hproblems, hproblems', hsame⟩ :=
    Draft.problems_exchange hdisjoint ⟨s.scene, []⟩ before behind
  refine ⟨stop, stop', s₁, s₂, p, p', hrun, hrun', ?_, ?_, fun place => ?_⟩
  · rw [hscene, hscene', Scene.after, Scene.after, Draft.perform_fst, Draft.perform_fst]
    exact Draft.settled_of_under hsame
  · rw [hreport, hreport', Scene.report, Scene.report, Draft.applied_perform,
      Draft.applied_perform, hproblems, hproblems']
    exact List.Perm.countP_eq _ ((List.Perm.swap _ _ _).append_left _)
  · have hplace := fun commands place =>
      Nat.zero_add place ▸ Draft.problem?_perform ⟨s.scene, []⟩ 0 place commands
    rw [hreport, hreport', Scene.report, Scene.report, hplace, hplace, hproblems, hproblems',
      getElem?_exchange, Draft.length_problems]

/-- A node that is deleted, another one that is created, and what is done to both afterwards. -/
theorem execute_exchange_deleted :
    let node (id : String) : Json := .obj [("command", .str "CREATE_NODE"), ("id", .str id),
      ("position", .obj [("x", .int 0), ("y", .int 0)])]
    let gone : Json := .obj [("command", .str "DELETE_NODE"), ("id", .str "a")]
    let edge : Json := .obj [("command", .str "CREATE_EDGE"), ("id", .str "e"), ("from", .str "a"),
      ("to", .str "b")]
    let e := (Ensemble.alone 0 empty).after machine
      [.join 0 (.perform [node "a"] .instant), .turn 0 0, .turn 0 0]
    AtRest e ∧
      (Command.mentionsAsWritten gone).Disjoint (Command.mentionsAsWritten (node "b")) ∧
      waitsOf [edge, gone, node "b", edge] < 9 ∧
      ∃ stop stop' s₁ s₂ p p',
        e.world.execute 0 .realtime [edge, gone, node "b", edge] 9 =
          ⟨stop, s₁, [.done 0 stop (.performing p) s₁]⟩ ∧
        e.world.execute 0 .realtime [edge, node "b", gone, edge] 9 =
          ⟨stop', s₂, [.done 0 stop' (.performing p') s₂]⟩ ∧
        s₁.scene = s₂.scene ∧ p.report.applied = p'.report.applied ∧
        ∀ place, p'.report.problem? place = p.report.problem? (Equiv.swap 1 2 place) := by
  intro node gone edge e
  have hrest : AtRest e := atRest_of_isEmpty (by decide +kernel)
  have hdisjoint : (Command.mentionsAsWritten gone).Disjoint
      (Command.mentionsAsWritten (node "b")) := by
    have hgone : Command.mentionsAsWritten gone = [⟨"a"⟩] := by decide +kernel
    have hnode : Command.mentionsAsWritten (node "b") = [⟨"b"⟩] := by decide +kernel
    rw [hgone, hnode]
    intro id ha hb
    rw [List.mem_singleton] at ha hb
    exact absurd (ha.symm.trans hb) (by decide)
  have hrounds : waitsOf [edge, gone, node "b", edge] < 9 := by decide +kernel
  exact ⟨hrest, hdisjoint, hrounds,
    execute_exchange 0 _ hrest 0 .realtime [edge] [edge] gone (node "b") hdisjoint 9 hrounds⟩

end Stage

end Storyboard
