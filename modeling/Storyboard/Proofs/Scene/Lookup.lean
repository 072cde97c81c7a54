import Storyboard.Proofs.Data.Lookup
import Storyboard.Scene.Basic

/-! # Scenes as maps

    What a scene holds is what `get?` finds under a kind and an identifier.
    Every change of a scene is described by what `get?` finds afterwards, and
    scenes in which the same is found are the same scene. -/

namespace Storyboard.Scene

variable {s t : Scene} {j k : Kind} {i id : EntityId} {e : Entity}

/-! ### What is found -/

@[simp] theorem get?_empty : Scene.empty.get? k id = none := by
  cases k <;> rfl

theorem kind_of_get? (h : s.get? k id = some e) : e.kind = k := by
  cases k <;> obtain ⟨_, _, rfl⟩ := Option.map_eq_some_iff.1 h <;> rfl

theorem has_iff : s.has k id = true ↔ ∃ e, s.get? k id = some e := by
  rw [has, Option.isSome_iff_exists]

theorem has_of_get? (h : s.get? k id = some e) : s.has k id = true := has_iff.2 ⟨e, h⟩

theorem get?_eq_none_of_has (h : s.has k id = false) : s.get? k id = none := by
  rw [has] at h
  exact Option.isSome_eq_false_iff.1 h |> Option.isNone_iff_eq_none.1

theorem get?_node {n : Node} : s.get? .node id = some (.node n) ↔ s.nodes.find? id = some n := by
  simp [get?]

theorem get?_edge {e : Edge} : s.get? .edge id = some (.edge e) ↔ s.edges.find? id = some e := by
  simp [get?]

theorem get?_row {r : Row} : s.get? .array id = some (.row r) ↔ s.rows.find? id = some r := by
  simp [get?]

theorem get?_pointer {p : Pointer} :
    s.get? .pointer id = some (.pointer p) ↔ s.pointers.find? id = some p := by
  simp [get?]

theorem has_node_iff : s.has .node id = true ↔ ∃ n, s.nodes.find? id = some n := by
  simp [has, get?, Option.isSome_iff_exists]

/-- Scenes in which the same is found are the same. -/
theorem ext_get? (h : ∀ k id, s.get? k id = t.get? k id) : s = t := by
  -- The tables of the two scenes are the same kind by kind.
  have hmap : ∀ {α : Type} {f : α → Entity} {a b : Table EntityId α}, Function.Injective f →
      (∀ id, (a.find? id).map f = (b.find? id).map f) → a = b := fun hf hab =>
    Table.ext_find? fun id => Option.map_injective hf (hab id)
  obtain ⟨n, e, r, p, l, c⟩ := s
  obtain ⟨n', e', r', p', l', c'⟩ := t
  obtain rfl : n = n' := hmap (fun _ _ h => Entity.node.inj h) (h .node)
  obtain rfl : e = e' := hmap (fun _ _ h => Entity.edge.inj h) (h .edge)
  obtain rfl : r = r' := hmap (fun _ _ h => Entity.row.inj h) (h .array)
  obtain rfl : p = p' := hmap (fun _ _ h => Entity.pointer.inj h) (h .pointer)
  obtain rfl : l = l' := hmap (fun _ _ h => Entity.label.inj h) (h .label)
  obtain rfl : c = c' := hmap (fun _ _ h => Entity.callout.inj h) (h .callout)
  rfl

/-! ### What changes -/

theorem get?_put (s : Scene) (e : Entity) (k : Kind) (id : EntityId) :
    (s.put e).get? k id = if k = e.kind ∧ id = e.id then some e else s.get? k id := by
  cases e <;> cases k <;>
    simp only [put, get?, Entity.kind, Entity.id, Table.find?_insert, reduceCtorEq, false_and,
      true_and, if_false] <;>
    split <;> rfl

theorem get?_erase (s : Scene) (j : Kind) (i : EntityId) (k : Kind) (id : EntityId) :
    (s.erase j i).get? k id = if k = j ∧ id = i then none else s.get? k id := by
  cases j <;> cases k <;>
    simp only [erase, get?, Table.find?_erase, reduceCtorEq, false_and, true_and, if_false] <;>
    split <;> rfl

theorem get?_modifyNode (s : Scene) (i : EntityId) (f : Node → Node) (k : Kind) (id : EntityId) :
    (s.modifyNode i f).get? k id =
      if k = .node ∧ id = i then (s.nodes.find? i).map fun n => .node (f n) else s.get? k id := by
  cases k <;>
    simp only [modifyNode, get?, Table.find?_modify, reduceCtorEq, false_and, true_and, if_false]
  split
  · next h => rw [h, Option.map_map]; rfl
  · rfl

theorem get?_modifyRow (s : Scene) (i : EntityId) (f : Row → Row) (k : Kind) (id : EntityId) :
    (s.modifyRow i f).get? k id =
      if k = .array ∧ id = i then (s.rows.find? i).map fun r => .row (f r) else s.get? k id := by
  cases k <;>
    simp only [modifyRow, get?, Table.find?_modify, reduceCtorEq, false_and, true_and, if_false]
  split
  · next h => rw [h, Option.map_map]; rfl
  · rfl

theorem has_modifyNode (s : Scene) (i : EntityId) (f : Node → Node) (k : Kind) (id : EntityId) :
    (s.modifyNode i f).has k id = s.has k id := by
  rw [has, get?_modifyNode]
  split
  · next h => simp [h, has, get?]
  · rfl

theorem has_modifyRow (s : Scene) (i : EntityId) (f : Row → Row) (k : Kind) (id : EntityId) :
    (s.modifyRow i f).has k id = s.has k id := by
  rw [has, get?_modifyRow]
  split
  · next h => simp [h, has, get?]
  · rfl

/-! ### One kind for every identifier -/

/-- No identifier is held by two kinds. -/
def Exclusive (s : Scene) : Prop :=
  ∀ j k id, s.has j id = true → s.has k id = true → j = k

/-- Everything is kept under its own identifier. -/
def Keyed (s : Scene) : Prop :=
  ∀ k id e, s.get? k id = some e → e.id = id

theorem kindOf?_eq_none : s.kindOf? id = none ↔ ∀ k, s.has k id = false := by
  simp only [kindOf?, List.find?_eq_none, Bool.not_eq_true]
  exact ⟨fun h k => h k (by cases k <;> decide), fun h k _ => h k⟩

theorem has_of_kindOf? (h : s.kindOf? id = some k) : s.has k id = true := by
  have := List.find?_some (p := fun k => s.has k id) h
  exact this

theorem kindOf?_eq_some (hs : s.Exclusive) : s.kindOf? id = some k ↔ s.has k id = true := by
  constructor
  · exact has_of_kindOf?
  · intro h
    cases hj : s.kindOf? id with
    | none => rw [kindOf?_eq_none.1 hj k] at h; cases h
    | some j => rw [hs j k id (has_of_kindOf? hj) h]

/-- A thing is only put where nothing of another kind is. -/
theorem insert_eq_ok (hs : s.Exclusive) (h : s.insert e = .ok t) :
    t = s.put e ∧ ∀ k, s.has k e.id = true → k = e.kind := by
  unfold insert at h
  split at h
  · next held hheld =>
    split at h
    · next heq =>
      refine ⟨(Except.ok.inj h).symm, fun k hk => ?_⟩
      rw [← heq]
      exact hs k held e.id hk (has_of_kindOf? hheld)
    · cases h
  · next hnone =>
    refine ⟨(Except.ok.inj h).symm, fun k hk => ?_⟩
    rw [kindOf?_eq_none.1 hnone k] at hk
    cases hk

theorem keyed_empty : Scene.empty.Keyed := by
  intro k id e h
  simp at h

theorem Keyed.put (hs : s.Keyed) (e : Entity) : (s.put e).Keyed := by
  intro k id e' h
  rw [get?_put] at h
  split at h
  · next hk => rw [← Option.some.inj h, hk.2]
  · exact hs k id e' h

theorem Keyed.erase (hs : s.Keyed) (k : Kind) (id : EntityId) : (s.erase k id).Keyed := by
  intro k' id' e h
  rw [get?_erase] at h
  split at h
  · cases h
  · exact hs k' id' e h

theorem Keyed.modifyNode (hs : s.Keyed) {f : Node → Node} (hf : ∀ n, (f n).id = n.id) :
    (s.modifyNode i f).Keyed := by
  intro k id e h
  rw [get?_modifyNode] at h
  split at h
  · next hk =>
    obtain ⟨n, hn, rfl⟩ := Option.map_eq_some_iff.1 h
    rw [hk.2]
    exact (hf n).trans (hs .node i _ (get?_node.2 hn))
  · exact hs k id e h

theorem Keyed.modifyRow (hs : s.Keyed) {f : Row → Row} (hf : ∀ r, (f r).id = r.id) :
    (s.modifyRow i f).Keyed := by
  intro k id e h
  rw [get?_modifyRow] at h
  split at h
  · next hk =>
    obtain ⟨r, hr, rfl⟩ := Option.map_eq_some_iff.1 h
    rw [hk.2]
    exact (hf r).trans (hs .array i _ (get?_row.2 hr))
  · exact hs k id e h

/-- The edges that touch a node are those in the scene with the node at either end. -/
theorem mem_edgesTouching (hs : s.Keyed) :
    i ∈ s.edgesTouching id ↔ ∃ e, s.edges.find? i = some e ∧ (e.source = id ∨ e.target = id) := by
  simp only [edgesTouching, List.mem_map, List.mem_filter, Table.mem_values_iff, Bool.or_eq_true,
    decide_eq_true_eq]
  constructor
  · rintro ⟨e, ⟨⟨i', he⟩, hend⟩, rfl⟩
    have hid : e.id = i' := hs .edge i' _ (get?_edge.2 he)
    exact ⟨e, hid ▸ he, hend⟩
  · rintro ⟨e, he, hend⟩
    exact ⟨e, ⟨⟨i, he⟩, hend⟩, hs .edge i _ (get?_edge.2 he)⟩

end Storyboard.Scene
