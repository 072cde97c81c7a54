import Storyboard.Proofs.Scene.Lookup
import Storyboard.Scene.Operation

/-! # A scene as one map

    A scene keeps six tables, but an identifier belongs to one thing at a
    time, so the tables together are one map from identifiers to things. A
    `Register` is such a map, of which the same can be asked as of a scene.
    What an operation answers and what it leaves are the same for both
    (`Holds.perform`), so whatever operations are made of an empty scene, it
    answers every question as a register does (`represents_after`). -/

namespace Storyboard

/-- Everything there is, each thing under its identifier. -/
abbrev Register := Table EntityId Entity

/-! ### Things of all kinds -/

namespace Entity

variable {k : Kind} {f : k.Thing → k.Thing}

/-- Whether it is an edge that starts or ends at a node. -/
def touches (id : EntityId) : Entity → Bool
  | .edge e => e.source = id || e.target = id
  | _ => false

theorem kind_of_touches {id : EntityId} {e : Entity} (h : e.touches id = true) : e.kind = .edge := by
  cases e with
  | edge e => rfl
  | _ => cases h

@[simp] theorem kind_change (f : k.Thing → k.Thing) (e : Entity) : (e.change k f).kind = e.kind := by
  cases k <;> cases e <;> rfl

/-- Only things of the kind are changed. -/
theorem change_of_ne {e : Entity} (h : e.kind ≠ k) (f : k.Thing → k.Thing) : e.change k f = e := by
  fun_cases change k f e with
  | case7 => rfl
  | _ => exact absurd rfl h

theorem id_change (hkeeps : ∀ x, (ofKind k (f x)).id = (ofKind k x).id) (e : Entity) :
    (e.change k f).id = e.id := by
  fun_cases change k f e with
  | case7 => rfl
  | _ => exact hkeeps _

end Entity

/-! ### Registers -/

namespace Register

variable {t : Register} {k : Kind} {id : EntityId} {e : Entity}

/-- The kind of the thing under an identifier. -/
def kindOf? (t : Register) (id : EntityId) : Option Kind := (t.find? id).map (·.kind)

/-- The thing under an identifier, if it is of this kind. -/
def get? (t : Register) (k : Kind) (id : EntityId) : Option Entity :=
  (t.find? id).filter (·.kind = k)

/-- Whether the thing under an identifier is of this kind. -/
def has (t : Register) (k : Kind) (id : EntityId) : Bool := t.kindOf? id = some k

/-- All things of a kind, in the order of their identifiers. -/
def all (t : Register) (k : Kind) : List Entity := t.values.filter (·.kind = k)

/-- The edges that start or end at a node, in order. -/
def edgesTouching (t : Register) (id : EntityId) : List EntityId :=
  (t.values.filter (·.touches id)).map (·.id)

/-- Do what is asked. A thing is not put in the place of one of another kind, and one of another
    kind is neither removed nor changed. -/
def perform (t : Register) : Scene.Operation → Register × Except Clash (Option Entity)
  | .insert e =>
    match t.find? e.id with
    | none => (t.insert e.id e, .ok none)
    | some held =>
      if held.kind = e.kind then (t.insert e.id e, .ok (some held))
      else (t, .error ⟨e.id, held.kind, e.kind⟩)
  | .erase k id => if t.has k id then (t.erase id, .ok (t.get? k id)) else (t, .ok none)
  | .modify k id f _ => (Table.modify t id (Entity.change k f), .ok (t.get? k id))
  | .reset => (∅, .ok none)

/-- The register after some operations. -/
def afterAll (t : Register) (operations : List Scene.Operation) : Register :=
  operations.foldl (fun t o => (t.perform o).1) t

theorem get?_eq_some : t.get? k id = some e ↔ t.find? id = some e ∧ e.kind = k := by
  simp [get?, Option.filter_eq_some_iff]

theorem has_iff : t.has k id = true ↔ ∃ e, t.find? id = some e ∧ e.kind = k := by
  simp [has, kindOf?]

theorem has_eq_isSome : t.has k id = (t.get? k id).isSome := by
  rw [Bool.eq_iff_iff, has_iff, Option.isSome_iff_exists]
  simp only [get?_eq_some]

end Register

/-! ### A scene and its register -/

namespace Scene

variable {s : Scene} {t : Register} {k : Kind} {id : EntityId} {e : Entity}

/-- A scene and a register hold the same things, each under its own identifier. -/
structure Holds (s : Scene) (t : Register) : Prop where
  get?  : ∀ k id, s.get? k id = t.get? k id
  keyed : ∀ id e, t.find? id = some e → e.id = id

theorem holds_empty : Scene.empty.Holds ∅ where
  get? _ _ := get?_empty
  keyed _ _ h := nomatch h

theorem get?_modify (s : Scene) (j : Kind) (i : EntityId) (f : j.Thing → j.Thing) (k : Kind)
    (id : EntityId) : (s.modify j i f).get? k id =
      if k = j ∧ id = i then (s.get? k id).map (Entity.change j f) else s.get? k id := by
  have hmap : ∀ {α : Type} (u : Table EntityId α) (g : α → α) (c : α → Entity),
      (∀ x, c (g x) = (c x).change j f) → ((u.modify i g).find? id).map c =
        if id = i then ((u.find? id).map c).map (Entity.change j f) else (u.find? id).map c := by
    intro α u g c hc
    rw [Table.find?_modify]
    split
    · rw [Option.map_map, Option.map_map]
      exact congrArg (Option.map · _) (funext hc)
    · rfl
  cases j <;> cases k <;>
    simp only [modify, modifyNode, modifyRow, Scene.get?, reduceCtorEq, false_and, true_and,
      if_false] <;>
    exact hmap _ _ _ fun _ => rfl

namespace Holds

theorem has (h : s.Holds t) (k : Kind) (id : EntityId) : s.has k id = t.has k id := by
  rw [Scene.has, h.get?, Register.has_eq_isSome]

theorem exclusive (h : s.Holds t) : s.Exclusive := by
  intro j k id hj hk
  rw [h.has, Register.has_iff] at hj hk
  obtain ⟨e, hfind, rfl⟩ := hj
  obtain ⟨e', hfind', rfl⟩ := hk
  rw [hfind] at hfind'
  rw [Option.some.inj hfind']

theorem scene_keyed (h : s.Holds t) : s.Keyed := by
  intro k id e he
  rw [h.get?, Register.get?_eq_some] at he
  exact h.keyed id e he.1

theorem kindOf? (h : s.Holds t) (id : EntityId) : s.kindOf? id = t.kindOf? id := by
  apply Option.ext
  intro k
  rw [kindOf?_eq_some h.exclusive, h.has, Register.has, decide_eq_true_eq]

/-! #### What is found after an operation -/

/-- A thing may be put where nothing of another kind is. -/
theorem put (h : s.Holds t) (hfree : ∀ held, t.find? e.id = some held → held.kind = e.kind) :
    (s.put e).Holds (t.insert e.id e) where
  get? k id := by
    rw [get?_put, Register.get?, Table.find?_insert]
    by_cases hid : id = e.id
    · subst hid
      by_cases hk : e.kind = k
      · simp [Option.filter, hk]
      · -- What was there is of the kind of the new thing, so nothing of another kind is found.
        have hnone : s.get? k e.id = none := by
          rw [h.get?, Option.eq_none_iff_forall_ne_some]
          intro held hheld
          rw [Register.get?_eq_some] at hheld
          exact hk ((hfree held hheld.1).symm.trans hheld.2)
        simp [Option.filter, hk, Ne.symm hk, hnone]
    · simp only [hid, and_false, if_false]
      exact h.get? k id
  keyed id e' he' := by
    rw [Table.find?_insert] at he'
    split at he'
    · next hid =>
      rw [← Option.some.inj he', hid]
    · exact h.keyed id e' he'

theorem erase (h : s.Holds t) (hhas : t.has k id = true) : (s.erase k id).Holds (t.erase id) where
  get? k' id' := by
    rw [get?_erase, Register.get?, Table.find?_erase]
    by_cases hid : id' = id
    · subst hid
      by_cases hk : k' = k
      · simp [hk]
      · have hnone : s.has k' id' = false := by
          rw [Bool.eq_false_iff]
          intro hk'
          exact hk (h.exclusive k' k id' hk' (h.has k id' ▸ hhas))
        simp [hk, get?_eq_none_of_has hnone]
    · simp only [hid, and_false, if_false]
      exact h.get? k' id'
  keyed id' e he := by
    rw [Table.find?_erase] at he
    split at he
    · cases he
    · exact h.keyed id' e he

/-- Nothing is removed where there is nothing of the kind. -/
theorem erase_of_not_has (h : s.Holds t) (hhas : t.has k id = false) : (s.erase k id).Holds t where
  get? k' id' := by
    rw [get?_erase]
    split
    · next heq =>
      rw [heq.1, heq.2, ← h.get?]
      exact (get?_eq_none_of_has ((h.has k id).trans hhas)).symm
    · exact h.get? k' id'
  keyed := h.keyed

theorem modify (h : s.Holds t) (id : EntityId) {f : k.Thing → k.Thing}
    (hkeeps : ∀ x, (Entity.ofKind k (f x)).id = (Entity.ofKind k x).id) :
    (s.modify k id f).Holds (Table.modify t id (Entity.change k f)) where
  get? k' id' := by
    rw [get?_modify, Register.get?, Table.find?_modify, h.get?, Register.get?]
    -- A thing of another kind under the id is left alone, on both sides.
    by_cases hid : id' = id
    · simp only [hid, and_true, if_true]
      cases t.find? id with
      | none => simp
      | some e =>
        by_cases hk : k' = k
        · by_cases he : e.kind = k' <;> simp [Option.filter, he, hk.symm]
        · by_cases he : e.kind = k'
          · have hsame : e.change k f = e := Entity.change_of_ne (fun hek => hk (he ▸ hek)) f
            simp [hk, hsame]
          · simp [Option.filter, he, hk]
    · simp only [hid, and_false, if_false]
  keyed id' e he := by
    rw [Table.find?_modify] at he
    split at he
    · obtain ⟨e', he', rfl⟩ := Option.map_eq_some_iff.1 he
      rw [Entity.id_change hkeeps]
      exact h.keyed id' e' he'
    · exact h.keyed id' e he

/-- The same operation of a scene and of its register is answered alike, and they hold the same
    things afterwards. -/
theorem perform (h : s.Holds t) (o : Operation) :
    (s.perform o).2 = (t.perform o).2 ∧ (s.perform o).1.Holds (t.perform o).1 := by
  cases o with
  | insert e =>
    have hkind := h.kindOf? e.id
    have hget := h.get? e.kind e.id
    unfold Scene.perform Register.perform Scene.insert
    unfold Register.kindOf? at hkind
    unfold Register.get? at hget
    dsimp only
    rw [hkind]
    -- An id that is free is taken, one that is held by the same kind is replaced, another is
    -- refused.
    cases hfind : t.find? e.id with
    | none =>
      rw [hfind] at hget
      refine ⟨congrArg Except.ok hget, h.put ?_⟩
      intro held hheld
      rw [hfind] at hheld
      cases hheld
    | some held =>
      rw [hfind] at hget
      dsimp only [Option.map_some]
      by_cases hsame : held.kind = e.kind
      · rw [if_pos hsame, if_pos hsame]
        refine ⟨congrArg Except.ok (hget.trans (by simp [hsame])), h.put ?_⟩
        intro held' hheld'
        rw [hfind] at hheld'
        rw [← Option.some.inj hheld']
        exact hsame
      · rw [if_neg hsame, if_neg hsame]
        exact ⟨rfl, h⟩
  | erase k id =>
    unfold Scene.perform Register.perform
    dsimp only
    cases hhas : t.has k id with
    | true => exact ⟨congrArg Except.ok (h.get? k id), h.erase hhas⟩
    | false =>
      have hnone := get?_eq_none_of_has ((h.has k id).trans hhas)
      exact ⟨congrArg Except.ok hnone, h.erase_of_not_has hhas⟩
  | modify k id f hkeeps => exact ⟨congrArg Except.ok (h.get? k id), h.modify id hkeeps⟩
  | reset => exact ⟨rfl, holds_empty⟩

theorem afterAll (h : s.Holds t) (operations : List Operation) :
    (s.afterAll operations).Holds (t.afterAll operations) := by
  induction operations generalizing s t with
  | nil => exact h
  | cons o operations ih => exact ih (h.perform o).2

end Holds

end Scene

/-! ### Questions -/

namespace Register

variable {t : Register}

theorem keys_ordered (t : Register) : t.keys.Pairwise fun a b => compare a b = .lt :=
  List.pairwise_map.2 t.sorted

theorem values_eq (t : Register) : t.values = t.keys.filterMap t.find? := by
  refine Table.values_eq_filterMap t.keys_ordered fun k v h => ?_
  exact List.mem_map_of_mem (f := (·.1)) (Table.mem_entries_of_find? h)

theorem all_eq (t : Register) (k : Kind) : t.all k = t.keys.filterMap (t.get? k) := by
  rw [all, values_eq, List.filter_filterMap]
  rfl

/-- Every thing is of one kind, so the kinds together make up everything. -/
theorem sum_count (l : List Entity) :
    Kind.all.foldr (fun k n => (l.filter (·.kind = k)).length + n) 0 = l.length := by
  induction l with
  | nil => rfl
  | cons e l ih =>
    simp only [Kind.all, List.foldr_cons, List.foldr_nil, List.filter_cons] at ih ⊢
    cases e.kind <;> simp only [reduceCtorEq, decide_false, decide_true, Bool.false_eq_true,
      if_false, if_true, List.length_cons] <;> omega

theorem values_ordered (h : ∀ id e, t.find? id = some e → e.id = id) :
    t.values.Pairwise fun a b => compare a.id b.id = .lt := by
  have hentry : ∀ x ∈ t.entries, x.2.id = x.1 := fun x hx =>
    h x.1 x.2 (Table.find?_of_mem_entries hx)
  refine List.pairwise_map.2 (t.sorted.imp_of_mem fun {a b} ha hb hab => ?_)
  rw [hentry a ha, hentry b hb]
  exact hab

theorem mem_edgesTouching (h : ∀ id e, t.find? id = some e → e.id = id) {i id : EntityId} :
    i ∈ t.edgesTouching id ↔
      ∃ e : Edge, t.find? i = some (.edge e) ∧ (e.source = id ∨ e.target = id) := by
  simp only [edgesTouching, List.mem_map, List.mem_filter, Table.mem_values_iff]
  constructor
  · rintro ⟨e, ⟨⟨i', he⟩, htouches⟩, rfl⟩
    rw [← h i' e he] at he
    cases e with
    | edge e => exact ⟨e, he, by simpa [Entity.touches] using htouches⟩
    | _ => cases htouches
  · rintro ⟨e, he, hend⟩
    exact ⟨.edge e, ⟨⟨i, he⟩, by simpa [Entity.touches] using hend⟩, h i _ he⟩

end Register

namespace Scene

variable {s : Scene} {t : Register}

theorem all_eq_filterMap {k : Kind} {ids : List EntityId}
    (hids : ids.Pairwise fun a b => compare a b = .lt)
    (hall : ∀ id e, s.get? k id = some e → id ∈ ids) : s.all k = ids.filterMap (s.get? k) := by
  have hmap : ∀ {α : Type} (u : Table EntityId α) (c : α → Entity),
      (∀ id x, u.find? id = some x → id ∈ ids) →
        u.values.map c = ids.filterMap fun id => (u.find? id).map c := by
    intro α u c hu
    rw [Table.values_eq_filterMap hids hu, List.map_filterMap]
  have hfound : ∀ {α : Type} {u : Table EntityId α} {c : α → Entity} {id : EntityId} {x : α},
      u.find? id = some x → (u.find? id).map c = some (c x) := fun hx => by
    rw [hx, Option.map_some]
  cases k <;> exact hmap _ _ fun id x hx => hall id _ (hfound hx)

theorem edgesTouching_eq (s : Scene) (id : EntityId) :
    s.edgesTouching id = ((s.all .edge).filter (·.touches id)).map (·.id) := by
  rw [all, List.filter_map, List.map_map]
  rfl

namespace Holds

theorem all (h : s.Holds t) (k : Kind) : s.all k = t.all k := by
  have hget : s.get? k = t.get? k := funext (h.get? k)
  rw [t.all_eq, ← hget]
  refine all_eq_filterMap t.keys_ordered fun id e he => ?_
  rw [h.get?, Register.get?_eq_some] at he
  exact List.mem_map_of_mem (f := (·.1)) (Table.mem_entries_of_find? he.1)

theorem size (h : s.Holds t) : s.size = t.size := by
  have hcount : ∀ k, s.count k = (t.values.filter (·.kind = k)).length := fun k =>
    congrArg List.length (h.all k)
  unfold Scene.size
  simp only [hcount]
  rw [Register.sum_count]
  exact List.length_map _

theorem edgesTouching (h : s.Holds t) (id : EntityId) :
    s.edgesTouching id = t.edgesTouching id := by
  rw [edgesTouching_eq, h.all, Register.all, List.filter_filter, Register.edgesTouching]
  -- What touches a node is an edge.
  congr 2
  funext e
  cases htouches : e.touches id with
  | false => rfl
  | true => simp [Entity.kind_of_touches htouches]

end Holds

/-- A scene answers every question as a register does. -/
structure Represents (s : Scene) (t : Register) : Prop where
  /-- No identifier is in two tables. -/
  one_table : ∀ j k id, s.has j id = true → s.has k id = true → j = k
  /-- Everything is in its table under its own identifier. -/
  own_id : ∀ k id e, s.get? k id = some e → e.id = id
  kindOf? : ∀ id, s.kindOf? id = t.kindOf? id
  get? : ∀ k id, s.get? k id = t.get? k id
  has : ∀ k id, s.has k id = t.has k id
  all : ∀ k, s.all k = t.all k
  all_ordered : ∀ k, (s.all k).Pairwise fun a b => compare a.id b.id = .lt
  count : ∀ k, s.count k = (t.all k).length
  size : s.size = t.size
  isEmpty : s.isEmpty = true ↔ t = ∅
  edgesTouching : ∀ id, s.edgesTouching id = t.edgesTouching id
  /-- Every edge is listed once, in order. -/
  edgesTouching_ordered : ∀ id, (s.edgesTouching id).Pairwise fun a b => compare a b = .lt
  mem_edgesTouching : ∀ i id, i ∈ s.edgesTouching id ↔
    ∃ e : Edge, t.find? i = some (.edge e) ∧ (e.source = id ∨ e.target = id)

theorem Holds.represents (h : s.Holds t) : s.Represents t where
  one_table := h.exclusive
  own_id := h.scene_keyed
  kindOf? := h.kindOf?
  get? := h.get?
  has := h.has
  all := h.all
  all_ordered k := by
    rw [h.all]
    exact (Register.values_ordered h.keyed).filter _
  count k := congrArg List.length (h.all k)
  size := h.size
  isEmpty := by
    rw [isEmpty, h.size, beq_iff_eq]
    exact List.length_eq_zero_iff.trans ⟨fun hnil => Table.ext hnil, fun heq => heq ▸ rfl⟩
  edgesTouching := h.edgesTouching
  edgesTouching_ordered id := by
    rw [h.edgesTouching]
    exact List.pairwise_map.2 ((Register.values_ordered h.keyed).filter _)
  mem_edgesTouching i id := by
    rw [h.edgesTouching]
    exact Register.mem_edgesTouching h.keyed

/-- Whatever operations are made of an empty scene, it is one map: it answers every question, and
    every operation that may follow, as the register does of which the same operations are made.
    An insertion is refused exactly if its identifier belongs to a thing of another kind, and then
    the scene stays as it is. -/
theorem represents_after (operations : List Operation) :
    let s := Scene.empty.afterAll operations
    let t := Register.afterAll ∅ operations
    s.Represents t ∧
      (∀ o, (s.perform o).2 = (t.perform o).2 ∧
        (s.perform o).1.Represents (t.perform o).1) ∧
      (∀ e, (s.perform (.insert e)).2.isOk = false ↔
        ∃ held, t.find? e.id = some held ∧ held.kind ≠ e.kind) ∧
      ∀ o c, (s.perform o).2 = .error c → (s.perform o).1 = s := by
  intro s t
  -- The scene and its register hold the same things all along, so all questions are the register's.
  have hholds : s.Holds t := holds_empty.afterAll operations
  refine ⟨hholds.represents, fun o => ?_, fun e => ?_, fun o c hc => ?_⟩
  · obtain ⟨hanswer, hafter⟩ := hholds.perform o
    exact ⟨hanswer, hafter.represents⟩
  · rw [(hholds.perform (.insert e)).1]
    unfold Register.perform
    dsimp only
    cases t.find? e.id with
    | none => simp [Except.isOk, Except.toBool]
    | some held =>
      by_cases hsame : held.kind = e.kind <;> simp [hsame, Except.isOk, Except.toBool]
  · cases o with
    | insert e =>
      unfold perform at hc ⊢
      dsimp only at hc ⊢
      split at hc
      · cases hc
      · rfl
    | _ => cases hc

end Scene

end Storyboard
