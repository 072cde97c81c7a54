import Storyboard.Proofs.Stage.Acts
import Storyboard.Proofs.Stage.Execution
import Storyboard.Proofs.Stage.Likeness

/-! # Commands told twice

    Commands that are performed alone leave the same behind whenever they are
    performed and in either pacing, with one exception: an edge of which one
    end is moved and one end is deleted by the same commands (`Torn`). Whether
    the edge follows its end before it loses it depends on which of the two
    waits is the shorter.

    What is told in this module: once all commands are opened, things stay or
    go and are drawn by the acts that are left (`lasts_of_acted`). So stages
    that were alike when the commands began are alike when they are through
    (`Alike.performed`). -/

namespace Storyboard

namespace Stage

variable {A : Set Act} {s s' s'' : Stage} {now : Nat} {a : Act}

/-! ### Acts alone -/

/-- What comes of acts out of a set: nothing enters, only what an act finishes is gone, and a thing
    that is still seen looks as it did or as one of the acts drew it. -/
structure Lasts (A : Set Act) (s s' : Stage) : Prop where
  neat         : s'.Neat
  incarnations : s'.presenter.incarnations = s.presenter.incarnations
  within       : s'.scene.Within s.scene
  gone         : ∀ k id e, s.scene.get? k id = some e → s'.scene.get? k id = none →
    ∃ ticket, .finishExit ticket k id ∈ A
  seen         : ∀ id v', s'.presenter.sight? id = some v' →
    ∃ v, s.presenter.sight? id = some v ∧ v'.status = v.status ∧ (v'.figure = v.figure ∨
      ∃ a ∈ A, ∃ t : Scene, t.Within s.scene ∧ a.figure? t id = some v'.figure)

theorem Lasts.refl (h : s.Neat) : Lasts A s s :=
  ⟨h, rfl, s.scene.within_refl, fun _ _ _ he hnone => (nomatch he.symm.trans hnone),
    fun _ v hv => ⟨v, hv, rfl, .inl rfl⟩⟩

theorem Lasts.trans (h : Lasts A s s') (h' : Lasts A s' s'') : Lasts A s s'' := by
  refine ⟨h'.neat, h'.incarnations.trans h.incarnations, h.within.trans h'.within, ?_, ?_⟩
  · intro k id e he hnone
    cases hmid : s'.scene.get? k id with
    | none => exact h.gone k id e he hmid
    | some e' => exact h'.gone k id e' hmid hnone
  · intro id v'' hv''
    obtain ⟨v', hv', hstatus', hfigure'⟩ := h'.seen id v'' hv''
    obtain ⟨v, hv, hstatus, hfigure⟩ := h.seen id v' hv'
    refine ⟨v, hv, hstatus'.trans hstatus, ?_⟩
    rcases hfigure' with hsame | ⟨a, ha, t, ht, hdrawn⟩
    · rw [hsame]
      exact hfigure
    · exact .inr ⟨a, ha, t, h.within.trans ht, hdrawn⟩

theorem lasts_perform (h : s.Neat) (ha : a ∈ A) (now : Nat) : Lasts A s (s.perform now a) := by
  have hneat := h.perform now a
  -- Only the end of an exit takes something away, and it takes nothing but the thing that leaves.
  -- Every other act redraws at most, and what is shown stays shown.
  by_cases hexit : a.IsExit
  · cases a with
    | finishExit ticket k id =>
      change Lasts A s (s.finishExit now ticket k id)
      change (s.finishExit now ticket k id).Neat at hneat
      unfold Stage.finishExit at hneat ⊢
      by_cases hmatch : ∃ v, s.presenter.sight? ticket.id = some v ∧
          v.incarnation = ticket.incarnation
      · obtain ⟨v, hv, heq⟩ := hmatch
        rw [Presenter.finishExit_of_match hv heq] at hneat ⊢
        obtain ⟨_, hsight⟩ := Presenter.sound_discard h.sound now ticket.id
        refine ⟨hneat, Presenter.discard_incarnations .., ?_, ?_, ?_⟩
        · intro k' j e he
          dsimp only at he
          rw [Scene.get?_erase] at he
          split at he
          · cases he
          · exact he
        · intro k' j e he hnone
          dsimp only at hnone
          rw [Scene.get?_erase] at hnone
          split at hnone
          · next hj =>
            obtain ⟨rfl, rfl⟩ := hj
            exact ⟨ticket, ha⟩
          · rw [he] at hnone
            cases hnone
        · intro j v' hv'
          dsimp only at hv'
          rw [hsight] at hv'
          split at hv'
          · cases hv'
          · exact ⟨v', hv', rfl, .inl rfl⟩
      · -- The id was shown once more after the exit began, so the end of the exit is void.
        rw [Presenter.finishExit_of_stale h.sound fun v hv heq => hmatch ⟨v, hv, heq⟩] at hneat ⊢
        exact .refl h
    | _ => cases hexit
  · have hd := perform_redraws h.sound h.keyed now hexit
    refine ⟨hneat, hd.incarnations, ?_, ?_, ?_⟩
    · rw [hd.scene]
      exact s.scene.within_refl
    · intro k id e he hnone
      rw [hd.scene, he] at hnone
      cases hnone
    · intro id v' hv'
      rw [hd.sight] at hv'
      cases hf : a.figure? s.scene id with
      | none =>
        rw [hf] at hv'
        exact ⟨v', hv', rfl, .inl rfl⟩
      | some f =>
        rw [hf] at hv'
        obtain ⟨v, hv, rfl⟩ := Option.map_eq_some_iff.1 hv'
        refine ⟨v, hv, Sight.status_redrawn f v, ?_⟩
        unfold Sight.redrawn
        split
        · exact .inl rfl
        · exact .inr ⟨a, ha, s.scene, s.scene.within_refl, hf⟩

/-- What comes of acts, by induction on them. -/
theorem lasts_of_acted (h : Acted A s s') (hs : s.Neat) : Lasts A s s' := by
  induction h with
  | refl => exact .refl hs
  | act now ha _ ih => exact (lasts_perform hs ha now).trans (ih (hs.perform now _))

/-! ### Commands alone -/

variable {commands : List Json} {p : Performance}

/-- A performance is its opening and acts that were scheduled by its commands. -/
theorem Performing.acted (h : Performing s commands s' p) :
    (∃ now pacing, Acted (scheduled commands) (Performance.start now pacing s commands).1 s') ∧
      Strand.ActsIn (scheduled commands) p.strands := by
  induction h with
  | start now pacing =>
    exact ⟨⟨now, pacing, .refl⟩, Performance.start_scheduled now pacing s commands⟩
  | resume now _ ih =>
    obtain ⟨⟨start, pacing, hacted⟩, hin⟩ := ih
    obtain ⟨hmore, hin'⟩ := Performance.resume_acted now hin
    exact ⟨⟨start, pacing, hacted.trans hmore⟩, hin'⟩

/-! ### Torn edges -/

/-- Some of the commands are to move a node. -/
def Moves (commands : List Json) (id : EntityId) : Prop :=
  ∃ command ∈ commands, ∃ destination span easing,
    Command.ofJson command = .ok (.moveNode id destination span easing)

/-- Some of the commands are to delete a node. -/
def Deletes (commands : List Json) (id : EntityId) : Prop :=
  ∃ command ∈ commands, Command.ofJson command = .ok (.deleteNode id)

/-- Of the two ends of an edge, commands move one and delete one, be it the same or not. -/
def Torn (commands : List Json) (e : Edge) : Prop :=
  (Moves commands e.source ∨ Moves commands e.target) ∧
    (Deletes commands e.source ∨ Deletes commands e.target)

theorem moves_of_scheduled {id : EntityId} (h : .followNode id ∈ scheduled commands) :
    Moves commands id := by
  obtain ⟨command, hmem, c, hc, destination, span, easing, rfl⟩ := h
  exact ⟨command, hmem, destination, span, easing, hc⟩

/-- Nothing is taken away but nodes and edges. -/
theorem deletes_of_scheduled {ticket : Ticket} {k : Kind} {id : EntityId}
    (h : .finishExit ticket k id ∈ scheduled commands) :
    k = .node ∧ Deletes commands id ∨ k = .edge := by
  obtain ⟨command, hmem, c, hc, ⟨rfl, rfl⟩ | ⟨rfl, _⟩⟩ := h
  · exact .inl ⟨rfl, command, hmem, hc⟩
  · exact .inr rfl

/-! ### Twice the same -/

/-- An edge that has lost an end and was not torn looks as it did when the commands were opened. -/
theorem Lasts.figure_edge (h : Lasts (scheduled commands) s s') (hs : s.Neat) {id : EntityId}
    {e : Edge} {v v' : Sight} (he : s'.scene.edges.find? id = some e)
    (hopen : edgeFigure? s'.scene e = none) (htorn : ¬Torn commands e)
    (hv : s.presenter.sight? id = some v) (hv' : s'.presenter.sight? id = some v') :
    v'.figure = v.figure := by
  obtain ⟨w, hw, _, hfigure⟩ := h.seen id v' hv'
  obtain rfl := Option.some.inj (hw.symm.trans hv)
  rcases hfigure with hsame | ⟨a, ha, t, ht, hdrawn⟩
  · exact hsame
  · have hedge := Scene.get?_edge.1 (h.within _ _ _ (Scene.get?_edge.2 he))
    obtain ⟨hcomplete, hfollows⟩ := Act.figure?_edge ht hs.exclusive hedge hdrawn
    -- The edge followed an end when it had both of them, so it has lost one since.
    have hmoves : Moves commands e.source ∨ Moves commands e.target := by
      rcases hfollows with rfl | rfl
      · exact .inl (moves_of_scheduled ha)
      · exact .inr (moves_of_scheduled ha)
    have hlost : ∀ id, (∃ n, t.nodes.find? id = some n) → s'.scene.nodes.find? id = none →
        Deletes commands id := by
      rintro i ⟨n, hn⟩ hnone
      obtain ⟨ticket, hticket⟩ := h.gone .node i _ (ht _ _ _ (Scene.get?_node.2 hn))
        (by simp [Scene.get?, hnone])
      rcases deletes_of_scheduled hticket with ⟨_, hdeletes⟩ | hkind
      · exact hdeletes
      · cases hkind
    obtain ⟨b, hb, hcomplete⟩ := Option.bind_eq_some_iff.1 hcomplete
    obtain ⟨c, hc, _⟩ := Option.bind_eq_some_iff.1 hcomplete
    refine absurd ⟨hmoves, ?_⟩ htorn
    cases hsource : s'.scene.nodes.find? e.source with
    | none => exact .inl (hlost _ ⟨b, hb⟩ hsource)
    | some n =>
      cases htarget : s'.scene.nodes.find? e.target with
      | none => exact .inr (hlost _ ⟨c, hc⟩ htarget)
      | some m => simp [edgeFigure?, hsource, htarget] at hopen

/-- A pointer that has lost its cell looks as it did when the commands were opened. -/
theorem Lasts.figure_pointer (h : Lasts (scheduled commands) s s') (hs : s.Neat) {id : EntityId}
    {p : Pointer} {v v' : Sight} (hp : s'.scene.pointers.find? id = some p)
    (hopen : s'.scene.figureOf? (.pointer p) = none) (hv : s.presenter.sight? id = some v)
    (hv' : s'.presenter.sight? id = some v') : v'.figure = v.figure := by
  obtain ⟨w, hw, _, hfigure⟩ := h.seen id v' hv'
  obtain rfl := Option.some.inj (hw.symm.trans hv)
  rcases hfigure with hsame | ⟨a, ha, t, ht, hdrawn⟩
  · exact hsame
  · have hpointer := Scene.get?_pointer.1 (h.within _ _ _ (Scene.get?_pointer.2 hp))
    obtain ⟨r, hr, hcell⟩ := Act.figure?_pointer ht hs.exclusive hpointer hdrawn
    have hrow := ht _ _ _ (Scene.get?_row.2 hr)
    -- Rows are never taken away.
    cases hstill : s'.scene.get? .array p.row with
    | none =>
      obtain ⟨ticket, hticket⟩ := h.gone _ _ _ hrow hstill
      rcases deletes_of_scheduled hticket with ⟨hkind, _⟩ | hkind <;> cases hkind
    | some e =>
      rw [h.within _ _ _ hstill] at hrow
      cases hrow
      simp [Scene.figureOf?, Scene.get?_row.1 hstill, hcell] at hopen

/-- A thing that is complete where nothing is owed is drawn as it follows from the scene. -/
theorem Coherent.figure_eq (hs : s.Coherent ∅) {k : Kind} {id : EntityId} {e : Entity} {f : Figure}
    {v : Sight} (he : s.scene.get? k id = some e) (hf : s.scene.figureOf? e = some f)
    (hv : s.presenter.sight? id = some v) : v.figure = f := by
  rcases hs.drawn k id e f v he hf hv (hs.exiting_eq_false hv) with h | ⟨a, ha, _⟩
  · exact h
  · exact ha.elim

variable {base base' : Nat} {lost : Edge → Prop} {t t' : Stage}

/-- On two stages that were alike a thing stayed; nothing is owed any more. -/
theorem Alike.figure_eq (h : Alike base base' lost s s') (hlasts : Lasts (scheduled commands) s t)
    (hlasts' : Lasts (scheduled commands) s' t') (ht : t.Coherent ∅) (ht' : t'.Coherent ∅)
    (hsame : t'.scene = t.scene) {id : EntityId} {v v' w w' : Sight}
    (hv : t.presenter.sight? id = some v) (hv' : t'.presenter.sight? id = some v')
    (hw : s.presenter.sight? id = some w) (hw' : s'.presenter.sight? id = some w')
    (hlike : w.Like base base' (IsEdge s.scene lost id) w') (hstays : w.exiting = false)
    (hkept : ¬IsEdge t.scene (fun e => lost e ∨ Torn commands e) id) : v'.figure = v.figure := by
  obtain ⟨e, he⟩ := Scene.has_iff.1 ((ht.listed v.kind id).2 ⟨v, hv, rfl⟩)
  have hsource := hlasts.within _ _ _ he
  cases hf : t.scene.figureOf? e with
  | some f => rw [ht.figure_eq he hf hv, ht'.figure_eq (hsame ▸ he) (hsame ▸ hf) hv']
  | none =>
    -- What is not complete is an edge or a pointer. It looks as it did at first.
    cases e with
    | edge e =>
      obtain heq := Scene.kind_of_get? he
      rw [← heq] at he hsource
      have hedge := Scene.get?_edge.1 he
      have htorn : ¬Torn commands e := fun htorn => hkept ⟨e, hedge, .inr htorn⟩
      rw [hlasts.figure_edge h.neat hedge hf htorn hw hv,
        hlasts'.figure_edge h.neat' (hsame ▸ hedge) (hsame ▸ hf) htorn hw' hv']
      refine hlike.figure hstays ?_
      rintro ⟨e', he', hlost⟩
      have heq' : e' = e := Option.some.inj (he'.symm.trans (Scene.get?_edge.1 hsource))
      exact hkept ⟨e, hedge, .inl (heq' ▸ hlost)⟩
    | pointer p =>
      obtain heq := Scene.kind_of_get? he
      rw [← heq] at he hsource
      have hpointer := Scene.get?_pointer.1 he
      rw [hlasts.figure_pointer h.neat hpointer hf hw hv,
        hlasts'.figure_pointer h.neat' (hsame ▸ hpointer) (hsame ▸ hf) hw' hv']
      refine hlike.figure hstays ?_
      rintro ⟨e', he', _⟩
      have hkinds := h.neat.exclusive _ _ id (Scene.has_of_get? hsource)
        (Scene.has_of_get? (Scene.get?_edge.2 he'))
      cases hkinds
    | _ => cases hf

/-- Stages that were alike when the commands were opened are alike when nothing is owed any more,
    but for the edges that the commands tear. -/
theorem Alike.lasts (h : Alike base base' lost s s') (hlasts : Lasts (scheduled commands) s t)
    (hlasts' : Lasts (scheduled commands) s' t') (ht : t.Coherent ∅) (ht' : t'.Coherent ∅)
    (hsame : t'.scene = t.scene) :
    Alike base base' (fun e => lost e ∨ Torn commands e) t t' := by
  refine ⟨hlasts.neat, hlasts'.neat, hsame, ?_, fun id => ?_⟩
  · rw [hlasts.incarnations, hlasts'.incarnations]
    exact h.incarnations
  · -- Both stages have the same scene and nothing is owed on them, so the same things are shown.
    -- Each was shown from the beginning, and no act gave it another incarnation.
    cases hv : t.presenter.sight? id with
    | none =>
      cases hv' : t'.presenter.sight? id with
      | none => exact .none
      | some v' =>
        have hhas := (ht'.listed v'.kind id).2 ⟨v', hv', rfl⟩
        rw [hsame, ht.listed, hv] at hhas
        obtain ⟨_, ⟨⟩, _⟩ := hhas
    | some v =>
      have hhas := (ht.listed v.kind id).2 ⟨v, hv, rfl⟩
      rw [← hsame, ht'.listed] at hhas
      obtain ⟨v', hv', hkind⟩ := hhas
      rw [hv']
      obtain ⟨w, hw, hstatus, _⟩ := hlasts.seen id v hv
      obtain ⟨w', hw', hstatus', _⟩ := hlasts'.seen id v' hv'
      obtain ⟨_, hinc, hexiting⟩ := Sight.status_eq_iff.1 hstatus
      obtain ⟨_, hinc', _⟩ := Sight.status_eq_iff.1 hstatus'
      have hx : v.exiting = false := ht.exiting_eq_false hv
      have hx' : v'.exiting = false := ht'.exiting_eq_false hv'
      have hrel := h.sights id
      rw [hw, hw'] at hrel
      cases hrel with
      | some hlike =>
        refine .some ⟨hkind, hx'.trans hx.symm, ?_, fun _ hkept => ?_⟩
        · rw [hinc, hinc']
          exact hlike.incarnation
        · exact h.figure_eq hlasts hlasts' ht ht' hsame hv hv' hw hw' hlike
            (hexiting.symm.trans hx) hkept

/-- Commands that are told twice, on stages that were alike, leave them alike but for the edges
    that they tear. -/
theorem Alike.performed (h : Alike base base' lost s s') (hs : s.Coherent ∅) (hs' : s'.Coherent ∅)
    (hp : Performed s commands t) (hp' : Performed s' commands t') :
    Alike base base' (fun e => lost e ∨ Torn commands e) t t' := by
  obtain ⟨p, hperforming, hover⟩ := hp
  obtain ⟨p', hperforming', hover'⟩ := hp'
  obtain ⟨⟨start, pacing, hacted⟩, _⟩ := hperforming.acted
  obtain ⟨⟨start', pacing', hacted'⟩, _⟩ := hperforming'.acted
  obtain ⟨ht, hscene⟩ := (hperforming.settling hs).over hover
  obtain ⟨ht', hscene'⟩ := (hperforming'.settling hs').over hover'
  -- The commands are opened alike; then things stay or go on each stage by itself.
  have hopened := h.startAll hs start start' pacing pacing' commands
  exact hopened.lasts (lasts_of_acted hacted hopened.neat)
    (lasts_of_acted hacted' hopened.neat') ht ht' (by rw [hscene', hscene, h.scene])

/-! ### Lists of commands told twice -/

/-- Nothing is there and nothing is drawn. -/
structure Blank (s : Stage) : Prop where
  scene : s.scene = .empty
  live  : s.presenter.live = .empty
  items : s.presenter.canvas.items = .empty

/-- Lists of commands were performed on a blank stage, one after another, each alone. -/
inductive Staged : List (List Json) → Stage → Prop
  | blank {s : Stage} (h : s.Blank) : Staged [] s
  | snoc {lists : List (List Json)} {commands : List Json} {s t : Stage} (h : Staged lists s)
      (hp : Performed s commands t) : Staged (lists ++ [commands]) t

theorem Blank.sight? (h : s.Blank) (id : EntityId) : s.presenter.sight? id = none :=
  Presenter.sight?_eq_none_of_live (by rw [h.live]; rfl)

theorem Blank.coherent (h : s.Blank) : s.Coherent ∅ := by
  refine ⟨Presenter.sound_of_empty h.live h.items, ?_, ?_, ?_, ?_, ?_⟩
  · rw [h.scene]
    exact Scene.keyed_empty
  · intro k id
    simp [h.scene, h.sight?, Scene.has]
  · intro t k id ht
    exact ht.elim
  · intro id v hv
    rw [h.sight?] at hv
    cases hv
  · intro k id e f v he
    simp [h.scene] at he

theorem Blank.neat (h : s.Blank) : s.Neat := by
  refine ⟨h.coherent.sound, h.coherent.keyed, h.coherent.exclusive, fun id e v _ hv => ?_⟩
  rw [h.sight?] at hv
  cases hv

variable {lists : List (List Json)}

theorem Staged.coherent (h : Staged lists s) : s.Coherent ∅ := by
  induction h with
  | blank h => exact h.coherent
  | snoc _ hp ih =>
    obtain ⟨p, hperforming, hover⟩ := hp
    exact ((hperforming.settling ih).over hover).1

/-- Some of the lists of commands tear an edge. -/
def TornIn (lists : List (List Json)) (e : Edge) : Prop := ∃ commands ∈ lists, Torn commands e

/-- However lists of commands are told, the stage is the same in the end, but for the edges that
    are torn by one of the lists. -/
theorem Staged.alike (h : Staged lists s) (h' : Staged lists s') :
    ∃ base base', Alike base base' (TornIn lists) s s' := by
  -- By induction on the lists. Both stages were blank once, and each list leaves them alike.
  induction h generalizing s' with
  | @blank s hs =>
    generalize hlists : ([] : List (List Json)) = lists at h'
    cases h' with
    | blank hs' =>
      refine ⟨s.presenter.incarnations, s'.presenter.incarnations, hs.neat, hs'.neat, ?_,
        Nat.add_comm .., fun id => ?_⟩
      · rw [hs.scene, hs'.scene]
      · rw [hs.sight?, hs'.sight?]
        exact .none
    | snoc _ _ => simp at hlists
  | @snoc lists commands s t hs hp ih =>
    generalize hlists : lists ++ [commands] = all at h'
    cases h' with
    | blank _ => simp at hlists
    | @snoc lists' commands' s' t' hs' hp' =>
      obtain ⟨rfl, rfl⟩ := List.append_singleton_inj.1 hlists
      obtain ⟨base, base', halike⟩ := ih hs'
      refine ⟨base, base', ?_⟩
      have htorn : (fun e => TornIn lists e ∨ Torn commands e) = TornIn (lists ++ [commands]) := by
        funext e
        simp [TornIn, or_and_right, exists_or]
      rw [← htorn]
      exact halike.performed hs.coherent hs'.coherent hp hp'

end Stage

end Storyboard
