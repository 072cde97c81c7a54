import Storyboard.Stage.Opening

/-! # How commands take effect

    A command that is not refused found what it is about, did one thing at once
    and left its cues. `Effect` tells of every command what that was, and every
    command that opens has such an effect (`effect_of_opening`). So whoever asks
    what commands keep or change need not ask again when they are refused. -/

namespace Storyboard.Stage

variable {s s' : Stage} {now : Nat} {pacing : Pacing} {c : Command} {cues : List (List Cue)}

/-- What follows when nodes are compared. -/
def compareCues (elements : List EntityId) (result : Bool) : List Cue :=
  let all (h : Option Highlight) : List Cue := elements.map fun id => .act (.highlight id h)
  let verdict : Highlight := ⟨if result then .success else .failure, .high⟩
  all (some ⟨.amber, .medium⟩) ++ .wait (.ofMillis 500) :: all (some verdict) ++
    .wait (.ofMillis 800) :: all (some ⟨.amber, .medium⟩) ++ .wait (.ofMillis 200) :: all none

/-- A command takes effect on a stage: the stage after that, and the cues that are left. -/
inductive Effect (s : Stage) (now : Nat) (pacing : Pacing) :
    Command → Stage → List (List Cue) → Prop
  | createNode {n : Node} {t : Stage} {cues : List (List Cue)}
      (hcreate : s.create now pacing .createNode (.node n) (.ofNode n none) (.fadeIn enterSpan) [] =
        .ok (t, cues)) :
      Effect s now pacing (.createNode n) (t.followNode now n.id) cues
  | updateNode {id : EntityId} {value style : Option String}
      (hnode : s.scene.has .node id = true) :
      Effect s now pacing (.updateNode id value style)
        (redrawNode { s with scene := s.scene.modifyNode id fun n => { n with
          value := value.getD n.value
          style := (style.filter fun t => !t.isEmpty).orElse fun _ => n.style } } now id none) []
  | deleteNode {id : EntityId} {t : Stage} {cues : List (List Cue)}
      (hdelete : s.delete now pacing .deleteNode .node id = .ok (t, cues)) :
      Effect s now pacing (.deleteNode id) t cues
  | deleteEdge {id : EntityId} {t : Stage} {cues : List (List Cue)}
      (hdelete : s.delete now pacing .deleteEdge .edge id = .ok (t, cues)) :
      Effect s now pacing (.deleteEdge id) t cues
  | moveNode {id : EntityId} {destination : Point} {span : Span} {easing : Option String}
      {n : Node} {t : Transition} (hnode : s.scene.nodes.find? id = some n)
      (ht : t = pacing.transition (.move n.position destination span
        ((easing.bind Ease.ofName?).getD .usual))) :
      Effect s now pacing (.moveNode id destination span easing)
        ⟨s.scene.modifyNode id fun n => { n with position := destination },
          (s.presenter.move now id destination t).1⟩
        [[.wait t.span, .act (.followNode id)]]
  | highlight {id : EntityId} {color intensity : Option String} {span : Span}
      (hnodes : s.requireNodes .highlight [id] = .ok ()) :
      Effect s now pacing (.highlight id color intensity span) s
        [flash id ⟨Color.readOr color .cyan, .ofName intensity⟩ span]
  | compare {elements : List EntityId} {operator : Option String} {result : Bool}
      (hnodes : s.requireNodes .compare elements = .ok ()) :
      Effect s now pacing (.compare elements operator result) s [compareCues elements result]
  | pulse {id : EntityId} {count : Nat} {color : Option String}
      (hnodes : s.requireNodes .pulse [id] = .ok ()) :
      Effect s now pacing (.pulse id count color) s
        [[.flashes count id ⟨Color.readOr color .cyan, .high⟩ pulseSpan]]
  | highlightPath {nodes : List EntityId} {color : Option String} {span : Span}
      {sequential : Bool} (hnodes : s.requireNodes .highlightPath nodes = .ok ()) :
      Effect s now pacing (.highlightPath nodes color span sequential) s
        (if sequential then pathCues ⟨Color.readOr color .cyan, .high⟩ 0 nodes
          else nodes.map fun id => flash id ⟨Color.readOr color .cyan, .high⟩ span)
  | createEdge {id source target : EntityId} {directed : Bool} {weight style : Option String}
      {f : Figure} {t : Stage} {cues : List (List Cue)}
      (hfigure : edgeFigure? s.scene ⟨id, source, target, directed, weight, .ofName style⟩ = some f)
      (hcreate : s.create now pacing .createEdge
        (.edge ⟨id, source, target, directed, weight, .ofName style⟩) f (.drawIn edgeSpan) [] =
          .ok (t, cues)) :
      Effect s now pacing (.createEdge id source target directed weight style) t cues
  | createArray {r : Row} {t : Stage} {cues : List (List Cue)}
      (hcreate : s.create now pacing .createArray (.row r) (.ofRow r []) (.fadeIn enterSpan)
        [.act (.followRow r.id)] = .ok (t, cues)) :
      Effect s now pacing (.createArray r) t cues
  | swap {row : EntityId} {i j : Nat} {span : Span} {r : Row}
      (hrow : s.requireCells .swap row [i, j] = .ok r) :
      Effect s now pacing (.swap row (i, j) span)
        (redrawRow { s with scene := s.scene.modifyRow row fun r => r.swapCells i j } now row
          [(i, Color.amber.tint), (j, Color.amber.tint)])
        [[.wait span, .act (.tint row [])]]
  | updateCell {row : EntityId} {i : Nat} {value : String} {lit : Bool} {r : Row}
      (hrow : s.requireCells .updateCell row [i] = .ok r) :
      Effect s now pacing (.updateCell row i value lit)
        (redrawRow { s with scene := s.scene.modifyRow row fun r => r.setCell i value } now row
          (if lit then [(i, Color.success.tint)] else []))
        (if lit then [[.wait cellSpan, .act (.tint row [])]] else [])
  | setPointer {id row : EntityId} {index : Nat} {label color : Option String} {r : Row}
      {t : Stage} {cues : List (List Cue)}
      (hrow : s.requireCells .setPointer row [index] = .ok r)
      (hcreate : s.create now pacing .setPointer
        (.pointer ⟨id, row, index, label.getD "", Color.readOr color .cyan⟩)
        (.ofPointer ⟨id, row, index, label.getD "", Color.readOr color .cyan⟩ r)
        (.fadeIn enterSpan) [] = .ok (t, cues)) :
      Effect s now pacing (.setPointer id row index label color) t cues
  | addLabel {id : EntityId} {text : String} {position : Point} {style : Option String}
      {t : Stage} {cues : List (List Cue)}
      (hcreate : s.create now pacing .addLabel (.label ⟨id, text, position, .ofName style⟩)
        (.ofLabel ⟨id, text, position, .ofName style⟩) (.fadeIn enterSpan) [] = .ok (t, cues)) :
      Effect s now pacing (.addLabel id text position style) t cues
  | addCallout {id : EntityId} {form : String} {start stop : Point} {label : Option String}
      {t : Stage} {cues : List (List Cue)} (hform : (plainName form == "arrow") = true)
      (hcreate : s.create now pacing .addCallout (.callout ⟨id, start, stop, label⟩)
        (.ofCallout ⟨id, start, stop, label⟩) (.fadeIn enterSpan) [] = .ok (t, cues)) :
      Effect s now pacing (.addCallout id form start stop label) t cues

/-- A command that asks for something before it opens was given it. -/
theorem exists_of_bind {α : Type} {x : Except CommandProblem α} {f : α → Opening}
    {opened : Stage × List (List Cue)} (h : (x >>= f) = .ok opened) :
    ∃ a, x = .ok a ∧ f a = .ok opened := by
  cases x with
  | error p => cases h
  | ok a => exact ⟨a, rfl, h⟩

/-- A command that opens takes effect. -/
theorem effect_of_opening (h : s.opening now pacing c = .ok (s', cues)) :
    Effect s now pacing c s' cues := by
  cases c with
  | createNode n =>
    obtain ⟨⟨t, left⟩, hcreate, hopen⟩ := exists_of_bind h
    cases hopen
    exact .createNode hcreate
  | updateNode id value style =>
    simp only [opening, updateNode] at h
    split at h
    · cases h
    · next hnode =>
      cases h
      exact .updateNode (by simpa using hnode)
  | deleteNode id => exact .deleteNode h
  | deleteEdge id => exact .deleteEdge h
  | moveNode id destination span easing =>
    simp only [opening, moveNode] at h
    split at h
    · cases h
    · next n hnode =>
      cases h
      exact .moveNode hnode rfl
  | highlight id color intensity span =>
    obtain ⟨_, hnodes, hopen⟩ := exists_of_bind h
    cases hopen
    exact .highlight hnodes
  | compare elements operator result =>
    obtain ⟨_, hnodes, hopen⟩ := exists_of_bind h
    cases hopen
    exact .compare hnodes
  | pulse id count color =>
    obtain ⟨_, hnodes, hopen⟩ := exists_of_bind h
    cases hopen
    exact .pulse hnodes
  | highlightPath nodes color span sequential =>
    obtain ⟨_, hnodes, hopen⟩ := exists_of_bind h
    cases hopen
    exact .highlightPath hnodes
  | createEdge id source target directed weight style =>
    simp only [opening, createEdge] at h
    split at h
    · cases h
    · cases h
    · next hfigure => exact .createEdge hfigure h
  | createArray r => exact .createArray h
  | swap row indices span =>
    obtain ⟨r, hrow, hopen⟩ := exists_of_bind h
    cases hopen
    exact .swap hrow
  | updateCell row i value lit =>
    obtain ⟨r, hrow, hopen⟩ := exists_of_bind h
    -- Whether the cell is tinted decides about the figure and about the cues.
    cases lit with
    | true =>
      cases hopen
      exact .updateCell hrow
    | false =>
      cases hopen
      exact .updateCell hrow
  | setPointer id row index label color =>
    obtain ⟨r, hrow, hcreate⟩ := exists_of_bind h
    exact .setPointer hrow hcreate
  | addLabel id text position style => exact .addLabel h
  | addCallout id form start stop label =>
    simp only [opening, addCallout] at h
    split at h
    · next hform => exact .addCallout hform h
    · cases h

end Storyboard.Stage
