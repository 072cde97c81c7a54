import Mathlib.Algebra.GroupWithZero.Nat
import Storyboard.Proofs.Stage.Change
import Storyboard.Proofs.Stage.Draft

/-! # Strands on a coherent stage

    The cues that are still to come say which acts are owed. Cues are tidy if
    whatever draws a thing otherwise is undone by a later one. To follow tidy
    cues up to the next wait keeps the stage coherent with what is owed by the
    rest, and keeps its outlook: the scene without what is on its way out
    (`Strand.resume_pays`). Every time that a strand goes on, the waits ahead
    of it become fewer. -/

namespace Storyboard

/-! ### What is to come -/

namespace Cue

/-- The acts that a cue owes. -/
def owed : Cue → Set Act
  | .act a => {a}
  | .wait _ => ∅
  | .flashes 0 _ _ _ => ∅
  | .flashes (_ + 1) id _ _ => {.highlight id none}

/-- The acts that some cues owe. -/
def owedBy (cues : List Cue) : Set Act := {a | ∃ c ∈ cues, a ∈ c.owed}

/-- What undoes an act comes after it. -/
def Tidy : List Cue → Prop
  | [] => True
  | c :: rest => (∀ a ∈ c.owed, ∀ b, a.undo? = some b → b ∈ owedBy rest) ∧ Tidy rest

/-- No exit is finished before the first wait. -/
def Lingers : List Cue → Prop
  | [] => True
  | .act a :: rest => ¬a.IsExit ∧ Lingers rest
  | .flashes 0 _ _ _ :: rest => Lingers rest
  | _ => True

/-- How many waits a cue is. -/
def waits : Cue → Nat
  | .act _ => 0
  | .wait _ => 1
  | .flashes n _ _ _ => n

/-- How many waits some cues are. -/
def waitsOf (cues : List Cue) : Nat := (cues.map waits).sum

variable {c : Cue} {cues rest : List Cue}

@[simp] theorem owedBy_nil : owedBy [] = ∅ := by
  simp [owedBy]

@[simp] theorem owedBy_cons : owedBy (c :: rest) = c.owed ∪ owedBy rest := by
  ext a
  simp [owedBy]

@[simp] theorem waitsOf_nil : waitsOf [] = 0 := rfl

@[simp] theorem waitsOf_cons : waitsOf (c :: rest) = c.waits + waitsOf rest := by
  simp [waitsOf]

@[simp] theorem waitsOf_append : waitsOf (cues ++ rest) = waitsOf cues + waitsOf rest := by
  simp [waitsOf]

@[simp] theorem owedBy_append : owedBy (cues ++ rest) = owedBy cues ∪ owedBy rest := by
  ext a
  simp [owedBy, or_and_right, exists_or]

/-- Cues are tidy if what undoes them comes after all of them. -/
theorem tidy_append (h : ∀ a ∈ owedBy cues, ∀ b, a.undo? = some b → b ∈ owedBy rest)
    (hrest : Tidy rest) : Tidy (cues ++ rest) := by
  induction cues with
  | nil => exact hrest
  | cons c cues ih =>
    rw [owedBy_cons] at h
    refine ⟨fun a ha b hb => ?_, ih fun a ha => h a (.inr ha)⟩
    change b ∈ owedBy (cues ++ rest)
    rw [owedBy_append]
    exact .inr (h a (.inl ha) b hb)

/-- Cues that draw nothing otherwise are tidy. -/
theorem tidy_of_undo? (h : ∀ a ∈ owedBy cues, a.undo? = none) : Tidy cues := by
  rw [← List.append_nil cues]
  refine tidy_append (fun a ha b hb => ?_) trivial
  rw [h a ha] at hb
  cases hb

/-- Cues that finish no exit linger if what comes after them does. -/
theorem lingers_append (h : ∀ a ∈ owedBy cues, ¬a.IsExit) (hrest : Lingers rest) :
    Lingers (cues ++ rest) := by
  induction cues with
  | nil => exact hrest
  | cons c cues ih =>
    rw [owedBy_cons] at h
    have hcues := ih fun a ha => h a (.inr ha)
    cases c with
    | act a => exact ⟨h a (.inl rfl), hcues⟩
    | wait d => trivial
    | flashes n id hl hold =>
      cases n with
      | zero => exact hcues
      | succ n => trivial

theorem lingers_of_not_isExit (h : ∀ a ∈ owedBy cues, ¬a.IsExit) : Lingers cues := by
  rw [← List.append_nil cues]
  exact lingers_append h trivial

end Cue

namespace Strand

/-- The cues that are to follow. -/
def cues : Strand → List Cue
  | .resting _ rest => rest
  | .over => []

/-- The acts that some strands owe. -/
def owedBy (strands : List Strand) : Set Act := {a | ∃ t ∈ strands, a ∈ Cue.owedBy t.cues}

/-- How many waits a strand has ahead. -/
def waits : Strand → Nat
  | .resting _ rest => 1 + Cue.waitsOf rest
  | .over => 0

/-- How many waits some strands have ahead. -/
def waitsOf (strands : List Strand) : Nat := (strands.map waits).sum

@[simp] theorem owedBy_nil : owedBy [] = ∅ := by
  simp [owedBy]

@[simp] theorem owedBy_cons (t : Strand) (ts : List Strand) :
    owedBy (t :: ts) = Cue.owedBy t.cues ∪ owedBy ts := by
  ext a
  simp [owedBy]

@[simp] theorem waitsOf_nil : waitsOf [] = 0 := rfl

@[simp] theorem waitsOf_cons (t : Strand) (ts : List Strand) :
    waitsOf (t :: ts) = t.waits + waitsOf ts := by
  simp [waitsOf]

@[simp] theorem waitsOf_append (ts us : List Strand) :
    waitsOf (ts ++ us) = waitsOf ts + waitsOf us := by
  simp [waitsOf]

@[simp] theorem owedBy_append (ts us : List Strand) :
    owedBy (ts ++ us) = owedBy ts ∪ owedBy us := by
  ext a
  simp [owedBy, or_and_right, exists_or]

/-- It does not matter in which order the strands are listed. -/
theorem owedBy_perm {ts us : List Strand} (h : ts.Perm us) : owedBy ts = owedBy us := by
  ext a
  simp [owedBy, h.mem_iff]

theorem waitsOf_perm {ts us : List Strand} (h : ts.Perm us) : waitsOf ts = waitsOf us :=
  (h.map waits).sum_nat

/-- Strands that are over owe nothing. -/
theorem owedBy_of_isOver {ts : List Strand} (h : ts.all (·.isOver) = true) : owedBy ts = ∅ := by
  induction ts with
  | nil => exact owedBy_nil
  | cons t ts ih =>
    obtain ⟨ht, hts⟩ := Bool.and_eq_true_iff.1 h
    rw [owedBy_cons, ih hts]
    cases t with
    | «over» => simp [cues]
    | resting wait rest => cases ht

end Strand

/-! ### Paying what is owed -/

namespace Stage

/-- What will be in the scene when every exit that is under way is over. -/
def outlook (s : Stage) (k : Kind) (id : EntityId) : Option Entity :=
  if s.presenter.isExiting id then none else s.scene.get? k id

/-- One stage comes from another by doing what was owed. -/
def Pays (s : Stage) (owed : Set Act) (s' : Stage) (owed' : Set Act) : Prop :=
  s.Coherent owed → s'.Coherent owed' ∧ s'.outlook = s.outlook

variable {s s' s'' : Stage} {owed owed' owed'' : Set Act} {a : Act} {now : Nat}

theorem Pays.refl : Pays s owed s owed := fun hs => ⟨hs, rfl⟩

theorem Pays.trans (h : Pays s owed s' owed') (h' : Pays s' owed' s'' owed'') :
    Pays s owed s'' owed'' := by
  intro hs
  obtain ⟨hs', heq⟩ := h hs
  obtain ⟨hs'', heq'⟩ := h' hs'
  exact ⟨hs'', heq'.trans heq⟩

/-- More may be owed at any time. -/
theorem Pays.more (ha : ¬a.IsExit) : Pays s owed s (insert a owed) := by
  intro hs
  exact ⟨hs.owe ha, rfl⟩

/-- To draw figures changes nothing of what is on its way out. -/
theorem Redrawn.isExiting {F : EntityId → Option Figure} (h : Redrawn s s' F)
    (hs : s.presenter.Sound) (id : EntityId) :
    s'.presenter.isExiting id = s.presenter.isExiting id :=
  Presenter.isExiting_congr hs h.sound (h.status id)

/-- An act that is owed keeps the outlook. -/
theorem outlook_perform (hs : s.Coherent (insert a owed)) :
    (s.perform now a).outlook = s.outlook := by
  funext k id
  by_cases ha : a.IsExit
  · cases a with
    | finishExit t k' i =>
      change (s.finishExit now t k' i).outlook k id = _
      rcases hs.finishExit_cases now with ⟨_, heq⟩ | ⟨v, hv, hx, rfl, heq⟩
      · rw [heq]
      · rw [heq]
        obtain ⟨hsound, hsight⟩ := Presenter.sound_discard hs.sound now i
        have hexiting : s.presenter.isExiting i = true := hs.sound.isExiting_iff.2 ⟨v, hv, hx⟩
        unfold outlook
        rw [Scene.get?_erase]
        by_cases hj : id = i
        · -- The thing that goes was on its way out, and nothing else has its identifier.
          subst hj
          rw [if_pos hexiting]
          by_cases hk : k = v.kind
          · simp [hk]
          · simp [hk, hs.get?_eq_none hv hk]
        · have hsame : (s.presenter.discard now i).1.isExiting id = s.presenter.isExiting id := by
            rw [Bool.eq_iff_iff, hsound.isExiting_iff, hs.sound.isExiting_iff, hsight, if_neg hj]
          simp only [hj, and_false, if_false, hsame]
    | _ => cases ha
  · have hd := perform_redraws hs.sound hs.keyed now ha
    unfold outlook
    rw [hd.isExiting hs.sound, hd.scene]

theorem pays_perform (hundo : ∀ b, a.undo? = some b → b ∈ owed) :
    Pays s (insert a owed) (s.perform now a) owed :=
  fun hs => ⟨hs.perform hundo, outlook_perform hs⟩

end Stage

/-! ### Strands that go on -/

namespace Strand

open Stage

variable {s : Stage}

theorem follow_pays (now : Nat) (pacing : Pacing) {cues : List Cue} (h : Cue.Tidy cues)
    (owed : Set Act) :
    Pays s (Cue.owedBy cues ∪ owed) (follow now pacing s cues).1
      (Cue.owedBy (follow now pacing s cues).2.cues ∪ owed) ∧
    Cue.Tidy (follow now pacing s cues).2.cues ∧
    (follow now pacing s cues).2.waits ≤ Cue.waitsOf cues := by
  -- By induction on the cues; each act that comes before the first wait is paid at once.
  induction cues generalizing s with
  | nil => exact ⟨Pays.refl, trivial, Nat.le_refl _⟩
  | cons c rest ih =>
    obtain ⟨hundo, hrest⟩ := h
    cases c with
    | act a =>
      obtain ⟨hpays, htidy, hwaits⟩ := ih (s := s.perform now a) hrest
      rw [follow, Cue.owedBy_cons, Set.union_assoc, Cue.waitsOf_cons]
      refine ⟨?_, htidy, ?_⟩
      · exact (pays_perform fun b hb => .inl (hundo a rfl b hb)).trans hpays
      · exact Nat.le_trans hwaits (Nat.le_add_left _ _)
    | wait d =>
      rw [follow, Cue.owedBy_cons, Cue.owed, Set.empty_union]
      exact ⟨Pays.refl, hrest, by simp [waits, Cue.waits]⟩
    | flashes n id hl hold =>
      cases n with
      | zero =>
        obtain ⟨hpays, htidy, hwaits⟩ := ih (s := s) hrest
        rw [follow, Cue.owedBy_cons, Cue.owed, Set.empty_union, Cue.waitsOf_cons]
        exact ⟨hpays, htidy, Nat.le_trans hwaits (Nat.le_add_left _ _)⟩
      | succ n =>
        rw [follow]
        refine ⟨?_, ⟨?_, ?_, hrest⟩, ?_⟩
        · -- What is owed does not change: the highlight is to be taken away before and after.
          have howed : Cue.owedBy (.act (.highlight id none) :: .flashes n id hl hold :: rest) =
              Cue.owedBy (.flashes (n + 1) id hl hold :: rest) := by
            cases n <;> simp [Cue.owed]
          rw [cues, howed]
          refine (Pays.more ?_).trans (pays_perform (a := .highlight id (some hl)) ?_)
          · rintro ⟨⟩
          · intro b hb
            obtain rfl := Option.some.inj hb
            simp [Cue.owed]
        · rintro a rfl b hb
          cases hb
        · intro a ha b hb
          cases n with
          | zero => cases ha
          | succ n =>
            obtain rfl := ha
            cases hb
        · simp only [waits, Cue.waitsOf_cons, Cue.waits]
          omega

/-- Cues that linger draw figures and nothing else before the first wait. -/
theorem follow_redraws (now : Nat) (pacing : Pacing) {cues : List Cue} (h : Cue.Lingers cues)
    (hs : s.presenter.Sound) (hk : s.scene.Keyed) :
    ∃ F, Redrawn s (follow now pacing s cues).1 F := by
  induction cues generalizing s with
  | nil => exact ⟨_, Redrawn.refl hs⟩
  | cons c rest ih =>
    cases c with
    | act a =>
      have hd := perform_redraws hs hk now h.1
      obtain ⟨F, hF⟩ := ih h.2 hd.sound (hd.scene ▸ hk)
      exact ⟨_, hd.trans hF⟩
    | wait d => exact ⟨_, Redrawn.refl hs⟩
    | flashes n id hl hold =>
      cases n with
      | zero => exact ih h hs hk
      | succ n => exact ⟨_, redrawn_redrawNode hs (some hl)⟩

theorem resume_pays (now : Nat) (pacing : Pacing) {t : Strand} (h : Cue.Tidy t.cues)
    (owed : Set Act) :
    Pays s (Cue.owedBy t.cues ∪ owed) (resume now pacing s t).1
      (Cue.owedBy (resume now pacing s t).2.cues ∪ owed) ∧
    Cue.Tidy (resume now pacing s t).2.cues ∧
    (resume now pacing s t).2.waits + (if t.isReady now then 1 else 0) ≤ t.waits := by
  cases t with
  | «over» => exact ⟨Pays.refl, trivial, Nat.le_refl _⟩
  | resting wait rest =>
    by_cases hover : wait.isOver now = true
    -- A wait that is over counts one, and what follows it up to the next one counts no less.
    · have heq : resume now pacing s (.resting wait rest) = follow now pacing s rest := if_pos hover
      obtain ⟨hpays, htidy, hwaits⟩ := follow_pays (s := s) now pacing h owed
      rw [heq]
      refine ⟨hpays, htidy, ?_⟩
      change _ + (if wait.isOver now = true then 1 else 0) ≤ 1 + Cue.waitsOf rest
      rw [if_pos hover, Nat.add_comm]
      exact Nat.add_le_add_left hwaits 1
    · have heq : resume now pacing s (.resting wait rest) = (s, .resting wait rest) :=
        if_neg hover
      rw [heq]
      refine ⟨Pays.refl, h, ?_⟩
      change _ + (if wait.isOver now = true then 1 else 0) ≤ _
      rw [if_neg hover]
      exact Nat.le_refl _

theorem resumeAll_pays (now : Nat) (pacing : Pacing) {ts : List Strand}
    (h : ∀ t ∈ ts, Cue.Tidy t.cues) (owed : Set Act) :
    Pays s (owedBy ts ∪ owed) (resumeAll now pacing s ts).1
      (owedBy (resumeAll now pacing s ts).2 ∪ owed) ∧
    (∀ t ∈ (resumeAll now pacing s ts).2, Cue.Tidy t.cues) ∧
    waitsOf (resumeAll now pacing s ts).2 + (if ts.any (·.isReady now) then 1 else 0) ≤
      waitsOf ts := by
  induction ts generalizing s owed with
  | nil => exact ⟨Pays.refl, by simp [resumeAll], Nat.le_refl _⟩
  | cons t rest ih =>
    -- The first strand goes on while the others owe what they do, then the others go on.
    obtain ⟨hfirst, htidy, hwaits⟩ := resume_pays (s := s) now pacing
      (h t List.mem_cons_self) (owedBy rest ∪ owed)
    obtain ⟨hrest, htidies, hothers⟩ := ih (s := (resume now pacing s t).1)
      (fun u hu => h u (List.mem_cons_of_mem _ hu))
      (Cue.owedBy (resume now pacing s t).2.cues ∪ owed)
    rw [Set.union_left_comm (owedBy rest), Set.union_left_comm (owedBy (resumeAll ..).2)] at hrest
    simp only [resumeAll]
    refine ⟨?_, ?_, ?_⟩
    · rw [owedBy_cons, owedBy_cons, Set.union_assoc, Set.union_assoc]
      exact hfirst.trans hrest
    · intro u hu
      rcases List.mem_cons.1 hu with rfl | hu
      · exact htidy
      · exact htidies u hu
    · simp only [waitsOf_cons, List.any_cons, Bool.or_eq_true]
      split <;> split at hwaits <;> split at hothers <;> simp_all <;> omega

end Strand

end Storyboard
