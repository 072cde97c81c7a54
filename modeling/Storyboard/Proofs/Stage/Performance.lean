import Storyboard.Proofs.Stage.Member
import Storyboard.Proofs.Stage.Opening

/-! # Performances on a coherent stage

    When commands begin to be performed, the stage is that of the draft on
    which they had their effect one after another (`Performance.start_spec`).
    What goes on afterwards pays what is owed and keeps the outlook, so when
    the performance is over, the scene is what the draft comes to. -/

namespace Storyboard

open Stage

namespace Performance

/-- The acts that a performance owes. -/
def owed (p : Performance) : Set Act := Strand.owedBy p.strands

/-- What undoes an act comes after it, in every strand. -/
def Tidy (p : Performance) : Prop := ∀ t ∈ p.strands, Cue.Tidy t.cues

/-- How many waits a performance has ahead. -/
def waits (p : Performance) : Nat := Strand.waitsOf p.strands

end Performance

variable {s : Stage} {d : Draft} {owed : Set Act} {now : Nat} {pacing : Pacing}

/-! ### Strands side by side -/

namespace Strand

/-- Strands that begin keep what is on its way out as it is. -/
theorem followAll_spec (now : Nat) (pacing : Pacing) {cues : List (List Cue)}
    (hs : s.Coherent (Cue.owedBy cues.flatten ∪ owed))
    (htidy : ∀ l ∈ cues, Cue.Tidy l) (hlingers : ∀ l ∈ cues, Cue.Lingers l) (hd : s.Matches d) :
    (followAll now pacing s cues).1.Coherent (owedBy (followAll now pacing s cues).2 ∪ owed) ∧
    (∀ t ∈ (followAll now pacing s cues).2, Cue.Tidy t.cues) ∧
    (followAll now pacing s cues).1.Matches d ∧
    waitsOf (followAll now pacing s cues).2 ≤ (cues.map Cue.waitsOf).sum := by
  induction cues generalizing s owed with
  | nil => exact ⟨by simpa [followAll] using hs, by simp [followAll], hd, Nat.le_refl _⟩
  | cons l rest ih =>
    have hl := htidy l List.mem_cons_self
    rw [List.flatten_cons, Cue.owedBy_append, Set.union_assoc] at hs
    obtain ⟨hpays, htidy', hwaits⟩ := follow_pays (s := s) now pacing hl
      (Cue.owedBy rest.flatten ∪ owed)
    obtain ⟨F, hF⟩ := follow_redraws now pacing (hlingers l List.mem_cons_self) hs.sound hs.keyed
    -- What the first strand leaves owed is owed besides while the others begin.
    have hs' := (hpays hs).1
    rw [Set.union_left_comm] at hs'
    obtain ⟨hcoherent, htidies, hmatches, hothers⟩ := ih hs'
      (fun l hl => htidy l (List.mem_cons_of_mem _ hl))
      (fun l hl => hlingers l (List.mem_cons_of_mem _ hl)) (hd.redrawn hF hs.sound)
    rw [Set.union_left_comm] at hcoherent
    simp only [followAll, owedBy_cons, Set.union_assoc, waitsOf_cons, List.map_cons,
      List.sum_cons]
    refine ⟨hcoherent, fun t ht => ?_, hmatches, Nat.add_le_add hwaits hothers⟩
    rcases List.mem_cons.1 ht with rfl | ht
    · exact htidy'
    · exact htidies t ht

end Strand

/-! ### Courses -/

namespace Course

/-- A command that begins has its effect on the draft, or none if it is refused. -/
theorem start_spec (now : Nat) (pacing : Pacing) (hs : s.Coherent owed) (hd : s.Matches d)
    (command : Json) :
    match d.takeJson command with
    | .error p => start now pacing s command = (s, .refused p)
    | .ok d' => ∃ s' strands, start now pacing s command = (s', .taken strands) ∧
        s'.Coherent (Strand.owedBy strands ∪ owed) ∧ (∀ t ∈ strands, Cue.Tidy t.cues) ∧
        s'.Matches d' ∧ Strand.waitsOf strands ≤ waitsOf [command] := by
  unfold Draft.takeJson start
  cases hc : Command.ofJson command with
  | error p => exact rfl
  | ok c =>
    have hopens := opens now pacing hs hd c
    change match d.take c with | .error p => _ | .ok d' => _
    -- The draft decides whether the command is taken, and the stage agrees with it.
    cases hd' : d.take c with
    | error p =>
      rw [hd'] at hopens
      dsimp only
      rw [show s.opening now pacing c = .error p from hopens]
    | ok d' =>
      rw [hd'] at hopens
      obtain ⟨s', cues, heq, h⟩ := hopens
      obtain ⟨hcoherent, htidy, hmatches, hwaits⟩ :=
        Strand.followAll_spec now pacing h.coherent h.tidy h.lingers h.matched
      dsimp only
      rw [heq]
      refine ⟨_, _, rfl, hcoherent, htidy, hmatches, ?_⟩
      simpa [waitsOf, Command.waitsAsWritten, hc] using Nat.le_trans hwaits h.waits

/-- Commands that begin have their effects on the draft, one after another. -/
theorem startAll_spec (now : Nat) (pacing : Pacing) (hs : s.Coherent owed) (hd : s.Matches d)
    (i : Nat) (commands : List Json) :
    (startAll now pacing s commands).1.Coherent
      (Strand.owedBy (strandsOf (startAll now pacing s commands).2) ∪ owed) ∧
    (∀ t ∈ strandsOf (startAll now pacing s commands).2, Cue.Tidy t.cues) ∧
    (startAll now pacing s commands).1.Matches (d.perform i commands).1 ∧
    reportFrom i (startAll now pacing s commands).2 = (d.perform i commands).2 ∧
    Strand.waitsOf (strandsOf (startAll now pacing s commands).2) ≤ waitsOf commands := by
  induction commands generalizing s d owed i with
  | nil => exact ⟨by simpa [startAll, strandsOf] using hs, by simp [startAll, strandsOf], hd, rfl,
      Nat.le_refl _⟩
  | cons command rest ih =>
    have hcons : waitsOf (command :: rest) = waitsOf [command] + waitsOf rest := by
      simp [waitsOf]
    have hstart := start_spec now pacing hs hd command
    simp only [startAll, Draft.perform]
    cases htake : d.takeJson command with
    -- A command that is refused leaves the stage and the draft as they are.
    | error p =>
      rw [htake] at hstart
      obtain ⟨hcoherent, htidy, hmatches, hreport, hwaits⟩ := ih hs hd (i + 1)
      rw [show start now pacing s command = (s, .refused p) from hstart, hcons]
      exact ⟨hcoherent, htidy, hmatches, congrArg (Report.merge _) hreport,
        Nat.le_trans hwaits (Nat.le_add_left _ _)⟩
    | ok d' =>
      rw [htake] at hstart
      obtain ⟨s', strands, heq, hs', htidy', hd', hwaits'⟩ := hstart
      obtain ⟨hcoherent, htidy, hmatches, hreport, hwaits⟩ := ih hs' hd' (i + 1)
      have hsplit : ∀ courses, strandsOf (.taken strands :: courses) =
          strands ++ strandsOf courses := fun _ => List.flatMap_cons
      rw [heq, hcons]
      dsimp only
      rw [hsplit, Strand.owedBy_append, Strand.waitsOf_append, Set.union_right_comm,
        Set.union_comm (Strand.owedBy strands ∪ owed)]
      refine ⟨hcoherent, fun t ht => ?_, hmatches, congrArg (Report.merge _) hreport,
        Nat.add_le_add hwaits' hwaits⟩
      rcases List.mem_append.1 ht with ht | ht
      · exact htidy' t ht
      · exact htidy t ht

end Course

/-! ### Performances -/

namespace Performance

variable {p : Performance}

theorem owed_of_isOver (h : p.isOver = true) : p.owed = ∅ := Strand.owedBy_of_isOver h

/-- What begins on the stage of a draft. -/
theorem start_spec (now : Nat) (pacing : Pacing) (hs : s.Coherent owed) (hd : s.Matches d)
    (commands : List Json) :
    (start now pacing s commands).1.Coherent ((start now pacing s commands).2.owed ∪ owed) ∧
    (start now pacing s commands).2.Tidy ∧
    (start now pacing s commands).1.Matches (d.perform 0 commands).1 ∧
    (start now pacing s commands).2.report = (d.perform 0 commands).2 ∧
    (start now pacing s commands).2.waits ≤ waitsOf commands := by
  have h := Course.startAll_spec now pacing hs hd 0 commands
  rw [← strands_start] at h
  exact h

/-- What goes on pays what is owed, and if it can go on, a wait is over. -/
theorem resume_spec (now : Nat) (h : p.Tidy) (owed : Set Act) :
    Pays s (p.owed ∪ owed) (p.resume now s).1 ((p.resume now s).2.owed ∪ owed) ∧
    (p.resume now s).2.Tidy ∧
    (p.resume now s).2.report = p.report ∧
    (p.resume now s).2.waits + (if p.isReady now then 1 else 0) ≤ p.waits := by
  obtain ⟨ts, hts, hworld, hleft⟩ := resume_eq now s p
  obtain ⟨hpays, htidy, hwaits⟩ := Strand.resumeAll_pays (s := s) now p.pacing
    (fun t ht => h t (hts.mem_iff.1 ht)) owed
  refine ⟨?_, fun t ht => htidy t (hleft.mem_iff.1 ht), rfl, ?_⟩
  · rw [Performance.owed, Performance.owed, hworld, Strand.owedBy_perm hleft,
      ← Strand.owedBy_perm hts]
    exact hpays
  · rw [waits, waits, Strand.waitsOf_perm hleft, ← Strand.waitsOf_perm hts, isReady,
      ← hts.any_eq]
    exact hwaits

end Performance

end Storyboard
