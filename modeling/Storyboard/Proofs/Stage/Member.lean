import Mathlib.Data.List.Basic
import Storyboard.Stage.Performance

/-! # Whoever can goes on once

    However those are lined up whose waits are over, nobody is left out and
    nobody is asked twice (`lineUp_perm`). So a performance goes on as its
    strands would go on one after another, in some order or other
    (`Performance.resume_eq`); most of what is said of performances holds for
    any. -/

namespace Storyboard

variable {now : Nat} {s : Stage} {pacing : Pacing}

/-! ### Lines -/

namespace Member

variable {members : List Member}

theorem join_perm (precedes : Member → Member → Bool) (m : Member) (members : List Member) :
    (join precedes m members).Perm (m :: members) := by
  induction members with
  | nil => exact .refl _
  | cons n rest ih =>
    by_cases h : precedes m n = true
    · rw [join, if_pos h]
    · rw [join, if_neg h]
      exact (ih.cons n).trans (.swap m n rest)

theorem inLine_perm (precedes : Member → Member → Bool) (members : List Member) :
    (inLine precedes members).Perm members := by
  induction members with
  | nil => exact .refl _
  | cons m rest ih => exact (join_perm precedes m _).trans (ih.cons m)

theorem woken_perm (now : Nat) (members : List Member) :
    (woken now members).Perm (members.filter (·.isReady now)) := by
  refine ((inLine_perm _ _).append (List.reverse_perm _)).trans ?_
  have hnone : ∀ m : Member, m.strand.due?.isNone = !m.strand.due?.isSome := by simp
  simp only [hnone]
  exact List.filter_append_perm _ _

/-- In line are those whose waits are over. -/
theorem lineUp_perm (crowded : Bool) (now : Nat) (members : List Member) :
    (lineUp crowded now members).Perm (members.filter (·.isReady now)) :=
  (inLine_perm _ _).trans (woken_perm now members)

theorem lineUp_eq_nil (crowded : Bool) (h : ∀ m ∈ members, m.isReady now = false) :
    lineUp crowded now members = [] := by
  have hnone : members.filter (·.isReady now) = [] :=
    List.filter_eq_nil_iff.2 fun m hm => by simp [h m hm]
  exact List.perm_nil.1 (hnone ▸ lineUp_perm crowded now members)

/-- Those who went on are as far as their strands. -/
theorem map_goOn {line : List Member} {strands : List Strand} (h : strands.length = line.length) :
    (List.zipWith goOn line strands).map (·.strand) = strands := by
  induction line generalizing strands with
  | nil => exact (List.eq_nil_of_length_eq_zero h).symm
  | cons m line ih =>
    cases strands with
    | nil => cases h
    | cons t strands => exact congrArg (t :: ·) (ih (Nat.succ.inj h))

theorem map_ofStrands (course : Nat) (strands : List Strand) :
    (ofStrands course strands).map (·.strand) = strands := by
  simp [ofStrands, Function.comp_def]

end Member

/-! ### Strands -/

namespace Strand

theorem resume_of_not_ready {t : Strand} (h : t.isReady now = false) :
    resume now pacing s t = (s, t) := by
  cases t with
  | «over» => rfl
  | resting wait rest =>
    have hwait : wait.isOver now = false := h
    simp only [resume, hwait, Bool.false_eq_true, ↓reduceIte]

theorem resumeAll_of_not_ready {ts : List Strand} (h : ∀ t ∈ ts, t.isReady now = false) :
    resumeAll now pacing s ts = (s, ts) := by
  induction ts with
  | nil => rfl
  | cons t ts ih =>
    simp only [resumeAll, resume_of_not_ready (h t List.mem_cons_self),
      ih fun u hu => h u (List.mem_cons_of_mem _ hu)]

theorem resumeAll_append (ts us : List Strand) :
    resumeAll now pacing s (ts ++ us) =
      ((resumeAll now pacing (resumeAll now pacing s ts).1 us).1,
        (resumeAll now pacing s ts).2 ++
          (resumeAll now pacing (resumeAll now pacing s ts).1 us).2) := by
  induction ts generalizing s with
  | nil => rfl
  | cons t ts ih => simp only [List.cons_append, resumeAll, ih]

@[simp] theorem length_resumeAll (ts : List Strand) :
    (resumeAll now pacing s ts).2.length = ts.length := by
  induction ts generalizing s with
  | nil => rfl
  | cons t ts ih => exact congrArg (· + 1) ih

end Strand

/-! ### Performances -/

namespace Course

/-- All strands of some courses. -/
def strandsOf (courses : List Course) : List Strand := courses.flatMap (·.strands)

theorem map_membersFrom (i : Nat) (courses : List Course) :
    (membersFrom i courses).map (·.strand) = strandsOf courses := by
  induction courses generalizing i with
  | nil => rfl
  | cons c rest ih =>
    cases c with
    | refused p => exact ih i
    | taken strands =>
      rw [membersFrom, List.map_append, Member.map_ofStrands, ih (i + 1)]
      rfl

end Course

namespace Performance

variable {p : Performance}

theorem strands_start (now : Nat) (pacing : Pacing) (s : Stage) (commands : List Json) :
    (start now pacing s commands).2.strands =
      Course.strandsOf (Course.startAll now pacing s commands).2 :=
  Course.map_membersFrom 0 _

/-- A performance goes on as its strands do, one after another in some order. -/
theorem resume_eq (now : Nat) (s : Stage) (p : Performance) :
    ∃ ts : List Strand, ts.Perm p.strands ∧
      (p.resume now s).1 = (Strand.resumeAll now p.pacing s ts).1 ∧
      (p.resume now s).2.strands.Perm (Strand.resumeAll now p.pacing s ts).2 := by
  let line := (Member.lineUp p.crowded now p.members).map (·.strand)
  let others := (p.members.filter (!·.isReady now)).map (·.strand)
  have hothers : ∀ t ∈ others, t.isReady now = false := by
    intro t ht
    obtain ⟨m, hm, rfl⟩ := List.mem_map.1 ht
    simpa [Member.isReady] using (List.mem_filter.1 hm).2
  have hall : (line ++ others).Perm p.strands := by
    rw [← List.map_append]
    refine List.Perm.map _ ?_
    refine ((Member.lineUp_perm p.crowded now p.members).append_right _).trans ?_
    exact List.filter_append_perm _ _
  -- Whoever has to wait does nothing in its turn, so it may as well be asked last.
  refine ⟨line ++ others, hall, ?_⟩
  rw [Strand.resumeAll_append, Strand.resumeAll_of_not_ready hothers]
  refine ⟨rfl, ?_⟩
  have hleft : (p.resume now s).2.strands =
      others ++ (Strand.resumeAll now p.pacing s line).2 := by
    refine List.map_append.trans (congrArg _ (Member.map_goOn ?_))
    rw [Strand.length_resumeAll, List.length_map]
  rw [hleft]
  exact List.perm_append_comm

end Performance

end Storyboard
