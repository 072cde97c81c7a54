import Storyboard.Proofs.Stage.Execution

/-! # When a performance can go on

    A performance that cannot go on stays as it is, and so does the stage. At
    the time that it names it can, whatever happens until then. In the instant
    pacing nothing names a time: a performance waits for its next turn only,
    so it can always go on until it is over (`Performance.Instant`). -/

namespace Storyboard

variable {now : Nat} {s : Stage} {pacing : Pacing}

/-! ### Staying where it is -/

namespace Performance

variable {p : Performance}

/-- A performance that cannot go on stays as it is. -/
theorem resume_of_not_ready (h : p.isReady now = false) : p.resume now s = (s, p) := by
  have hnone : ∀ m ∈ p.members, m.isReady now = false := by
    have hstrands : p.strands.any (·.isReady now) = false := h
    intro m hm
    exact Bool.eq_false_iff.2 (List.any_eq_false.1 hstrands _ (List.mem_map_of_mem hm))
  have hall : p.members.filter (!·.isReady now) = p.members :=
    List.filter_eq_self.2 fun m hm => by rw [hnone m hm]; rfl
  rw [resume, Member.lineUp_eq_nil p.crowded hnone, hall]
  exact congrArg (fun members => (s, { p with members })) (List.append_nil _)

/-- From the time on that a performance names it can go on. -/
theorem isReady_of_due {due : Nat} (h : p.due? = some due) (hnow : due ≤ now) :
    p.isReady now = true := by
  obtain ⟨t, ht, htime⟩ := List.mem_filterMap.1 (List.min?_mem h)
  refine List.any_eq_true.2 ⟨t, ht, ?_⟩
  cases t with
  | «over» => cases htime
  | resting wait rest =>
    cases wait with
    | turn => rfl
    | time time =>
      obtain rfl := Option.some.inj htime
      exact decide_eq_true hnow

end Performance

/-! ### The instant pacing -/

namespace Strand

/-- In the instant pacing a strand waits for a turn. -/
theorem due?_follow (now : Nat) (s : Stage) (cues : List Cue) :
    (follow now .instant s cues).2.due? = none := by
  induction cues generalizing s with
  | nil => rfl
  | cons c rest ih =>
    cases c with
    | act a => exact ih _
    | wait d => rfl
    | flashes n id h hold =>
      cases n with
      | zero => exact ih _
      | succ n => rfl

theorem due?_followAll (now : Nat) (s : Stage) (cues : List (List Cue)) :
    ∀ t ∈ (followAll now .instant s cues).2, t.due? = none := by
  induction cues generalizing s with
  | nil => exact fun t ht => nomatch ht
  | cons l rest ih =>
    intro t ht
    rcases List.mem_cons.1 ht with rfl | ht
    · exact due?_follow now s l
    · exact ih _ t ht

theorem due?_resumeAll {ts : List Strand} (h : ∀ t ∈ ts, t.due? = none) (now : Nat) (s : Stage) :
    ∀ t ∈ (resumeAll now .instant s ts).2, t.due? = none := by
  induction ts generalizing s with
  | nil => exact fun t ht => nomatch ht
  | cons u rest ih =>
    intro t ht
    rcases List.mem_cons.1 ht with rfl | ht
    · cases u with
      | «over» => rfl
      | resting wait rest =>
        show (resume now .instant s (.resting wait rest)).2.due? = none
        unfold resume
        dsimp only
        split
        · exact due?_follow now s rest
        · exact h _ List.mem_cons_self
    · exact ih (fun t ht => h t (List.mem_cons_of_mem _ ht)) _ t ht

end Strand

namespace Performance

/-- A performance in the instant pacing, which waits for nothing but its next turn. -/
structure Instant (p : Performance) : Prop where
  pacing : p.pacing = .instant
  turns  : ∀ t ∈ p.strands, t.due? = none

variable {p : Performance}

theorem instant_start (now : Nat) (s : Stage) (commands : List Json) :
    (start now .instant s commands).2.Instant := by
  refine ⟨rfl, ?_⟩
  rw [strands_start]
  induction commands generalizing s with
  | nil => exact fun t ht => nomatch ht
  | cons command rest ih =>
    intro t ht
    obtain ⟨c, hc, ht⟩ := List.mem_flatMap.1 ht
    rcases List.mem_cons.1 hc with rfl | hc
    · -- What a command leaves are strands that were just begun.
      split at ht
      · cases ht
      · split at ht
        · cases ht
        · exact Strand.due?_followAll now _ _ t ht
    · exact ih _ t (List.mem_flatMap.2 ⟨c, hc, ht⟩)

theorem Instant.resume (h : p.Instant) (now : Nat) (s : Stage) : (p.resume now s).2.Instant := by
  obtain ⟨ts, hts, _, hleft⟩ := resume_eq now s p
  rw [h.pacing] at hleft
  refine ⟨h.pacing, fun t ht => ?_⟩
  exact Strand.due?_resumeAll (fun u hu => h.turns u (hts.mem_iff.1 hu)) now s t
    (hleft.mem_iff.1 ht)

/-- It can always go on. -/
theorem Instant.isReady (h : p.Instant) (hopen : p.isOver = false) (now : Nat) :
    p.isReady now = true := by
  cases hready : p.isReady now with
  | true => rfl
  | false =>
    obtain ⟨due, hdue, _⟩ := exists_due hopen hready
    obtain ⟨t, ht, htime⟩ := List.mem_filterMap.1 (List.min?_mem hdue)
    rw [h.turns t ht] at htime
    cases htime

end Performance

end Storyboard
