import Mathlib.Data.List.Nodup
import Storyboard.Proofs.Stage.Execution
import Storyboard.Playback.Call

/-! # At the gate

    Everyone who has something to do on the stage of a player stands at its
    gate with a ticket: in line, or at the head and at work. The tickets are
    those of the line, and whoever works is at its head, so only one works at
    a time. As long as nobody works, the stage is settled: it is as the
    timeline leaves it before the step under the cursor. Who works keeps it on
    its way to such a stage (`Ordered`). -/

namespace Storyboard

/-! ### Waiting lines -/

/-- These tickets, in some order, are the line. -/
structure Line.Holds (l : Line) (tickets : List Nat) : Prop where
  nodup : l.waiting.Nodup
  below : ∀ t ∈ l.waiting, t < l.next
  perm  : tickets.Perm l.waiting

namespace Line.Holds

variable {l : Line} {t : Nat} {tickets others : List Nat}

theorem empty : Line.empty.Holds [] :=
  ⟨List.nodup_nil, by simp [Line.empty], List.Perm.nil⟩

theorem trans (h : l.Holds tickets) (hperm : others.Perm tickets) : l.Holds others :=
  ⟨h.nodup, h.below, hperm.trans h.perm⟩

theorem join (h : l.Holds tickets) : l.join.1.Holds (l.join.2 :: tickets) := by
  refine ⟨?_, ?_, ?_⟩
  · refine List.nodup_append.2 ⟨h.nodup, List.nodup_singleton _, ?_⟩
    intro a ha b hb
    rw [List.mem_singleton.1 hb]
    exact Nat.ne_of_lt (h.below a ha)
  · intro t ht
    rcases List.mem_append.1 ht with ht | ht
    · exact Nat.lt_succ_of_lt (h.below t ht)
    · rw [List.mem_singleton.1 ht]
      exact Nat.lt_succ_self _
  · exact (List.Perm.cons _ h.perm).trans (List.perm_append_singleton _ _).symm

theorem leave (h : l.Holds (t :: tickets)) : (l.leave t).Holds tickets := by
  have hnodup := h.perm.nodup_iff.2 h.nodup
  refine ⟨h.nodup.filter _, fun u hu => h.below u (List.mem_filter.1 hu).1, ?_⟩
  have hfilter := h.perm.filter fun u => u != t
  -- Nobody has a ticket twice, so nobody else leaves.
  have hkeep : tickets.filter (fun u => u != t) = tickets := by
    refine List.filter_eq_self.2 fun u hu => bne_iff_ne.2 ?_
    rintro rfl
    exact (List.nodup_cons.1 hnodup).1 hu
  rwa [List.filter_cons_of_neg (by simp), hkeep] at hfilter

/-- Nobody else is at the head. -/
theorem not_leads (h : l.Holds (t :: tickets)) (ht : l.leads t = true) :
    ∀ u ∈ tickets, l.leads u = false := by
  intro u hu
  rw [Bool.eq_false_iff]
  intro hleads
  obtain rfl := Line.eq_of_leads ht hleads
  exact (List.nodup_cons.1 (h.perm.nodup_iff.2 h.nodup)).1 hu

/-- Where there are no tickets, the line is empty. -/
theorem waiting_eq_nil (h : l.Holds []) : l.waiting = [] := h.perm.symm.eq_nil

end Line.Holds

/-! ### The scene before a step -/

/-- The scene that the setup and the steps before some place leave behind. -/
def Timeline.sceneAt (t : Timeline) (place : Nat) : Scene :=
  (t.before place).foldl Scene.after .empty

theorem Timeline.sceneAt_succ {t : Timeline} {place : Nat} {step : Step}
    (h : t.steps[place]? = some step) :
    t.sceneAt (place + 1) = (t.sceneAt place).after step.commands := by
  unfold Timeline.sceneAt Timeline.before
  rw [List.take_add_one, h]
  simp

/-- The stage is as the timeline leaves it before the step under the cursor. -/
structure Player.Settled (p : Player) : Prop where
  coherent : p.stage.Coherent ∅
  scene    : p.stage.scene = p.timeline.sceneAt p.cursor
  cursor   : p.cursor ≤ p.total

/-! ### Who stands where -/

/-- What somebody does on the stage. -/
inductive Work where
  /-- The commands of the step at a place are performed. -/
  | performing (place : Nat) (step : Step) (p : Performance)
  /-- The stage is rebuilt up to the step at `goal`. -/
  | rebuilding (goal : Nat) (p : Performance) (rest : List (List Json))

/-- The work will leave the stage as the timeline says. -/
def Work.Valid (p : Player) : Work → Prop
  | .performing place step perf => p.timeline.steps[place]? = some step ∧
    ∃ report, p.stage.Settling ((p.timeline.sceneAt place).after step.commands) report perf
  | .rebuilding goal perf rest => goal ≤ p.total ∧
    ∃ t report, p.stage.Settling t report perf ∧ rest.foldl Scene.after t = p.timeline.sceneAt goal

/-- How somebody stands at the gate. -/
inductive Standing where
  /-- Not at all. -/
  | away
  /-- In line. -/
  | queued (ticket : Nat)
  /-- At the head, at work on the stage. -/
  | working (ticket : Nat) (work : Work)
  /-- At the head, with the stage settled. -/
  | trailing (ticket : Nat)

namespace Standing

/-- The ticket. -/
def ticket? : Standing → Option Nat
  | .away => none
  | .queued ticket => some ticket
  | .working ticket _ => some ticket
  | .trailing ticket => some ticket

/-- The work. -/
def work? : Standing → Option Work
  | .working _ work => some work
  | _ => none

/-- Whether it is at the head. -/
def Leads (l : Line) : Standing → Prop
  | .working ticket _ => l.leads ticket = true
  | .trailing ticket => l.leads ticket = true
  | _ => True

theorem leads_of_work? {l : Line} {s : Standing} {w : Work} (h : s.work? = some w)
    (hs : s.Leads l) : ∃ t, s.ticket? = some t ∧ l.leads t = true := by
  cases s with
  | working t w => exact ⟨t, rfl, hs⟩
  | _ => cases h

end Standing

/-- How a player is while others stand at its gate. -/
structure Player.Ordered (p : Player) (standings : List Standing) : Prop where
  line    : p.gate.Holds (standings.filterMap (·.ticket?))
  leads   : ∀ s ∈ standings, s.Leads p.gate
  valid   : ∀ s ∈ standings, ∀ w, s.work? = some w → w.Valid p
  settled : (∀ s ∈ standings, s.work? = none) → p.Settled

namespace Player.Ordered

variable {p q : Player} {s s' : Standing} {l l' : List Standing} {t : Nat}

theorem perm (h : p.Ordered l) (hperm : l.Perm l') : p.Ordered l' := by
  refine ⟨h.line.trans (hperm.symm.filterMap _), ?_, ?_, ?_⟩
  · exact fun s hs => h.leads s (hperm.mem_iff.2 hs)
  · exact fun s hs => h.valid s (hperm.mem_iff.2 hs)
  · exact fun hidle => h.settled fun s hs => hidle s (hperm.mem_iff.1 hs)

/-- Who is not at the gate does not count. -/
theorem away_iff : p.Ordered (.away :: l) ↔ p.Ordered l := by
  constructor
  · intro h
    refine ⟨h.line, ?_, ?_, ?_⟩
    · exact fun s hs => h.leads s (List.mem_cons_of_mem _ hs)
    · exact fun s hs => h.valid s (List.mem_cons_of_mem _ hs)
    · refine fun hidle => h.settled fun s hs => ?_
      rcases List.mem_cons.1 hs with rfl | hs
      · rfl
      · exact hidle s hs
  · intro h
    refine ⟨h.line, ?_, ?_, ?_⟩
    · intro s hs
      rcases List.mem_cons.1 hs with rfl | hs
      · trivial
      · exact h.leads s hs
    · intro s hs
      rcases List.mem_cons.1 hs with rfl | hs
      · rintro w ⟨⟩
      · exact h.valid s hs
    · exact fun hidle => h.settled fun s hs => hidle s (List.mem_cons_of_mem _ hs)

/-- Only the gate, the stage, the timeline and the cursor matter. -/
theorem congr (h : p.Ordered l) (hgate : q.gate = p.gate) (hstage : q.stage = p.stage)
    (htimeline : q.timeline = p.timeline) (hcursor : q.cursor = p.cursor) : q.Ordered l := by
  have htotal : q.total = p.total := congrArg Timeline.length htimeline
  refine ⟨hgate ▸ h.line, hgate ▸ h.leads, ?_, ?_⟩
  · intro s hs w hw
    have hvalid := h.valid s hs w hw
    cases w <;> simpa only [Work.Valid, hstage, htimeline, htotal] using hvalid
  · intro hidle
    obtain ⟨hcoherent, hscene, hle⟩ := h.settled hidle
    exact ⟨hstage ▸ hcoherent, by rw [hstage, htimeline, hcursor, hscene],
      by rw [hcursor, htotal]; exact hle⟩

/-- Whoever joins the line waits. -/
theorem enqueue (h : p.Ordered l) : p.enqueue.1.Ordered (.queued p.enqueue.2 :: l) := by
  refine ⟨h.line.join, ?_, ?_, ?_⟩
  · intro s hs
    rcases List.mem_cons.1 hs with rfl | hs
    · trivial
    · have hleads := h.leads s hs
      cases s with
      | working t w => exact Line.leads_join_of_leads hleads
      | trailing t => exact Line.leads_join_of_leads hleads
      | _ => trivial
  · intro s hs w hw
    rcases List.mem_cons.1 hs with rfl | hs
    · cases hw
    · have hvalid := h.valid s hs w hw
      cases w <;> exact hvalid
  · intro hidle
    obtain ⟨hcoherent, hscene, hle⟩ := h.settled fun s hs => hidle s (List.mem_cons_of_mem _ hs)
    exact ⟨hcoherent, hscene, hle⟩

/-- Where somebody is at the head, nobody else works. -/
theorem others_idle (h : p.Ordered (s :: l)) (ht : s.ticket? = some t)
    (hleads : p.gate.leads t = true) : ∀ u ∈ l, u.work? = none := by
  intro u hu
  cases hw : u.work? with
  | none => rfl
  | some w =>
    -- Whoever works is at the head, and there is only one head.
    obtain ⟨t', ht', hleads'⟩ := Standing.leads_of_work? hw
      (h.leads u (List.mem_cons_of_mem _ hu))
    have hline := h.line
    rw [List.filterMap_cons_some ht] at hline
    rw [hline.not_leads hleads t' (List.mem_filterMap.2 ⟨u, hu, ht'⟩)] at hleads'
    cases hleads'

/-- The stage is settled when somebody at the head does not work. -/
theorem settled_of_leads (h : p.Ordered (s :: l)) (ht : s.ticket? = some t)
    (hleads : p.gate.leads t = true) (hidle : s.work? = none) : p.Settled := by
  refine h.settled fun u hu => ?_
  rcases List.mem_cons.1 hu with rfl | hu
  · exact hidle
  · exact h.others_idle ht hleads u hu

/-- Whoever is at the head may do anything on the stage that leads to where the timeline says. -/
theorem act (h : p.Ordered (s :: l)) (ht : s.ticket? = some t) (hleads : p.gate.leads t = true)
    (hgate : q.gate = p.gate) (ht' : s'.ticket? = some t)
    (hvalid : ∀ w, s'.work? = some w → w.Valid q) (hsettled : s'.work? = none → q.Settled) :
    q.Ordered (s' :: l) := by
  have hidle := h.others_idle ht hleads
  refine ⟨?_, ?_, ?_, ?_⟩
  · have hline := h.line
    rwa [List.filterMap_cons_some ht, ← List.filterMap_cons_some ht', ← hgate] at hline
  · intro u hu
    rw [hgate]
    rcases List.mem_cons.1 hu with rfl | hu
    · cases u with
      | working t' w => exact (Option.some.inj ht').symm ▸ hleads
      | trailing t' => exact (Option.some.inj ht').symm ▸ hleads
      | _ => trivial
    · exact h.leads u (List.mem_cons_of_mem _ hu)
  · intro u hu w hw
    rcases List.mem_cons.1 hu with rfl | hu
    · exact hvalid w hw
    · rw [hidle u hu] at hw
      cases hw
  · exact fun hall => hsettled (hall s' List.mem_cons_self)

/-- Whoever is at the head may leave it with the stage settled. -/
theorem leave (h : p.Ordered (s :: l)) (ht : s.ticket? = some t) (hleads : p.gate.leads t = true)
    (hgate : q.gate = p.gate) (hsettled : q.Settled) : (q.leave t).Ordered l := by
  have hidle := h.others_idle ht hleads
  have hline := h.line
  rw [List.filterMap_cons_some ht] at hline
  refine ⟨?_, ?_, ?_, ?_⟩
  · change (q.gate.leave t).Holds _
    rw [hgate]
    exact hline.leave
  · intro u hu
    have hstands := h.leads u (List.mem_cons_of_mem _ hu)
    cases u with
    | working t' w => cases hidle _ hu
    | trailing t' =>
      have hother := hline.not_leads hleads t' (List.mem_filterMap.2 ⟨_, hu, rfl⟩)
      rw [show p.gate.leads t' = true from hstands] at hother
      cases hother
    | _ => trivial
  · intro u hu w hw
    rw [hidle u hu] at hw
    cases hw
  · exact fun _ => ⟨hsettled.coherent, hsettled.scene, hsettled.cursor⟩

end Player.Ordered

end Storyboard
