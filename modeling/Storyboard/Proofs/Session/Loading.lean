import Storyboard.Proofs.Playback.Backward
import Storyboard.Proofs.Session.Calls

/-! # Loading

    A payload replaces the header at once, but its timeline waits at the gate
    behind whoever is there. Those who joined the line first are first, so of
    several timelines under way the last one to be asked for is the last one to
    come: it is the timeline of the player, or will be (`Destined`). A load
    begins a new epoch, so unless somebody calls again nobody stands behind it,
    and what it leaves behind stays (`Returning`). When all calls have returned,
    the header and the timeline are those of the last payload that decoded
    (`loaded_after`). -/

namespace Storyboard

namespace Player

variable {p q : Player} {t u v : Task} {ts us : List Task} {a b : Advance} {deeds : List Deed}
  {l : List Standing}
  {timeline timeline' : Timeline} {epoch now ticket : Nat} {call : Call}

/-! ### Those who wait to load -/

/-- The ticket and the timeline of a call that waits at the gate in order to load. -/
def Task.load? : Task → Option (Nat × Timeline)
  | .rewinding ticket (.load timeline) => some (ticket, timeline)
  | _ => none

/-- The timeline that a call brings. -/
def Call.timeline? : Call → Option Timeline
  | .load timeline => some timeline
  | _ => none

/-- Who waits to load stands in line. -/
theorem ticket_of_load? {x : Nat × Timeline} (h : t.load? = some x) :
    t.standing.ticket? = some x.1 := by
  cases t with
  | rewinding ticket goal =>
    cases goal with
    | load timeline =>
      obtain rfl := Option.some.inj h
      rfl
    | seek place => cases h
  | _ => cases h

/-- Only who waits to load and is at the head brings another timeline, and it waits no more. -/
theorem Move.load (h : Move now p t deeds q u) :
    u.load? = none ∧
      (t.load? = none ∧ q.timeline = p.timeline ∨
        ∃ x, t.load? = some x ∧ q.timeline = x.2 ∧ p.gate.leads x.1 = true) := by
  cases h with
  | @rewind ticket goal hleads =>
    cases goal with
    | load timeline =>
      exact ⟨rfl, .inr ⟨_, rfl, timeline_rebuild { p with timeline } now 0, hleads⟩⟩
    | seek place => exact ⟨rfl, .inl ⟨rfl, timeline_rebuild p now place⟩⟩
  | rebuild hready hr => exact ⟨rfl, .inl ⟨rfl, timeline_resumeRebuild hr⟩⟩
  | wrap hleads hcurrent => exact ⟨rfl, .inl ⟨rfl, timeline_rebuild p now 0⟩⟩
  | rewrap hready hr => exact ⟨rfl, .inl ⟨rfl, timeline_resumeRebuild hr⟩⟩
  | play hstrides => exact ⟨rfl, .inl ⟨rfl, timeline_of_strides hstrides⟩⟩
  | step hstrides => exact ⟨rfl, .inl ⟨rfl, timeline_of_strides hstrides⟩⟩
  | @finish epoch report => exact ⟨rfl, .inl ⟨rfl, (p.finishPlay_same epoch report).2.1⟩⟩
  | _ => exact ⟨rfl, .inl ⟨rfl, rfl⟩⟩

/-- Only to load a timeline is to wait for that, with a ticket that nobody had before. -/
theorem load?_enter (p : Player) (call : Call) :
    (p.enter call).1.timeline = p.timeline ∧
      (p.enter call).2.load? = call.timeline?.map fun timeline => (p.gate.next, timeline) := by
  cases call with
  | play =>
    show p.enterPlay.1.timeline = p.timeline ∧ p.enterPlay.2.load? = none
    unfold enterPlay
    split
    · exact ⟨rfl, rfl⟩
    · split <;> exact ⟨rfl, rfl⟩
  | stepBackward =>
    unfold enter
    cases p.cursor <;> exact ⟨rfl, rfl⟩
  | _ => exact ⟨rfl, rfl⟩

/-! ### The timeline that will be there -/

/-- Those who wait to load. -/
def loads (ts : List Task) : List (Nat × Timeline) := ts.filterMap (·.load?)

/-- Of those who wait to load the last one in line brings this timeline; if nobody does, it is the
    timeline of the player. -/
structure Destined (timeline : Timeline) (p : Player) (ts : List Task) : Prop where
  queued  : p.Queued (ts.map Task.standing)
  arrives : (∃ ticket, (ticket, timeline) ∈ loads ts ∧ ∀ x ∈ loads ts, x.1 ≤ ticket) ∨
    p.timeline = timeline ∧ loads ts = []

/-- Who waits to load is in line. -/
theorem mem_waiting_of_loads (h : p.Queued (ts.map Task.standing)) {x : Nat × Timeline}
    (hx : x ∈ loads ts) : x.1 ∈ p.gate.waiting := by
  obtain ⟨t, ht, hload⟩ := List.mem_filterMap.1 hx
  exact h.1.line.perm.mem_iff.1
    (List.mem_filterMap.2 ⟨t.standing, List.mem_map_of_mem ht, ticket_of_load? hload⟩)

/-- Others have other tickets. -/
theorem ticket_ne_of_others (h : p.Queued ((t :: ts).map Task.standing))
    (ht : t.standing.ticket? = some ticket) (hu : u ∈ ts) : u.standing.ticket? ≠ some ticket := by
  intro hsame
  have hline := h.1.line
  rw [List.map_cons, List.filterMap_cons_some ht] at hline
  exact (List.nodup_cons.1 (hline.perm.nodup_iff.2 hline.nodup)).1
    (List.mem_filterMap.2 ⟨_, List.mem_map_of_mem hu, hsame⟩)

theorem Destined.perm (h : p.Destined timeline ts) (hperm : ts.Perm us) :
    p.Destined timeline us := by
  have hloads : (loads ts).Perm (loads us) := hperm.filterMap _
  refine ⟨⟨h.queued.1.perm (hperm.map _), h.queued.2⟩, ?_⟩
  rcases h.arrives with ⟨ticket, hmem, hlast⟩ | ⟨hsame, hnone⟩
  · exact .inl ⟨ticket, hloads.mem_iff.1 hmem, fun x hx => hlast x (hloads.mem_iff.2 hx)⟩
  · exact .inr ⟨hsame, (hnone ▸ hloads).symm.eq_nil⟩

/-- A call that begins stands behind all others, so if it brings a timeline, that is the last. -/
theorem Destined.enter (h : p.Destined timeline ts) (call : Call) :
    (p.enter call).1.Destined (call.timeline?.getD timeline) ((p.enter call).2 :: ts) := by
  obtain ⟨hsame, hload⟩ := p.load?_enter call
  refine ⟨kept_queued.keeps.enter (p.entered call) h.queued, ?_⟩
  cases hcall : call.timeline? with
  | none =>
    rw [hcall] at hload
    have hloads : loads ((p.enter call).2 :: ts) = loads ts := List.filterMap_cons_none hload
    rw [hloads, hsame]
    exact h.arrives
  | some timeline' =>
    rw [hcall] at hload
    have hloads : loads ((p.enter call).2 :: ts) = (p.gate.next, timeline') :: loads ts :=
      List.filterMap_cons_some hload
    rw [hloads]
    refine .inl ⟨p.gate.next, List.mem_cons_self, List.forall_mem_cons.2 ⟨Nat.le_refl _, ?_⟩⟩
    exact fun x hx => Nat.le_of_lt (h.queued.1.line.below _ (mem_waiting_of_loads h.queued hx))

theorem Destined.move (h : p.Destined timeline (t :: ts)) (hmove : Move now p t deeds q u) :
    q.Destined timeline (u :: ts) := by
  obtain ⟨hnone, hload⟩ := hmove.load
  refine ⟨kept_queued.keeps.move hmove h.queued, ?_⟩
  have hloads : loads (u :: ts) = loads ts := List.filterMap_cons_none hnone
  rw [hloads]
  rcases hload with ⟨ht, hsame⟩ | ⟨x, ht, hbrought, hleads⟩
  · have hbefore : loads (t :: ts) = loads ts := List.filterMap_cons_none ht
    rw [hsame, ← hbefore]
    exact h.arrives
  · -- Whoever brings a timeline is at the head, so all others who wait to load come later.
    have hbefore : loads (t :: ts) = x :: loads ts := List.filterMap_cons_some ht
    have hfirst : ∀ y ∈ loads (t :: ts), x.1 ≤ y.1 := fun y hy =>
      h.queued.le_of_leads hleads (mem_waiting_of_loads h.queued hy)
    have harrives := h.arrives
    rw [hbefore] at harrives hfirst
    rcases harrives with ⟨ticket, hmem, hlast⟩ | ⟨_, hempty⟩
    · rcases List.mem_cons.1 hmem with rfl | hmem
      · -- It was the last one in line, and as the first one it is the only one.
        refine .inr ⟨hbrought, List.eq_nil_iff_forall_not_mem.2 fun y hy => ?_⟩
        obtain ⟨v, hv, hy'⟩ := List.mem_filterMap.1 hy
        have hticket : y.1 = ticket := Nat.le_antisymm (hlast y (List.mem_cons_of_mem _ hy))
          (hfirst y (List.mem_cons_of_mem _ hy))
        exact ticket_ne_of_others h.queued (ticket_of_load? ht) hv
          ((ticket_of_load? hy').trans (congrArg some hticket))
      · exact .inl ⟨ticket, hmem, fun y hy => hlast y (List.mem_cons_of_mem _ hy)⟩
    · cases hempty

/-! ### Back to the start -/

/-- The call waits at the gate to load the timeline, or is at its head and leads to the start of
    it. -/
inductive Homing (timeline : Timeline) (p : Player) (ticket : Nat) : Task → Prop
  | waiting : Homing timeline p ticket (.rewinding ticket (.load timeline))
  | heading {r : Rebuild} (hleads : p.gate.leads ticket = true) (htimeline : p.timeline = timeline)
      (hbound : r.BoundFor 0 p) : Homing timeline p ticket (.rebuilding ticket r)

/-- A call that loads the timeline is the last one in line, and everybody else belongs to an epoch
    that is over; or nobody stands at the gate, with the cursor at the start. -/
structure Returning (timeline : Timeline) (p : Player) (ts : List Task) : Prop where
  queued : p.Queued (ts.map Task.standing)
  stale  : ∀ t ∈ ts, t.epoch? ≠ some p.epoch
  homes  : (∃ ticket, p.gate.next = ticket + 1 ∧ ∃ t ∈ ts, Homing timeline p ticket t) ∨
    p.timeline = timeline ∧ p.cursor = 0 ∧ ∀ t ∈ ts, t.standing.ticket? = none

theorem ticket_of_homing (h : Homing timeline p ticket t) :
    t.standing.ticket? = some ticket := by
  cases h with
  | waiting => rfl
  | @heading r hleads htimeline hbound => exact standing_ticket? ticket r

/-- Whoever belongs to an epoch that is over does not join the line. -/
theorem Move.next_of_stale (h : Move now p t deeds q u) (ht : t.epoch? ≠ some p.epoch) :
    q.gate.next = p.gate.next := by
  have hstrides : ∀ {epoch a deeds b}, Strides epoch now p a deeds q b →
      q.gate.next = p.gate.next := fun h => h.steers.2.1
  cases h with
  | rewind hleads => exact congrArg Line.next (reset_goal p now _).same.2.2
  | rebuild hready hr => exact congrArg Line.next (reset_resumeRebuild hr).same.2.2
  | wrap hleads hcurrent => exact congrArg Line.next (reset_rebuild p now 0).same.2.2
  | rewrap hready hr => exact congrArg Line.next (reset_resumeRebuild hr).same.2.2
  | play h => exact hstrides h
  | step h => exact hstrides h
  | next hcurrent => exact absurd (congrArg some hcurrent.symm) ht
  | @finish epoch report => exact congrArg Line.next (p.finishPlay_same epoch report).2.2.2.1
  | _ => rfl

/-- Where a call that is behind all others is at the head, nobody else stands at the gate. -/
theorem alone_of_leads (h : p.Queued ((t :: ts).map Task.standing))
    (ht : t.standing.ticket? = some ticket) (hleads : p.gate.leads ticket = true)
    (hnext : p.gate.next = ticket + 1) : ∀ u ∈ ts, u.standing.ticket? = none := by
  intro u hu
  cases hticket : u.standing.ticket? with
  | none => rfl
  | some ticket' =>
    have hmem : ticket' ∈ p.gate.waiting := h.1.line.perm.mem_iff.1
      (List.mem_filterMap.2 ⟨_, List.mem_map_of_mem (List.mem_cons_of_mem _ hu), hticket⟩)
    have hbehind := h.le_of_leads hleads hmem
    have hbelow := h.1.line.below _ hmem
    obtain rfl : ticket' = ticket := by omega
    exact absurd hticket (ticket_ne_of_others h ht hu)

/-- What becomes of the call that loads the timeline. -/
theorem Homing.move (h : Homing timeline p ticket t) (hmove : Move now p t deeds q u) :
    Homing timeline q ticket u ∨
      p.gate.leads ticket = true ∧ q.timeline = timeline ∧ q.cursor = 0 ∧
        u.standing.ticket? = none := by
  -- The call waits for the gate or heads for its timeline, and a move of its own carries it
  -- further.
  cases h with
  | waiting =>
    cases hmove with
    | rewind hleads =>
      have hgoal : Goal.BoundFor timeline 0 p (.load timeline) := ⟨rfl, rfl⟩
      obtain ⟨htimeline, hbound⟩ := boundFor_rebuild hgoal now
      refine .inl (.heading ?_ htimeline hbound)
      rw [(reset_goal p now (.load timeline)).same.2.2]
      exact hleads
  | heading hleads htimeline hbound =>
    cases hmove with
    | rebuild hready hr =>
      obtain ⟨hsame, hbound'⟩ := boundFor_resumeRebuild hbound now
      rw [hr] at hsame hbound'
      refine .inl (.heading ?_ (hsame.trans htimeline) hbound')
      rw [(reset_resumeRebuild hr).same.2.2]
      exact hleads
    | rebuilt => exact .inr ⟨hleads, htimeline, hbound, rfl⟩

/-- It stays as it is while others move. -/
theorem Homing.others (h : Homing timeline p ticket t) (hordered : p.Ordered (u.standing :: l))
    (ht : t.standing ∈ l) (hmove : Move now p u deeds q v) : Homing timeline q ticket t := by
  cases h with
  | waiting => exact .waiting
  | @heading r hleads htimeline hbound =>
    have hticket := standing_ticket? ticket r
    -- While the call is at the head nobody else moves the cursor.
    obtain ⟨hsame, hcursor, ticket', hticket', hleads'⟩ :=
      hmove.apart hordered ht ⟨ticket, hticket, hleads⟩
    obtain rfl : ticket' = ticket := Option.some.inj (hticket'.symm.trans hticket)
    refine .heading hleads' (hsame.trans htimeline) ?_
    cases r with
    | performing goal perf rest report => exact hbound
    | «over» report => exact hcursor.trans hbound

theorem Returning.perm (h : p.Returning timeline ts) (hperm : ts.Perm us) :
    p.Returning timeline us := by
  refine ⟨⟨h.queued.1.perm (hperm.map _), h.queued.2⟩,
    fun t ht => h.stale t (hperm.mem_iff.2 ht), ?_⟩
  rcases h.homes with ⟨ticket, hnext, t, ht, hhoming⟩ | ⟨htimeline, hcursor, hnone⟩
  · exact .inl ⟨ticket, hnext, t, hperm.mem_iff.1 ht, hhoming⟩
  · exact .inr ⟨htimeline, hcursor, fun t ht => hnone t (hperm.mem_iff.2 ht)⟩

/-- Who has returned is not behind anybody. -/
theorem Returning.returned {report : Option Report}
    (h : p.Returning timeline (.over report :: ts)) : p.Returning timeline ts := by
  refine ⟨kept_queued.keeps.returned h.queued, (List.forall_mem_cons.1 h.stale).2, ?_⟩
  rcases h.homes with ⟨ticket, hnext, t, ht, hhoming⟩ | ⟨htimeline, hcursor, hnone⟩
  · rcases List.mem_cons.1 ht with rfl | ht
    · cases hhoming
    · exact .inl ⟨ticket, hnext, t, ht, hhoming⟩
  · exact .inr ⟨htimeline, hcursor, (List.forall_mem_cons.1 hnone).2⟩

/-- Only the gate, the epoch, the timeline and the cursor matter. -/
theorem Returning.congr (h : p.Returning timeline ts) (hqueued : q.Queued (ts.map Task.standing))
    (hgate : q.gate = p.gate) (hepoch : q.epoch = p.epoch) (htimeline : q.timeline = p.timeline)
    (hcursor : q.cursor = p.cursor) : q.Returning timeline ts := by
  refine ⟨hqueued, hepoch ▸ h.stale, ?_⟩
  rw [hgate, htimeline, hcursor]
  rcases h.homes with ⟨ticket, hnext, t, ht, hhoming⟩ | hhome
  · refine .inl ⟨ticket, hnext, t, ht, ?_⟩
    cases hhoming with
    | waiting => exact .waiting
    | @heading r hleads hsame hbound =>
      refine .heading (hgate ▸ hleads) (htimeline.trans hsame) ?_
      cases r with
      | performing goal perf rest report => exact hbound
      | «over» report => exact hcursor.trans hbound
  · exact .inr hhome

/-- To load a timeline is to begin an epoch of one's own. -/
theorem returning_enter (h : p.Queued (ts.map Task.standing))
    (hepochs : ∀ t ∈ ts, ∀ epoch, t.epoch? = some epoch → epoch ≤ p.epoch) (timeline : Timeline) :
    (p.enter (.load timeline)).1.Returning timeline ((p.enter (.load timeline)).2 :: ts) := by
  refine ⟨kept_queued.keeps.enter (p.entered _) h, ?_,
    .inl ⟨p.gate.next, rfl, _, List.mem_cons_self, .waiting⟩⟩
  refine List.forall_mem_cons.2 ⟨nofun, fun t ht hepoch => ?_⟩
  exact absurd (hepochs t ht _ hepoch) (Nat.not_succ_le_self p.epoch)

theorem Returning.move (h : p.Returning timeline (t :: ts)) (hmove : Move now p t deeds q u) :
    q.Returning timeline (u :: ts) := by
  have hsteers := hmove.steers
  obtain ⟨ht, hts⟩ := List.forall_mem_cons.1 h.stale
  refine ⟨kept_queued.keeps.move hmove h.queued, ?_, ?_⟩
  · rw [hsteers.same]
    exact List.forall_mem_cons.2 ⟨fun hu => ht (hsteers.origin hu), hts⟩
  · rcases h.homes with ⟨ticket, hnext, v, hv, hhoming⟩ | ⟨htimeline, hcursor, hnone⟩
    · have hsame := hmove.next_of_stale ht
      rcases List.mem_cons.1 hv with rfl | hv
      · -- The call that loads makes the move. If it returns, nobody else stands at the gate.
        rcases hhoming.move hmove with hhoming' | ⟨hleads, htimeline, hcursor, hleft⟩
        · exact .inl ⟨ticket, hsame.trans hnext, u, List.mem_cons_self, hhoming'⟩
        · exact .inr ⟨htimeline, hcursor, List.forall_mem_cons.2
            ⟨hleft, alone_of_leads h.queued (ticket_of_homing hhoming) hleads hnext⟩⟩
      · exact .inl ⟨ticket, hsame.trans hnext, v, List.mem_cons_of_mem _ hv,
          hhoming.others h.queued.1 (List.mem_map_of_mem hv) hmove⟩
    · -- Only who stands at the gate brings a timeline or moves the cursor, and only who belongs to
      -- the epoch gets in line.
      obtain ⟨hleft, hothers⟩ := List.forall_mem_cons.1 hnone
      refine .inr ⟨?_, ?_, List.forall_mem_cons.2 ⟨?_, hothers⟩⟩
      · rcases hmove.load.2 with ⟨_, hsame⟩ | ⟨x, hload, _⟩
        · exact hsame.trans htimeline
        · rw [ticket_of_load? hload] at hleft
          cases hleft
      · have hleads : t.standing.Leads p.gate := h.queued.1.leads _ List.mem_cons_self
        rcases hmove.quiet_or_heads hleads with ⟨_, hsame, _⟩ | ⟨ticket, hticket, _⟩
        · exact hsame.trans hcursor
        · rw [hleft] at hticket
          cases hticket
      · refine Option.eq_none_iff_forall_ne_some.2 fun ticket hticket => ?_
        rcases hsteers.ticket ticket hticket with hbefore | ⟨_, hepoch⟩
        · rw [hleft] at hbefore
          cases hbefore
        · exact ht hepoch

/-- If the last of some calls loads a timeline, the player returns to the start of that. -/
structure Heeds (cs : List Call) (p : Player) (ts : List Task) : Prop where
  queued  : p.Queued (ts.map Task.standing)
  epochs  : ∀ t ∈ ts, ∀ epoch, t.epoch? = some epoch → epoch ≤ p.epoch
  returns : ∀ timeline, cs.getLast? = some (.load timeline) → p.Returning timeline ts

namespace Heeds

variable {cs : List Call}

theorem perm (h : p.Heeds cs ts) (hperm : ts.Perm us) : p.Heeds cs us :=
  ⟨kept_queued.keeps.perm hperm h.queued, kept_epochs.keeps.perm hperm h.epochs,
    fun timeline hlast => (h.returns timeline hlast).perm hperm⟩

theorem enter (h : p.Heeds cs ts) (call : Call) :
    (p.enter call).1.Heeds (cs ++ [call]) ((p.enter call).2 :: ts) := by
  refine ⟨kept_queued.keeps.enter (p.entered call) h.queued,
    kept_epochs.keeps.enter (p.entered call) h.epochs, fun timeline hlast => ?_⟩
  rw [List.getLast?_concat] at hlast
  obtain rfl := Option.some.inj hlast
  exact returning_enter h.queued h.epochs timeline

theorem move (h : p.Heeds cs (t :: ts)) (hmove : Move now p t deeds q u) :
    q.Heeds cs (u :: ts) :=
  ⟨kept_queued.keeps.move hmove h.queued, kept_epochs.keeps.move hmove h.epochs,
    fun timeline hlast => (h.returns timeline hlast).move hmove⟩

theorem returned {report : Option Report} (h : p.Heeds cs (.over report :: ts)) :
    p.Heeds cs ts :=
  ⟨kept_queued.keeps.returned h.queued, kept_epochs.keeps.returned h.epochs,
    fun timeline hlast => (h.returns timeline hlast).returned⟩

theorem silence (h : p.Heeds cs ts) : p.silence.Heeds cs ts :=
  ⟨⟨h.queued.1.silence, h.queued.2⟩, h.epochs, fun timeline hlast =>
    (h.returns timeline hlast).congr ⟨h.queued.1.silence, h.queued.2⟩ rfl rfl rfl rfl⟩

theorem clearJournal (h : p.Heeds cs ts) : p.clearJournal.Heeds cs ts :=
  ⟨⟨h.queued.1.clearJournal, h.queued.2⟩, h.epochs, fun timeline hlast =>
    (h.returns timeline hlast).congr ⟨h.queued.1.clearJournal, h.queued.2⟩ rfl rfl rfl rfl⟩

end Heeds

end Player

/-! ### What was loaded last -/

namespace Session

open Ensemble

/-- The header after some actions. -/
def lastHeader (as : List Action) : Header :=
  ((as.filterMap Action.payload?).getLast?.map (·.header)).getD .usual

/-- The calls of some actions. -/
def callsOf (as : List Action) : List Player.Call := as.filterMap Action.call?

/-- The timeline after some calls, once they have returned. -/
def lastTimeline (cs : List Player.Call) : Timeline :=
  (cs.filterMap Player.Call.timeline?).getLast?.getD .empty

variable {a : Action} {as : List Action} {c : Player.Call} {cs : List Player.Call}

theorem call?_of_payload {payload : Payload} (h : a.payload? = some payload) :
    a.call? = some (.load payload.timeline) := by
  have hload : a.payload?.map (fun payload => Player.Call.load payload.timeline) =
      some (.load payload.timeline) := by
    rw [h]
    rfl
  cases a with
  | receive m =>
    cases m with
    | visualizationResponse data => exact hload
    | _ => cases h
  | load payload => exact hload
  | loadJson v => exact hload
  | loadText text => exact hload
  | _ => cases h

theorem payload?_of_no_call (h : a.call? = none) : a.payload? = none := by
  cases hpayload : a.payload? with
  | none => rfl
  | some payload =>
    rw [call?_of_payload hpayload] at h
    cases h

theorem callsOf_append (h : a.call? = some c) : callsOf (as ++ [a]) = callsOf as ++ [c] := by
  unfold callsOf
  rw [List.filterMap_append, List.filterMap_cons_some h]
  rfl

theorem callsOf_append_of_none (h : a.call? = none) : callsOf (as ++ [a]) = callsOf as := by
  unfold callsOf
  rw [List.filterMap_append, List.filterMap_cons_none h]
  exact List.append_nil _

theorem lastTimeline_append (cs : List Player.Call) (c : Player.Call) :
    lastTimeline (cs ++ [c]) = c.timeline?.getD (lastTimeline cs) := by
  unfold lastTimeline
  rw [List.filterMap_append]
  cases h : c.timeline? with
  | none =>
    rw [List.filterMap_cons_none h]
    simp
  | some timeline =>
    rw [List.filterMap_cons_some h]
    simp

theorem lastHeader_append (as : List Action) (a : Action) :
    lastHeader (as ++ [a]) = (a.payload?.map (·.header)).getD (lastHeader as) := by
  unfold lastHeader
  rw [List.filterMap_append]
  cases h : a.payload? with
  | none =>
    rw [List.filterMap_cons_none h]
    simp
  | some payload =>
    rw [List.filterMap_cons_some h]
    simp

/-- The header is that of the last payload, and its timeline is there or will be. -/
theorem upheld_destined : Upheld fun as s ts =>
    s.header = lastHeader as ∧ s.player.Destined (lastTimeline (callsOf as)) ts where
  perm hperm h := ⟨h.1, h.2.perm hperm⟩
  enter {as s ts a c} hcall h := by
    refine ⟨?_, ?_⟩
    · rw [lastHeader_append, ← h.1]
      exact prepare_header s a
    · rw [callsOf_append hcall, lastTimeline_append]
      refine Player.Destined.enter (prepare_induction
        (P := fun p => p.Destined (lastTimeline (callsOf as)) ts) ?_ h.2 a) c
      exact fun h => ⟨⟨h.queued.1.silence, h.queued.2⟩, h.arrives⟩
  skip hcall h := by
    rw [lastHeader_append, payload?_of_no_call hcall, callsOf_append_of_none hcall]
    exact h
  journal h := ⟨h.1, ⟨h.2.queued.1.clearJournal, h.2.queued.2⟩, h.2.arrives⟩
  move hmove h := ⟨h.1, h.2.move hmove⟩
  returned h := ⟨h.1, Player.kept_queued.keeps.returned h.2.queued, h.2.arrives⟩

/-- If the last call loads a timeline, the player returns to the start of that. -/
theorem upheld_heeds : Upheld fun as s ts => s.player.Heeds (callsOf as) ts where
  perm hperm h := h.perm hperm
  enter {as s ts a c} hcall h := by
    rw [callsOf_append hcall]
    exact (prepare_induction (P := fun p => p.Heeds (callsOf as) ts) Player.Heeds.silence h
      a).enter c
  skip hcall h := by
    rw [callsOf_append_of_none hcall]
    exact h
  journal h := h.clearJournal
  move hmove h := h.move hmove
  returned h := h.returned

/-! ### When all calls have returned -/

variable {e : Ensemble Session Action Task} {fault : Decode.Fault}

theorem decoded?_of_fault (h : a.fault? = some fault) : a.decoded? = some (.error fault) := by
  unfold Action.fault? at h
  split at h
  · next f hf =>
    obtain rfl := Option.some.inj h
    exact hf
  · cases h

/-- An action whose payload does not decode is over at once, and everything else is as before. -/
theorem step_of_fault {place time : Nat} (hbegun : e.begun? (.turn place time) = some a)
    (hfault : a.fault? = some fault) :
    e.step machine (.turn place time) =
      { e with
        now := max e.now time
        voices := e.voices.set place
          (.done (max e.now time) (max e.now time) (.over (.noPayload fault)) e.world) } := by
  unfold begun? at hbegun
  dsimp only at hbegun
  split at hbegun
  · next start a' hv =>
    split at hbegun
    · next hdue =>
      obtain rfl := Option.some.inj hbegun
      have hturn : Voice.turn machine (max e.now time) e.world (.pending start a') =
        Voice.settle machine (max e.now time) (max e.now time)
          (machine.start (max e.now time) e.world a') := if_pos hdue
      rw [step_turn_of_some hv, hturn, start_of_decoded (decoded?_of_fault hfault)]
      rfl
    · cases hbegun
  · cases hbegun

/-- Without timelines from elsewhere, the last timeline is that of the last payload. -/
theorem lastTimeline_eq {as : List Action} (h : ∀ timeline, .call (.load timeline) ∉ as) :
    lastTimeline (callsOf as) =
      ((as.filterMap Action.payload?).getLast?.map (·.timeline)).getD .empty := by
  -- Action by action: the timeline that its call brings is that of its payload.
  have hone : ∀ a ∈ as, a.call?.bind Player.Call.timeline? = a.payload?.map (·.timeline) := by
    intro a ha
    cases hpayload : a.payload? with
    | some payload =>
      rw [call?_of_payload hpayload]
      rfl
    | none =>
      have hload : a.payload?.map (fun payload => Player.Call.load payload.timeline) = none := by
        rw [hpayload]
        rfl
      cases a with
      | call c =>
        cases c with
        | load timeline => exact absurd ha (h timeline)
        | _ => rfl
      | setSpeed factor =>
        show ((Speed.ofFactor factor).toOption.map Player.Call.setSpeed).bind _ = none
        cases (Speed.ofFactor factor).toOption <;> rfl
      | receive m =>
        cases m with
        | visualizationResponse data => exact congrArg (·.bind Player.Call.timeline?) hload
        | _ => rfl
      | load payload => cases hpayload
      | loadJson v => exact congrArg (·.bind Player.Call.timeline?) hload
      | loadText text => exact congrArg (·.bind Player.Call.timeline?) hload
      | _ => rfl
  have hall : (callsOf as).filterMap Player.Call.timeline? =
      (as.filterMap Action.payload?).map (·.timeline) := by
    unfold callsOf
    rw [List.filterMap_filterMap, List.map_filterMap]
    exact List.filterMap_congr hone
  unfold lastTimeline
  rw [hall, List.getLast?_map]

/-- Whatever is asked of a session and however the calls to its player take their turns, and as long
    as nobody brings a timeline without a payload: when all calls have returned, the header and the
    timeline are those of the last payload that was begun to load. If no call was begun after that,
    the cursor is at the start and the scene is what the setup of the payload comes to on an empty
    stage. At no time does an action whose payload does not decode change anything. -/
theorem loaded_after (narrator : Narrator) (coins : List Bool) (start : Nat)
    (events : List (Event Action))
    (hloads : ∀ timeline, .call (.load timeline) ∉
      (alone start (ofNarrator narrator coins)).beginnings machine events) :
    let e := (alone start (ofNarrator narrator coins)).after machine events
    let begun := (alone start (ofNarrator narrator coins)).beginnings machine events
    (Idle e →
      e.world.header = ((begun.filterMap Action.payload?).getLast?.map (·.header)).getD .usual ∧
      e.world.player.timeline =
        ((begun.filterMap Action.payload?).getLast?.map (·.timeline)).getD .empty ∧
      ∀ before load behind payload, begun = before ++ load :: behind →
        load.payload? = some payload → (∀ a ∈ behind, a.call? = none) →
        e.world.header = payload.header ∧ e.world.player.timeline = payload.timeline ∧
        e.world.player.cursor = 0 ∧
        ∀ pacing now, e.world.player.stage.scene =
          (Stage.empty.execute now pacing payload.timeline.setup
            (Stage.waitsOf payload.timeline.setup + 1)).world.scene) ∧
    ∀ place time action fault, e.begun? (.turn place time) = some action →
      action.fault? = some fault →
      e.step machine (.turn place time) =
        { e with
          now := max e.now time
          voices := e.voices.set place
            (.done (max e.now time) (max e.now time) (.over (.noPayload fault)) e.world) } := by
  intro e begun
  refine ⟨fun hidle => ?_, fun place time action fault => step_of_fault⟩
  -- Two invariants carry the result: where the last load will bring the player, and where the
  -- last call will leave it. No call is in flight in the end, so what is to come is there.
  have hqueued := queued_ofNarrator narrator coins
  obtain ⟨hheader, hdestined⟩ := upheld_after upheld_destined
    (s := ofNarrator narrator coins) ⟨rfl, hqueued, .inr ⟨rfl, rfl⟩⟩ start events
  have hheeds := upheld_after upheld_heeds (s := ofNarrator narrator coins)
    ⟨hqueued, List.forall_mem_nil _, nofun⟩ start events
  rw [show calls _ = [] from hidle] at hdestined hheeds
  have htimeline : e.world.player.timeline = lastTimeline (callsOf begun) := by
    rcases hdestined.arrives with ⟨_, hmem, _⟩ | ⟨hsame, _⟩
    · cases hmem
    · exact hsame
  refine ⟨hheader, htimeline.trans (lastTimeline_eq hloads), ?_⟩
  intro before load behind payload hbegun hpayload hquiet
  have hnone : callsOf behind = [] := List.filterMap_eq_nil_iff.2 hquiet
  have hcalls : callsOf begun = callsOf before ++ [.load payload.timeline] := by
    rw [hbegun, callsOf, List.filterMap_append,
      List.filterMap_cons_some (call?_of_payload hpayload)]
    exact congrArg (fun l => callsOf before ++ .load payload.timeline :: l) hnone
  -- No action after the load brings a payload, since whatever brings one makes a call.
  have hlast : (begun.filterMap Action.payload?).getLast? = some payload := by
    have hpayloads : behind.filterMap Action.payload? = [] :=
      List.filterMap_eq_nil_iff.2 fun a ha => payload?_of_no_call (hquiet a ha)
    rw [hbegun, List.filterMap_append, List.filterMap_cons_some hpayload, hpayloads,
      List.getLast?_concat]
  have hreturning := hheeds.returns payload.timeline (hcalls ▸ List.getLast?_concat)
  rcases hreturning.homes with ⟨_, _, _, hmem, _⟩ | ⟨hsame, hcursor, _⟩
  · cases hmem
  · refine ⟨?_, hsame, hcursor, fun pacing now => ?_⟩
    · rw [show e.world.header = lastHeader begun from hheader, lastHeader, hlast]
      rfl
    · have hordered := ordered_of_idle narrator coins start events hidle
      have hsettled := hordered.settled fun s hs => nomatch hs
      rw [show e.world.player.stage.scene = _ from hsettled.scene, hsame, hcursor]
      exact Player.sceneAt_eq_executeAll _ 0 pacing now

/-- One payload is loaded while another one plays, after a text that holds none. -/
theorem loaded_after_playing :
    let payload (id : String) : Payload :=
      ⟨some id, none, none, some ⟨[.obj [("id", .str id), ("position", .obj [("x", .int 0),
        ("y", .int 0)])]], []⟩, [⟨[], none, some (.ofMillis 100)⟩]⟩
    let before : List (Event Action) := [.join 0 (.load (payload "a")), .turn 0 0, .turn 0 0,
      .join 0 (.call .play), .turn 1 0, .join 0 (.loadText ""), .turn 2 0]
    let s := ofNarrator (.ofEquipment .usual []) []
    let events := before ++ [.join 0 (.load (payload "b")), .turn 3 0] ++
      [.turn 1 0, .turn 3 0, .turn 3 0]
    let e := (alone 0 s).after machine events
    (∀ timeline, .call (.load timeline) ∉ (alone 0 s).beginnings machine events) ∧ Idle e ∧
      (alone 0 s).beginnings machine events =
        (alone 0 s).beginnings machine before ++ .load (payload "b") :: [] ∧
      e.world.header = (payload "b").header ∧ e.world.player.timeline = (payload "b").timeline ∧
      e.world.player.cursor = 0 ∧
      ∀ pacing now, e.world.player.stage.scene =
        (Stage.empty.execute now pacing (payload "b").timeline.setup
          (Stage.waitsOf (payload "b").timeline.setup + 1)).world.scene := by
  intro payload before s events e
  have hbegun : (alone 0 s).beginnings machine events =
      (alone 0 s).beginnings machine before ++ .load (payload "b") :: [] := by
    have hlength : ((alone 0 s).after machine before).voices.length = 3 := by decide +kernel
    have hrest : ((alone 0 s).after machine (before ++ [.join 0 (.load (payload "b")),
        .turn 3 0])).beginnings machine [.turn 1 0, .turn 3 0, .turn 3 0] = [] :=
      List.isEmpty_iff.1 (by decide +kernel)
    rw [beginnings_append, hrest, beginnings_join _ _ hlength (Nat.le_refl 0), List.append_nil]
  have hloads : ∀ timeline, .call (.load timeline) ∉ (alone 0 s).beginnings machine events := by
    have hall : ((alone 0 s).beginnings machine events).all fun
        | .call (.load _) => false
        | _ => true := by decide +kernel
    intro timeline hmem
    exact Bool.false_ne_true (List.all_eq_true.1 hall _ hmem)
  have hidle : Idle e := List.isEmpty_iff.1 (by decide +kernel)
  subst e s
  obtain ⟨_, _, hlast⟩ := (loaded_after (.ofEquipment .usual []) [] 0 events hloads).1 hidle
  exact ⟨hloads, hidle, hbegun, hlast _ _ [] (payload "b") hbegun rfl nofun⟩

end Session

end Storyboard
