import Storyboard.Proofs.Playback.Keeping

/-! # The reel

    What happens on the stage is one thing after another. A step begins when
    nothing else goes on, it is the one under the cursor, and nothing else
    begins before what follows it is over; and so it is with a rebuilding
    (`Stretch.next?`). Whatever calls are made, their deeds can be read in this
    way, and what goes on in the end is what the calls under way are at
    (`reads_account`). So the steps between two rebuildings are consecutive,
    from the place on to which the first one led (`begun_eq_range'`). -/

namespace Storyboard

/-- What goes on on the stage of a player. -/
inductive Stretch where
  /-- Nothing; the step at `next` comes next. -/
  | idle (next : Nat)
  /-- The commands of the step at a place are performed. -/
  | performing (place : Nat)
  /-- The commands of a step are through, but not what follows them. -/
  | trailing (next : Nat)
  /-- The stage is rebuilt. -/
  | rebuilding
  deriving DecidableEq, Repr

namespace Stretch

/-- What goes on after a deed, if it can happen then. -/
def next? : Stretch → Deed → Option Stretch
  | .idle next, .begins place => if place = next then some (.performing place) else none
  | .performing place, .through place' =>
    if place' = place then some (.trailing (place + 1)) else none
  | .trailing next, .ends _ => some (.idle next)
  | .idle _, .clears => some .rebuilding
  | .rebuilding, .rebuilt place => some (.idle place)
  | _, _ => none

/-- What goes on after some deeds, if they can happen one after another. -/
def reads (s : Stretch) : List Deed → Option Stretch
  | [] => some s
  | d :: deeds => (s.next? d).bind fun s => s.reads deeds

/-- The place of the step that begins next, unless the stage is rebuilt before. -/
def upcoming : Stretch → Nat
  | .idle next => next
  | .performing place => place + 1
  | .trailing next => next
  | .rebuilding => 0

variable {s s' s'' : Stretch} {deeds more : List Deed}

theorem reads_append (h : s.reads deeds = some s') : s.reads (deeds ++ more) = s'.reads more := by
  induction deeds generalizing s with
  | nil =>
    obtain rfl := Option.some.inj h
    rfl
  | cons d deeds ih =>
    obtain ⟨mid, hmid, hrest⟩ := Option.bind_eq_some_iff.1 h
    show ((s.next? d).bind fun s => s.reads (deeds ++ more)) = _
    rw [hmid]
    exact ih hrest

/-- What can be read can be read up to any place. -/
theorem exists_reads_of_append (h : s.reads (deeds ++ more) = some s'') :
    ∃ s', s.reads deeds = some s' ∧ s'.reads more = some s'' := by
  induction deeds generalizing s with
  | nil => exact ⟨s, rfl, h⟩
  | cons d deeds ih =>
    obtain ⟨mid, hmid, hrest⟩ := Option.bind_eq_some_iff.1 h
    obtain ⟨s', hdeeds, hmore⟩ := ih hrest
    refine ⟨s', ?_, hmore⟩
    show ((s.next? d).bind fun s => s.reads deeds) = _
    rw [hmid]
    exact hdeeds

end Stretch

/-- The place of the step that begins with a deed. -/
def Deed.begun? : Deed → Option Nat
  | .begins place => some place
  | _ => none

namespace Stretch

variable {s s' : Stretch} {deeds : List Deed}

/-- A step that begins is the one that comes next; with any other deed, as long as nobody clears the
    stage, the next one stays the same. -/
theorem upcoming_next? {d : Deed} (h : s.next? d = some s') (hs : s ≠ .rebuilding)
    (hclears : d ≠ .clears) : s' ≠ .rebuilding ∧
      (d.begun? = some s.upcoming ∧ s'.upcoming = s.upcoming + 1 ∨
        d.begun? = none ∧ s'.upcoming = s.upcoming) := by
  -- Only where nothing is at work can a step begin, and then it is the one that comes next.
  cases s with
  | idle next =>
    cases d with
    | begins place =>
      change (if place = next then some (.performing place) else none) = some s' at h
      split at h
      · next heq =>
        obtain rfl := Option.some.inj h
        exact ⟨Stretch.noConfusion, .inl ⟨congrArg some heq, congrArg (· + 1) heq⟩⟩
      · cases h
    | clears => exact absurd rfl hclears
    | _ => cases h
  | performing place =>
    cases d with
    | through place' =>
      change (if place' = place then some (.trailing (place + 1)) else none) = some s' at h
      split at h
      · obtain rfl := Option.some.inj h
        exact ⟨Stretch.noConfusion, .inr ⟨rfl, rfl⟩⟩
      · cases h
    | _ => cases h
  | trailing next =>
    cases d with
    | ends lapsed =>
      obtain rfl := Option.some.inj h
      exact ⟨Stretch.noConfusion, .inr ⟨rfl, rfl⟩⟩
    | _ => cases h
  | rebuilding => exact absurd rfl hs

/-- As long as nobody clears the stage, the steps that begin are consecutive. -/
theorem begun_eq_range' (h : s.reads deeds = some s') (hs : s ≠ .rebuilding)
    (hclears : .clears ∉ deeds) : s' ≠ .rebuilding ∧
      ∃ n, deeds.filterMap (·.begun?) = List.range' s.upcoming n ∧
        s'.upcoming = s.upcoming + n := by
  induction deeds generalizing s with
  | nil =>
    obtain rfl := Option.some.inj h
    exact ⟨hs, 0, rfl, rfl⟩
  | cons d deeds ih =>
    obtain ⟨mid, hmid, hrest⟩ := Option.bind_eq_some_iff.1 h
    obtain ⟨hd, hdeeds⟩ := not_or.1 (List.mem_cons.not.1 hclears)
    obtain ⟨hmid', hbegun⟩ := upcoming_next? hmid hs (Ne.symm hd)
    obtain ⟨hs', n, hn, hupcoming⟩ := ih hrest hmid' hdeeds
    refine ⟨hs', ?_⟩
    rcases hbegun with ⟨hone, hmoved⟩ | ⟨hnone, hsame⟩
    · rw [hmoved] at hn hupcoming
      refine ⟨n + 1, ?_, by omega⟩
      rw [List.filterMap_cons_some hone, hn, List.range'_succ]
    · rw [hsame] at hn hupcoming
      exact ⟨n, by rw [List.filterMap_cons_none hnone, hn], hupcoming⟩

end Stretch

/-! ### What the calls are at -/

/-- What goes on on the stage with a step under way. -/
def Advance.stretch? (cursor : Nat) : Advance → Option Stretch
  | .performing _ place _ _ => some (.performing place)
  | .trailing .. => some (.trailing cursor)
  | _ => none

/-- What goes on with a rebuilding under way. -/
def Rebuild.stretch? : Rebuild → Option Stretch
  | .performing .. => some .rebuilding
  | .over _ => none

namespace Player

/-- What goes on on the stage with a call under way. -/
def Task.stretch? (cursor : Nat) : Task → Option Stretch
  | .rebuilding _ r => r.stretch?
  | .rewrapping _ _ r => r.stretch?
  | .playing _ _ a => a.stretch? cursor
  | .stepping _ a => a.stretch? cursor
  | _ => none

/-- What goes on when nobody else is at anything. -/
def Task.stretch (cursor : Nat) (t : Task) : Stretch := (t.stretch? cursor).getD (.idle cursor)

/-- These calls are at this, or at nothing. -/
structure Shows (p : Player) (ts : List Task) (s : Stretch) : Prop where
  at_it : ∀ t ∈ ts, ∀ x, t.stretch? p.cursor = some x → x = s
  idle  : (∀ t ∈ ts, t.stretch? p.cursor = none) → s = .idle p.cursor

variable {p q : Player} {t u : Task} {ts : List Task} {a b : Advance} {deeds log : List Deed}
  {l : List Standing} {s : Stretch} {epoch now ticket : Nat}

/-! ### Move by move -/

/-- A step that is asked for goes from one stretch to the next. -/
theorem Strides.reads (h : Strides epoch now p a deeds q b) :
    ((a.stretch? p.cursor).getD (.idle p.cursor)).reads deeds =
      some ((b.stretch? q.cursor).getD (.idle q.cursor)) := by
  cases h with
  | begin hleads hcurrent hstep =>
    show ((if p.cursor = p.cursor then some (Stretch.performing p.cursor) else none).bind _) = _
    rw [if_pos rfl]
    rfl
  | @proceed ticket place step perf hover =>
    show ((if place = place then some (Stretch.trailing (place + 1)) else none).bind _) = _
    rw [if_pos rfl]
    rfl
  | @follow ticket step report tail htail hready =>
    obtain ⟨narrator, coins, hfollow⟩ := narrated_follow p epoch now step tail
    rw [hfollow]
    rfl
  | _ => rfl

/-- So does a call. -/
theorem Move.reads (h : Move now p t deeds q u) :
    (t.stretch p.cursor).reads deeds = some (u.stretch q.cursor) := by
  have hdeeds : ∀ (q : Player) (r : Rebuild),
      Stretch.rebuilding.reads (r.deeds q) = some (r.stretch?.getD (.idle q.cursor)) := by
    intro q r
    cases r <;> rfl
  cases h with
  | rewind hleads => exact hdeeds _ _
  | rebuild hready hr => exact hdeeds _ _
  | wrap hleads hcurrent => exact hdeeds _ _
  | rewrap hready hr => exact hdeeds _ _
  | play h => exact h.reads
  | step h => exact h.reads
  | finish =>
    show some (Stretch.idle p.cursor) = some (Stretch.idle (p.finishPlay _ _).1.cursor)
    rw [cursor_finishPlay]
  | _ => rfl

/-- The step that is performed is the one under the cursor. -/
theorem Strides.place (h : Strides epoch now p a deeds q b)
    (ha : ∀ place, a.stretch? p.cursor = some (.performing place) → place = p.cursor) :
    ∀ place, b.stretch? q.cursor = some (.performing place) → place = q.cursor := by
  intro place hb
  cases h with
  | begin hleads hcurrent hstep =>
    cases hb
    rfl
  | perform hready => exact ha place hb
  | _ => cases hb

theorem Move.place (h : Move now p t deeds q u)
    (ht : ∀ place, t.stretch? p.cursor = some (.performing place) → place = p.cursor) :
    ∀ place, u.stretch? q.cursor = some (.performing place) → place = q.cursor := by
  have hrebuild : ∀ (r : Rebuild) place cursor,
      r.stretch? = some (.performing place) → place = cursor := by
    intro r place cursor hr
    cases r <;> cases hr
  cases h with
  | rewind hleads => exact fun place hr => hrebuild _ place _ hr
  | rebuild hready hr => exact fun place hr => hrebuild _ place _ hr
  | wrap hleads hcurrent => exact fun place hr => hrebuild _ place _ hr
  | rewrap hready hr => exact fun place hr => hrebuild _ place _ hr
  | play h => exact h.place ht
  | step h => exact h.place ht
  | _ => exact fun place hu => nomatch hu

/-- Whoever is at the head of the gate. -/
def Heads (p : Player) (s : Standing) : Prop :=
  ∃ ticket, s.ticket? = some ticket ∧ p.gate.leads ticket = true

/-- Whoever is at something on the stage is at the head. -/
theorem heads_of_stretch? (h : t.standing.Leads p.gate) {cursor : Nat} {x : Stretch}
    (ht : t.stretch? cursor = some x) : p.Heads t.standing := by
  have hadvance : ∀ a : Advance, a.standing.Leads p.gate → a.stretch? cursor = some x →
      p.Heads a.standing := by
    intro a h ha
    cases a with
    | performing ticket place step perf => exact ⟨ticket, rfl, h⟩
    | trailing ticket step report tail => exact ⟨ticket, rfl, h⟩
    | _ => cases ha
  have hrebuild : ∀ (ticket : Nat) (r : Rebuild), (r.standing ticket).Leads p.gate →
      p.Heads (r.standing ticket) := by
    intro ticket r h
    cases r <;> exact ⟨ticket, rfl, h⟩
  cases t with
  | rebuilding ticket r => exact hrebuild ticket r h
  | rewrapping ticket epoch r => exact hrebuild ticket r h
  | playing epoch report a => exact hadvance a h ht
  | stepping epoch a => exact hadvance a h ht
  | _ => cases ht

/-- Where somebody is at the head, nobody else is at anything. -/
theorem Ordered.stretch?_others (h : p.Ordered (t.standing :: ts.map Task.standing))
    (hheads : p.Heads t.standing) : ∀ u ∈ ts, ∀ cursor, u.stretch? cursor = none := by
  intro u hu cursor
  obtain ⟨ticket, hticket, hleads⟩ := hheads
  cases hx : u.stretch? cursor with
  | none => rfl
  | some x =>
    have hstanding : u.standing ∈ ts.map Task.standing := List.mem_map_of_mem hu
    obtain ⟨ticket', hticket', hleads'⟩ :=
      heads_of_stretch? (h.leads _ (List.mem_cons_of_mem _ hstanding)) hx
    have hline := h.line
    rw [List.filterMap_cons_some hticket] at hline
    rw [hline.not_leads hleads ticket' (List.mem_filterMap.2 ⟨_, hstanding, hticket'⟩)] at hleads'
    cases hleads'

/-- A step that makes a move is at the head. -/
theorem Strides.heads (ha : a.standing.Leads p.gate) (h : Strides epoch now p a deeds q b) :
    p.Heads a.standing := by
  cases h with
  | begin hleads hcurrent hstep => exact ⟨_, rfl, hleads⟩
  | pass hleads hnone => exact ⟨_, rfl, hleads⟩
  | _ => exact ⟨_, rfl, ha⟩

/-- A move does nothing on the stage, or whoever makes it is at the head. -/
theorem Move.quiet_or_heads (ht : t.standing.Leads p.gate) (h : Move now p t deeds q u) :
    deeds = [] ∧ q.cursor = p.cursor ∧ u.stretch? p.cursor = t.stretch? p.cursor ∨
      p.Heads t.standing := by
  cases h with
  | rewind hleads => exact .inr ⟨_, rfl, hleads⟩
  | wrap hleads hcurrent => exact .inr ⟨_, rfl, hleads⟩
  | unwrap hleads hstale => exact .inr ⟨_, rfl, hleads⟩
  | play h => exact .inr (h.heads ht)
  | step h => exact .inr (h.heads ht)
  | next hcurrent => exact .inl ⟨rfl, rfl, rfl⟩
  | stop hstale => exact .inl ⟨rfl, rfl, rfl⟩
  | finish => exact .inl ⟨rfl, cursor_finishPlay p _ _, rfl⟩
  | stepped => exact .inl ⟨rfl, rfl, rfl⟩
  | _ => exact .inr ⟨_, rfl, ht⟩

/-- Whoever has just begun a call is at nothing yet. -/
theorem Entered.idle {call : Call} (h : Entered p call q t) :
    q.cursor = p.cursor ∧ t.stretch? p.cursor = none := by
  cases h <;> exact ⟨rfl, rfl⟩

/-! ### The whole reel -/

/-- The deeds so far can be read, and they lead to what the calls are at. -/
structure Reeled (p : Player) (ts : List Task) (log : List Deed) : Prop where
  ordered : p.Ordered (ts.map Task.standing)
  place   : ∀ t ∈ ts, ∀ place, t.stretch? p.cursor = some (.performing place) → place = p.cursor
  reads   : ∃ s, (Stretch.idle 0).reads log = some s ∧ p.Shows ts s

theorem Reeled.move (h : p.Reeled (t :: ts) log) (hmove : Move now p t deeds q u) :
    q.Reeled (u :: ts) (log ++ deeds) := by
  obtain ⟨hordered, hplace, s, hreads, hshows⟩ := h
  obtain ⟨ht, hts⟩ := List.forall_mem_cons.1 hplace
  have hleads : t.standing.Leads p.gate := hordered.leads _ List.mem_cons_self
  refine ⟨hordered.move hmove, ?_, ?_⟩
  · refine List.forall_mem_cons.2 ⟨hmove.place ht, fun v hv place hx => ?_⟩
    rcases hmove.quiet_or_heads hleads with ⟨_, hcursor, _⟩ | hheads
    · rw [hcursor] at hx ⊢
      exact hts v hv place hx
    · rw [hordered.stretch?_others hheads v hv] at hx
      cases hx
  · -- A move that tells nothing leaves everybody at what they were at. Any other is made by the
    -- call that heads the gate.
    rcases hmove.quiet_or_heads hleads with ⟨rfl, hcursor, hsame⟩ | hheads
    · refine ⟨s, by rwa [List.append_nil], ?_, ?_⟩
      · intro v hv x hx
        rw [hcursor] at hx
        rcases List.mem_cons.1 hv with rfl | hv
        · rw [hsame] at hx
          exact hshows.at_it t List.mem_cons_self x hx
        · exact hshows.at_it v (List.mem_cons_of_mem _ hv) x hx
      · intro hidle
        rw [hcursor] at hidle ⊢
        obtain ⟨hu, hothers⟩ := List.forall_mem_cons.1 hidle
        rw [hsame] at hu
        exact hshows.idle (List.forall_mem_cons.2 ⟨hu, hothers⟩)
    · -- Nobody else is at anything, so this call says what goes on, before and after.
      have hothers := hordered.stretch?_others hheads
      have hs : s = t.stretch p.cursor := by
        unfold Task.stretch
        cases hx : t.stretch? p.cursor with
        | some x => exact (hshows.at_it t List.mem_cons_self x hx).symm
        | none =>
          exact hshows.idle (List.forall_mem_cons.2 ⟨hx, fun v hv => hothers v hv _⟩)
      refine ⟨u.stretch q.cursor, ?_, ?_, ?_⟩
      · rw [Stretch.reads_append hreads, hs]
        exact hmove.reads
      · refine List.forall_mem_cons.2 ⟨fun x hx => ?_, fun v hv x hx => ?_⟩
        · unfold Task.stretch
          rw [hx]
          rfl
        · rw [hothers v hv] at hx
          cases hx
      · intro hidle
        unfold Task.stretch
        rw [hidle u List.mem_cons_self]
        rfl

theorem kept_reeled : Kept Reeled where
  perm hperm h := by
    obtain ⟨hordered, hplace, s, hreads, hat, hidle⟩ := h
    refine ⟨hordered.perm (hperm.map _), fun t ht => hplace t (hperm.mem_iff.2 ht), s, hreads,
      fun t ht => hat t (hperm.mem_iff.2 ht), fun hnone => hidle fun t ht => ?_⟩
    exact hnone t (hperm.mem_iff.1 ht)
  enter henter h := by
    obtain ⟨hordered, hplace, s, hreads, hat, hidle⟩ := h
    -- A call that enters is at nothing and leaves the cursor alone.
    obtain ⟨hcursor, hnone⟩ := henter.idle
    refine ⟨hordered.enter henter, ?_, s, hreads, ?_, ?_⟩
    · rw [hcursor]
      refine List.forall_mem_cons.2 ⟨fun place hx => ?_, hplace⟩
      rw [hnone] at hx
      cases hx
    · rw [hcursor]
      refine List.forall_mem_cons.2 ⟨fun x hx => ?_, hat⟩
      rw [hnone] at hx
      cases hx
    · rw [hcursor]
      exact fun h => hidle (List.forall_mem_cons.1 h).2
  move hmove h := h.move hmove
  returned h := by
    obtain ⟨hordered, hplace, s, hreads, hat, hidle⟩ := h
    exact ⟨Ordered.away_iff.1 hordered, (List.forall_mem_cons.1 hplace).2, s, hreads,
      (List.forall_mem_cons.1 hat).2, fun h => hidle (List.forall_mem_cons.2 ⟨rfl, h⟩)⟩

theorem reeled_ofNarrator (narrator : Narrator) (coins : List Bool) :
    (ofNarrator narrator coins).Reeled [] [] :=
  ⟨ordered_ofNarrator narrator coins, List.forall_mem_nil _, .idle 0, rfl, List.forall_mem_nil _,
    fun _ => rfl⟩

/-- What happens on the stage after any calls can be read, and it leads to what the calls under way
    are at. -/
theorem reads_account (narrator : Narrator) (coins : List Bool) (start : Nat)
    {events : List (Ensemble.Event Call)} {deeds : List Deed}
    (h : Account (Ensemble.alone start (ofNarrator narrator coins)) events deeds) :
    let e := (Ensemble.alone start (ofNarrator narrator coins)).after machine events
    ∃ s, (Stretch.idle 0).reads deeds = some s ∧ e.world.Shows e.inFlight s :=
  (account_induction kept_reeled (reeled_ofNarrator narrator coins) h).reads

end Player

end Storyboard
