import Storyboard.Proofs.Playback.Return

/-! # What the controls show

    Those who watch a player are told how things are by snapshots. What a step,
    a call to play and a change of the speed bring about is told at once. A call
    that goes to a step halts the player before it waits at the gate, and puts
    another timeline in place before the stage is rebuilt for it, and tells all
    of that only when the stage stands. In the meantime those who watch may
    take the player for one that still plays, or see the end of a timeline that
    is gone. Nothing else makes what is told differ from how things are
    (`published_after`). -/

namespace Storyboard.Player

open Ensemble

variable {p q : Player} {t u : Task} {ts : List Task} {a b : Advance} {deeds log : List Deed}
  {l : List Standing} {epoch now ticket m n : Nat} {call : Call} {r : Rebuild}

/-! ### What is not told yet -/

/-- How much a call may have changed that it has not told yet: that the player halted, the timeline,
    and at last the cursor. -/
def Task.owes : Task → Nat
  | .rewinding .. => 1
  | .rebuilding _ (.performing ..) => 2
  | .rebuilding _ (.over _) => 3
  | .rewrapping _ _ (.over _) => 3
  | _ => 0

/-- The most that one of these calls may not have told. -/
def owed (ts : List Task) : Nat := (ts.map Task.owes).foldr max 0

theorem owed_le_iff : owed ts ≤ n ↔ ∀ t ∈ ts, t.owes ≤ n := by
  induction ts with
  | nil => exact ⟨fun _ => List.forall_mem_nil _, fun _ => Nat.zero_le n⟩
  | cons t ts ih =>
    rw [List.forall_mem_cons, ← ih]
    exact Nat.max_le

theorem owed_le_of_perm {us : List Task} (h : ts.Perm us) : owed ts ≤ owed us :=
  owed_le_iff.2 fun t ht => owed_le_iff.1 (Nat.le_refl _) t (h.mem_iff.1 ht)

/-- The player was halted, and nothing but that is still to be told. -/
def Unheard (p : Player) : Prop :=
  p.published = { p.snapshot with status := .playing } ∧ p.status ≠ .playing

/-- How what was told last may differ from how things are, if so much is owed. -/
structure Posted (p : Player) (n : Nat) : Prop where
  speed  : p.published.speed = p.speed
  cursor : p.published.cursor = p.cursor ∨ 3 ≤ n
  within : p.cursor ≤ p.total ∨ 2 ≤ n
  told   : p.published = p.snapshot ∨ p.Unheard ∧ 1 ≤ n ∨ 2 ≤ n

namespace Posted

theorem mono (h : p.Posted m) (hmn : m ≤ n) : p.Posted n where
  speed := h.speed
  cursor := h.cursor.imp_right (Nat.le_trans · hmn)
  within := h.within.imp_right (Nat.le_trans · hmn)
  told := h.told.imp_right (Or.imp (And.imp_right (Nat.le_trans · hmn)) (Nat.le_trans · hmn))

/-- What is told at once is up to date. -/
theorem of_published (hpublished : q.published = q.snapshot) (hwithin : q.cursor ≤ q.total ∨ 2 ≤ n) :
    q.Posted n where
  speed := congrArg Snapshot.speed hpublished
  cursor := .inl (congrArg Snapshot.cursor hpublished)
  within := hwithin
  told := .inl hpublished

/-- Nothing changes that could be told. -/
theorem congr (h : p.Posted n) (hsnapshot : q.snapshot = p.snapshot)
    (hpublished : q.published = p.published) : q.Posted n := by
  have hspeed : q.speed = p.speed := congrArg Snapshot.speed hsnapshot
  have hcursor : q.cursor = p.cursor := congrArg Snapshot.cursor hsnapshot
  have htotal : q.total = p.total := congrArg Snapshot.total hsnapshot
  have hstatus : q.status = p.status := congrArg Snapshot.status hsnapshot
  obtain ⟨h₁, h₂, h₃, h₄⟩ := h
  refine ⟨?_, ?_, ?_, ?_⟩
  · rwa [hpublished, hspeed]
  · rwa [hpublished, hcursor]
  · rwa [hcursor, htotal]
  · unfold Unheard
    rwa [hpublished, hsnapshot, hstatus]

/-! ### Move by move -/

/-- A call to play that sets out tells at once that somebody plays. -/
theorem enter (h : p.Posted n) (henter : Entered p call q t) : q.Posted (max t.owes n) := by
  have hmore : n ≤ max t.owes n := Nat.le_max_right _ _
  cases henter with
  | rewinds hhalts goal =>
    -- Whoever played until now is halted without a word.
    cases hplaying : p.playing with
    | false =>
      have hsame : p.halt.snapshot = p.snapshot := by
        unfold snapshot status halt renew silence
        rw [hplaying]
        rfl
      exact (h.congr (q := p.halt.enqueue.1) hsame rfl).mono hmore
    | true =>
      have hstatus : p.status = .playing := status_eq_playing_iff.2 hplaying
      have hhalted : p.halt.status ≠ .playing := fun hstill =>
        Bool.false_ne_true (status_eq_playing_iff.1 hstill)
      refine ⟨h.speed, (h.mono hmore).cursor, (h.mono hmore).within, ?_⟩
      rcases h.told with htold | ⟨⟨_, hunheard⟩, _⟩ | hwithheld
      · refine .inr (.inl ⟨⟨?_, hhalted⟩, Nat.le_max_left _ _⟩)
        show p.published = { p.snapshot with status := .playing }
        rw [htold]
        exact congrArg (fun status => { p.snapshot with status := status }) hstatus
      · exact absurd hstatus hunheard
      · exact .inr (.inr (Nat.le_trans hwithheld hmore))
  | wraps hplay => exact (h.congr (q := p.renew.enqueue.1) rfl rfl).mono hmore
  | steps hstep => exact (h.congr (q := p.enqueue.1) rfl rfl).mono hmore
  | returns hgoes report => exact h.mono hmore
  | _ => exact of_published rfl (h.mono hmore).within

/-- As long as the stage is not rebuilt the cursor stays where it is. -/
theorem cursor_goal {goal : Goal} {place : Nat} {perf : Performance} {rest : List (List Json)}
    {report : Report} (h : goal.rebuild p now = (q, .performing place perf rest report)) :
    q.cursor = p.cursor := by
  cases goal with
  | load timeline =>
    exact (cursor_performLists (p := { p with timeline, stage := p.stage.reset now }) h).1
  | seek place => exact (cursor_performLists (p := { p with stage := p.stage.reset now }) h).1

/-- Whoever rebuilds the stage in order to go to a step withholds everything else. -/
theorem of_rebuilding (h : p.Posted m) (hreset : p.Reset q) (hmn : m ≤ n) (hn : 2 ≤ n)
    (hcursor : q.cursor = p.cursor ∨ 3 ≤ n) : q.Posted n := by
  obtain ⟨stage, timeline, cursor, rfl⟩ := hreset
  refine ⟨h.speed, ?_, .inr hn, .inr (.inr hn)⟩
  rcases hcursor with hcursor | hstands
  · obtain rfl : cursor = p.cursor := hcursor
    exact (h.mono hmn).cursor
  · exact .inr hstands

/-- Whoever rebuilds the stage in order to play changes nothing that could be told before it
    stands. -/
theorem of_rewrapping (h : p.Posted n) (hreset : p.Reset q)
    (hsame : ∀ goal perf rest report, r = .performing goal perf rest report →
      q.cursor = p.cursor ∧ q.timeline = p.timeline) :
    q.Posted (max (Task.rewrapping ticket epoch r).owes n) := by
  cases r with
  | «over» report =>
    have hstands : 3 ≤ max (Task.rewrapping ticket epoch (.over report)).owes n :=
      Nat.le_max_left _ _
    exact h.of_rebuilding hreset (Nat.le_max_right _ _) (by omega) (.inr hstands)
  | performing goal perf rest report =>
    obtain ⟨hcursor, htimeline⟩ := hsame goal perf rest report rfl
    obtain ⟨stage, timeline, cursor, rfl⟩ := hreset
    obtain rfl : cursor = p.cursor := hcursor
    obtain rfl : timeline = p.timeline := htimeline
    exact (h.mono (Nat.le_max_right _ _)).congr rfl rfl

/-- A step changes nothing that could be told until its commands are through, and that it tells. -/
theorem strides (h : p.Posted n) (hordered : p.Ordered (a.standing :: l))
    (hmove : Strides epoch now p a deeds q b) : q.Posted n := by
  cases hmove with
  | @proceed ticket place step perf hover =>
    obtain ⟨hstep, _⟩ := hordered.valid _ List.mem_cons_self _ rfl
    have hplace : place < p.total := (List.getElem?_eq_some_iff.1 hstep).1
    exact of_published rfl (.inl hplace)
  | @follow ticket step report tail htail hready =>
    obtain ⟨narrator, coins, hfollow⟩ := narrated_follow p epoch now step tail
    rw [hfollow]
    exact h.congr rfl rfl
  | _ => exact h.congr rfl rfl

theorem move (h : p.Posted (max t.owes n)) (hordered : p.Ordered (t.standing :: l))
    (hmove : Move now p t deeds q u) : q.Posted (max u.owes n) := by
  -- Where a rebuilding came to, the cursor is as it was, or it is owed.
  have hrebuilding : ∀ {ticket q r}, p.Reset q → t.owes ≤ 2 →
      (∀ goal perf rest report, r = .performing goal perf rest report → q.cursor = p.cursor) →
      q.Posted (max (Task.rebuilding ticket r).owes n) := by
    intro ticket q r hreset ht hsame
    have hless := Nat.max_le.2 ⟨Nat.le_trans ht (Nat.le_max_left 2 n), Nat.le_max_right 2 n⟩
    cases r with
    | «over» report =>
      show q.Posted (max 3 n)
      exact h.of_rebuilding hreset (by omega) (by omega) (.inr (by omega))
    | performing goal perf rest report =>
      show q.Posted (max 2 n)
      exact h.of_rebuilding hreset hless (by omega) (.inl (hsame goal perf rest report rfl))
  cases hmove with
  | rewind hleads =>
    refine hrebuilding (reset_goal p now _) (Nat.le_succ 1) fun goal perf rest report hr => ?_
    exact cursor_goal (Prod.ext rfl hr)
  | @rebuild ticket goal perf rest report q r hready hr =>
    refine hrebuilding (reset_resumeRebuild hr) (Nat.le_refl 2) fun goal' perf' rest' report' hsame => ?_
    rw [hsame] at hr
    exact (resumeRebuild_performing hordered hready hr).1
  | rebuilt =>
    have hleads : p.gate.leads _ = true := hordered.leads _ List.mem_cons_self
    exact of_published rfl (.inl (hordered.settled_of_leads rfl hleads rfl).cursor)
  | wrap hleads hcurrent =>
    refine (h.mono (Nat.max_le.2 ⟨Nat.zero_le n, Nat.le_refl n⟩)).of_rewrapping
      (reset_rebuild p now 0) fun goal perf rest report hr => ?_
    exact cursor_performLists (p := { p with stage := p.stage.reset now }) (Prod.ext rfl hr)
  | @rewrap ticket epoch goal perf rest report q r hready hr =>
    refine (h.mono (Nat.max_le.2 ⟨Nat.zero_le n, Nat.le_refl n⟩)).of_rewrapping
      (reset_resumeRebuild hr) fun goal' perf' rest' report' hsame => ?_
    rw [hsame] at hr
    obtain ⟨hcursor, htimeline, _⟩ := resumeRebuild_performing hordered hready hr
    exact ⟨hcursor, htimeline⟩
  | rewrapped =>
    have hleads : p.gate.leads _ = true := hordered.leads _ List.mem_cons_self
    exact of_published rfl (.inl (hordered.settled_of_leads rfl hleads rfl).cursor)
  | play hstrides => exact h.strides hordered hstrides
  | step hstrides => exact h.strides hordered hstrides
  | @finish epoch report =>
    unfold finishPlay
    cases p.isCurrent epoch with
    | true => exact of_published rfl h.within
    | false => exact h
  | stepped => exact of_published rfl h.within
  | _ => exact h.congr rfl rfl

end Posted

/-! ### After any calls -/

/-- The gate is in order, and nothing differs from what was told that is not owed. -/
theorem kept_posted : Kept fun p ts _ => p.Ordered (ts.map Task.standing) ∧ p.Posted (owed ts) where
  perm hperm h := ⟨h.1.perm (hperm.map _), h.2.mono (owed_le_of_perm hperm)⟩
  enter henter h := ⟨h.1.enter henter, h.2.enter henter⟩
  move hmove h := ⟨h.1.move hmove, h.2.move h.1 hmove⟩
  returned h := ⟨Ordered.away_iff.1 h.1, h.2.mono (Nat.max_le.2 ⟨Nat.zero_le _, Nat.le_refl _⟩)⟩

/-- Between two turns something is owed only by a call that goes to a step. -/
theorem owes_of_rests (h : t.Rests) :
    t.owes = 0 ∨ (t.owes = 1 ∧ ∃ ticket goal, t = .rewinding ticket goal) ∨
      (t.owes = 2 ∧ ∃ ticket r, t = .rebuilding ticket r) := by
  cases t with
  | rewinding ticket goal => exact .inr (.inl ⟨rfl, ticket, goal, rfl⟩)
  | rebuilding ticket r =>
    cases r with
    | «over» report => exact h.elim
    | performing goal perf rest report => exact .inr (.inr ⟨rfl, ticket, _, rfl⟩)
  | rewrapping ticket epoch r =>
    cases r with
    | «over» report => exact h.elim
    | performing goal perf rest report => exact .inl rfl
  | _ => exact .inl rfl

/-- Whatever calls were made and however they took turns: the speed and the cursor that were told
    last are those of the player. As long as no call rebuilds the stage in order to go to a step, the
    cursor lies within the timeline, and so is everything else that was told, but for a player that
    was halted by a call which still waits at the gate: it may have been told to play. -/
theorem published_after (narrator : Narrator) (coins : List Bool) (start : Nat)
    (events : List (Event Call)) :
    let e := (alone start (ofNarrator narrator coins)).after machine events
    let told := e.world.published
    let shown := e.world.snapshot
    told.speed = shown.speed ∧ told.cursor = shown.cursor ∧
    ((∀ ticket r, Task.rebuilding ticket r ∉ e.inFlight) →
      shown.cursor ≤ shown.total ∧
      (told = shown ∨ told = { shown with status := .playing } ∧ shown.status ≠ .playing ∧
        ∃ ticket goal, Task.rewinding ticket goal ∈ e.inFlight)) := by
  intro e told shown
  have hrests : AllRest e.inFlight := rests_after (ofNarrator narrator coins) start events
  obtain ⟨_, hposted⟩ := after_of_kept kept_posted
    ⟨ordered_ofNarrator narrator coins, .of_published rfl (.inl (Nat.zero_le _))⟩ start events
  change e.world.Posted (owed e.inFlight) at hposted
  have howes := fun t ht => owes_of_rests (hrests t ht).2
  -- A call at rest owes two announcements at a rebuilding, one while it waits for the gate to
  -- rebuild, and none elsewhere.
  have hstands : owed e.inFlight ≤ 2 := by
    refine owed_le_iff.2 fun t ht => ?_
    rcases howes t ht with h | ⟨h, _⟩ | ⟨h, _⟩ <;> omega
  refine ⟨hposted.speed, hposted.cursor.resolve_right (by omega), fun hnone => ?_⟩
  have hcleared : owed e.inFlight ≤ 1 := by
    refine owed_le_iff.2 fun t ht => ?_
    rcases howes t ht with h | ⟨h, _⟩ | ⟨_, ticket, r, rfl⟩
    · omega
    · omega
    · exact absurd ht (hnone ticket r)
  refine ⟨hposted.within.resolve_right (by omega), ?_⟩
  rcases hposted.told with htold | ⟨⟨htold, hhalted⟩, howed⟩ | howed
  · exact .inl htold
  · refine .inr ⟨htold, hhalted, ?_⟩
    -- Nobody waits for the gate to rebuild, so nothing is owed, and the player was told.
    by_contra hno
    have hnothing : owed e.inFlight ≤ 0 := by
      refine owed_le_iff.2 fun t ht => ?_
      rcases howes t ht with h | ⟨_, ticket, goal, rfl⟩ | ⟨_, ticket, r, rfl⟩
      · omega
      · exact absurd ⟨ticket, goal, ht⟩ hno
      · exact absurd ht (hnone ticket r)
    omega
  · omega

/-- Behind the end of a timeline a shorter one is put in place. As long as the stage is rebuilt for
    it, what was told last has the length of the timeline that is gone, and the cursor lies outside
    the one that is there. -/
theorem published_of_gone :
    let node : Json := .obj [("command", .str "CREATE_NODE"), ("id", .str "a"),
      ("position", .obj [("x", .int 0), ("y", .int 0)])]
    let e := (alone 0 (ofNarrator (.ofEquipment .usual []) [])).after machine
      [.join 0 (.load ⟨[], [⟨[], none, none⟩, ⟨[], none, none⟩]⟩), .turn 0 0,
        .join 0 (.seek 2), .turn 1 0, .join 0 (.load ⟨[node], [⟨[], none, none⟩]⟩), .turn 2 0]
    e.world.published.total = 2 ∧ e.world.snapshot.total = 1 ∧ e.world.snapshot.cursor = 2 := by
  decide +kernel

end Storyboard.Player
