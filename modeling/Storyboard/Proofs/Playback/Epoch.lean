import Storyboard.Proofs.Playback.Reel

/-! # Epochs

    A call performs steps in an epoch, which it enters when it begins and
    leaves when it returns. Only in the epoch of the player does it take a new
    place at the gate or begin a step (`Steers`). Those who joined the line at
    the gate first are first, so whoever joins it in a later epoch stands
    behind those of all earlier ones (`Queued`). -/

namespace Storyboard.Player

open Ensemble

variable {p q : Player} {t u : Task} {ts : List Task} {a b : Advance} {deeds : List Deed}
  {l : List Standing} {n now epoch place ticket : Nat} {e : Ensemble Player Call Task}

/-! ### Epochs -/

/-- The epoch in which a call performs steps. -/
def Task.epoch? : Task → Option Nat
  | .wrapping _ epoch => some epoch
  | .rewrapping _ epoch _ => some epoch
  | .playing epoch _ _ => some epoch
  | .stepping epoch _ => some epoch
  | _ => none

/-- Whether a call performs the commands of a step. -/
def Task.Performs (t : Task) : Prop := ∃ place, t.stretch? 0 = some (.performing place)

/-- What becomes of a call by some moves. Only in the epoch of the player does it take a new place
    at the gate or begin a step. -/
structure Steers (p : Player) (t : Task) (deeds : List Deed) (q : Player) (u : Task) : Prop where
  same     : q.epoch = p.epoch
  next     : p.gate.next ≤ q.gate.next
  returned : t.isOver = true → u.isOver = true
  /-- It stays in its epoch until it returns. -/
  epoch    : u.isOver = true ∨ u.epoch? = t.epoch?
  ticket   : ∀ ticket, u.standing.ticket? = some ticket → t.standing.ticket? = some ticket ∨
    p.gate.next ≤ ticket ∧ t.epoch? = some p.epoch
  performs : u.Performs → t.Performs ∨ t.epoch? = some p.epoch
  begins   : ∀ place, .begins place ∈ deeds → t.epoch? = some p.epoch

/-- Whoever is in an epoch was in it before. -/
theorem Steers.origin (h : Steers p t deeds q u) (hu : u.epoch? = some epoch) :
    t.epoch? = some epoch := by
  rcases h.epoch with hover | hsame
  · cases u with
    | «over» report => cases hu
    | _ => cases hover
  · exact hsame ▸ hu

theorem Steers.refl : Steers p t [] p t where
  same := rfl
  next := Nat.le_refl _
  returned := id
  epoch := .inr rfl
  ticket _ := .inl
  performs := .inl
  begins _ h := nomatch h

theorem Steers.trans {r : Player} {v : Task} {more : List Deed} (h : Steers p t deeds q u)
    (h' : Steers q u more r v) : Steers p t (deeds ++ more) r v where
  same := h'.same.trans h.same
  next := Nat.le_trans h.next h'.next
  returned ht := h'.returned (h.returned ht)
  epoch := by
    rcases h'.epoch with hover | hsame'
    · exact .inl hover
    · rcases h.epoch with hover | hsame
      · exact .inl (h'.returned hover)
      · exact .inr (hsame'.trans hsame)
  ticket k hk := by
    rcases h'.ticket k hk with hk' | ⟨hnext, hepoch⟩
    · exact h.ticket k hk'
    · rw [h.same] at hepoch
      exact .inr ⟨Nat.le_trans h.next hnext, h.origin hepoch⟩
  performs hv := by
    rcases h'.performs hv with hu | hepoch
    · exact h.performs hu
    · rw [h.same] at hepoch
      exact .inr (h.origin hepoch)
  begins place hplace := by
    rcases List.mem_append.1 hplace with hplace | hplace
    · exact h.begins place hplace
    · have hepoch := h'.begins place hplace
      rw [h.same] at hepoch
      exact h.origin hepoch

/-- What becomes of a step that was asked for in an epoch. -/
theorem Strides.steers (h : Strides epoch now p a deeds q b) :
    q.epoch = p.epoch ∧ q.gate.next = p.gate.next ∧
      (∀ ticket, b.standing.ticket? = some ticket → a.standing.ticket? = some ticket) ∧
      (∀ place, b.stretch? 0 = some (.performing place) →
        a.stretch? 0 = some (.performing place) ∨ p.epoch = epoch) ∧
      ∀ place, .begins place ∈ deeds → p.epoch = epoch := by
  have hnone : ∀ {place : Nat} {d : Deed}, d.begun? = none → .begins place ∈ [d] →
      p.epoch = epoch := by
    intro place d hd hplace
    rw [← List.mem_singleton.1 hplace] at hd
    cases hd
  cases h with
  | begin hleads hcurrent hstep =>
    exact ⟨rfl, rfl, fun _ h => h, fun _ _ => .inr hcurrent, fun _ _ => hcurrent⟩
  | pass hleads hlate => exact ⟨rfl, rfl, nofun, nofun, nofun⟩
  | perform hready => exact ⟨rfl, rfl, fun _ h => h, fun _ => .inl, nofun⟩
  | proceed hover => exact ⟨rfl, rfl, fun _ h => h, nofun, fun _ => hnone rfl⟩
  | @follow ticket step report tail htail hready =>
    obtain ⟨narrator, coins, hfollow⟩ := narrated_follow p epoch now step tail
    rw [hfollow]
    exact ⟨rfl, rfl, fun _ h => h, nofun, nofun⟩
  | finish => exact ⟨rfl, rfl, nofun, nofun, fun _ => hnone rfl⟩

/-- What becomes of a call by a move of its step. -/
theorem Steers.of_strides (h : Strides epoch now p a deeds q b) {f : Advance → Task}
    (hover : ∀ a, (f a).isOver = false) (hepoch : ∀ a, (f a).epoch? = some epoch)
    (hstanding : ∀ a, (f a).standing = a.standing)
    (hstretch : ∀ a, (f a).stretch? 0 = a.stretch? 0) : Steers p (f a) deeds q (f b) := by
  obtain ⟨hsame, hnext, hticket, hperforms, hbegins⟩ := h.steers
  have hin : p.epoch = epoch → (f a).epoch? = some p.epoch :=
    fun heq => (hepoch a).trans (congrArg some heq.symm)
  refine ⟨hsame, Nat.le_of_eq hnext.symm, ?_, .inr ((hepoch b).trans (hepoch a).symm), ?_, ?_,
    fun place hplace => hin (hbegins place hplace)⟩
  · rw [hover]
    exact nofun
  · intro ticket hb
    rw [hstanding] at hb ⊢
    exact .inl (hticket ticket hb)
  · rintro ⟨place, hplace⟩
    rw [hstretch] at hplace
    rcases hperforms place hplace with ha | heq
    · exact .inl ⟨place, (hstretch a).trans ha⟩
    · exact .inr (hin heq)

/-- Who rebuilds the stage keeps its place. -/
theorem standing_ticket? (ticket : Nat) (r : Rebuild) :
    (r.standing ticket).ticket? = some ticket := by
  cases r <;> rfl

/-- What becomes of a call that rebuilds the stage. -/
theorem Steers.of_rebuild {r : Rebuild} (hreset : p.Reset q)
    (hticket : u.standing.ticket? = t.standing.ticket?) (hover : t.isOver = false)
    (hepoch : u.epoch? = t.epoch?) (hstretch : u.stretch? 0 = r.stretch?)
    (hdeeds : deeds = r.deeds q ∨ deeds = .clears :: r.deeds q) : Steers p t deeds q u where
  same := hreset.same.2.1
  next := by rw [hreset.same.2.2]
  returned h := by
    rw [hover] at h
    cases h
  epoch := .inr hepoch
  ticket k hk := .inl (hticket ▸ hk)
  performs h := by
    obtain ⟨place, hplace⟩ := h
    rw [hstretch] at hplace
    cases r <;> cases hplace
  begins place hplace := by
    have hnone : .begins place ∉ .clears :: r.deeds q := by cases r <;> simp [Rebuild.deeds]
    rcases hdeeds with rfl | rfl
    · exact absurd (List.mem_cons_of_mem _ hplace) hnone
    · exact absurd hplace hnone

/-- What becomes of a call by a move. -/
theorem Move.steers (h : Move now p t deeds q u) : Steers p t deeds q u := by
  -- A call stays in its epoch or leaves it for good. A new ticket is taken, and a step begun, only
  -- in the epoch of the moment.
  cases h with
  | rewind hleads =>
    exact .of_rebuild (reset_goal p now _) (standing_ticket? _ _) rfl rfl rfl (.inr rfl)
  | rebuild hready hr =>
    exact .of_rebuild (reset_resumeRebuild hr) (standing_ticket? _ _) rfl rfl rfl (.inl rfl)
  | rebuilt => exact ⟨rfl, Nat.le_refl _, nofun, .inl rfl, nofun, nofun, nofun⟩
  | wrap hleads hcurrent =>
    exact .of_rebuild (reset_rebuild p now 0) (standing_ticket? _ _) rfl rfl rfl (.inr rfl)
  | unwrap hleads hstale => exact ⟨rfl, Nat.le_refl _, nofun, .inl rfl, nofun, nofun, nofun⟩
  | rewrap hready hr =>
    exact .of_rebuild (reset_resumeRebuild hr) (standing_ticket? _ _) rfl rfl rfl (.inl rfl)
  | rewrapped => exact ⟨rfl, Nat.le_refl _, nofun, .inr rfl, nofun, nofun, nofun⟩
  | play h => exact .of_strides h (fun _ => rfl) (fun _ => rfl) (fun _ => rfl) fun _ => rfl
  | next hcurrent =>
    refine ⟨rfl, Nat.le_succ _, nofun, .inr rfl, ?_, nofun, nofun⟩
    intro ticket hticket
    obtain rfl := Option.some.inj hticket
    exact .inr ⟨Nat.le_refl _, congrArg some hcurrent.symm⟩
  | stop hstale => exact ⟨rfl, Nat.le_refl _, nofun, .inl rfl, nofun, nofun, nofun⟩
  | @finish epoch report =>
    obtain ⟨_, _, hepoch, hgate, _⟩ := p.finishPlay_same epoch report
    exact ⟨hepoch, Nat.le_of_eq (congrArg Line.next hgate).symm, nofun, .inl rfl, nofun, nofun,
      nofun⟩
  | step h => exact .of_strides h (fun _ => rfl) (fun _ => rfl) (fun _ => rfl) fun _ => rfl
  | stepped => exact ⟨rfl, Nat.le_refl _, nofun, .inl rfl, nofun, nofun, nofun⟩

theorem steers_of_moves (h : Moves now n p t deeds q u) : Steers p t deeds q u := by
  induction h with
  | refl => exact .refl
  | head hfirst _ ih => exact hfirst.steers.trans ih

/-! ### Calls that begin -/

/-- Only to play and to step is to be in an epoch, in that of the player. -/
theorem Entered.epochs {call : Call} (h : Entered p call q t) : p.epoch ≤ q.epoch ∧
    p.gate.next ≤ q.gate.next ∧
    (∀ epoch, t.epoch? = some epoch → epoch = q.epoch ∧ (call = .play ∨ call = .stepForward)) ∧
    ∀ ticket, t.standing.ticket? = some ticket → p.gate.next ≤ ticket := by
  have hjoined : ∀ ticket, some p.gate.next = some ticket → p.gate.next ≤ ticket :=
    fun ticket h => Nat.le_of_eq (Option.some.inj h)
  cases h with
  | rewinds hhalts goal => exact ⟨Nat.le_succ _, Nat.le_succ _, nofun, hjoined⟩
  | pauses hhalts => exact ⟨Nat.le_succ _, Nat.le_refl _, nofun, nofun⟩
  | wraps hplay =>
    exact ⟨Nat.le_succ _, Nat.le_succ _, fun epoch h => ⟨(Option.some.inj h).symm, .inl hplay⟩,
      hjoined⟩
  | plays hplay =>
    exact ⟨Nat.le_succ _, Nat.le_refl _, fun epoch h => ⟨(Option.some.inj h).symm, .inl hplay⟩,
      nofun⟩
  | steps hstep =>
    exact ⟨Nat.le_refl _, Nat.le_succ _, fun epoch h => ⟨(Option.some.inj h).symm, .inr hstep⟩,
      hjoined⟩
  | speeds hgoes s => exact ⟨Nat.le_refl _, Nat.le_refl _, nofun, nofun⟩
  | returns hgoes report => exact ⟨Nat.le_refl _, Nat.le_refl _, nofun, nofun⟩

/-- To halt is to begin a new epoch. -/
theorem Entered.epoch_of_halts {call : Call} (h : Entered p call q t) (hhalts : call.Halts p) :
    q.epoch = p.epoch + 1 ∧ t.epoch? = none := by
  cases h with
  | rewinds _ goal => exact ⟨rfl, rfl⟩
  | pauses _ => exact ⟨rfl, rfl⟩
  | wraps hplay =>
    subst hplay
    exact hhalts.elim
  | plays hplay =>
    subst hplay
    exact hhalts.elim
  | steps hstep =>
    subst hstep
    exact hhalts.elim
  | speeds hgoes s => exact absurd hhalts hgoes
  | returns hgoes report => exact absurd hhalts hgoes

/-- Nobody is ahead of the player. -/
theorem kept_epochs : Kept fun p ts _ => ∀ t ∈ ts, ∀ epoch, t.epoch? = some epoch →
    epoch ≤ p.epoch where
  perm hperm h := fun t ht => h t (hperm.mem_iff.2 ht)
  enter henter h := by
    obtain ⟨hle, _, hin, _⟩ := henter.epochs
    exact List.forall_mem_cons.2 ⟨fun epoch hepoch => Nat.le_of_eq (hin epoch hepoch).1,
      fun t ht epoch hepoch => Nat.le_trans (h t ht epoch hepoch) hle⟩
  move hmove h := by
    have hsteers := hmove.steers
    obtain ⟨ht, hts⟩ := List.forall_mem_cons.1 h
    rw [hsteers.same]
    exact List.forall_mem_cons.2 ⟨fun epoch hepoch => ht epoch (hsteers.origin hepoch), hts⟩
  returned h := (List.forall_mem_cons.1 h).2

/-- The epochs and the tickets of a player only grow. -/
theorem world_step (hrests : AllRest e.inFlight) (event : Event Call) :
    e.world.epoch ≤ (e.step machine event).world.epoch ∧
      e.world.gate.next ≤ (e.step machine event).world.gate.next := by
  obtain ⟨deeds, htold⟩ := exists_told hrests event
  cases htold with
  | @begun call n deeds hbegun hmoves =>
    have hsteers := steers_of_moves hmoves
    obtain ⟨hepoch, hnext, _⟩ := (e.world.entered call).epochs
    rw [(step_of_begun (m := machine) hbegun).1]
    exact ⟨Nat.le_trans hepoch (Nat.le_of_eq hsteers.same.symm), Nat.le_trans hnext hsteers.next⟩
  | resumed hresumed hmoves =>
    have hsteers := steers_of_moves hmoves
    rw [(step_of_resumed (m := machine) hresumed).1]
    exact ⟨Nat.le_of_eq hsteers.same.symm, hsteers.next⟩
  | idle hbegun hresumed =>
    rw [(step_of_idle (m := machine) hbegun hresumed).1]
    exact ⟨Nat.le_refl _, Nat.le_refl _⟩

/-! ### The order of the line -/

/-- With a move somebody joins the line or leaves it, or nobody does. -/
theorem Move.gate (h : Move now p t deeds q u) :
    q.gate = p.gate ∨ q.gate = p.gate.join.1 ∨ ∃ ticket, q.gate = p.gate.leave ticket := by
  -- A step that is passed or ends leaves the line. No other stride touches the gate.
  have hstrides : ∀ {epoch a deeds b}, Strides epoch now p a deeds q b →
      q.gate = p.gate ∨ q.gate = p.gate.join.1 ∨ ∃ ticket, q.gate = p.gate.leave ticket := by
    intro epoch a deeds b h
    cases h with
    | pass hleads hnone => exact .inr (.inr ⟨_, rfl⟩)
    | finish => exact .inr (.inr ⟨_, rfl⟩)
    | @follow ticket step report tail htail hready =>
      obtain ⟨narrator, coins, hfollow⟩ := narrated_follow p epoch now step tail
      rw [hfollow]
      exact .inl rfl
    | _ => exact .inl rfl
  cases h with
  | rewind hleads => exact .inl (reset_goal p now _).same.2.2
  | rebuild hready hr => exact .inl (reset_resumeRebuild hr).same.2.2
  | rebuilt => exact .inr (.inr ⟨_, rfl⟩)
  | wrap hleads hcurrent => exact .inl (reset_rebuild p now 0).same.2.2
  | unwrap hleads hstale => exact .inr (.inr ⟨_, rfl⟩)
  | rewrap hready hr => exact .inl (reset_resumeRebuild hr).same.2.2
  | rewrapped => exact .inr (.inr ⟨_, rfl⟩)
  | play h => exact hstrides h
  | next hcurrent => exact .inr (.inl rfl)
  | stop hstale => exact .inl rfl
  | @finish epoch report =>
    obtain ⟨_, _, _, hgate, _⟩ := p.finishPlay_same epoch report
    exact .inl hgate
  | step h => exact hstrides h
  | stepped => exact .inl rfl

/-- Those who joined the line first are first. -/
def Queued (p : Player) (l : List Standing) : Prop :=
  p.Ordered l ∧ p.gate.waiting.Pairwise (· < ·)

theorem pairwise_join (h : p.Queued l) : p.gate.join.1.waiting.Pairwise (· < ·) := by
  refine List.pairwise_append.2 ⟨h.2, List.pairwise_singleton _ _, ?_⟩
  intro ticket hticket next hnext
  rw [List.mem_singleton.1 hnext]
  exact h.1.line.below ticket hticket

theorem Entered.gate {call : Call} (h : Entered p call q t) :
    q.gate = p.gate ∨ q.gate = p.gate.join.1 := by
  cases h with
  | rewinds hhalts goal => exact .inr rfl
  | wraps hplay => exact .inr rfl
  | steps hstep => exact .inr rfl
  | _ => exact .inl rfl

theorem kept_queued : Kept fun p ts _ => p.Queued (ts.map Task.standing) where
  perm hperm h := ⟨h.1.perm (hperm.map _), h.2⟩
  enter henter h := by
    refine ⟨h.1.enter henter, ?_⟩
    rcases henter.gate with hgate | hgate
    · rw [hgate]
      exact h.2
    · rw [hgate]
      exact pairwise_join h
  move hmove h := by
    refine ⟨h.1.move hmove, ?_⟩
    rcases hmove.gate with hgate | hgate | ⟨ticket, hgate⟩
    · rw [hgate]
      exact h.2
    · rw [hgate]
      exact pairwise_join h
    · rw [hgate]
      exact h.2.filter _
  returned h := ⟨Ordered.away_iff.1 h.1, h.2⟩

/-- Whoever is at the head joined the line before everybody else. -/
theorem Queued.le_of_leads (h : p.Queued l) {first : Nat} (hleads : p.gate.leads first = true)
    (hticket : ticket ∈ p.gate.waiting) : first ≤ ticket := by
  have hsorted := h.2
  unfold Line.leads at hleads
  cases hwaiting : p.gate.waiting with
  | nil =>
    rw [hwaiting] at hticket
    cases hticket
  | cons head rest =>
    rw [hwaiting] at hleads hticket hsorted
    obtain rfl : head = first := by simpa using hleads
    rcases List.mem_cons.1 hticket with rfl | hticket
    · exact Nat.le_refl _
    · exact Nat.le_of_lt (List.rel_of_pairwise_cons hsorted hticket)

end Storyboard.Player
