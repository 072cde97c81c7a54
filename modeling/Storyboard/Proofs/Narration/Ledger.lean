import Mathlib.Data.List.Nodup
import Mathlib.Logic.Relation
import Storyboard.Proofs.Narration.Booth

/-! # What the journal of a booth tells

    The ledger of a booth changes when a text is to be spoken, when everybody
    is to stop, and when a speech goes on: its delivery begins or ends, or it
    is given up (`Ledger.Moves`). Every such change keeps the ledger orderly
    (`Ledger.Orderly`): texts are delivered one after another and in the order
    of their tickets, no delivery begins after a stop for a text that was asked
    for before it (`Entry.InTurn`), and the entries about a text tell how far it
    is (`Phase.Lived`). -/

namespace Storyboard

/-- A list is part of one that goes on if it is part of what was there, or ends with it. -/
theorem sublist_snoc_iff {α : Type} (xs : List α) {l : List α} {a x : α} :
    (xs ++ [a]).Sublist (l ++ [x]) ↔ (xs ++ [a]).Sublist l ∨ a = x ∧ xs.Sublist l := by
  constructor
  · intro h
    obtain ⟨ys, zs, heq, hys, hzs⟩ := List.sublist_append_iff.1 h
    rcases List.sublist_singleton.1 hzs with rfl | rfl
    · rw [List.append_nil] at heq
      exact .inl (heq ▸ hys)
    · obtain ⟨rfl, hlast⟩ := List.append_inj' heq rfl
      exact .inr ⟨List.singleton_inj.1 hlast, hys⟩
  · rintro (h | ⟨rfl, h⟩)
    · exact h.trans (List.sublist_append_left _ _)
    · exact h.append (List.Sublist.refl _)

/-! ### Entries -/

namespace Entry

/-- The text that the entry is about. -/
def ticket? : Entry → Option Nat
  | .asks ticket => some ticket
  | .begins ticket => some ticket
  | .ends ticket => some ticket
  | .cancels ticket => some ticket
  | .stops => none

/-- The text that is asked for. -/
def asked? : Entry → Option Nat
  | .asks ticket => some ticket
  | _ => none

/-- The text of which the delivery begins. -/
def begun? : Entry → Option Nat
  | .begins ticket => some ticket
  | _ => none

/-- The entries about a text. -/
def about (ticket : Nat) (journal : List Entry) : List Entry :=
  journal.filter fun x => x.ticket? == some ticket

variable {journal : List Entry} {x : Entry} {t u : Nat}

theorem about_snoc_self (h : x.ticket? = some t) :
    about t (journal ++ [x]) = about t journal ++ [x] := by
  simp [about, h]

theorem asked_snoc (h : x.asked? = none) :
    (journal ++ [x]).filterMap asked? = journal.filterMap asked? := by
  simp [h]

theorem about_snoc_ne (h : x.ticket? ≠ some t) : about t (journal ++ [x]) = about t journal := by
  simp [about, h]

theorem mem_of_about {xs : List Entry} (h : about t journal = xs) (hx : x ∈ xs) : x ∈ journal :=
  (List.mem_filter.1 (h ▸ hx)).1

theorem mem_about (h : x ∈ journal) (hx : x.ticket? = some t) : x ∈ about t journal :=
  List.mem_filter.2 ⟨h, beq_iff_eq.2 hx⟩

/-- Texts are delivered in turn. -/
structure InTurn (journal : List Entry) : Prop where
  /-- In the order of their tickets. -/
  order : (journal.filterMap begun?).Pairwise (· < ·)
  /-- One after another. -/
  apart : ∀ t u, [.begins t, .begins u].Sublist journal →
    [.begins t, .ends t, .begins u].Sublist journal ∨
      [.begins t, .cancels t, .begins u].Sublist journal
  /-- And none after a stop that was asked for before it. -/
  fence : ∀ t, ¬[.asks t, .stops, .begins t].Sublist journal

namespace InTurn

theorem nil : InTurn [] := ⟨.nil, nofun, nofun⟩

/-- Only the beginning of a delivery matters. -/
theorem snoc (h : InTurn journal) (hx : x.begun? = none) : InTurn (journal ++ [x]) := by
  have hne : ∀ t, .begins t ≠ x := by
    rintro t rfl
    cases hx
  refine ⟨?_, fun t u hsub => ?_, fun t hsub => ?_⟩
  · rw [List.filterMap_append]
    simpa [hx] using h.order
  · have hold := (sublist_snoc_iff [begins t]).1 hsub
    exact (h.apart t u (hold.resolve_right fun hlast => hne u hlast.1)).imp
      (·.trans (List.sublist_append_left _ _)) (·.trans (List.sublist_append_left _ _))
  · have hold := (sublist_snoc_iff [asks t, stops]).1 hsub
    exact h.fence t (hold.resolve_right fun hlast => hne t hlast.1)

/-- The delivery of a text may begin when those before it are over and nobody was told to stop
    since it was asked for. -/
theorem begins (h : InTurn journal) (horder : ∀ t, .begins t ∈ journal → t < u)
    (hover : ∀ t, .begins t ∈ journal →
      [.begins t, .ends t].Sublist journal ∨ [.begins t, .cancels t].Sublist journal)
    (hfence : ¬[.asks u, .stops].Sublist journal) : InTurn (journal ++ [.begins u]) := by
  refine ⟨?_, fun t u' hsub => ?_, fun t hsub => ?_⟩
  · rw [List.filterMap_append]
    refine List.pairwise_append.2 ⟨h.order, List.pairwise_singleton _ _, fun t ht u' hu' => ?_⟩
    rw [List.mem_singleton.1 hu']
    obtain ⟨x, hx, hbegun⟩ := List.mem_filterMap.1 ht
    cases x with
    | begins t' =>
      obtain rfl := Option.some.inj hbegun
      exact horder _ hx
    | _ => cases hbegun
  · rcases (sublist_snoc_iff [Entry.begins t]).1 hsub with hold | ⟨hlast, hold⟩
    · exact (h.apart t u' hold).imp
        (·.trans (List.sublist_append_left _ _)) (·.trans (List.sublist_append_left _ _))
    · obtain rfl := Entry.begins.inj hlast
      exact (hover t (List.singleton_sublist.1 hold)).imp
        (·.append (List.Sublist.refl _)) (·.append (List.Sublist.refl _))
  · rcases (sublist_snoc_iff [asks t, stops]).1 hsub with hold | ⟨hlast, hold⟩
    · exact h.fence t hold
    · obtain rfl := Entry.begins.inj hlast
      exact hfence hold

end InTurn

end Entry

/-! ### Phases -/

/-- How far a speech is, whatever delivers it. -/
inductive Phase where
  | queued (turn : Turn)
  | delivering (turn : Turn)
  | over (ticket : Option Nat) (outcome : SpeechOutcome)

namespace Phase

/-- The ticket of a speech; a blank text had none. -/
def ticket? : Phase → Option Nat
  | .queued turn => some turn.ticket
  | .delivering turn => some turn.ticket
  | .over ticket _ => ticket

/-- The turn of a speech that is not over. -/
def turn? : Phase → Option Turn
  | .queued turn => some turn
  | .delivering turn => some turn
  | .over .. => none

/-- What the journal tells about a speech that has ended. -/
def Ended (journal : List Entry) (t : Nat) : SpeechOutcome → Prop
  | .completed => Entry.about t journal = [.asks t, .begins t, .ends t]
  | .cancelled => (Entry.about t journal = [.asks t, .cancels t] ∨
      Entry.about t journal = [.asks t, .begins t, .cancels t]) ∧
    [.asks t, .stops, .cancels t].Sublist journal
  | .skipped => False

/-- What the journal tells about a speech. -/
def Lived (journal : List Entry) : Phase → Prop
  | .queued turn => Entry.about turn.ticket journal = [.asks turn.ticket]
  | .delivering turn =>
    Entry.about turn.ticket journal = [.asks turn.ticket, .begins turn.ticket]
  | .over (some t) outcome => Ended journal t outcome
  | .over none outcome => outcome = .skipped

variable {p : Phase} {journal : List Entry} {x : Entry} {t : Nat} {turn : Turn}

theorem ticket?_of_turn? (h : p.turn? = some turn) : p.ticket? = some turn.ticket := by
  cases p with
  | «over» ticket outcome => cases h
  | _ =>
    obtain rfl := Option.some.inj h
    rfl

/-- Entries about others do not matter. -/
theorem Lived.snoc (h : p.Lived journal) (hx : ∀ t, p.ticket? = some t → x.ticket? ≠ some t) :
    p.Lived (journal ++ [x]) := by
  cases p with
  | queued turn => exact (Entry.about_snoc_ne (hx _ rfl)).trans h
  | delivering turn => exact (Entry.about_snoc_ne (hx _ rfl)).trans h
  | «over» ticket outcome =>
    cases ticket with
    | none => exact h
    | some t =>
      have habout : Entry.about t (journal ++ [x]) = Entry.about t journal :=
        Entry.about_snoc_ne (hx t rfl)
      cases outcome with
      | completed => exact habout.trans h
      | cancelled =>
        obtain ⟨habout', hstopped⟩ := h
        show (Entry.about t (journal ++ [x]) = _ ∨ Entry.about t (journal ++ [x]) = _) ∧ _
        rw [habout]
        exact ⟨habout', hstopped.trans (List.sublist_append_left _ _)⟩
      | skipped => exact h

/-- A speech with a ticket was asked for. -/
theorem Lived.asks_mem (h : p.Lived journal) (hp : p.ticket? = some t) : .asks t ∈ journal := by
  cases p with
  | queued turn =>
    obtain rfl := Option.some.inj hp
    exact Entry.mem_of_about h List.mem_cons_self
  | delivering turn =>
    obtain rfl := Option.some.inj hp
    exact Entry.mem_of_about h List.mem_cons_self
  | «over» ticket outcome =>
    obtain rfl : ticket = some t := hp
    cases outcome with
    | completed => exact Entry.mem_of_about h List.mem_cons_self
    | cancelled =>
      rcases h.1 with habout | habout <;> exact Entry.mem_of_about habout List.mem_cons_self
    | skipped => exact h.elim

/-- A delivery that has begun is under way or over. -/
theorem Lived.of_begins (h : p.Lived journal) (hp : p.ticket? = some t)
    (hbegins : .begins t ∈ journal) : (∃ turn, p = .delivering turn ∧ turn.ticket = t) ∨
      [.begins t, .ends t].Sublist journal ∨ [.begins t, .cancels t].Sublist journal := by
  have hmem := Entry.mem_about hbegins rfl
  have hpart : ∀ {xs}, Entry.about t journal = xs → xs.Sublist journal :=
    fun hxs => hxs ▸ List.filter_sublist
  cases p with
  | queued turn =>
    obtain rfl := Option.some.inj hp
    rw [show Entry.about turn.ticket journal = [.asks turn.ticket] from h] at hmem
    simp at hmem
  | delivering turn => exact .inl ⟨turn, rfl, Option.some.inj hp⟩
  | «over» ticket outcome =>
    obtain rfl : ticket = some t := hp
    cases outcome with
    | completed => exact .inr (.inl ((List.sublist_cons_self _ _).trans (hpart h)))
    | cancelled =>
      rcases h.1 with habout | habout
      · rw [habout] at hmem
        simp at hmem
      · exact .inr (.inr ((List.sublist_cons_self _ _).trans (hpart habout)))
    | skipped => exact h.elim

end Phase

/-! ### Orderly ledgers -/

namespace Ledger

/-- A speech goes on. -/
inductive Moves : Ledger → Phase → Ledger → Phase → Prop
  | begins {l : Ledger} {turn : Turn} (hcurrent : turn.generation = l.generation)
      (hleads : l.line.leads turn.ticket = true) :
      Moves l (.queued turn) (l.note (.begins turn.ticket)) (.delivering turn)
  | ends {l : Ledger} {turn : Turn} : Moves l (.delivering turn)
      (l.close turn.ticket (.ends turn.ticket)) (.over (some turn.ticket) .completed)
  | cancels {l : Ledger} {p : Phase} {turn : Turn} (hp : p.turn? = some turn)
      (hstale : turn.generation ≠ l.generation) :
      Moves l p (l.close turn.ticket (.cancels turn.ticket)) (.over (some turn.ticket) .cancelled)

/-- The ticket and the generation stay, and nothing is struck from the journal. -/
theorem Moves.same {l l' : Ledger} {p p' : Phase} (h : Moves l p l' p') :
    p'.ticket? = p.ticket? ∧ l'.generation = l.generation ∧ l.journal <+: l'.journal := by
  cases h with
  | begins => exact ⟨rfl, rfl, List.prefix_append _ _⟩
  | ends => exact ⟨rfl, rfl, List.prefix_append _ _⟩
  | cancels hp => exact ⟨(Phase.ticket?_of_turn? hp).symm, rfl, List.prefix_append _ _⟩

/-- A ledger with the speeches in a booth. -/
structure Orderly (l : Ledger) (ps : List Phase) : Prop where
  /-- Every ticket was given to one speech. -/
  tickets : (ps.filterMap Phase.ticket?).Perm (List.range l.line.next)
  asked   : l.journal.filterMap Entry.asked? = List.range l.line.next
  known   : ∀ x ∈ l.journal, ∀ t, x.ticket? = some t → t < l.line.next
  /-- Those who are not done stand in line. -/
  waiting : l.line.waiting.Perm (ps.filterMap fun p => p.turn?.map (·.ticket))
  sorted  : l.line.waiting.Pairwise (· < ·)
  leads   : ∀ turn, .delivering turn ∈ ps → l.line.leads turn.ticket = true
  lived   : ∀ p ∈ ps, p.Lived l.journal
  /-- The generation tells whether everybody was told to stop since a text was asked for. -/
  stale   : ∀ p ∈ ps, ∀ turn, p.turn? = some turn → turn.generation ≤ l.generation ∧
    ([.asks turn.ticket, .stops].Sublist l.journal ↔ turn.generation ≠ l.generation)
  ahead   : ∀ turn, .queued turn ∈ ps → ∀ t, .begins t ∈ l.journal → t < turn.ticket
  inTurn  : Entry.InTurn l.journal

namespace Orderly

variable {l l' : Ledger} {ps qs : List Phase} {p p' q : Phase} {turn : Turn} {t : Nat} {x : Entry}

theorem empty : Ledger.empty.Orderly [] where
  tickets := .nil
  asked := rfl
  known := List.forall_mem_nil _
  waiting := .nil
  sorted := .nil
  leads _ h := nomatch h
  lived := List.forall_mem_nil _
  stale := List.forall_mem_nil _
  ahead _ h := nomatch h
  inTurn := .nil

theorem perm (h : l.Orderly ps) (hperm : ps.Perm qs) : l.Orderly qs where
  tickets := (hperm.symm.filterMap _).trans h.tickets
  asked := h.asked
  known := h.known
  waiting := h.waiting.trans (hperm.filterMap _)
  sorted := h.sorted
  leads turn hturn := h.leads turn (hperm.mem_iff.2 hturn)
  lived p hp := h.lived p (hperm.mem_iff.2 hp)
  stale p hp := h.stale p (hperm.mem_iff.2 hp)
  ahead turn hturn := h.ahead turn (hperm.mem_iff.2 hturn)
  inTurn := h.inTurn

theorem ticket_lt (h : l.Orderly ps) (hp : p ∈ ps) (ht : p.ticket? = some t) : t < l.line.next :=
  List.mem_range.1 (h.tickets.mem_iff.1 (List.mem_filterMap.2 ⟨p, hp, ht⟩))

/-- Nobody else has a ticket. -/
theorem ticket?_ne (h : l.Orderly (p :: ps)) (hp : p.ticket? = some t) (hq : q ∈ ps) :
    q.ticket? ≠ some t := by
  intro hsame
  have hnodup := h.tickets.nodup_iff.2 List.nodup_range
  rw [List.filterMap_cons_some hp] at hnodup
  exact (List.nodup_cons.1 hnodup).1 (List.mem_filterMap.2 ⟨q, hq, hsame⟩)

theorem exists_phase (h : l.Orderly ps) (ht : t < l.line.next) : ∃ p ∈ ps, p.ticket? = some t :=
  List.mem_filterMap.1 (h.tickets.mem_iff.2 (List.mem_range.2 ht))

theorem mem_waiting_iff (h : l.Orderly ps) :
    t ∈ l.line.waiting ↔ ∃ p ∈ ps, ∃ turn, p.turn? = some turn ∧ turn.ticket = t := by
  rw [h.waiting.mem_iff]
  simp [Option.map_eq_some_iff]

theorem waiting_lt (h : l.Orderly ps) (ht : t ∈ l.line.waiting) : t < l.line.next := by
  obtain ⟨p, hp, turn, hturn, rfl⟩ := h.mem_waiting_iff.1 ht
  exact h.ticket_lt hp (Phase.ticket?_of_turn? hturn)

/-- The head of the line has the lowest ticket. -/
theorem le_of_leads (h : l.Orderly ps) (hleads : l.line.leads t = true) {u : Nat}
    (hu : u ∈ l.line.waiting) : t ≤ u := by
  have hsorted := h.sorted
  unfold Line.leads at hleads
  cases hwaiting : l.line.waiting with
  | nil => simp [hwaiting] at hu
  | cons first rest =>
    rw [hwaiting] at hleads hu hsorted
    obtain rfl : first = t := by simpa using hleads
    rcases List.mem_cons.1 hu with rfl | hu
    · exact Nat.le_refl _
    · exact Nat.le_of_lt (List.rel_of_pairwise_cons hsorted hu)

/-- Nobody delivers but who leads. -/
theorem pairwise (h : l.Orderly ps) :
    ps.Pairwise fun p q => ∀ {turn turn'}, p = .delivering turn → q ≠ .delivering turn' := by
  have htickets : ps.Pairwise fun p q =>
      ∀ t, p.ticket? = some t → ∀ u, q.ticket? = some u → t ≠ u :=
    List.pairwise_filterMap.1 (h.tickets.nodup_iff.2 List.nodup_range)
  refine htickets.imp_of_mem fun {p q} hp hq hne turn turn' hturn hturn' => ?_
  subst hturn hturn'
  refine hne _ rfl _ rfl (Nat.le_antisymm ?_ ?_)
  · exact h.le_of_leads (h.leads turn hp) (h.mem_waiting_iff.2 ⟨_, hq, turn', rfl, rfl⟩)
  · exact h.le_of_leads (h.leads turn' hq) (h.mem_waiting_iff.2 ⟨_, hp, turn, rfl, rfl⟩)

/-- No entry but a stop makes a turn stale. -/
theorem stale_snoc (h : l.Orderly ps) (hx : x ≠ .stops) (hp : p ∈ ps)
    (hturn : p.turn? = some turn) :
    turn.generation ≤ l.generation ∧
      ([.asks turn.ticket, .stops].Sublist (l.journal ++ [x]) ↔
        turn.generation ≠ l.generation) := by
  obtain ⟨hle, hiff⟩ := h.stale p hp turn hturn
  refine ⟨hle, Iff.trans ?_ hiff⟩
  rw [show [Entry.asks turn.ticket, .stops] = [.asks turn.ticket] ++ [.stops] from rfl,
    sublist_snoc_iff]
  exact or_iff_left fun hlast => hx hlast.1.symm

/-! ### Asking and stopping -/

/-- Nothing is known yet about the next ticket. -/
theorem about_next (h : l.Orderly ps) : Entry.about l.line.next l.journal = [] := by
  refine List.filter_eq_nil_iff.2 fun x hx hticket => ?_
  exact Nat.lt_irrefl _ (h.known x hx _ (beq_iff_eq.1 hticket))

protected theorem ask (h : l.Orderly ps) (text : String) :
    l.ask.Orderly (.queued ⟨l.line.next, l.generation, text⟩ :: ps) where
  tickets := by
    show (l.line.next :: ps.filterMap Phase.ticket?).Perm (List.range (l.line.next + 1))
    rw [List.range_succ]
    exact (h.tickets.cons _).trans (List.perm_append_singleton _ _).symm
  asked := by
    show (l.journal ++ [Entry.asks l.line.next]).filterMap Entry.asked? =
      List.range (l.line.next + 1)
    rw [List.filterMap_append, h.asked, List.range_succ]
    rfl
  known := by
    refine List.forall_mem_append.2 ⟨fun x hx t ht => Nat.lt_succ_of_lt (h.known x hx t ht), ?_⟩
    simp [Entry.ticket?, Line.join]
  waiting := by
    show (l.line.waiting ++ [l.line.next]).Perm (l.line.next :: ps.filterMap _)
    exact (List.perm_append_singleton _ _).trans (h.waiting.cons _)
  sorted := by
    refine List.pairwise_append.2 ⟨h.sorted, List.pairwise_singleton _ _, fun t ht u hu => ?_⟩
    rw [List.mem_singleton.1 hu]
    exact h.waiting_lt ht
  leads turn hturn := by
    rcases List.mem_cons.1 hturn with hnew | hturn
    · cases hnew
    · exact Line.leads_join_of_leads (h.leads turn hturn)
  lived := by
    refine List.forall_mem_cons.2 ⟨?_, fun p hp => (h.lived p hp).snoc fun t ht hsame => ?_⟩
    · show Entry.about l.line.next (l.journal ++ [.asks l.line.next]) = _
      rw [Entry.about_snoc_self rfl, h.about_next]
      rfl
    · obtain rfl := Option.some.inj hsame
      exact Nat.lt_irrefl _ (h.ticket_lt hp ht)
  stale := by
    have hne : Entry.asks l.line.next ≠ .stops := by
      rintro ⟨⟩
    refine List.forall_mem_cons.2 ⟨?_, fun p hp turn hturn => h.stale_snoc hne hp hturn⟩
    rintro turn ⟨⟩
    refine ⟨Nat.le_refl _, fun hsub => ?_, fun hne => absurd rfl hne⟩
    -- A stop would have come after the text was asked for.
    rcases (sublist_snoc_iff [Entry.asks l.line.next]).1 hsub with hold | ⟨hlast, _⟩
    · have hasked := hold.subset List.mem_cons_self
      exact absurd (h.known _ hasked _ rfl) (Nat.lt_irrefl _)
    · cases hlast
  ahead turn hturn t ht := by
    have hbegun : .begins t ∈ l.journal := by simpa using ht
    rcases List.mem_cons.1 hturn with hnew | hturn
    · cases hnew
      exact h.known _ hbegun t rfl
    · exact h.ahead turn hturn t hbegun
  inTurn := h.inTurn.snoc rfl

protected theorem stop (h : l.Orderly ps) : l.stop.Orderly ps where
  tickets := h.tickets
  asked := (Entry.asked_snoc rfl).trans h.asked
  known := List.forall_mem_append.2 ⟨h.known, by simp [Entry.ticket?]⟩
  waiting := h.waiting
  sorted := h.sorted
  leads := h.leads
  lived p hp := (h.lived p hp).snoc fun _ _ => nofun
  stale p hp turn hturn := by
    obtain ⟨hle, _⟩ := h.stale p hp turn hturn
    have hasks := (h.lived p hp).asks_mem (Phase.ticket?_of_turn? hturn)
    refine ⟨Nat.le_succ_of_le hle, fun _ => Nat.ne_of_lt (Nat.lt_succ_of_le hle), fun _ => ?_⟩
    exact (List.singleton_sublist.2 hasks).append (List.Sublist.refl _)
  ahead turn hturn t ht := h.ahead turn hturn t (by simpa using ht)
  inTurn := h.inTurn.snoc rfl

/-- A blank text. -/
theorem skip (h : l.Orderly ps) : l.Orderly (.over none .skipped :: ps) where
  tickets := h.tickets
  asked := h.asked
  known := h.known
  waiting := h.waiting
  sorted := h.sorted
  leads turn hturn := h.leads turn ((List.mem_cons.1 hturn).resolve_left nofun)
  lived := List.forall_mem_cons.2 ⟨rfl, h.lived⟩
  stale := List.forall_mem_cons.2 ⟨nofun, h.stale⟩
  ahead turn hturn := h.ahead turn ((List.mem_cons.1 hturn).resolve_left nofun)
  inTurn := h.inTurn

/-! ### Going on -/

theorem begins (h : l.Orderly (.queued turn :: ps)) (hcurrent : turn.generation = l.generation)
    (hleads : l.line.leads turn.ticket = true) :
    (l.note (.begins turn.ticket)).Orderly (.delivering turn :: ps) where
  tickets := h.tickets
  asked := (Entry.asked_snoc rfl).trans h.asked
  known := by
    refine List.forall_mem_append.2 ⟨h.known, List.forall_mem_singleton.2 ?_⟩
    rintro t ⟨⟩
    exact h.ticket_lt List.mem_cons_self rfl
  waiting := h.waiting
  sorted := h.sorted
  leads turn' hturn' := by
    rcases List.mem_cons.1 hturn' with hnew | hturn'
    · cases hnew
      exact hleads
    · exact h.leads turn' (List.mem_cons_of_mem _ hturn')
  lived := by
    refine List.forall_mem_cons.2 ⟨?_, fun q hq =>
      (h.lived q (List.mem_cons_of_mem _ hq)).snoc fun t ht hsame => ?_⟩
    · have hqueued : Entry.about turn.ticket l.journal = _ := h.lived _ List.mem_cons_self
      show Entry.about turn.ticket (l.journal ++ [.begins turn.ticket]) = _
      rw [Entry.about_snoc_self rfl, hqueued]
      rfl
    · exact h.ticket?_ne hsame hq ht
  stale := by
    refine List.forall_mem_cons.2 ⟨?_, fun q hq turn' hturn' =>
      h.stale_snoc nofun (List.mem_cons_of_mem _ hq) hturn'⟩
    rintro turn' ⟨⟩
    exact h.stale_snoc nofun List.mem_cons_self rfl
  ahead turn' hturn' t ht := by
    have hmem := (List.mem_cons.1 hturn').resolve_left nofun
    rcases List.mem_append.1 ht with hbegun | hnew
    · exact h.ahead turn' (List.mem_cons_of_mem _ hmem) t hbegun
    · obtain rfl := Entry.begins.inj (List.mem_singleton.1 hnew)
      -- The head of the line has the lowest ticket, and nobody else has it.
      refine Nat.lt_of_le_of_ne (h.le_of_leads hleads (h.mem_waiting_iff.2
        ⟨_, List.mem_cons_of_mem _ hmem, turn', rfl, rfl⟩)) fun hsame => ?_
      exact h.ticket?_ne rfl hmem (congrArg some hsame.symm)
  inTurn := by
    refine h.inTurn.begins (h.ahead turn List.mem_cons_self) (fun t ht => ?_) fun hstopped => ?_
    · obtain ⟨p, hp, hticket⟩ := h.exists_phase (h.known _ ht t rfl)
      rcases (h.lived p hp).of_begins hticket ht with ⟨turn', rfl, rfl⟩ | hover
      · -- Whoever is being delivered would be at the head.
        have hsame := Line.eq_of_leads (h.leads turn' hp) hleads
        exact absurd (h.ahead turn List.mem_cons_self _ ht) (by rw [hsame]; exact Nat.lt_irrefl _)
      · exact hover
    · exact ((h.stale _ List.mem_cons_self turn rfl).2.1 hstopped) hcurrent

/-- The turn of a speech is over. -/
theorem close (h : l.Orderly (p :: ps)) (hp : p.turn? = some turn)
    (hx : x.ticket? = some turn.ticket) (hasked : x.asked? = none) (hbegun : x.begun? = none)
    {outcome : SpeechOutcome} (hended : Phase.Ended (l.journal ++ [x]) turn.ticket outcome) :
    (l.close turn.ticket x).Orderly (.over (some turn.ticket) outcome :: ps) := by
  have hticket := Phase.ticket?_of_turn? hp
  have hstops : x ≠ .stops := by
    rintro rfl
    cases hx
  -- No two speeches share a ticket, so the entry says nothing of the others and the line keeps
  -- their tickets in order.
  have hother : ∀ {q turn'}, q ∈ ps → q.turn? = some turn' → turn'.ticket ≠ turn.ticket := by
    intro q turn' hq hturn' hsame
    exact h.ticket?_ne hticket hq ((Phase.ticket?_of_turn? hturn').trans (congrArg some hsame))
  have hbegins : ∀ {t}, .begins t ∈ l.journal ++ [x] → .begins t ∈ l.journal := by
    intro t ht
    refine (List.mem_append.1 ht).resolve_right fun hlast => ?_
    rw [← List.mem_singleton.1 hlast] at hbegun
    cases hbegun
  refine ⟨?_, ?_, ?_, ?_, h.sorted.filter _, fun turn' hturn' => ?_, ?_, ?_, ?_,
    h.inTurn.snoc hbegun⟩
  · have htickets := h.tickets
    rw [List.filterMap_cons_some hticket] at htickets
    exact htickets
  · exact (Entry.asked_snoc hasked).trans h.asked
  · refine List.forall_mem_append.2 ⟨h.known, List.forall_mem_singleton.2 fun t ht => ?_⟩
    obtain rfl := Option.some.inj (hx.symm.trans ht)
    exact h.ticket_lt List.mem_cons_self hticket
  · have hwaiting := (h.waiting.filter fun u => u != turn.ticket)
    rw [List.filterMap_cons_some (by rw [hp]; rfl), List.filter_cons_of_neg (by simp)] at hwaiting
    refine hwaiting.trans (List.Perm.of_eq ?_)
    refine List.filter_eq_self.2 fun u hu => bne_iff_ne.2 ?_
    obtain ⟨q, hq, hmap⟩ := List.mem_filterMap.1 hu
    obtain ⟨turn', hturn', rfl⟩ := Option.map_eq_some_iff.1 hmap
    exact hother hq hturn'
  · -- Whoever is at the head stays there when somebody else leaves.
    have hmem := (List.mem_cons.1 hturn').resolve_left nofun
    have hleads := h.leads turn' (List.mem_cons_of_mem _ hmem)
    have hne := hother hmem rfl
    unfold Line.leads at hleads ⊢
    cases hwaiting : l.line.waiting with
    | nil => simp [hwaiting] at hleads
    | cons first rest =>
      rw [hwaiting] at hleads
      obtain rfl : first = turn'.ticket := by simpa using hleads
      simp [Line.leave, hwaiting, hne]
  · refine List.forall_mem_cons.2 ⟨hended, fun q hq =>
      (h.lived q (List.mem_cons_of_mem _ hq)).snoc fun t ht hsame => ?_⟩
    exact h.ticket?_ne (hticket.trans (hx.symm.trans hsame)) hq ht
  · exact List.forall_mem_cons.2 ⟨nofun, fun q hq turn' hturn' =>
      h.stale_snoc hstops (List.mem_cons_of_mem _ hq) hturn'⟩
  · intro turn' hturn' t ht
    have hmem := (List.mem_cons.1 hturn').resolve_left nofun
    exact h.ahead turn' (List.mem_cons_of_mem _ hmem) t (hbegins ht)

/-- A speech that goes on keeps the ledger orderly. -/
theorem moves (h : l.Orderly (p :: ps)) (hmoves : Moves l p l' p') : l'.Orderly (p' :: ps) := by
  have hlived := h.lived _ List.mem_cons_self
  cases hmoves with
  | begins hcurrent hleads => exact h.begins hcurrent hleads
  | @ends turn =>
    refine h.close rfl rfl rfl rfl ?_
    show Entry.about turn.ticket (l.journal ++ [.ends turn.ticket]) = _
    rw [Entry.about_snoc_self rfl, show Entry.about turn.ticket l.journal = _ from hlived]
    rfl
  | @cancels _ turn hp hstale =>
    refine h.close hp rfl rfl rfl ⟨?_, ?_⟩
    · rw [Entry.about_snoc_self rfl]
      cases p with
      | queued turn' =>
        obtain rfl := Option.some.inj hp
        exact .inl (congrArg (· ++ [_]) hlived)
      | delivering turn' =>
        obtain rfl := Option.some.inj hp
        exact .inr (congrArg (· ++ [_]) hlived)
      | «over» => cases hp
    · have hstopped := (h.stale p List.mem_cons_self turn hp).2.2 hstale
      exact hstopped.append (List.Sublist.refl [Entry.cancels turn.ticket])

end Orderly

end Ledger

end Storyboard
