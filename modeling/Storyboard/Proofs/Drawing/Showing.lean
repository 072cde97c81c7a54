import Mathlib.Data.List.Basic
import Storyboard.Proofs.Drawing.Sight

/-! # Showings and tickets

    What a ticket is good for, told without handles and without numbers. A
    showing is known by the place of the request that began it. It lasts until
    the thing is shown again, is taken away or has gone, and it is let go at
    most once (`Chronicle`).

    However requests follow one another, the presenter gives a ticket for a
    showing exactly when the chronicle lets it go, and the ticket is good for
    as long as that very showing lasts (`finishExit_after`). -/

namespace Storyboard.Presenter

/-! ### Requests -/

/-- Something that a presenter is asked to do. -/
inductive Request where
  | present (kind : Kind) (id : EntityId) (figure : Figure) (enter : Transition)
  | refresh (id : EntityId) (figure : Figure) (transition : Transition)
  | move (id : EntityId) (destination : Point) (transition : Transition)
  | beginExit (id : EntityId) (transition : Transition)
  /-- Finish an exit with the ticket that came of the request at a place. -/
  | finishExit (place : Nat)
  | discard (id : EntityId)
  | reset

/-- A presenter and what came of every request so far: a ticket or nothing. -/
structure Desk where
  presenter : Presenter
  tickets   : List (Option Ticket)

namespace Desk

/-- Nothing was asked for yet. -/
def opened : Desk := ⟨fresh, []⟩

/-- Do what is asked for. -/
def answer (d : Desk) (now : Nat) : Request → Presenter × Option Ticket
  | .present kind id f enter => ((d.presenter.present now kind id f enter).1, none)
  | .refresh id f t => ((d.presenter.refresh now id f t).1, none)
  | .move id destination t => ((d.presenter.move now id destination t).1, none)
  | .beginExit id t => d.presenter.beginExit now id t
  | .finishExit place =>
    match d.tickets[place]?.join with
    | some t => ((d.presenter.finishExit now t).1, none)
    | none => (d.presenter, none)
  | .discard id => ((d.presenter.discard now id).1, none)
  | .reset => (d.presenter.reset now, none)

/-- The desk after a request at a time. -/
def step (d : Desk) (r : Nat × Request) : Desk :=
  ⟨(d.answer r.1 r.2).1, d.tickets ++ [(d.answer r.1 r.2).2]⟩

/-- The desk after some requests, each with its time. -/
def after (requests : List (Nat × Request)) : Desk := requests.foldl step opened

end Desk

/-! ### What the requests come to -/

/-- Which showings last, and which were let go. -/
structure Chronicle where
  /-- The place of the request that began the showing of a thing. -/
  showing : EntityId → Option Nat
  /-- For every request, the thing that it let go and the showing of it. -/
  exits   : List (Option (EntityId × Nat))

namespace Chronicle

/-- Nothing is shown yet. -/
def blank : Chronicle := ⟨fun _ => none, []⟩

/-- A thing that is shown and was not let go. -/
def Stays (c : Chronicle) (id : EntityId) : Prop :=
  ∃ place, c.showing id = some place ∧ some (id, place) ∉ c.exits

/-- The chronicle when the showing of a thing is another one or over. -/
def put (c : Chronicle) (id : EntityId) (place : Option Nat) : EntityId → Option Nat :=
  fun j => if j = id then place else c.showing j

/-- The chronicle after a request. -/
def step (c : Chronicle) : Request → Chronicle
  | .present _ id _ _ => ⟨c.put id (some c.exits.length), c.exits ++ [none]⟩
  | .refresh .. => ⟨c.showing, c.exits ++ [none]⟩
  | .move .. => ⟨c.showing, c.exits ++ [none]⟩
  | .beginExit id _ =>
    let exit := (c.showing id).map fun place => (id, place)
    ⟨c.showing, c.exits ++ [if exit ∈ c.exits then none else exit]⟩
  | .finishExit place =>
    match c.exits[place]?.join with
    | some (id, showing) =>
      ⟨if c.showing id = some showing then c.put id none else c.showing, c.exits ++ [none]⟩
    | none => ⟨c.showing, c.exits ++ [none]⟩
  | .discard id => ⟨c.put id none, c.exits ++ [none]⟩
  | .reset => ⟨fun _ => none, c.exits ++ [none]⟩

/-- The chronicle of some requests. -/
def after (requests : List Request) : Chronicle := requests.foldl step blank

end Chronicle

/-! ### The presenter keeps to the chronicle -/

/-- The desk is as the chronicle tells it, where `place` says which request began an
    incarnation. -/
structure Desk.Told (d : Desk) (c : Chronicle) (place : Nat → Nat) : Prop where
  sound    : d.presenter.Sound
  showing  : ∀ id, c.showing id = (d.presenter.sight? id).map fun v => place v.incarnation
  exits    : c.exits = d.tickets.map (Option.map fun t => (t.id, place t.incarnation))
  /-- What was let go is on its way out, and nothing else is. -/
  exiting  : ∀ id v, d.presenter.sight? id = some v →
    (v.exiting = true ↔ some ⟨id, v.incarnation⟩ ∈ d.tickets)
  /-- Tickets are given for incarnations that there have been. -/
  issued   : ∀ t, some t ∈ d.tickets →
    0 < t.incarnation ∧ t.incarnation ≤ d.presenter.incarnations
  shown    : ∀ id v, d.presenter.sight? id = some v → 0 < v.incarnation
  /-- Each request began at most one of them. -/
  earlier  : ∀ i, 0 < i → i ≤ d.presenter.incarnations → place i < d.tickets.length
  distinct : ∀ i j, 0 < i → i < j → j ≤ d.presenter.incarnations → place i ≠ place j

namespace Desk.Told

variable {d : Desk} {c : Chronicle} {place : Nat → Nat} {id : EntityId} {v : Sight} {t : Ticket}
  {p : Presenter} {now : Nat}

theorem opened : Desk.opened.Told .blank place := by
  refine ⟨sound_of_empty rfl rfl, fun _ => rfl, rfl, ?_, ?_, ?_, ?_, ?_⟩
  · intro id v hv
    cases hv
  · intro t ht
    cases ht
  · intro id v hv
    cases hv
  · intro i hpos hle
    have hzero : i ≤ 0 := hle
    omega
  · intro i j hpos hlt hle
    have hzero : j ≤ 0 := hle
    omega

/-- Incarnations that the same request began are the same. -/
theorem place_inj (h : d.Told c place) {i j : Nat} (hi : 0 < i)
    (hile : i ≤ d.presenter.incarnations) (hj : 0 < j) (hjle : j ≤ d.presenter.incarnations)
    (heq : place i = place j) : i = j := by
  rcases Nat.lt_trichotomy i j with hlt | rfl | hlt
  · exact absurd heq (h.distinct i j hi hlt hjle)
  · rfl
  · exact absurd heq.symm (h.distinct j i hj hlt hile)

/-- A ticket is for what is seen exactly if it is for the showing that lasts. -/
theorem incarnation_eq_iff (h : d.Told c place) (ht : some t ∈ d.tickets) :
    (∃ v, d.presenter.sight? t.id = some v ∧ v.incarnation = t.incarnation) ↔
      c.showing t.id = some (place t.incarnation) := by
  rw [h.showing, Option.map_eq_some_iff]
  constructor
  · rintro ⟨v, hv, heq⟩
    exact ⟨v, hv, by rw [heq]⟩
  · rintro ⟨v, hv, heq⟩
    obtain ⟨hpos, hle⟩ := h.issued t ht
    exact ⟨v, hv, h.place_inj (h.shown _ v hv) (h.sound.incarnation_le hv) hpos hle heq⟩

theorem mem_exits_iff (h : d.Told c place) (hv : d.presenter.sight? id = some v) :
    some (id, place v.incarnation) ∈ c.exits ↔ some ⟨id, v.incarnation⟩ ∈ d.tickets := by
  rw [h.exits, List.mem_map]
  constructor
  · rintro ⟨ticket, ht, heq⟩
    obtain ⟨t, rfl, hpair⟩ := Option.map_eq_some_iff.1 heq
    obtain ⟨rfl, hplace⟩ := Prod.mk.inj hpair
    obtain ⟨hpos, hle⟩ := h.issued t ht
    rw [← h.place_inj hpos hle (h.shown _ v hv) (h.sound.incarnation_le hv) hplace]
    exact ht
  · intro ht
    exact ⟨_, ht, rfl⟩

/-- What stays by the chronicle is seen and is not on its way out. -/
theorem stays_iff (h : d.Told c place) :
    c.Stays id ↔ ∃ v, d.presenter.sight? id = some v ∧ v.exiting = false := by
  unfold Chronicle.Stays
  rw [h.showing]
  cases hv : d.presenter.sight? id with
  | none => simp
  | some v =>
    simp only [Option.map_some, Option.some.injEq, exists_eq_left', h.mem_exits_iff hv]
    rw [← h.exiting id v hv, Bool.not_eq_true]

/-! ### One request -/

/-- A request of which no ticket comes and no new incarnation: whatever is still seen has the status
    that it had. -/
theorem quiet (h : d.Told c place) {showing : EntityId → Option Nat} (hsound : p.Sound)
    (hinc : p.incarnations = d.presenter.incarnations)
    (hold : ∀ id v, p.sight? id = some v →
      ∃ w, d.presenter.sight? id = some w ∧ w.status = v.status)
    (hshowing : ∀ id, showing id = (p.sight? id).map fun v => place v.incarnation) :
    Told ⟨p, d.tickets ++ [none]⟩ ⟨showing, c.exits ++ [none]⟩ place := by
  -- The request is answered without a ticket, so those that were given are the same.
  have hmem : ∀ t : Ticket, some t ∈ d.tickets ++ [none] ↔ some t ∈ d.tickets := by
    simp
  refine ⟨hsound, hshowing, by simp [h.exits], ?_, ?_, ?_, ?_, ?_⟩
  · intro id v hv
    obtain ⟨w, hw, hstatus⟩ := hold id v hv
    obtain ⟨_, hincarnation, hx⟩ := Sight.status_eq_iff.1 hstatus
    rw [hmem, ← hx, ← hincarnation]
    exact h.exiting id w hw
  · intro t ht
    dsimp only
    rw [hinc]
    exact h.issued t ((hmem t).1 ht)
  · intro id v hv
    obtain ⟨w, hw, hstatus⟩ := hold id v hv
    rw [← (Sight.status_eq_iff.1 hstatus).2.1]
    exact h.shown id w hw
  · intro i hpos hle
    have hlt := h.earlier i hpos (hinc ▸ hle)
    simp only [List.length_append, List.length_singleton]
    omega
  · intro i j hpos hlt hle
    exact h.distinct i j hpos hlt (hinc ▸ hle)

/-- A request that changes at most figures. -/
theorem redrawn (h : d.Told c place) (hsound : p.Sound)
    (hinc : p.incarnations = d.presenter.incarnations)
    (hstatus : ∀ id, (p.sight? id).map Sight.status =
      (d.presenter.sight? id).map Sight.status) :
    Told ⟨p, d.tickets ++ [none]⟩ ⟨c.showing, c.exits ++ [none]⟩ place := by
  refine h.quiet hsound hinc ?_ ?_
  · intro id v hv
    have hsame := hstatus id
    rw [hv] at hsame
    exact Option.map_eq_some_iff.1 hsame.symm
  · intro id
    have hplace : ∀ o : Option Sight, o.map (fun v => place v.incarnation) =
        (o.map Sight.status).map fun s => place s.2.1 := by
      intro o
      rw [Option.map_map]
      rfl
    rw [h.showing, hplace, hplace, hstatus]

/-- A request after which a thing is there no more. -/
theorem removed (h : d.Told c place) (hsound : p.Sound)
    (hinc : p.incarnations = d.presenter.incarnations)
    (hsight : ∀ j, p.sight? j = if j = id then none else d.presenter.sight? j) :
    Told ⟨p, d.tickets ++ [none]⟩ ⟨c.put id none, c.exits ++ [none]⟩ place := by
  refine h.quiet hsound hinc ?_ ?_
  · intro j v hv
    rw [hsight] at hv
    split at hv
    · cases hv
    · exact ⟨v, hv, rfl⟩
  · intro j
    unfold Chronicle.put
    rw [hsight]
    split
    · rfl
    · exact h.showing j

theorem discard (h : d.Told c place) (now : Nat) (id : EntityId) :
    Told ⟨(d.presenter.discard now id).1, d.tickets ++ [none]⟩
      ⟨c.put id none, c.exits ++ [none]⟩ place := by
  obtain ⟨hsound, hsight⟩ := sound_discard h.sound now id
  exact h.removed hsound (discard_incarnations _ _ _) hsight

theorem present (h : d.Told c place) (now : Nat) (kind : Kind) (id : EntityId) (f : Figure)
    (enter : Transition) :
    ∃ place', Told ⟨(d.presenter.present now kind id f enter).1, d.tickets ++ [none]⟩
      ⟨c.put id (some c.exits.length), c.exits ++ [none]⟩ place' := by
  obtain ⟨hsound, hsight⟩ := sound_present h.sound now kind id f enter
  have hinc : (d.presenter.present now kind id f enter).1.incarnations =
      d.presenter.incarnations + 1 := present_incarnations
  have hlength : c.exits.length = d.tickets.length := by
    simp [h.exits]
  -- The new incarnation was begun by this request, and the others by those before.
  let place' : Nat → Nat := fun i =>
    if i = d.presenter.incarnations + 1 then d.tickets.length else place i
  have hnew : place' (d.presenter.incarnations + 1) = d.tickets.length := if_pos rfl
  have hold : ∀ {i}, i ≤ d.presenter.incarnations → place' i = place i := by
    intro i hi
    exact if_neg (by omega)
  have hmem : ∀ t : Ticket, some t ∈ d.tickets ++ [none] ↔ some t ∈ d.tickets := by
    simp
  refine ⟨place', hsound, ?_, ?_, ?_, ?_, ?_, ?_, ?_⟩
  · intro j
    unfold Chronicle.put
    dsimp only
    rw [hsight]
    split
    · rw [Option.map_some, hnew, hlength]
    · rw [h.showing]
      cases hv : d.presenter.sight? j with
      | none => rfl
      | some v => rw [Option.map_some, Option.map_some, hold (h.sound.incarnation_le hv)]
  · have hsame : d.tickets.map (Option.map fun t => (t.id, place' t.incarnation)) =
        d.tickets.map (Option.map fun t => (t.id, place t.incarnation)) := by
      refine List.map_congr_left ?_
      rintro (_ | t) ht
      · rfl
      · rw [Option.map_some, Option.map_some, hold (h.issued t ht).2]
    simp [h.exits, hsame]
  · intro j v hv
    rw [hmem]
    rw [hsight] at hv
    split at hv
    · obtain rfl := Option.some.inj hv
      -- Nobody has a ticket for the new incarnation yet.
      refine iff_of_false Bool.false_ne_true fun ht => ?_
      have hle := (h.issued _ ht).2
      dsimp only at hle
      omega
    · exact h.exiting j v hv
  · intro t ht
    obtain ⟨hpos, hle⟩ := h.issued t ((hmem t).1 ht)
    exact ⟨hpos, by rw [hinc]; omega⟩
  · intro j v hv
    rw [hsight] at hv
    split at hv
    · obtain rfl := Option.some.inj hv
      exact Nat.succ_pos _
    · exact h.shown j v hv
  · intro i hpos hle
    rw [hinc] at hle
    simp only [List.length_append, List.length_singleton]
    by_cases hi : i = d.presenter.incarnations + 1
    · rw [hi, hnew]
      omega
    · have hlt := h.earlier i hpos (by omega)
      rw [hold (by omega)]
      omega
  · intro i j hpos hlt hle
    rw [hinc] at hle
    rw [hold (show i ≤ d.presenter.incarnations by omega)]
    by_cases hj : j = d.presenter.incarnations + 1
    · have hearlier := h.earlier i hpos (by omega)
      rw [hj, hnew]
      omega
    · rw [hold (show j ≤ d.presenter.incarnations by omega)]
      exact h.distinct i j hpos hlt (by omega)

theorem beginExit (h : d.Told c place) (now : Nat) (id : EntityId) (t : Transition) :
    Told (d.step (now, .beginExit id t)) (c.step (.beginExit id t)) place := by
  unfold Desk.step Chronicle.step Desk.answer
  dsimp only
  rcases d.presenter.stays_or_leaves id with ⟨v, hv, hx⟩ | hgone
  · obtain ⟨hticket, hinc, hsound, hsight⟩ := beginExit_of_staying h.sound now t hv hx
    -- The thing stays, so this showing was given no ticket yet and is given one now.
    have hnew : some (id, place v.incarnation) ∉ c.exits := by
      rw [h.mem_exits_iff hv, ← h.exiting id v hv, hx]
      exact Bool.false_ne_true
    rw [hticket, h.showing, hv, Option.map_some, Option.map_some, if_neg hnew]
    refine ⟨hsound, ?_, by simp [h.exits], ?_, ?_, ?_, ?_, ?_⟩
    · intro j
      dsimp only
      rw [hsight]
      split
      · next hj => rw [hj, h.showing, hv]; rfl
      · exact h.showing j
    · intro j w hw
      rw [hsight] at hw
      split at hw
      · next hj =>
        obtain rfl := Option.some.inj hw
        simp [hj]
      · next hj =>
        have hmem : some ⟨j, w.incarnation⟩ ∈ d.tickets ++ [some ⟨id, v.incarnation⟩] ↔
            some ⟨j, w.incarnation⟩ ∈ d.tickets := by
          simp [hj]
        rw [hmem]
        exact h.exiting j w hw
    · intro u hu
      dsimp only
      rw [hinc]
      rcases List.mem_append.1 hu with hu | hu
      · exact h.issued u hu
      · obtain rfl := Option.some.inj (List.mem_singleton.1 hu)
        exact ⟨h.shown id v hv, h.sound.incarnation_le hv⟩
    · intro j w hw
      rw [hsight] at hw
      split at hw
      · obtain rfl := Option.some.inj hw
        exact h.shown id v hv
      · exact h.shown j w hw
    · intro i hpos hle
      have hlt := h.earlier i hpos (hinc ▸ hle)
      simp only [List.length_append, List.length_singleton]
      omega
    · intro i j hpos hlt hle
      exact h.distinct i j hpos hlt (hinc ▸ hle)
  · -- Nothing is shown, or it was let go already and its ticket is known: no ticket is given.
    have hexit : (if (c.showing id).map (fun place => (id, place)) ∈ c.exits then none
        else (c.showing id).map fun place => (id, place)) = none := by
      rw [h.showing]
      cases hv : d.presenter.sight? id with
      | none => simp
      | some v => exact if_pos ((h.mem_exits_iff hv).2 ((h.exiting id v hv).1 (hgone v hv)))
    rw [beginExit_of_not_staying h.sound t hgone, hexit]
    exact h.redrawn h.sound rfl fun _ => rfl

theorem finishExit (h : d.Told c place) (now n : Nat) :
    Told (d.step (now, .finishExit n)) (c.step (.finishExit n)) place := by
  have hexit : c.exits[n]?.join =
      d.tickets[n]?.join.map fun t => (t.id, place t.incarnation) := by
    rw [h.exits, List.getElem?_map]
    rcases d.tickets[n]? with _ | _ | t <;> rfl
  unfold Desk.step Chronicle.step Desk.answer
  dsimp only
  rw [hexit]
  cases ht : d.tickets[n]?.join with
  | none => exact h.redrawn h.sound rfl fun _ => rfl
  | some t =>
    have hmem : some t ∈ d.tickets := List.mem_of_getElem? (Option.join_eq_some_iff.1 ht)
    simp only [Option.map_some]
    by_cases hlasts : c.showing t.id = some (place t.incarnation)
    · obtain ⟨v, hv, heq⟩ := (h.incarnation_eq_iff hmem).2 hlasts
      rw [finishExit_of_match hv heq, if_pos hlasts]
      exact h.discard now t.id
    · have hstale : ∀ v, d.presenter.sight? t.id = some v → v.incarnation ≠ t.incarnation :=
        fun v hv heq => hlasts ((h.incarnation_eq_iff hmem).1 ⟨v, hv, heq⟩)
      rw [finishExit_of_stale h.sound hstale, if_neg hlasts]
      exact h.redrawn h.sound rfl fun _ => rfl

/-- Every request keeps the desk as the chronicle tells it. -/
theorem step (h : d.Told c place) (now : Nat) (r : Request) :
    ∃ place', (d.step (now, r)).Told (c.step r) place' := by
  -- Requests that give no ticket and show nothing anew change no status, so they are quiet.
  cases r with
  | present kind id f enter => exact h.present now kind id f enter
  | refresh id f t =>
    have hrefresh := sound_refresh h.sound now id f t
    refine ⟨place, h.redrawn hrefresh.1 apply_incarnations fun j => ?_⟩
    refine (congrArg (Option.map Sight.status) (hrefresh.2 j)).trans ?_
    split
    · next hj =>
      rw [hj]
      cases d.presenter.sight? id <;> simp
    · rfl
  | move id destination t =>
    exact ⟨place, h.redrawn (sound_move h.sound now id destination t).1 apply_incarnations
      (status_move h.sound now id destination t)⟩
  | beginExit id t => exact ⟨place, h.beginExit now id t⟩
  | finishExit n => exact ⟨place, h.finishExit now n⟩
  | discard id => exact ⟨place, h.discard now id⟩
  | reset =>
    refine ⟨place, h.quiet (sound_of_empty rfl rfl) rfl ?_ fun _ => rfl⟩
    intro id v hv
    cases hv

end Desk.Told

/-! ### After any requests -/

variable {requests : List (Nat × Request)}

theorem Desk.after_append (as bs : List (Nat × Request)) :
    Desk.after (as ++ bs) = bs.foldl Desk.step (Desk.after as) := List.foldl_append

theorem Chronicle.after_append (as bs : List Request) :
    Chronicle.after (as ++ bs) = bs.foldl Chronicle.step (Chronicle.after as) :=
  List.foldl_append

/-- Whatever was asked for, the desk is as the chronicle tells it. -/
theorem told_after (requests : List (Nat × Request)) :
    ∃ place, (Desk.after requests).Told (Chronicle.after (requests.map (·.2))) place := by
  have hall : ∀ (rs : List (Nat × Request)) (d : Desk) (c : Chronicle) (place : Nat → Nat),
      d.Told c place →
        ∃ place', (rs.foldl Desk.step d).Told ((rs.map (·.2)).foldl Chronicle.step c) place' := by
    intro rs
    induction rs with
    | nil => exact fun d c place h => ⟨place, h⟩
    | cons r rs ih =>
      intro d c place h
      obtain ⟨place', h'⟩ := h.step r.1 r.2
      exact ih _ _ _ h'
  exact hall requests .opened .blank (fun i => i) Desk.Told.opened

/-- A ticket is kept. -/
theorem Desk.tickets_foldl (d : Desk) (rs : List (Nat × Request)) :
    ∃ more, (rs.foldl Desk.step d).tickets = d.tickets ++ more := by
  induction rs generalizing d with
  | nil => exact ⟨[], (List.append_nil _).symm⟩
  | cons r rs ih =>
    obtain ⟨more, hmore⟩ := ih (d.step r)
    refine ⟨(d.answer r.1 r.2).2 :: more, ?_⟩
    rw [List.foldl_cons, hmore, List.append_cons]
    rfl

namespace Chronicle

variable {c : Chronicle}

/-- Every request adds what it let go, or nothing. -/
theorem exits_step (c : Chronicle) (r : Request) : ∃ exit, (c.step r).exits = c.exits ++ [exit] := by
  cases r with
  | finishExit n =>
    simp only [Chronicle.step]
    split <;> exact ⟨_, rfl⟩
  | _ => exact ⟨_, rfl⟩

theorem exits_foldl (c : Chronicle) (rs : List Request) :
    ∃ more, (rs.foldl Chronicle.step c).exits = c.exits ++ more := by
  induction rs generalizing c with
  | nil => exact ⟨[], (List.append_nil _).symm⟩
  | cons r rs ih =>
    obtain ⟨exit, hexit⟩ := c.exits_step r
    obtain ⟨more, hmore⟩ := ih (c.step r)
    exact ⟨exit :: more, by simp [hmore, hexit]⟩

/-- No request takes up a showing again that is over. -/
theorem showing_step_ne {id : EntityId} {place : Nat} (hplace : place < c.exits.length)
    (hover : c.showing id ≠ some place) (r : Request) : (c.step r).showing id ≠ some place := by
  have hput : ∀ i, c.put i none id ≠ some place := by
    intro i
    unfold Chronicle.put
    split
    · rintro ⟨⟩
    · exact hover
  cases r with
  | present kind i f enter =>
    -- A thing that is shown now is shown by a later request.
    simp only [Chronicle.step, Chronicle.put]
    split
    · intro heq
      have hlast : c.exits.length = place := Option.some.inj heq
      omega
    · exact hover
  | finishExit n =>
    simp only [Chronicle.step]
    split
    · dsimp only
      split
      · exact hput _
      · exact hover
    · exact hover
  | discard i => exact hput i
  | reset => rintro ⟨⟩
  | _ => exact hover

theorem showing_foldl_ne {id : EntityId} {place : Nat} (hplace : place < c.exits.length)
    (hover : c.showing id ≠ some place) (rs : List Request) :
    (rs.foldl Chronicle.step c).showing id ≠ some place := by
  induction rs generalizing c with
  | nil => exact hover
  | cons r rs ih =>
    obtain ⟨exit, hexit⟩ := c.exits_step r
    have hlength : (c.step r).exits.length = c.exits.length + 1 := by
      simp [hexit]
    exact ih (by omega) (showing_step_ne hplace hover r)

end Chronicle

/-! ### What a ticket is good for -/

/-- A thing that is live is taken away with its item, and nothing else changes. -/
structure TakesAway (p q : Presenter) (id : EntityId) : Prop where
  live  : q.live = p.live.erase id
  item  : ∃ l i, p.live.find? id = some l ∧ p.canvas.items.find? l.handle = some i ∧ i.id = id ∧
    q.canvas = { p.canvas with items := p.canvas.items.erase l.handle }

theorem takesAway_discard {p : Presenter} {id : EntityId} {v : Sight} (hp : p.Sound)
    (hv : p.sight? id = some v) (now : Nat) : p.TakesAway (p.discard now id).1 id := by
  obtain ⟨l, i, hl, hi, _⟩ := sight?_eq_some hv
  obtain ⟨i', hi', hid, _⟩ := hp.drawn id l hl
  obtain rfl := Option.some.inj (hi.symm.trans hi')
  unfold discard
  rw [hl]
  simp only [instruct, perform_live hi]
  exact ⟨rfl, l, i, hl, hi, hid, rfl⟩

theorem apply_accepts_iff {p : Presenter} (hp : p.Sound) (now : Nat) (id : EntityId)
    (i : Instruction) :
    ((p.apply now id i).2 = true ↔ ∃ v, p.sight? id = some v ∧ v.exiting = false) ∧
    ((p.apply now id i).2 = false → (p.apply now id i).1 = p) := by
  unfold apply
  cases hl : p.live.find? id with
  | none => simp [staying?_of_none hl, sight?_eq_none_of_live hl]
  | some l =>
    obtain ⟨item, hitem, _, _⟩ := hp.drawn id l hl
    rw [staying?_of_live hl, sight?_of_live hl hitem]
    cases hx : l.exiting <;> simp

theorem beginExit_accepts_iff {p : Presenter} (hp : p.Sound) (now : Nat) (id : EntityId)
    (t : Transition) :
    ((p.beginExit now id t).2.isSome = true ↔ ∃ v, p.sight? id = some v ∧ v.exiting = false) ∧
    ((p.beginExit now id t).2.isSome = false → (p.beginExit now id t).1 = p) := by
  unfold beginExit
  cases hl : p.live.find? id with
  | none => simp [staying?_of_none hl, sight?_eq_none_of_live hl]
  | some l =>
    obtain ⟨item, hitem, _, _⟩ := hp.drawn id l hl
    rw [staying?_of_live hl, sight?_of_live hl hitem]
    cases hx : l.exiting <;> simp

/-- A ticket that was given is good exactly as long as the showing lasts. -/
theorem finishExit_iff {d : Desk} {c : Chronicle} {place : Nat → Nat} (h : d.Told c place)
    {t : Ticket} (ht : some t ∈ d.tickets) (now : Nat) :
    (d.presenter.finishExit now t).2 = true ↔ c.showing t.id = some (place t.incarnation) := by
  rw [← h.incarnation_eq_iff ht]
  constructor
  · intro htrue
    by_contra hstale
    have hnone : ∀ v, d.presenter.sight? t.id = some v → v.incarnation ≠ t.incarnation :=
      fun v hv heq => hstale ⟨v, hv, heq⟩
    rw [finishExit_of_stale h.sound hnone] at htrue
    cases htrue
  · rintro ⟨v, hv, heq⟩
    rw [finishExit_of_match hv heq]

/-- Once an exit was finished with a ticket, that ticket is good for nothing. -/
theorem finishExit_spent {requests : List (Nat × Request)} {n now : Nat} {t : Ticket}
    (ht : (Desk.after requests).tickets[n]? = some (some t))
    (htrue : ((Desk.after requests).presenter.finishExit now t).2 = true)
    (later : List (Nat × Request)) (now' : Nat) :
    ((Desk.after (requests ++ (now, .finishExit n) :: later)).presenter.finishExit now' t).2 =
      false := by
  obtain ⟨place, h⟩ := told_after requests
  obtain ⟨place', h'⟩ := told_after (requests ++ (now, .finishExit n) :: later)
  have hmem : some t ∈ (Desk.after requests).tickets := List.mem_of_getElem? ht
  have hlasts := (finishExit_iff h hmem now).1 htrue
  have hexit : (Chronicle.after (requests.map (·.2))).exits[n]? =
      some (some (t.id, place t.incarnation)) := by
    rw [h.exits, List.getElem?_map, ht]
    rfl
  have hn : n < (Desk.after requests).tickets.length := (List.getElem?_eq_some_iff.1 ht).1
  -- The ticket is kept, and so is what the chronicle says of it.
  have ht' : (Desk.after (requests ++ (now, .finishExit n) :: later)).tickets[n]? =
      some (some t) := by
    obtain ⟨more, hmore⟩ := (Desk.after requests).tickets_foldl ((now, .finishExit n) :: later)
    rw [Desk.after_append, hmore, List.getElem?_append_left hn, ht]
  have hexit' : (Chronicle.after ((requests ++ (now, .finishExit n) :: later).map
      (·.2))).exits[n]? = some (some (t.id, place t.incarnation)) := by
    obtain ⟨more, hmore⟩ := (Chronicle.after (requests.map (·.2))).exits_foldl
      (((now, .finishExit n) :: later).map (·.2))
    have hlt := (List.getElem?_eq_some_iff.1 hexit).1
    rw [List.map_append, Chronicle.after_append, hmore, List.getElem?_append_left hlt, hexit]
  have hsame : place' t.incarnation = place t.incarnation := by
    rw [h'.exits, List.getElem?_map, ht'] at hexit'
    simpa using hexit'
  have hplace : place t.incarnation <
      ((Chronicle.after (requests.map (·.2))).step (.finishExit n)).exits.length := by
    obtain ⟨hpos, hle⟩ := h.issued t hmem
    have hlt := h.earlier _ hpos hle
    obtain ⟨exit, hstep⟩ := (Chronicle.after (requests.map (·.2))).exits_step (.finishExit n)
    rw [hstep, h.exits]
    simp only [List.length_append, List.length_map, List.length_singleton]
    omega
  have hover : ((Chronicle.after (requests.map (·.2))).step (.finishExit n)).showing t.id ≠
      some (place t.incarnation) := by
    simp [Chronicle.step, hexit, hlasts, Chronicle.put]
  rw [Bool.eq_false_iff, Ne, finishExit_iff h' (List.mem_of_getElem? ht') now', hsame,
    List.map_append, Chronicle.after_append]
  exact Chronicle.showing_foldl_ne hplace hover (later.map (·.2))

/-- Whatever was asked for before: an exit is finished with a ticket exactly as long as the very
    showing lasts for which the ticket was given. Then the thing is taken away with its item, and
    the ticket is good for nothing from there on; else nothing changes at all. What is not shown
    or was let go already accepts neither another figure nor a move nor another exit. -/
theorem finishExit_after (requests : List (Nat × Request)) :
    let p := (Desk.after requests).presenter
    let c := Chronicle.after (requests.map (·.2))
    (∀ place t now, (Desk.after requests).tickets[place]? = some (some t) →
      ∃ showing, c.exits[place]? = some (some (t.id, showing)) ∧
        ((p.finishExit now t).2 = true ↔ c.showing t.id = some showing) ∧
        ((p.finishExit now t).2 = true → p.TakesAway (p.finishExit now t).1 t.id ∧
          ∀ later now', ((Desk.after (requests ++ (now, .finishExit place) :: later)).presenter
            |>.finishExit now' t).2 = false) ∧
        ((p.finishExit now t).2 = false → (p.finishExit now t).1 = p)) ∧
    ∀ id now f destination t,
      ((p.refresh now id f t).2 = true ↔ c.Stays id) ∧
      ((p.move now id destination t).2 = true ↔ c.Stays id) ∧
      ((p.beginExit now id t).2.isSome = true ↔ c.Stays id) ∧
      (¬c.Stays id → (p.refresh now id f t).1 = p ∧ (p.move now id destination t).1 = p ∧
        (p.beginExit now id t).1 = p) := by
  intro p c
  obtain ⟨place, h⟩ := told_after requests
  refine ⟨fun n t now ht => ?_, fun id now f destination t => ?_⟩
  · have hmem : some t ∈ (Desk.after requests).tickets := List.mem_of_getElem? ht
    have hexit : c.exits[n]? = some (some (t.id, place t.incarnation)) := by
      rw [h.exits, List.getElem?_map, ht]
      rfl
    -- The ticket fits what is shown exactly if the showing is the one it was given for.
    have hgood := finishExit_iff h hmem now
    refine ⟨_, hexit, hgood, fun htrue => ⟨?_, finishExit_spent ht htrue⟩, fun hfalse => ?_⟩
    · obtain ⟨v, hv, heq⟩ := (h.incarnation_eq_iff hmem).2 (hgood.1 htrue)
      rw [finishExit_of_match hv heq]
      exact takesAway_discard h.sound hv now
    · have hstale : ∀ v, p.sight? t.id = some v → v.incarnation ≠ t.incarnation := by
        intro v hv heq
        rw [hgood.2 ((h.incarnation_eq_iff hmem).1 ⟨v, hv, heq⟩)] at hfalse
        cases hfalse
      rw [finishExit_of_stale h.sound hstale]
  · have hrefresh := apply_accepts_iff h.sound now id (.update f t)
    have hmove := apply_accepts_iff h.sound now id (.move destination t)
    have hexit := beginExit_accepts_iff h.sound now id t
    rw [← h.stays_iff] at hrefresh hmove hexit
    refine ⟨hrefresh.1, hmove.1, hexit.1, fun hgone => ⟨hrefresh.2 ?_, hmove.2 ?_, hexit.2 ?_⟩⟩
    · exact Bool.eq_false_iff.2 fun h => hgone (hrefresh.1.1 h)
    · exact Bool.eq_false_iff.2 fun h => hgone (hmove.1.1 h)
    · exact Bool.eq_false_iff.2 fun h => hgone (hexit.1.1 h)

/-- A thing is let go, shown again and let go again. The first ticket is good for nothing then, and
    the second one is good. -/
theorem finishExit_of_shown_again :
    let a : EntityId := ⟨"a"⟩
    let f : Figure := ⟨.shapes, ⟨0, 0⟩, 1, []⟩
    let requests : List (Nat × Request) := [(0, .present .node a f .cut), (0, .beginExit a .cut),
      (5, .present .label a f .cut), (7, .beginExit a .cut)]
    let d := Desk.after requests
    d.tickets[1]? = some (some ⟨a, 1⟩) ∧ (d.presenter.finishExit 9 ⟨a, 1⟩).2 = false ∧
      d.tickets[3]? = some (some ⟨a, 2⟩) ∧ (d.presenter.finishExit 9 ⟨a, 2⟩).2 = true := by
  intro a f requests d
  have hfirst : d.tickets[1]? = some (some ⟨a, 1⟩) := by decide +kernel
  have hsecond : d.tickets[3]? = some (some ⟨a, 2⟩) := by decide +kernel
  have hexits : (Chronicle.after (requests.map (·.2))).exits =
      [none, some (a, 0), none, some (a, 2)] := by decide +kernel
  have hshowing : (Chronicle.after (requests.map (·.2))).showing a = some 2 := by decide +kernel
  obtain ⟨i, hi, hold, _⟩ := (finishExit_after requests).1 1 ⟨a, 1⟩ 9 hfirst
  obtain ⟨j, hj, hnew, _⟩ := (finishExit_after requests).1 3 ⟨a, 2⟩ 9 hsecond
  rw [hexits] at hi hj
  obtain rfl : 0 = i := by simpa using hi
  obtain rfl : 2 = j := by simpa using hj
  refine ⟨hfirst, ?_, hsecond, hnew.2 hshowing⟩
  rw [Bool.eq_false_iff, Ne, hold, hshowing]
  decide

end Storyboard.Presenter
