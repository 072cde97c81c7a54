import Storyboard.Proofs.Playback.Progress

/-! # All calls return

    The calls of an ensemble share what is left of their player: the
    rebuildings that are still to come, the steps behind the cursor and the
    moves until the next step. Every turn of a call that can go on makes that
    less (`remaining_step`), so after finitely many rounds all calls have
    returned, whatever was called before (`exists_run_ended`). -/

namespace Storyboard.Player

open Ensemble

variable {p q : Player} {t u : Task} {ts : List Task} {deeds : List Deed} {l : List Standing}
  {n now : Nat} {e : Ensemble Player Call Task} {v v' : Voice Player Call Task} {place : Nat}

/-! ### Turns come nearer to the end -/

theorem nears_of_moves (h : p.Ordered (t.standing :: l))
    (hplace : ∀ place, t.stretch? p.cursor = some (.performing place) → place = p.cursor)
    (hmoves : Moves now n p t deeds q u) (hn : 0 < n) : Nears p t q u := by
  induction hmoves with
  | refl => exact absurd hn (Nat.lt_irrefl 0)
  | @head m _ _ _ _ _ _ _ _ hfirst hrest ih =>
    have hnears := hfirst.nears h hplace
    rcases Nat.eq_zero_or_pos m with rfl | hm
    · cases hrest
      exact hnears
    · exact hnears.trans (ih (h.move hfirst) (hfirst.place hplace) hm)

theorem rank_le_of_moves (h : p.Ordered (t.standing :: l))
    (hplace : ∀ place, t.stretch? p.cursor = some (.performing place) → place = p.cursor)
    (hmoves : Moves now n p t deeds q u) : u.rank ≤ t.rank := by
  rcases Nat.eq_zero_or_pos n with rfl | hn
  · cases hmoves
    exact Nat.le_refl _
  · rcases nears_of_moves h hplace hmoves hn with hless | ⟨hsame, _⟩
    · exact Nat.le_of_lt hless
    · exact Nat.le_of_eq hsame

/-- A call that begins has fewer rebuildings ahead than before. -/
theorem Entered.rank_le {call : Call} (h : Entered p call q t) : t.rank ≤ 2 := by
  cases h with
  | rewinds hhalts goal => exact Nat.le_refl 2
  | wraps hplay => exact Nat.le_refl 2
  | _ => exact Nat.zero_le 2

/-! ### What is left of an ensemble -/

/-- How many rebuildings a voice has ahead, at most, with one more before it begins. -/
def voiceRank : Voice Player Call Task → Nat
  | .pending .. => 3
  | .running _ t => t.rank
  | .done .. => 0

/-- How many more moves a voice can make until the next step. -/
def voiceCost (ahead : Nat) : Voice Player Call Task → Nat
  | .running _ t => t.cost ahead
  | _ => 0

/-- What is left: rebuildings, steps, and moves until the next step. -/
def remaining (e : Ensemble Player Call Task) : Nat ×ₗ Nat ×ₗ Nat :=
  toLex ((e.voices.map voiceRank).sum,
    toLex (e.world.left, (e.voices.map (voiceCost e.world.ahead)).sum))

@[simp] theorem voiceRank_settle (start : Nat) (x : Player × Task) :
    voiceRank (Voice.settle machine now start x).2 = x.2.rank := by
  obtain ⟨q, t⟩ := x
  cases t <;> rfl

@[simp] theorem voiceCost_settle (start ahead : Nat) (x : Player × Task) :
    voiceCost ahead (Voice.settle machine now start x).2 = x.2.cost ahead := by
  obtain ⟨q, t⟩ := x
  cases t <;> rfl

/-- Only one of the summands changes when a voice does. -/
theorem sum_set {voices : List (Voice Player Call Task)} (h : voices[place]? = some v)
    (v' : Voice Player Call Task) (f : Voice Player Call Task → Nat) :
    ((voices.set place v').map f).sum + f v = (voices.map f).sum + f v' := by
  induction voices generalizing place with
  | nil => cases h
  | cons u rest ih =>
    cases place with
    | zero =>
      obtain rfl := Option.some.inj h
      simp only [List.set_cons_zero, List.map_cons, List.sum_cons]
      omega
    | succ place =>
      have hrest : ((rest.set place v').map f).sum + f v = (rest.map f).sum + f v' := ih h
      simp only [List.set_cons_succ, List.map_cons, List.sum_cons]
      omega

/-- A voice with fewer rebuildings ahead leaves less. -/
theorem remaining_lt_of_rank (h : e.voices[place]? = some v) (hless : voiceRank v' < voiceRank v) :
    remaining ⟨now, q, e.voices.set place v'⟩ < remaining e := by
  have hsum := sum_set h v' voiceRank
  exact Prod.Lex.toLex_lt_toLex.2 (.inl (by dsimp only; omega))

/-- So does a call that came nearer to the end. -/
theorem remaining_lt_of_nears {start : Nat} (h : e.voices[place]? = some (.running start t))
    (hrank : voiceRank v' = u.rank) (hcost : ∀ ahead, voiceCost ahead v' = u.cost ahead)
    (hnears : Nears e.world t q u) :
    remaining ⟨now, q, e.voices.set place v'⟩ < remaining e := by
  have hranks := sum_set h v' voiceRank
  have hcosts := sum_set h v' (voiceCost e.world.ahead)
  rw [hrank] at hranks
  rw [hcost] at hcosts
  change _ + t.rank = _ at hranks
  change _ + t.cost e.world.ahead = _ at hcosts
  rcases hnears with hless | ⟨hsame, hless | ⟨hleft, hahead, hless⟩⟩
  · exact Prod.Lex.toLex_lt_toLex.2 (.inl (by dsimp only; omega))
  · exact Prod.Lex.toLex_lt_toLex.2
      (.inr ⟨by dsimp only; omega, Prod.Lex.toLex_lt_toLex.2 (.inl hless)⟩)
  · refine Prod.Lex.toLex_lt_toLex.2
      (.inr ⟨by dsimp only; omega, Prod.Lex.toLex_lt_toLex.2 (.inr ⟨hleft, ?_⟩)⟩)
    dsimp only
    rw [hahead]
    omega

/-! ### To the end -/

/-- A player with nothing loaded and a narrator who has not spoken yet. -/
def fresh (equipment : Narration.Equipment) (tosses coins : List Bool) : Player :=
  ofNarrator (.ofEquipment equipment tosses) coins

variable {equipment : Narration.Equipment} {tosses coins : List Bool}

/-- What comes of any calls to such a player. -/
def Played (equipment : Narration.Equipment) (tosses coins : List Bool)
    (e : Ensemble Player Call Task) : Prop :=
  ∃ start events, e = (alone start (fresh equipment tosses coins)).after machine events

theorem Played.step (h : Played equipment tosses coins e) (event : Event Call) :
    Played equipment tosses coins (e.step machine event) := by
  obtain ⟨start, events, rfl⟩ := h
  exact ⟨start, events ++ [event], (after_append events [event]).symm⟩

theorem Played.after (hplayed : Played equipment tosses coins e) (events : List (Event Call)) :
    Played equipment tosses coins (e.after machine events) := by
  obtain ⟨start, before, rfl⟩ := hplayed
  exact ⟨start, before ++ events, (after_append before events).symm⟩

theorem Played.reeled (h : Played equipment tosses coins e) :
    ∃ log, e.world.Reeled e.inFlight log := by
  obtain ⟨start, events, rfl⟩ := h
  obtain ⟨log, haccount⟩ := exists_account (fresh equipment tosses coins) start events
  exact ⟨log, account_induction kept_reeled (reeled_ofNarrator _ coins) haccount⟩

theorem Played.voiced (h : Played equipment tosses coins e) : e.world.Voiced e.inFlight := by
  obtain ⟨start, events, rfl⟩ := h
  have hempty : (fresh equipment tosses coins).Voiced [] := Line.Holds.empty
  exact after_of_kept kept_voiced hempty start events

theorem Played.rests (h : Played equipment tosses coins e) :
    AllRest e.inFlight := by
  obtain ⟨start, events, rfl⟩ := h
  exact rests_after _ start events

theorem mem_inFlight {start : Nat} (h : .running start t ∈ e.voices) : t ∈ e.inFlight :=
  List.mem_filterMap.2 ⟨_, h, rfl⟩

/-- A voice that can go on makes something less. -/
theorem remaining_step (h : Played equipment tosses coins e) (hv : e.voices[place]? = some v)
    (hready : v.isReady machine e.now e.world = true) :
    remaining (e.step machine (.turn place e.now)) < remaining e := by
  obtain ⟨log, hreeled⟩ := h.reeled
  have hordered := hreeled.ordered
  rw [step_turn_of_some hv, Nat.max_self]
  -- A voice that begins falls in rank, and one that goes on comes nearer to its end.
  cases v with
  | pending time call =>
    have hturn : Voice.turn machine e.now e.world (.pending time call) =
        Voice.settle machine e.now e.now (e.world.start e.now call) :=
      if_pos (of_decide_eq_true hready)
    obtain ⟨_, n, deeds, _, hmoves⟩ := comes_start e.world e.now call
    have henter := e.world.entered call
    have hnone : ∀ place, (e.world.enter call).2.stretch? (e.world.enter call).1.cursor =
        some (.performing place) → place = (e.world.enter call).1.cursor := by
      obtain ⟨hcursor, hidle⟩ := henter.idle
      rw [hcursor, hidle]
      exact fun place hx => nomatch hx
    have hrank := rank_le_of_moves (hordered.enter henter) hnone hmoves
    have hmost := henter.rank_le
    rw [hturn]
    refine remaining_lt_of_rank hv ?_
    rw [voiceRank_settle]
    show (e.world.start e.now call).2.rank < 3
    omega
  | running start t =>
    have hturn : Voice.turn machine e.now e.world (.running start t) =
        Voice.settle machine e.now start (e.world.resume e.now t) := rfl
    have hresumed : e.resumed? (.turn place e.now) = some t := by
      simp only [resumed?, hv]
    obtain ⟨_, ts, hbefore, _⟩ := step_of_resumed (m := machine) hresumed
    have ht : t ∈ e.inFlight := hbefore.mem_iff.2 List.mem_cons_self
    obtain ⟨_, n, deeds, hn, hmoves⟩ := comes_resume e.world e.now (h.rests t ht).2
    rw [show t.isReady e.now e.world = true from hready] at hn
    have hnears := nears_of_moves (hordered.perm (hbefore.map _)) (hreeled.place t ht) hmoves hn
    rw [hturn]
    exact remaining_lt_of_nears hv (voiceRank_settle ..) (fun _ => voiceCost_settle ..) hnears
  | done start stop t w => cases hready

/-- A voice that cannot go on stays where it is. -/
theorem turn_of_not_ready (h : Played equipment tosses coins e) (hv : v ∈ e.voices)
    (hready : v.isReady machine e.now e.world = false) :
    v.turn machine e.now e.world = (e.world, v) := by
  cases v with
  | pending time call => exact if_neg (of_decide_eq_false hready)
  | running start t =>
    obtain ⟨hopen, hrests⟩ := h.rests t (mem_inFlight hv)
    have hsame : e.world.resume e.now t = (e.world, t) := resume_of_not_ready hready hrests
    show Voice.settle machine e.now start (e.world.resume e.now t) = _
    rw [hsame]
    have hdone : machine.isDone t = false := hopen
    simp [Voice.settle, hdone]
  | done start stop t w => rfl

/-- As long as a call has not returned, someone can go on or names a time. -/
theorem exists_due (h : Played equipment tosses coins e) (hv : v ∈ e.voices)
    (hopen : v.isDone = false) :
    ∃ u ∈ e.voices, u.isReady machine e.now e.world = true ∨ ∃ due, u.due? machine = some due := by
  obtain ⟨log, hreeled⟩ := h.reeled
  have hordered := hreeled.ordered
  cases v with
  | pending time call => exact ⟨_, hv, .inr ⟨time, rfl⟩⟩
  | running start t =>
    obtain ⟨hover, hrests⟩ := h.rests t (mem_inFlight hv)
    obtain ⟨ticket, hticket⟩ := exists_ticket hover hrests
    obtain ⟨s, hs, hheads⟩ :=
      hordered.exists_heads (List.mem_map_of_mem (mem_inFlight hv)) hticket
    -- The head of the gate is under way.
    obtain ⟨u, hu, rfl⟩ := List.mem_map.1 hs
    obtain ⟨before, behind, hsplit⟩ := List.append_of_mem hu
    have hperm : e.inFlight.Perm (u :: (before ++ behind)) := hsplit ▸ List.perm_middle
    obtain ⟨w, hw, htask⟩ := List.mem_filterMap.1 hu
    refine ⟨w, hw, ?_⟩
    cases w with
    | running start' u' =>
      obtain rfl := Option.some.inj htask
      exact exists_due_of_heads (hordered.perm (hperm.map _))
        (h.voiced.trans (hperm.symm.flatMap_right _)) (h.rests _ hu).2 hheads e.now
    | _ => cases htask
  | done start stop t w => cases hopen

theorem voice_isReady_of_due {due : Nat} (hdue : v.due? machine = some due) (hnow : due ≤ now)
    (p : Player) : v.isReady machine now p = true := by
  cases v with
  | pending time call =>
    obtain rfl := Option.some.inj hdue
    exact decide_eq_true hnow
  | running start t => exact isReady_of_due hdue hnow
  | done start stop t w => cases hdue

theorem progresses (equipment : Narration.Equipment) (tosses coins : List Bool) :
    Progresses machine (Played equipment tosses coins) remaining where
  keeps event h := h.step event
  lowers h := remaining_step h
  stays h := turn_of_not_ready h
  clock _ _ := rfl
  wakes h := exists_due h
  due _ _ hdue hnow := voice_isReady_of_due hdue hnow _

/-- Whatever was called before, all calls return after finitely many rounds. -/
theorem exists_run_ended (h : Played equipment tosses coins e) :
    ∃ rounds, (e.run machine rounds).Ended :=
  (progresses equipment tosses coins).exists_run_ended h

end Storyboard.Player
