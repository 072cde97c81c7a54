import Storyboard.Proofs.Narration.Handover
import Storyboard.Proofs.Playback.Epoch
import Storyboard.Proofs.Text.Blank

/-! # What is handed over while the player plays

    Only what follows the commands of a step is spoken, so a call hands
    something over only when it goes on with that (`Task.hands`). What is heard
    with an event is what is handed over in the moves of which the turn comes
    (`Heard`); there is no event of which that cannot be told (`exists_heard`).
    The transcript tells the same as far as the local voice is concerned
    (`Heard.transcript`), and the voice service is at work on no text that it
    was not handed (`Strides.asked?`). -/

namespace Storyboard

/-- What is spoken. -/
def Tail.said? : Tail → Option Speech
  | .speaking s => some s
  | _ => none

/-- The step that has begun. -/
def Advance.step? : Advance → Option Step
  | .performing _ _ step _ => some step
  | .trailing _ step _ .ahead => some step
  | .trailing _ step _ (.speaking _) => some step
  | .trailing _ step _ (.dwelling _) => some step
  | _ => none

/-- The speech after a step. -/
def Advance.said? : Advance → Option Speech
  | .trailing _ _ _ tail => tail.said?
  | _ => none

/-- What there is to speak is trimmed already, so the narrator finds it as it is. -/
theorem Step.trimmed?_of_spoken? {step : Step} {text : String} (h : step.spoken? = some text) :
    Text.trimmed? text = some text := by
  obtain ⟨narration, _, htrimmed⟩ := Option.bind_eq_some_iff.1 h
  exact Text.trimmed?_of_trimmed? htrimmed

namespace Player

open Ensemble

variable {p q : Player} {t u : Task} {a b : Advance} {deeds more : List Deed}
  {log : List Handover} {n now epoch ticket : Nat} {step : Step} {report : Report} {tail : Tail}
  {turn : Turn} {e : Ensemble Player Call Task} {event : Event Call}

/-- The step of a call, with the epoch in which it was asked for. -/
def Task.advance? : Task → Option (Nat × Advance)
  | .playing epoch _ a => some (epoch, a)
  | .stepping epoch a => some (epoch, a)
  | _ => none

/-- The step that a call has begun. -/
def Task.step? (t : Task) : Option Step := t.advance?.bind fun x => x.2.step?

/-- The speech after it. -/
def Task.said? (t : Task) : Option Speech := t.advance?.bind fun x => x.2.said?

/-- The turn of the speech. -/
def Task.turn? (t : Task) : Option Turn := t.said?.bind Speech.turn?

/-- The text that the voice service is at work on for it. -/
def Task.asked? (t : Task) : Option String := t.said?.bind Speech.asked?

/-! ### What is handed over -/

/-- By going on with what follows the commands. -/
def tailHands (p : Player) (now : Nat) (step : Step) : Tail → List Handover
  | .ahead =>
    match step.spoken? with
    | none => []
    | some text => p.narrator.speakHands now text
  | .speaking s => p.narrator.resumeHands now s
  | _ => []

/-- The same as long as the epoch lasts. Else a coin decides. -/
def followHands (p : Player) (epoch now : Nat) (step : Step) (t : Tail) : List Handover :=
  if p.isCurrent epoch || p.toss.2 then p.tailHands now step t else []

/-- By going on with a step. -/
def advanceHands (p : Player) (epoch now : Nat) : Advance → List Handover
  | .trailing _ step _ tail => p.followHands epoch now step tail
  | _ => []

/-- By the next move of a call. -/
def Task.hands (now : Nat) (p : Player) (t : Task) : List Handover :=
  match t.advance? with
  | some (epoch, a) => p.advanceHands epoch now a
  | none => []

@[simp] theorem settleSpeech_narrator (p : Player) (now : Nat) (step : Step)
    (x : Narrator × Speech) : (p.settleSpeech now step x).1.narrator = x.1 := rfl

theorem adds_resumeTail (p : Player) (now : Nat) (step : Step) (tail : Tail) :
    p.narrator.Adds (p.tailHands now step tail) (p.resumeTail now step tail).1.narrator := by
  cases tail with
  | ahead =>
    unfold resumeTail tailHands
    dsimp only
    cases step.spoken? with
    | none => exact .nil rfl rfl
    | some text =>
      dsimp only
      rw [settleSpeech_narrator]
      exact p.narrator.adds_speak now text
  | speaking s =>
    unfold resumeTail tailHands
    dsimp only
    rw [settleSpeech_narrator]
    exact Narrator.adds_resume s
  | _ => exact .nil rfl rfl

theorem adds_dropTail {m : Narrator} {hands : List Handover} (h : m.Adds hands p.narrator)
    (tail : Tail) : m.Adds hands (p.dropTail tail).narrator := by
  cases tail with
  | speaking s => cases s <;> exact ⟨h.transcript, h.generation⟩
  | _ => exact h

theorem adds_follow (p : Player) (epoch now : Nat) (step : Step) (tail : Tail) :
    p.narrator.Adds (p.followHands epoch now step tail)
      (p.follow epoch now step tail).1.narrator := by
  unfold followHands
  cases hcurrent : p.isCurrent epoch with
  | true =>
    rw [follow_of_current (beq_iff_eq.1 hcurrent), Bool.true_or, if_pos rfl]
    exact adds_resumeTail p now step tail
  | false =>
    rw [follow_of_stale hcurrent, Bool.false_or]
    cases p.toss.2 with
    | false =>
      rw [if_neg Bool.false_ne_true, if_neg Bool.false_ne_true]
      exact adds_dropTail (p := p.toss.1) (.nil rfl rfl) tail
    | true =>
      rw [if_pos rfl, if_pos rfl]
      exact adds_dropTail (adds_resumeTail p.toss.1 now step tail) _

theorem followHands_over (p : Player) (epoch now : Nat) (step : Step) :
    p.followHands epoch now step .over = [] := by
  unfold followHands
  split <;> rfl

theorem Strides.adds (h : Strides epoch now p a deeds q b) :
    p.narrator.Adds (p.advanceHands epoch now a) q.narrator := by
  cases h with
  | follow htail hready => exact adds_follow p epoch now _ _
  | finish =>
    rw [advanceHands, followHands_over]
    exact .nil rfl rfl
  | _ => exact .nil rfl rfl

/-! ### Turns and steps -/

/-- Only in its epoch does a tail speak: it goes on with what it spoke, or begins to. -/
theorem said?_follow {s : Speech} (h : (p.follow epoch now step tail).2.said? = some s) :
    p.epoch = epoch ∧
      ((∃ s₀, tail.said? = some s₀ ∧ (p.narrator.resume now s₀).2 = s ∧
          p.followHands epoch now step tail = p.narrator.resumeHands now s₀) ∨
        ∃ text, (tail = .ahead ∧ step.spoken? = some text) ∧ (p.narrator.speak now text).2 = s ∧
          p.followHands epoch now step tail = p.narrator.speakHands now text) := by
  -- Without a voice a tail says nothing, and a voice that is over turns into a dwelling.
  have hdwell : ∀ q : Player, (q.dwell now step).said? ≠ some s := by
    intro q hq
    unfold dwell at hq
    dsimp only at hq
    split at hq <;> cases hq
  have hsettle : ∀ {x : Narrator × Speech}, (p.settleSpeech now step x).2.said? = some s →
      x.2 = s := by
    rintro ⟨m, s⟩ hx
    cases s with
    | «over» outcome =>
      simp only [settleSpeech, Speech.isOver, ↓reduceIte] at hx
      exact absurd hx (hdwell _)
    | _ => exact Option.some.inj hx
  -- A tail of another epoch is dropped or over, so it says nothing.
  cases hcurrent : p.isCurrent epoch with
  | true =>
    have hepoch : p.epoch = epoch := beq_iff_eq.1 hcurrent
    have hhands : p.followHands epoch now step tail = p.tailHands now step tail := by
      unfold followHands
      rw [hcurrent, Bool.true_or, if_pos rfl]
    rw [follow_of_current hepoch] at h
    refine ⟨hepoch, ?_⟩
    rw [hhands]
    cases tail with
    | ahead =>
      unfold resumeTail at h
      unfold tailHands
      cases hspoken : step.spoken? with
      | none =>
        rw [hspoken] at h
        exact absurd h (hdwell p)
      | some text =>
        rw [hspoken] at h
        exact .inr ⟨text, ⟨rfl, rfl⟩, hsettle h, rfl⟩
    | speaking s₀ => exact .inl ⟨s₀, rfl, hsettle h, rfl⟩
    | dwelling time =>
      unfold resumeTail at h
      dsimp only at h
      split at h <;> cases h
    | «over» => cases h
  | false =>
    rw [follow_of_stale hcurrent] at h
    split at h <;> cases h

theorem Strides.step? (h : Strides epoch now p a deeds q b) (hb : b.step?.isSome = true) :
    a.step?.isSome = true ∨ ∃ place, .begins place ∈ deeds := by
  cases h with
  | begin hleads hcurrent hstep => exact .inr ⟨_, List.mem_cons_self⟩
  | perform hready => exact .inl rfl
  | proceed hover => exact .inl rfl
  | @follow ticket step report tail htail hready =>
    refine .inl ?_
    rcases htail with rfl | hrests
    · rfl
    · cases tail with
      | speaking s => rfl
      | dwelling time => rfl
      | _ => exact hrests.elim
  | _ => cases hb

theorem Strides.said? (h : Strides epoch now p a deeds q b) {s : Speech}
    (hb : b.said? = some s) : p.epoch = epoch ∧
      ((∃ s₀, a.said? = some s₀ ∧ (p.narrator.resume now s₀).2 = s ∧
          p.advanceHands epoch now a = p.narrator.resumeHands now s₀) ∨
        ∃ text, (∃ ticket step report, a = .trailing ticket step report .ahead ∧
            step.spoken? = some text) ∧ (p.narrator.speak now text).2 = s ∧
          p.advanceHands epoch now a = p.narrator.speakHands now text) := by
  cases h with
  | @follow ticket step report tail htail hready =>
    obtain ⟨hepoch, hresumes | ⟨text, ⟨rfl, hspoken⟩, hspeaks⟩⟩ := said?_follow hb
    · exact ⟨hepoch, .inl hresumes⟩
    · exact ⟨hepoch, .inr ⟨text, ⟨ticket, step, report, rfl, hspoken⟩, hspeaks⟩⟩
  | _ => cases hb

/-- Only in its epoch does a step take a turn to speak: the next one of the narrator, for what there
    is to speak once the commands are through. -/
theorem Strides.turn? (h : Strides epoch now p a deeds q b)
    (hb : b.said?.bind Speech.turn? = some turn) :
    a.said?.bind Speech.turn? = some turn ∨
      p.epoch = epoch ∧ ∃ ticket step report text, a = .trailing ticket step report .ahead ∧
        step.spoken? = some text ∧ turn = ⟨p.narrator.line.next, p.narrator.generation, text⟩ := by
  obtain ⟨s, hs, hturn⟩ := Option.bind_eq_some_iff.1 hb
  obtain ⟨hepoch, ⟨s₀, ha, rfl, _⟩ | ⟨text, ⟨ticket, step, report, rfl, hspoken⟩, rfl, _⟩⟩ :=
    h.said? hs
  · exact .inl (Option.bind_eq_some_iff.2 ⟨s₀, ha, Narrator.turn?_resume hturn⟩)
  · exact .inr ⟨hepoch, ticket, step, report, text, rfl, hspoken,
      Narrator.turn_of_speak (Step.trimmed?_of_spoken? hspoken) hturn⟩

/-- The voice service is at work on what it was handed, before or now. -/
theorem Strides.asked? (h : Strides epoch now p a deeds q b) {text : String}
    (hb : b.said?.bind Speech.asked? = some text) :
    a.said?.bind Speech.asked? = some text ∨ .voice text ∈ p.advanceHands epoch now a := by
  obtain ⟨s, hs, hasked⟩ := Option.bind_eq_some_iff.1 hb
  obtain ⟨_, ⟨s₀, ha, rfl, hhands⟩ | ⟨spoken, _, rfl, hhands⟩⟩ := h.said? hs
  · rw [hhands]
    exact (Narrator.asked?_resume hasked).imp_left fun hbefore =>
      Option.bind_eq_some_iff.2 ⟨s₀, ha, hbefore⟩
  · rw [hhands]
    exact .inr (Narrator.asked?_speak hasked)

/-- Nothing is handed over before a step has begun. -/
theorem advanceHands_eq_nil (h : a.step? = none) : p.advanceHands epoch now a = [] := by
  cases a with
  | trailing ticket step report tail =>
    cases tail with
    | «over» => exact followHands_over p epoch now step
    | _ => cases h
  | _ => rfl

/-! ### Moves -/

/-- What becomes of the narrator by some moves of a call, of the speech of the call, and of its
    step. -/
structure Voices (p : Player) (t : Task) (deeds : List Deed) (log : List Handover) (q : Player)
    (u : Task) : Prop where
  generation : p.narrator.generation ≤ q.narrator.generation
  transcript : q.narrator.transcript = p.narrator.transcript ++ log.filterMap Handover.read?
  turn       : ∀ turn, u.turn? = some turn → t.turn? = some turn ∨
    t.epoch? = some p.epoch ∧ turn.generation ≤ q.narrator.generation
  step       : u.step?.isSome = true → t.step?.isSome = true ∨ ∃ place, .begins place ∈ deeds
  heard      : log ≠ [] → t.step?.isSome = true ∨ ∃ place, .begins place ∈ deeds
  asked      : ∀ text, u.asked? = some text → t.asked? = some text ∨ .voice text ∈ log

theorem Voices.refl : Voices p t [] [] p t where
  generation := Nat.le_refl _
  transcript := (List.append_nil _).symm
  turn _ := .inl
  step := .inl
  heard h := absurd rfl h
  asked _ := .inl

theorem Voices.trans {r : Player} {v : Task} {log' : List Handover}
    (h : Voices p t deeds log q u) (hsteers : Steers p t deeds q u)
    (h' : Voices q u more log' r v) : Voices p t (deeds ++ more) (log ++ log') r v where
  generation := Nat.le_trans h.generation h'.generation
  transcript := by
    rw [h'.transcript, h.transcript, List.filterMap_append, List.append_assoc]
  turn turn hturn := by
    rcases h'.turn turn hturn with hu | ⟨hepoch, hle⟩
    · rcases h.turn turn hu with ht | ⟨hepoch, hle⟩
      · exact .inl ht
      · exact .inr ⟨hepoch, Nat.le_trans hle h'.generation⟩
    · rw [hsteers.same] at hepoch
      exact .inr ⟨hsteers.origin hepoch, hle⟩
  step hv := by
    rcases h'.step hv with hu | ⟨place, hplace⟩
    · exact (h.step hu).imp_right fun ⟨place, hplace⟩ =>
        ⟨place, List.mem_append_left _ hplace⟩
    · exact .inr ⟨place, List.mem_append_right _ hplace⟩
  heard hlog := by
    -- What is heard is heard in the first part, or in the second one alone.
    by_cases hnone : log = []
    · rw [hnone] at hlog
      rcases h'.heard hlog with hu | ⟨place, hplace⟩
      · exact (h.step hu).imp_right fun ⟨place, hplace⟩ =>
          ⟨place, List.mem_append_left _ hplace⟩
      · exact .inr ⟨place, List.mem_append_right _ hplace⟩
    · exact (h.heard hnone).imp_right fun ⟨place, hplace⟩ =>
        ⟨place, List.mem_append_left _ hplace⟩
  asked text hv := by
    rcases h'.asked text hv with hu | hlater
    · exact (h.asked text hu).imp_right (List.mem_append_left _)
    · exact .inr (List.mem_append_right _ hlater)

/-- A move with which the narrator is left alone. -/
theorem Voices.of_same (hsame : q.narrator = p.narrator) (hspeech : u.said? = none)
    (hstep : u.step? = none) : Voices p t deeds [] q u where
  generation := Nat.le_of_eq (congrArg (·.generation) hsame).symm
  transcript := (congrArg (·.transcript) hsame).trans (List.append_nil _).symm
  turn turn h := by
    unfold Task.turn? at h
    rw [hspeech] at h
    cases h
  step h := by
    rw [hstep] at h
    cases h
  heard h := absurd rfl h
  asked text h := by
    unfold Task.asked? at h
    rw [hspeech] at h
    cases h

/-- A move of the step of a call. -/
theorem Voices.of_strides (h : Strides epoch now p a deeds q b) {f : Advance → Task}
    (hepoch : ∀ a, (f a).epoch? = some epoch) (hadvance : ∀ a, (f a).advance? = some (epoch, a)) :
    Voices p (f a) deeds (Task.hands now p (f a)) q (f b) := by
  -- Whether the step is played or stepped to, the hands, the step and the voice are the advance's.
  have hhands : Task.hands now p (f a) = p.advanceHands epoch now a := by
    unfold Task.hands
    rw [hadvance]
  have hstep : ∀ a, (f a).step? = a.step? := fun a => by
    unfold Task.step?
    rw [hadvance]
    rfl
  have hspeech : ∀ a, (f a).said? = a.said? := fun a => by
    unfold Task.said?
    rw [hadvance]
    rfl
  have hadds := h.adds
  refine ⟨Nat.le_of_eq hadds.generation.symm, hhands ▸ hadds.transcript, ?_, ?_, ?_, ?_⟩
  · intro turn hb
    unfold Task.turn? at hb ⊢
    rw [hspeech] at hb ⊢
    rcases h.turn? hb with ha | ⟨heq, _, _, _, _, _, _, rfl⟩
    · exact .inl ha
    · refine .inr ⟨(hepoch a).trans (congrArg some heq.symm), ?_⟩
      exact Nat.le_of_eq hadds.generation.symm
  · intro hb
    rw [hstep] at hb ⊢
    exact h.step? hb
  · intro hlog
    rw [hhands] at hlog
    rw [hstep]
    exact .inl (Option.isSome_iff_ne_none.2 fun hnone => hlog (advanceHands_eq_nil hnone))
  · intro text hb
    unfold Task.asked? at hb ⊢
    rw [hspeech] at hb ⊢
    rw [hhands]
    exact h.asked? hb

theorem Move.voices (h : Move now p t deeds q u) :
    Voices p t deeds (t.hands now p) q u := by
  cases h with
  | rewind hleads => exact .of_same (reset_goal p now _).same.1 rfl rfl
  | rebuild hready hr => exact .of_same (reset_resumeRebuild hr).same.1 rfl rfl
  | wrap hleads hcurrent => exact .of_same (reset_rebuild p now 0).same.1 rfl rfl
  | rewrap hready hr => exact .of_same (reset_resumeRebuild hr).same.1 rfl rfl
  | play h => exact .of_strides h (f := .playing _ _) (fun _ => rfl) fun _ => rfl
  | step h => exact .of_strides h (f := .stepping _) (fun _ => rfl) fun _ => rfl
  | @finish epoch report =>
    -- To come to the end of playing is to stop the narrator.
    refine ⟨?_, ?_, nofun, nofun, fun h => absurd rfl h, nofun⟩
    · unfold finishPlay
      cases p.isCurrent epoch with
      | true => exact Nat.le_succ _
      | false => exact Nat.le_refl _
    · unfold finishPlay
      cases p.isCurrent epoch <;> exact (List.append_nil _).symm
  | _ => exact .of_same rfl rfl rfl

/-! ### Turns -/

/-- Moves of a call, with what happens and what is handed over in each. -/
inductive Hears (now : Nat) : Player → Task → List Deed → List Handover → Player → Task → Prop
  | refl {p : Player} {t : Task} : Hears now p t [] [] p t
  | head {p q r : Player} {t u v : Task} {deeds more : List Deed} {log : List Handover}
      (h : Move now p t deeds q u) (hs : Hears now q u more log r v) :
      Hears now p t (deeds ++ more) (t.hands now p ++ log) r v

theorem exists_hears (h : Moves now n p t deeds q u) : ∃ log, Hears now p t deeds log q u := by
  induction h with
  | refl => exact ⟨[], .refl⟩
  | head hfirst _ ih =>
    obtain ⟨log, hlog⟩ := ih
    exact ⟨_, .head hfirst hlog⟩

theorem Hears.moves (h : Hears now p t deeds log q u) : ∃ n, Moves now n p t deeds q u := by
  induction h with
  | refl => exact ⟨0, .refl⟩
  | head hfirst _ ih =>
    obtain ⟨n, hmoves⟩ := ih
    exact ⟨n + 1, .head hfirst hmoves⟩

theorem Hears.steers (h : Hears now p t deeds log q u) : Steers p t deeds q u := by
  obtain ⟨n, hmoves⟩ := h.moves
  exact steers_of_moves hmoves

theorem Hears.voices (h : Hears now p t deeds log q u) : Voices p t deeds log q u := by
  induction h with
  | refl => exact .refl
  | head hfirst _ ih => exact hfirst.voices.trans hfirst.steers ih

/-- Nobody speaks or performs a step when a call begins. Only a call that halts the player touches
    the narrator: it stops it. -/
theorem Entered.voices {call : Call} (h : Entered p call q t) :
    t.step? = none ∧ t.said? = none ∧
      (q.narrator = p.narrator ∧ ¬call.Halts p ∨
        q.narrator = p.narrator.stop ∧ call.Halts p) := by
  cases h with
  | rewinds hhalts goal => exact ⟨rfl, rfl, .inr ⟨rfl, hhalts⟩⟩
  | pauses hhalts => exact ⟨rfl, rfl, .inr ⟨rfl, hhalts⟩⟩
  | wraps hplay => exact ⟨rfl, rfl, .inl ⟨rfl, hplay ▸ id⟩⟩
  | plays hplay => exact ⟨rfl, rfl, .inl ⟨rfl, hplay ▸ id⟩⟩
  | steps hstep => exact ⟨rfl, rfl, .inl ⟨rfl, hstep ▸ id⟩⟩
  | speeds hgoes s => exact ⟨rfl, rfl, .inl ⟨rfl, hgoes⟩⟩
  | returns hgoes report => exact ⟨rfl, rfl, .inl ⟨rfl, hgoes⟩⟩

/-- No speech belongs to a generation that has not begun. -/
theorem kept_turns : Kept fun p ts _ => ∀ t ∈ ts, ∀ turn, t.turn? = some turn →
    turn.generation ≤ p.narrator.generation where
  perm hperm h := fun t ht => h t (hperm.mem_iff.2 ht)
  enter henter h := by
    obtain ⟨_, hnone, hnarrator⟩ := henter.voices
    refine List.forall_mem_cons.2 ⟨fun turn hturn => ?_, fun t ht turn hturn => ?_⟩
    · -- Who enters has no turn yet, and to halt the player only makes the generation later.
      unfold Task.turn? at hturn
      rw [hnone] at hturn
      cases hturn
    · rcases hnarrator with ⟨hsame, _⟩ | ⟨hstop, _⟩
      · rw [hsame]
        exact h t ht turn hturn
      · rw [hstop]
        exact Nat.le_succ_of_le (h t ht turn hturn)
  move hmove h := by
    have hvoices := hmove.voices
    obtain ⟨ht, hts⟩ := List.forall_mem_cons.1 h
    refine List.forall_mem_cons.2 ⟨fun turn hturn => ?_, fun t' ht' turn hturn => ?_⟩
    · rcases hvoices.turn turn hturn with hbefore | ⟨_, hle⟩
      · exact Nat.le_trans (ht turn hbefore) hvoices.generation
      · exact hle
    · exact Nat.le_trans (hts t' ht' turn hturn) hvoices.generation
  returned h := (List.forall_mem_cons.1 h).2

/-! ### Events -/

/-- What happens with an event, and what is handed over. -/
inductive Heard (e : Ensemble Player Call Task) (event : Event Call) :
    List Deed → List Handover → Prop
  /-- A call begins. -/
  | begun {call : Call} {deeds : List Deed} {log : List Handover} (h : e.begun? event = some call)
      (hhears : Hears (e.step machine event).now (e.world.enter call).1 (e.world.enter call).2
        deeds log (e.world.start (e.step machine event).now call).1
        (e.world.start (e.step machine event).now call).2) : Heard e event deeds log
  /-- A call goes on. -/
  | resumed {t : Task} {deeds : List Deed} {log : List Handover} (h : e.resumed? event = some t)
      (hhears : Hears (e.step machine event).now e.world t deeds log
        (e.world.resume (e.step machine event).now t).1
        (e.world.resume (e.step machine event).now t).2) : Heard e event deeds log
  /-- Nothing happens. -/
  | idle (hbegun : e.begun? event = none) (hresumed : e.resumed? event = none) :
      Heard e event [] []

/-- With every event something is heard, if only silence. -/
theorem exists_heard (h : AllRest e.inFlight) (event : Event Call) :
    ∃ deeds log, Heard e event deeds log := by
  obtain ⟨deeds, htold⟩ := exists_told h event
  cases htold with
  | begun hbegun hmoves =>
    obtain ⟨log, hhears⟩ := exists_hears hmoves
    exact ⟨deeds, log, .begun hbegun hhears⟩
  | resumed hresumed hmoves =>
    obtain ⟨log, hhears⟩ := exists_hears hmoves
    exact ⟨deeds, log, .resumed hresumed hhears⟩
  | idle hbegun hresumed => exact ⟨[], [], .idle hbegun hresumed⟩

theorem Heard.told (h : Heard e event deeds log) : Told e event deeds := by
  cases h with
  | begun hbegun hhears =>
    obtain ⟨n, hmoves⟩ := hhears.moves
    exact .begun hbegun hmoves
  | resumed hresumed hhears =>
    obtain ⟨n, hmoves⟩ := hhears.moves
    exact .resumed hresumed hmoves
  | idle hbegun hresumed => exact .idle hbegun hresumed

/-- The transcript grows by what the local voice is handed, and by nothing else. -/
theorem Heard.transcript (h : Heard e event deeds log) :
    (e.step machine event).world.narrator.transcript =
      e.world.narrator.transcript ++ log.filterMap Handover.read? := by
  cases h with
  | @begun call deeds log hbegun hhears =>
    have henter : (e.world.enter call).1.narrator.transcript = e.world.narrator.transcript := by
      rcases (e.world.entered call).voices.2.2 with ⟨hsame, _⟩ | ⟨hstop, _⟩
      · rw [hsame]
      · rw [hstop]
        rfl
    rw [(step_of_begun (m := machine) hbegun).1, ← henter]
    exact hhears.voices.transcript
  | resumed hresumed hhears =>
    rw [(step_of_resumed (m := machine) hresumed).1]
    exact hhears.voices.transcript
  | idle hbegun hresumed =>
    rw [(step_of_idle (m := machine) hbegun hresumed).1]
    exact (List.append_nil _).symm

/-- The generations of a narrator only grow. -/
theorem generation_step (hrests : AllRest e.inFlight) (event : Event Call) :
    e.world.narrator.generation ≤ (e.step machine event).world.narrator.generation := by
  obtain ⟨deeds, log, hheard⟩ := exists_heard hrests event
  cases hheard with
  | @begun call deeds log hbegun hhears =>
    rw [(step_of_begun (m := machine) hbegun).1]
    refine Nat.le_trans ?_ hhears.voices.generation
    rcases (e.world.entered call).voices.2.2 with ⟨hsame, _⟩ | ⟨hstop, _⟩
    · rw [hsame]
    · rw [hstop]
      exact Nat.le_succ _
  | resumed hresumed hhears =>
    rw [(step_of_resumed (m := machine) hresumed).1]
    exact hhears.voices.generation
  | idle hbegun hresumed =>
    rw [(step_of_idle (m := machine) hbegun hresumed).1]

end Player

end Storyboard
