import Storyboard.Proofs.Ensemble.Tasks
import Storyboard.Proofs.Playback.Epoch
import Storyboard.Proofs.Playback.Progress
import Storyboard.Session.Basic

/-! # Calls of a session

    Most of what is asked of a session comes down to one call to its player,
    and before a payload is loaded the header is replaced and the narrator
    falls silent. So what every move of a call keeps, and silence, and an empty
    journal, holds after any events of a session (`upheld_after`), also in
    terms of the actions that were begun so far. The gate of the player is in
    order then (`ordered_of_idle`), and the line of the narrator (`lines_of_idle`). -/

namespace Storyboard

/-! ### The journal is for those who read it only -/

namespace Stage

variable {s : Stage} {t : Scene} {report : Report} {perf : Performance}

theorem Settling.clearJournal (h : s.Settling t report perf) :
    s.clearJournal.Settling t report perf :=
  ⟨h.coherent.clearJournal, h.tidy, h.outlook, h.report⟩

end Stage

namespace Player

/-- The player with an empty journal. -/
def clearJournal (p : Player) : Player := { p with stage := p.stage.clearJournal }

theorem Ordered.clearJournal {p : Player} {l : List Standing} (h : p.Ordered l) :
    p.clearJournal.Ordered l := by
  refine ⟨h.line, h.leads, ?_, ?_⟩
  · intro s hs w hw
    have hvalid := h.valid s hs w hw
    cases w with
    | performing place step perf =>
      obtain ⟨hstep, report, hsettling⟩ := hvalid
      exact ⟨hstep, report, hsettling.clearJournal⟩
    | rebuilding goal perf rest =>
      obtain ⟨hgoal, t, report, hsettling, hrest⟩ := hvalid
      exact ⟨hgoal, t, report, hsettling.clearJournal, hrest⟩
  · intro hidle
    obtain ⟨hcoherent, hscene, hcursor⟩ := h.settled hidle
    exact ⟨hcoherent.clearJournal, hscene, hcursor⟩

theorem Ordered.silence {p : Player} {l : List Standing} (h : p.Ordered l) : p.silence.Ordered l :=
  h.congr rfl rfl rfl rfl

end Player

namespace Session

open Ensemble

/-! ### What an action asks of the player -/

namespace Action

/-- What comes of decoding the payload of an action, if it is there to load one. -/
def decoded? : Action → Option (Except Decode.Fault Payload)
  | .load payload => some (.ok payload)
  | .loadJson v => some (Payload.ofJson v)
  | .loadText s => some (Payload.ofText s)
  | .receive (.visualizationResponse data) => some (Payload.ofJson data)
  | _ => none

/-- The payload that an action loads. -/
def payload? (a : Action) : Option Payload := a.decoded?.bind (·.toOption)

/-- What is wrong with the payload of an action. -/
def fault? (a : Action) : Option Decode.Fault :=
  match a.decoded? with
  | some (.error f) => some f
  | _ => none

/-- The call to the player that an action comes down to. -/
def call? : Action → Option Player.Call
  | .call c => some c
  | .setSpeed factor => (Speed.ofFactor factor).toOption.map .setSpeed
  | a => a.payload?.map fun payload => .load payload.timeline

/-- The session when the player is called. -/
def prepare (s : Session) (a : Action) : Session :=
  match a.payload? with
  | some payload => ⟨payload.header, s.player.silence⟩
  | none => s

end Action

namespace Task

/-- The call that a task waits for. -/
def calling? : Task → Option Player.Task
  | .calling t => some t
  | _ => none

end Task

/-- The calls among some tasks. -/
def calls (tasks : List Task) : List Player.Task := tasks.filterMap (·.calling?)

/-- Nobody calls the player. -/
def Idle (e : Ensemble Session Action Task) : Prop := calls e.inFlight = []

variable {s : Session} {a : Action} {c : Player.Call} {now : Nat} {tasks : List Task}
  {e : Ensemble Session Action Task}

/-- To let time pass is no call. -/
theorem calling?_waitUntil (now time : Nat) : (Task.waitUntil now time).calling? = none := by
  unfold Task.waitUntil
  split <;> rfl

/-- An action that decodes a payload loads it, or is over at once. -/
theorem start_of_decoded {x : Except Decode.Fault Payload} (h : a.decoded? = some x) :
    machine.start now s a = s.loadResult now x := by
  cases a with
  | load payload => cases h; rfl
  | loadJson v => cases h; rfl
  | loadText text => cases h; rfl
  | receive m =>
    cases m with
    | visualizationResponse data => cases h; rfl
    | _ => cases h
  | _ => cases h

/-- An action that comes down to a call makes it. -/
theorem start_of_call (h : a.call? = some c) (s : Session) (now : Nat) :
    machine.start now s a = (a.prepare s).call now c := by
  -- Three actions and one message load what they decode, in the same way.
  have hload : ∀ {x : Except Decode.Fault Payload}, a.decoded? = some x →
      a.payload?.map (fun payload => .load payload.timeline) = some c →
      machine.start now s a = (a.prepare s).call now c := by
    intro x hx hc
    obtain ⟨payload, hpayload, rfl⟩ := Option.map_eq_some_iff.1 hc
    have hx' := hpayload
    unfold Action.payload? at hx'
    rw [hx] at hx'
    cases x with
    | error f => cases hx'
    | ok payload' =>
      obtain rfl := Option.some.inj hx'
      rw [start_of_decoded hx, Action.prepare, hpayload]
      rfl
  cases a with
  | call c' =>
    obtain rfl := Option.some.inj h
    rfl
  | setSpeed factor =>
    show s.setSpeed now factor = _
    unfold setSpeed
    cases hfactor : Speed.ofFactor factor with
    | error p =>
      rw [Action.call?, hfactor] at h
      cases h
    | ok speed =>
      rw [Action.call?, hfactor] at h
      obtain rfl := Option.some.inj h
      rfl
  | receive m =>
    cases m with
    | visualizationResponse data => exact hload rfl h
    | _ => cases h
  | load payload => exact hload rfl h
  | loadJson v => exact hload rfl h
  | loadText text => exact hload rfl h
  | _ => cases h

/-- Any other action leaves the session as it is, or reads the journal, and calls nobody. -/
theorem start_of_no_call (h : a.call? = none) (s : Session) (now : Nat) :
    ((machine.start now s a).1 = s ∨ (machine.start now s a).1 = s.clearJournal) ∧
      (machine.start now s a).2.calling? = none := by
  -- What loads a payload makes a call, so one that makes none did not decode.
  have hload : ∀ {x : Except Decode.Fault Payload}, a.decoded? = some x →
      a.payload?.map (fun payload => Player.Call.load payload.timeline) = none →
      (machine.start now s a).1 = s ∧ (machine.start now s a).2.calling? = none := by
    intro x hx hc
    have hnone := Option.map_eq_none_iff.1 hc
    unfold Action.payload? at hnone
    rw [hx] at hnone
    rw [start_of_decoded hx]
    cases x with
    | ok payload => cases hnone
    | error f => exact ⟨rfl, rfl⟩
  cases a with
  | call c => cases h
  | setSpeed factor =>
    show ((s.setSpeed now factor).1 = s ∨ _) ∧ (s.setSpeed now factor).2.calling? = none
    unfold setSpeed
    cases hfactor : Speed.ofFactor factor with
    | error p => exact ⟨.inl rfl, rfl⟩
    | ok speed =>
      rw [Action.call?, hfactor] at h
      cases h
  | receive m =>
    cases m with
    | visualizationResponse data => exact (hload rfl h).imp_left .inl
    | _ => exact ⟨.inl rfl, rfl⟩
  | load payload => exact (hload rfl h).imp_left .inl
  | loadJson v => exact (hload rfl h).imp_left .inl
  | loadText text => exact (hload rfl h).imp_left .inl
  | readJournal => exact ⟨.inr rfl, rfl⟩
  | wait d => exact ⟨.inl rfl, calling?_waitUntil now _⟩
  | look => exact ⟨.inl rfl, rfl⟩

theorem prepare_header (s : Session) (a : Action) :
    (a.prepare s).header = (a.payload?.map (·.header)).getD s.header := by
  unfold Action.prepare
  cases a.payload? <;> rfl

/-- What the player keeps when it falls silent it keeps until it is called. -/
theorem prepare_induction {P : Player → Prop} (hsilence : ∀ {p}, P p → P p.silence)
    (h : P s.player) (a : Action) : P (a.prepare s).player := by
  unfold Action.prepare
  cases a.payload? with
  | none => exact h
  | some payload => exact hsilence h

/-! ### What every event keeps -/

/-- What is kept whatever is asked of a session, in terms of the actions begun so far, the session
    and the calls to its player that are under way. -/
structure Upheld (I : List Action → Session → List Player.Task → Prop) : Prop where
  perm     : ∀ {as s ts us}, ts.Perm us → I as s ts → I as s us
  enter    : ∀ {as s ts a c}, a.call? = some c → I as s ts →
    I (as ++ [a]) ⟨(a.prepare s).header, ((a.prepare s).player.enter c).1⟩
      (((a.prepare s).player.enter c).2 :: ts)
  skip     : ∀ {as s ts a}, a.call? = none → I as s ts → I (as ++ [a]) s ts
  journal  : ∀ {as s ts}, I as s ts → I as s.clearJournal ts
  move     : ∀ {as header now p t deeds q u ts}, Player.Move now p t deeds q u →
    I as ⟨header, p⟩ (t :: ts) → I as ⟨header, q⟩ (u :: ts)
  returned : ∀ {as s report ts}, I as s (.over report :: ts) → I as s ts

variable {I : List Action → Session → List Player.Task → Prop} {as : List Action} {header : Header}
  {p q : Player} {t u : Player.Task} {ts : List Player.Task} {n : Nat} {deeds : List Deed}

theorem Upheld.moves (h : Upheld I) (hmoves : Player.Moves now n p t deeds q u)
    (hI : I as ⟨header, p⟩ (t :: ts)) : I as ⟨header, q⟩ (u :: ts) := by
  induction hmoves with
  | refl => exact hI
  | head hfirst _ ih => exact ih (h.move hfirst hI)

/-- What a call leaves under way, among other tasks. -/
theorem calls_joined (t : Player.Task) (tasks : List Task) :
    calls (joined machine (.calling t) tasks) = joined Player.machine t (calls tasks) := by
  cases t <;> rfl

theorem calls_joined_of_none {t : Task} (h : t.calling? = none) (tasks : List Task) :
    calls (joined machine t tasks) = calls tasks := by
  unfold joined
  split
  · rfl
  · exact List.filterMap_cons_none h

theorem Upheld.joined (h : Upheld I) (hI : I as s (t :: ts)) :
    I as s (joined Player.machine t ts) := by
  cases t with
  | «over» report => exact h.returned hI
  | _ => exact hI

/-- Calls that came this far have not returned and have something to wait for. -/
theorem allRest_joined (ht : t.Rests) (hts : Player.AllRest ts) :
    Player.AllRest (joined Player.machine t ts) := by
  unfold Ensemble.joined
  split
  · exact hts
  · next hopen => exact List.forall_mem_cons.2 ⟨⟨Bool.eq_false_iff.2 hopen, ht⟩, hts⟩

/-- What is upheld holds after all events, in terms of the actions that they began. -/
theorem upheld_after (h : Upheld I) (h₀ : I [] s []) (start : Nat) (events : List (Event Action)) :
    I ((alone start s).beginnings machine events) ((alone start s).after machine events).world
      (calls ((alone start s).after machine events).inFlight) := by
  refine (history_induction (m := machine)
    (I := fun as s tasks => Player.AllRest (calls tasks) ∧ I as s (calls tasks))
    ⟨List.forall_mem_nil _, h₀⟩ ?_ ?_ ?_ events).2
  · rintro as s ts us hperm ⟨hrests, hI⟩
    have hcalls : (calls ts).Perm (calls us) := hperm.filterMap _
    exact ⟨fun t ht => hrests t (hcalls.mem_iff.2 ht), h.perm hcalls hI⟩
  · rintro now s tasks as a ⟨hrests, hI⟩
    -- An action begins: it is a call, which comes as far as it gets by moves, or none.
    cases hcall : a.call? with
    | some c =>
      rw [start_of_call hcall]
      show Player.AllRest (calls (Ensemble.joined machine (.calling _) tasks)) ∧
        I _ _ (calls (Ensemble.joined machine (.calling _) tasks))
      rw [calls_joined]
      obtain ⟨hrest, n, deeds, _, hmoves⟩ := Player.comes_start (a.prepare s).player now c
      exact ⟨allRest_joined hrest hrests, h.joined (h.moves hmoves (h.enter hcall hI))⟩
    | none =>
      obtain ⟨hworld, hnone⟩ := start_of_no_call hcall s now
      rw [calls_joined_of_none hnone]
      refine ⟨hrests, ?_⟩
      rcases hworld with hsame | hread
      · exact hsame.symm ▸ h.skip hcall hI
      · exact hread.symm ▸ h.journal (h.skip hcall hI)
  · rintro now s t tasks as ⟨hrests, hI⟩
    -- A task goes on: only a call has something left to do.
    cases t with
    | calling t =>
      show Player.AllRest (calls (Ensemble.joined machine (.calling _) tasks)) ∧
        I _ _ (calls (Ensemble.joined machine (.calling _) tasks))
      rw [calls_joined]
      obtain ⟨ht, hts⟩ := List.forall_mem_cons.1 hrests
      obtain ⟨hrest, n, deeds, _, hmoves⟩ := Player.comes_resume s.player now ht.2
      exact ⟨allRest_joined hrest hts, h.joined (h.moves hmoves hI)⟩
    | waiting time =>
      show Player.AllRest (calls (Ensemble.joined machine (.waitUntil now time) tasks)) ∧
        I _ _ (calls (Ensemble.joined machine (.waitUntil now time) tasks))
      rw [calls_joined_of_none (calling?_waitUntil now time)]
      exact ⟨hrests, hI⟩
    | «over» outcome => exact ⟨hrests, hI⟩

/-- What every move keeps is upheld, if to fall silent and to read the journal keep it. -/
theorem upheld_of_keeps {J : Player → List Player.Task → Prop} (h : Player.Keeps J)
    (hsilence : ∀ {p ts}, J p ts → J p.silence ts)
    (hjournal : ∀ {p ts}, J p ts → J p.clearJournal ts) : Upheld fun _ s ts => J s.player ts where
  perm hperm hJ := h.perm hperm hJ
  enter {_ _ ts a c} _ hJ :=
    h.enter (Player.entered _ c) (prepare_induction (P := fun p => J p ts) hsilence hJ a)
  skip _ hJ := hJ
  journal hJ := hjournal hJ
  move hmove hJ := h.move hmove hJ
  returned hJ := h.returned hJ

/-! ### The player of an idle session -/

/-- The gate is in order, and those who joined the line first are first. -/
theorem upheld_queued : Upheld fun _ s ts => s.player.Queued (ts.map Player.Task.standing) :=
  upheld_of_keeps Player.kept_queued.keeps (fun h => ⟨h.1.silence, h.2⟩)
    fun h => ⟨h.1.clearJournal, h.2⟩

/-- Those who speak, or wait to, are in the line of the narrator, and nobody else is. -/
theorem upheld_voiced : Upheld fun _ s ts => s.player.Voiced ts :=
  upheld_of_keeps Player.kept_voiced.keeps id id

theorem queued_ofNarrator (narrator : Narrator) (coins : List Bool) :
    (ofNarrator narrator coins).player.Queued [] :=
  ⟨Player.ordered_ofNarrator narrator coins, List.Pairwise.nil⟩

/-- Whatever was asked of a session, when nobody calls its player, nobody stands at the gate. -/
theorem ordered_of_idle (narrator : Narrator) (coins : List Bool) (start : Nat)
    (events : List (Event Action))
    (hidle : Idle ((alone start (ofNarrator narrator coins)).after machine events)) :
    ((alone start (ofNarrator narrator coins)).after machine events).world.player.Ordered [] := by
  have hqueued := upheld_after upheld_queued (queued_ofNarrator narrator coins) start events
  rw [show calls _ = [] from hidle] at hqueued
  exact hqueued.1

/-- Nobody speaks either, if the narrator had not spoken before. -/
theorem lines_of_idle (equipment : Narration.Equipment) (tosses coins : List Bool) (start : Nat)
    (events : List (Event Action))
    (hidle : Idle ((alone start (ofNarrator (.ofEquipment equipment tosses) coins)).after machine
      events)) :
    ((alone start (ofNarrator (.ofEquipment equipment tosses) coins)).after machine
      events).world.player.Voiced [] := by
  have hvoiced := upheld_after upheld_voiced (s := ofNarrator (.ofEquipment equipment tosses) coins)
    Line.Holds.empty start events
  rwa [show calls _ = [] from hidle] at hvoiced

end Session

end Storyboard
