import Storyboard.Narration.Script

/-! # A booth to speak in

    Texts may be delivered by any voice service, any player and any local
    voice, each of which takes as long as it likes and does to its world what
    it likes (`Device`, `Studio`). What is asked of a booth goes by turns
    whatever they are: a text waits in line, is delivered at the head of it,
    and is given up when everybody is told to stop. A booth keeps a journal of
    this. -/

namespace Storyboard

namespace Narration

/-! ### Devices -/

/-- How far something is that was asked for. -/
inductive Progress (R P : Type) where
  /-- It has come to a result. -/
  | result (r : R)
  | underway (p : P)

/-- Something that takes orders in a world. -/
structure Device (World Order R P : Type) where
  /-- Take an order and go as far as possible without waiting. -/
  begin   : Nat → World → Order → World × Progress R P
  /-- Go on as far as possible without waiting. -/
  proceed : Nat → World → P → World × Progress R P
  /-- Nobody waits for the result any more. -/
  drop    : Nat → World → P → World
  /-- Whether `proceed` would get any further. -/
  isReady : Nat → World → P → Bool
  /-- The next time at which it would, if nothing happens but that time passes. -/
  due?    : P → Option Nat

/-- Some way to deliver texts, one at a time. What is not delivered at once is under way. -/
structure Means (World D : Type) where
  deliver : Nat → World → String → World × Option D
  proceed : Nat → World → String → D → World × Option D
  drop    : Nat → World → D → World
  /-- Everything is told to be silent. -/
  silence : Nat → World → World
  isReady : Nat → World → D → Bool
  due?    : D → Option Nat

/-- A voice service that makes clips, a player for them and a local voice. -/
structure Studio (World Clip V P L : Type) where
  /-- There is no clip when it fails. Where there is no service, it fails at once. -/
  voice   : Device World String (Option Clip) V
  /-- Whether the clip was played. -/
  player  : Device World Clip Bool P
  /-- Whether it fails does not matter. -/
  reader  : Device World Utterance Unit L
  profile : Profile
  silence : Nat → World → World

/-- How far a delivery in a studio is. -/
inductive Studio.Delivery (V P L : Type) where
  | synthesizing (v : V)
  | playing (p : P)
  | reading (l : L)

namespace Studio

variable {World Clip V P L : Type} (s : Studio World Clip V P L) (now : Nat) (text : String)

/-- The local voice came this far. -/
def settleReading : World × Progress Unit L → World × Option (Delivery V P L)
  | (w, .result _) => (w, none)
  | (w, .underway l) => (w, some (.reading l))

/-- Read a text with the local voice. -/
def read (w : World) : World × Option (Delivery V P L) :=
  settleReading (s.reader.begin now w ⟨clean text, s.profile⟩)

/-- The player came this far with a clip. -/
def settlePlaying : World × Progress Bool P → World × Option (Delivery V P L)
  | (w, .result true) => (w, none)
  | (w, .result false) => s.read now text w
  | (w, .underway p) => (w, some (.playing p))

/-- The voice service came this far. -/
def settleVoice : World × Progress (Option Clip) V → World × Option (Delivery V P L)
  | (w, .result (some clip)) => s.settlePlaying now text (s.player.begin now w clip)
  | (w, .result none) => s.read now text w
  | (w, .underway v) => (w, some (.synthesizing v))

/-- Deliver a text. -/
def deliver (w : World) : World × Option (Delivery V P L) :=
  s.settleVoice now text (s.voice.begin now w text)

/-- Go on delivering it. -/
def proceed (w : World) : Delivery V P L → World × Option (Delivery V P L)
  | .synthesizing v => s.settleVoice now text (s.voice.proceed now w v)
  | .playing p => s.settlePlaying now text (s.player.proceed now w p)
  | .reading l => settleReading (s.reader.proceed now w l)

/-- How texts are delivered in a studio. -/
def means : Means World (Delivery V P L) where
  deliver now w text := s.deliver now text w
  proceed now w text d := s.proceed now text w d
  drop now w
    | .synthesizing v => s.voice.drop now w v
    | .playing p => s.player.drop now w p
    | .reading l => s.reader.drop now w l
  silence := s.silence
  isReady now w
    | .synthesizing v => s.voice.isReady now w v
    | .playing p => s.player.isReady now w p
    | .reading l => s.reader.isReady now w l
  due?
    | .synthesizing v => s.voice.due? v
    | .playing p => s.player.due? p
    | .reading l => s.reader.due? l

end Studio

end Narration

/-! ### The ledger -/

/-- Something that happens in a booth. -/
inductive Entry where
  /-- A text is to be spoken. -/
  | asks (ticket : Nat)
  /-- Its delivery begins. -/
  | begins (ticket : Nat)
  /-- It was delivered. -/
  | ends (ticket : Nat)
  /-- It is given up. -/
  | cancels (ticket : Nat)
  /-- Everybody is told to stop. -/
  | stops
  deriving DecidableEq, Repr

/-- Who has a turn in a booth, and what happened there so far. -/
structure Ledger where
  /-- How often everybody was told to stop. -/
  generation : Nat
  /-- Who speaks and who waits to. -/
  line       : Line
  journal    : List Entry

namespace Ledger

/-- Nothing has happened. -/
def empty : Ledger := ⟨0, .empty, []⟩

/-- Something happens. -/
def note (l : Ledger) (entry : Entry) : Ledger := { l with journal := l.journal ++ [entry] }

/-- A text is to be spoken. -/
def ask (l : Ledger) : Ledger := { l with line := l.line.join.1 }.note (.asks l.line.next)

/-- The turn of a text is over. -/
def close (l : Ledger) (ticket : Nat) (entry : Entry) : Ledger :=
  { l with line := l.line.leave ticket }.note entry

/-- Everybody is to stop. -/
def stop (l : Ledger) : Ledger := { l with generation := l.generation + 1 }.note .stops

variable (l : Ledger) (ticket : Nat) (entry : Entry)

@[simp] theorem note_line : (l.note entry).line = l.line := rfl

@[simp] theorem note_generation : (l.note entry).generation = l.generation := rfl

@[simp] theorem note_journal : (l.note entry).journal = l.journal ++ [entry] := rfl

@[simp] theorem ask_line : l.ask.line = l.line.join.1 := rfl

@[simp] theorem ask_generation : l.ask.generation = l.generation := rfl

@[simp] theorem ask_journal : l.ask.journal = l.journal ++ [.asks l.line.next] := rfl

@[simp] theorem close_line : (l.close ticket entry).line = l.line.leave ticket := rfl

@[simp] theorem close_generation : (l.close ticket entry).generation = l.generation := rfl

@[simp] theorem close_journal : (l.close ticket entry).journal = l.journal ++ [entry] := rfl

@[simp] theorem stop_line : l.stop.line = l.line := rfl

@[simp] theorem stop_generation : l.stop.generation = l.generation + 1 := rfl

@[simp] theorem stop_journal : l.stop.journal = l.journal ++ [.stops] := rfl

end Ledger

/-! ### The booth -/

/-- A booth. -/
structure Booth (World : Type) where
  world  : World
  ledger : Ledger
  /-- When a delivery is stopped at the very moment at which it could go on: whether it goes on
      first, for every such moment to come, and it does when nothing is said. -/
  coins  : List Bool

namespace Booth

open Narration

/-- A speech in a booth. -/
inductive Speech (D : Type) where
  /-- It waits in line. -/
  | queued (turn : Turn)
  /-- It is being delivered. -/
  | delivering (turn : Turn) (d : D)
  /-- It is over; a blank text had no turn. -/
  | over (ticket : Option Nat) (outcome : SpeechOutcome)

variable {World D : Type} (m : Means World D) (b : Booth World) (now : Nat)

/-- A booth in which nobody has spoken yet. -/
def ofWorld (w : World) (coins : List Bool) : Booth World := ⟨w, .empty, coins⟩

def toss : Booth World × Bool := ({ b with coins := b.coins.tail }, b.coins.head?.getD true)

/-- A speech that has come this far; its turn is over with it. -/
def settle (turn : Turn) : Option D → Booth World × Speech D
  | none => ({ b with ledger := b.ledger.close turn.ticket (.ends turn.ticket) },
      .over (some turn.ticket) .completed)
  | some d => (b, .delivering turn d)

/-- Give up a speech. -/
def cancel (turn : Turn) : Booth World × Speech D :=
  ({ b with ledger := b.ledger.close turn.ticket (.cancels turn.ticket) },
    .over (some turn.ticket) .cancelled)

/-- Break off a delivery. One that can go on at this very moment may do so first, and if it ends
    with that, nothing is broken off. -/
def breakOff (turn : Turn) (d : D) : Booth World × Speech D :=
  match b.toss with
  | (b, false) => { b with world := m.drop now b.world d }.cancel turn
  | (b, true) =>
    match m.proceed now b.world turn.text d with
    | (world, none) => { b with world }.settle turn none
    | (world, some d) => { b with world := m.drop now world d }.cancel turn

/-- Go on with a speech. -/
def resume : Speech D → Booth World × Speech D
  | .queued turn =>
    if turn.generation ≠ b.ledger.generation then b.cancel turn
    else if b.ledger.line.leads turn.ticket then
      let (world, d) := m.deliver now b.world turn.text
      { b with world, ledger := b.ledger.note (.begins turn.ticket) }.settle turn d
    else (b, .queued turn)
  | .delivering turn d =>
    if turn.generation ≠ b.ledger.generation then b.breakOff m now turn d
    else
      let (world, d) := m.proceed now b.world turn.text d
      { b with world }.settle turn d
  | .over ticket outcome => (b, .over ticket outcome)

/-- Ask for a text to be spoken. -/
def speak (text : String) : Booth World × Speech D :=
  match Text.trimmed? text with
  | none => (b, .over none .skipped)
  | some text => { b with ledger := b.ledger.ask }.resume m now
      (.queued ⟨b.ledger.line.next, b.ledger.generation, text⟩)

/-- Tell everybody to stop. -/
def stop : Booth World :=
  { b with world := m.silence now b.world, ledger := b.ledger.stop }

/-- Whether a speech can go on. -/
def Speech.isReady : Speech D → Bool
  | .queued turn => turn.generation != b.ledger.generation || b.ledger.line.leads turn.ticket
  | .delivering turn d => turn.generation != b.ledger.generation || m.isReady now b.world d
  | .over .. => false

/-- An action under way. -/
inductive Task (D : Type) where
  | speaking (text : String) (s : Speech D)
  | waiting (time : Nat)
  | over

/-- A task that waits until a time, unless it has come. -/
def Task.waitUntil (time : Nat) : Task D := if time ≤ now then .over else .waiting time

/-- How actions run in a booth. -/
def machine : Machine (Booth World) Narrator.Action (Task D) where
  start now b
    | .speak text => ((b.speak m now text).1, .speaking text (b.speak m now text).2)
    | .stop => (b.stop m now, .over)
    | .wait d => (b, .waitUntil now (Wait.endOf now d))
    | .look => (b, .over)
  resume now b
    | .speaking text s => ((b.resume m now s).1, .speaking text (b.resume m now s).2)
    | .waiting time => (b, .waitUntil now time)
    | .over => (b, .over)
  isDone
    | .speaking _ (.over ..) => true
    | .speaking .. => false
    | .waiting _ => false
    | .over => true
  isReady now b
    | .speaking _ s => s.isReady m b now
    | .waiting time => time ≤ now
    | .over => false
  due?
    | .speaking _ (.delivering _ d) => m.due? d
    | .waiting time => some time
    | _ => none

@[simp] theorem start_speak (text : String) : (machine m).start now b (.speak text) =
    ((b.speak m now text).1, .speaking text (b.speak m now text).2) := rfl

@[simp] theorem start_stop : (machine m).start now b .stop = (b.stop m now, .over) := rfl

@[simp] theorem start_wait (d : Span) :
    (machine m).start now b (.wait d) = (b, .waitUntil now (Wait.endOf now d)) := rfl

@[simp] theorem start_look : (machine m).start now b .look = (b, .over) := rfl

@[simp] theorem resume_speaking (text : String) (s : Speech D) :
    (machine m).resume now b (.speaking text s) =
      ((b.resume m now s).1, .speaking text (b.resume m now s).2) := rfl

@[simp] theorem resume_waiting (time : Nat) :
    (machine m).resume now b (.waiting time) = (b, .waitUntil now time) := rfl

@[simp] theorem resume_over : (machine m).resume now b .over = (b, .over) := rfl

end Booth

end Storyboard
