/-! # Ensembles

    An ensemble is a list of voices that share a world and take turns. Time is
    counted in ticks, and nothing happens in between: whenever a voice can go
    on, every voice takes one turn, in the order of the list, and goes as far
    as it can. When no voice can go on, the clock jumps to the next time at
    which one can.

    What the voices do is given by a `Machine`. A voice that is done keeps the
    world as it was when it was done. -/

namespace Storyboard

/-- How actions run in a world. -/
structure Machine (World Action Task : Type) where
  /-- Begin an action and go as far as it can without waiting. -/
  start   : Nat → World → Action → World × Task
  /-- Go on as far as possible without waiting. -/
  resume  : Nat → World → Task → World × Task
  /-- Whether there is nothing left to do. -/
  isDone  : Task → Bool
  /-- Whether `resume` would get any further. -/
  isReady : Nat → World → Task → Bool
  /-- The next time at which it would, if nothing happens but that time passes. -/
  due?    : Task → Option Nat

/-- One of those who take turns. -/
inductive Voice (World Action Task : Type) where
  /-- It is to begin at a time. -/
  | pending (time : Nat) (action : Action)
  /-- It began at `start` and is under way. -/
  | running (start : Nat) (task : Task)
  /-- It began at `start` and was done at `stop`. -/
  | done (start stop : Nat) (task : Task) (world : World)

namespace Voice

variable {World Action Task : Type} (m : Machine World Action Task) (now : Nat)

/-- A voice whose task came this far. -/
def settle (start : Nat) : World × Task → World × Voice World Action Task
  | (w, t) => (w, if m.isDone t then .done start now t w else .running start t)

/-- One turn of a voice. -/
def turn (w : World) : Voice World Action Task → World × Voice World Action Task
  | .pending time action =>
    if time ≤ now then settle m now now (m.start now w action) else (w, .pending time action)
  | .running start task => settle m now start (m.resume now w task)
  | .done start stop task world => (w, .done start stop task world)

/-- Whether a turn would get the voice any further. -/
def isReady (w : World) : Voice World Action Task → Bool
  | .pending time _ => time ≤ now
  | .running _ task => m.isReady now w task
  | .done .. => false

/-- The next time at which it would, if nothing happens but that time passes. -/
def due? : Voice World Action Task → Option Nat
  | .pending time _ => some time
  | .running _ task => m.due? task
  | .done .. => none

/-- How far its action is, once begun. -/
def task? : Voice World Action Task → Option Task
  | .pending .. => none
  | .running _ task => some task
  | .done _ _ task _ => some task

end Voice

/-- The earlier of two times of which either may be missing. -/
def earlier? : Option Nat → Option Nat → Option Nat
  | some a, some b => some (min a b)
  | some a, none => some a
  | none, b => b

/-- Voices that share a world. -/
structure Ensemble (World Action Task : Type) where
  /-- The clock. -/
  now    : Nat
  world  : World
  voices : List (Voice World Action Task)

namespace Ensemble

variable {World Action Task : Type} (m : Machine World Action Task)

/-- A turn for every voice. -/
def turns (now : Nat) (w : World) :
    List (Voice World Action Task) → World × List (Voice World Action Task)
  | [] => (w, [])
  | v :: rest =>
    let (w, v) := v.turn m now w
    let (w, rest) := turns now w rest
    (w, v :: rest)

/-- One round: everyone takes a turn at time `now`. -/
def round (e : Ensemble World Action Task) (now : Nat) : Ensemble World Action Task :=
  let (world, voices) := turns m now e.world e.voices
  ⟨now, world, voices⟩

/-- Whether some voice can go on without time passing. -/
def isAwake (e : Ensemble World Action Task) : Bool :=
  e.voices.any fun v => v.isReady m e.now e.world

/-- The next time at which some voice can go on. -/
def due? (e : Ensemble World Action Task) : Option Nat :=
  e.voices.foldl (fun t v => earlier? t (v.due? m)) none

/-- The next round: now if someone can go on, at the next time if not. There is none when nobody
    ever can. -/
def next? (e : Ensemble World Action Task) : Option (Ensemble World Action Task) :=
  if e.isAwake m then some (e.round m e.now)
  else (e.due? m).map fun t => e.round m (max e.now t)

/-- At most `fuel` rounds. -/
def run : Nat → Ensemble World Action Task → Ensemble World Action Task
  | 0, e => e
  | fuel + 1, e =>
    match e.next? m with
    | none => e
    | some e => run fuel e

/-- How far the actions are that were begun. -/
def tasks (e : Ensemble World Action Task) : List Task := e.voices.filterMap (·.task?)

/-- An ensemble of actions, each with the time at which it is to begin. -/
def ofActions (now : Nat) (w : World) (actions : List (Nat × Action)) :
    Ensemble World Action Task :=
  ⟨now, w, actions.map fun a => .pending a.1 a.2⟩

end Ensemble

end Storyboard
