import Storyboard.Drawing.Presenter
import Storyboard.Line
import Storyboard.Narration.Utterance
import Storyboard.Proofs.Data.Lookup
import Storyboard.Stage.Wait

/-! # Shifts

    Times, handles, incarnations, tickets, epochs and generations only ever
    count up, and what was drawn, spoken or noted stays on record. A shift says
    by how much these numbers are ahead and what is on record before. To shift
    a part of the program is to add to all its numbers; every operation does
    the same on a shifted part as on the part itself, shifted. -/

namespace Storyboard

/-- By how much the numbers are ahead, and what is on record before. -/
structure Shift where
  time        : Nat
  handle      : Nat
  incarnation : Nat
  /-- The tickets at the gate of the player. -/
  ticket      : Nat
  epoch       : Nat
  /-- The tickets in the line of the narrator. -/
  turn        : Nat
  generation  : Nat
  /-- What the canvas was told before, the latest first. -/
  journal     : List JournalEntry
  /-- What was read aloud before. -/
  transcript  : List Utterance
  /-- How many clips were played before. -/
  clips       : Nat

/-! ### Tables with other keys and values -/

theorem compare_add_right (a b n : Nat) : compare (a + n) (b + n) = compare a b := by
  simp only [Nat.compare_eq_ite_lt, Nat.add_lt_add_iff_right]

namespace Table

variable {κ κ' α β : Type} [Ord κ] [Ord κ'] {g : κ → κ'}

/-- Other keys in the same order, and other values. -/
def rekey (g : κ → κ') (hg : ∀ a b, compare (g a) (g b) = compare a b) (f : α → β)
    (t : Table κ α) : Table κ' β :=
  ⟨t.entries.map fun e => (g e.1, f e.2),
    List.pairwise_map.2 (t.sorted.imp fun {a b} h => (hg a.1 b.1).trans h)⟩

variable {hg : ∀ a b, compare (g a) (g b) = compare a b} {f : α → β} {t : Table κ α} {k : κ}

theorem find?_rekey : (t.rekey g hg f).find? (g k) = (t.find? k).map f := by
  obtain ⟨l, hl⟩ := t
  simp only [rekey, find?]
  clear hl
  induction l with
  | nil => rfl
  | cons e l ih =>
    simp only [List.map_cons, Entries.find?, hg]
    split
    · rfl
    · exact ih

theorem contains_rekey : (t.rekey g hg f).contains (g k) = t.contains k := by
  rw [contains, contains, find?_rekey, Option.isSome_map]

theorem erase_rekey : (t.rekey g hg f).erase (g k) = (t.erase k).rekey g hg f := by
  ext1
  simp [erase, rekey, Entries.erase, List.filter_map, Function.comp_def, hg]

theorem modify_rekey {m : α → α} {m' : β → β} (hm : ∀ v, m' (f v) = f (m v)) :
    (t.rekey g hg f).modify (g k) m' = (t.modify k m).rekey g hg f := by
  ext1
  simp only [modify, rekey, Entries.modify, List.map_map]
  refine List.map_congr_left fun e _ => ?_
  simp only [Function.comp_apply, hg]
  split
  · rw [hm]
  · rfl

variable [Std.TransOrd κ] [Std.LawfulEqOrd κ] [Std.TransOrd κ'] [Std.LawfulEqOrd κ']

theorem insert_rekey {v : α} :
    (t.rekey g hg f).insert (g k) (f v) = (t.insert k v).rekey g hg f := by
  obtain ⟨l, hl⟩ := t
  ext1
  simp only [insert, rekey]
  clear hl
  induction l with
  | nil => rfl
  | cons e l ih =>
    simp only [List.map_cons, Entries.insert, hg]
    split
    · rfl
    · rfl
    · rw [List.map_cons, ih]

end Table

namespace Table

variable {α β : Type} {n k : Nat} {f : α → β} {t : Table Nat α}

/-- Keys that are so much greater, and other values. -/
def later (n : Nat) (f : α → β) (t : Table Nat α) : Table Nat β :=
  t.rekey (· + n) (fun a b => compare_add_right a b n) f

@[simp] theorem later_empty : (∅ : Table Nat α).later n f = ∅ := rfl

theorem contains_later : (t.later n f).contains (k + n) = t.contains k :=
  contains_rekey (g := (· + n))

theorem insert_later {v : α} :
    (t.later n f).insert (k + n) (f v) = (t.insert k v).later n f :=
  insert_rekey (g := (· + n))

theorem erase_later : (t.later n f).erase (k + n) = (t.erase k).later n f :=
  erase_rekey (g := (· + n))

theorem modify_later {m : α → α} {m' : β → β} (hm : ∀ v, m' (f v) = f (m v)) :
    (t.later n f).modify (k + n) m' = (t.modify k m).later n f :=
  modify_rekey (g := (· + n)) hm

theorem values_later : (t.later n f).values = t.values.map f := by
  simp [values, later, rekey]

end Table

namespace Table

variable {κ α β : Type} [Ord κ] {f : α → β} {t : Table κ α} {k : κ}

/-- Other values under the same keys. -/
def mapValues (f : α → β) (t : Table κ α) : Table κ β := t.rekey (fun k => k) (fun _ _ => rfl) f

@[simp] theorem mapValues_empty : (∅ : Table κ α).mapValues f = ∅ := rfl

theorem find?_mapValues : (t.mapValues f).find? k = (t.find? k).map f :=
  find?_rekey (g := fun k => k)

theorem contains_mapValues : (t.mapValues f).contains k = t.contains k :=
  contains_rekey (g := fun k => k)

theorem erase_mapValues : (t.mapValues f).erase k = (t.erase k).mapValues f :=
  erase_rekey (g := fun k => k)

theorem insert_mapValues [Std.TransOrd κ] [Std.LawfulEqOrd κ] {v : α} :
    (t.mapValues f).insert k (f v) = (t.insert k v).mapValues f :=
  insert_rekey (g := fun k => k)

end Table

/-! ### Waiting -/

namespace Wait

/-- A wait for a later time. -/
def shift (σ : Shift) : Wait → Wait
  | .turn => .turn
  | .time t => .time (t + σ.time)

variable {σ : Shift} {now : Nat}

@[simp] theorem isOver_shift (w : Wait) : (w.shift σ).isOver (now + σ.time) = w.isOver now := by
  cases w <;> simp [shift, isOver]

@[simp] theorem time?_shift (w : Wait) : (w.shift σ).time? = w.time?.map (· + σ.time) := by
  cases w <;> rfl

@[simp] theorem endOf_shift (d : Span) : endOf (now + σ.time) d = endOf now d + σ.time :=
  Nat.add_right_comm ..

end Wait

@[simp] theorem Pacing.wait_shift {σ : Shift} {now : Nat} (p : Pacing) (d : Span) :
    p.wait (now + σ.time) d = (p.wait now d).shift σ := by
  unfold Pacing.wait
  cases p with
  | realtime =>
    dsimp only
    split
    · rfl
    · simp [Wait.shift]
  | instant => rfl

/-! ### Lines -/

namespace Line

/-- A line in which so many tickets were taken before. -/
def shift (n : Nat) (l : Line) : Line := ⟨l.next + n, l.waiting.map (· + n)⟩

variable {n t : Nat}

@[simp] theorem join_shift (l : Line) :
    (l.shift n).join = (l.join.1.shift n, l.join.2 + n) := by
  simp [shift, join, Nat.add_right_comm]

@[simp] theorem leads_shift (l : Line) : (l.shift n).leads (t + n) = l.leads t := by
  cases h : l.waiting <;> simp [shift, leads, h]

@[simp] theorem leave_shift (l : Line) : (l.shift n).leave (t + n) = (l.leave t).shift n := by
  have hne : ∀ u, (u + n != t + n) = (u != t) := by
    intro u
    rw [Bool.eq_iff_iff, bne_iff_ne, bne_iff_ne, Ne, Nat.add_right_cancel_iff]
  simp [shift, leave, List.filter_map, Function.comp_def, hne]

/-- Where nobody waits, only the number of the next ticket is left. -/
theorem shift_of_empty {l : Line} (h : l.waiting = []) : l = Line.empty.shift l.next := by
  obtain ⟨next, waiting⟩ := l
  subst h
  simp [shift, empty]

end Line

end Storyboard
