import Mathlib.Data.Prod.Lex
import Storyboard.Proofs.Ensemble.Progress
import Storyboard.Proofs.Playback.Reel

/-! # Every call returns

    Whatever calls are made, all of them return after finitely many rounds
    (`exists_run_ended`). Every move comes closer to the end: a rebuilding that
    is still to come comes first, then the steps that are left, then what is
    left of the step under the cursor and of those who wait for it
    (`Move.nears`). And as long as a call has not returned, someone can go on
    or waits for a time: the head of the gate does, and if it speaks, it is at
    the head of the narrator's line, because nobody else is in it. -/

namespace Storyboard

open Stage

/-! ### What is left -/

/-- How many rebuildings are still to come to their end, at most. -/
def Rebuild.rank : Rebuild → Nat
  | .performing .. => 1
  | .over _ => 0

/-- How many waits a rebuilding has ahead. -/
def Rebuild.waits : Rebuild → Nat
  | .performing _ perf rest _ => perf.waits + (rest.map waitsOf).sum
  | .over _ => 0

/-- How many more moves there can be until the next step, where the one under the cursor has so many
    waits. -/
def Advance.cost (ahead : Nat) : Advance → Nat
  | .queued _ => ahead + 2
  | .performing _ _ _ perf => perf.waits
  | .trailing _ _ _ tail => tail.waits + ahead + 4
  | .over (some _) => ahead + 3
  | .over none => 1

/-- The ticket of a step in the narrator's line. -/
def Advance.speech? : Advance → Option Nat
  | .trailing _ _ _ tail => tail.ticket?
  | _ => none

namespace Player

/-- How many rebuildings a call has ahead, at most, with one more before it begins. -/
def Task.rank : Task → Nat
  | .rewinding .. => 2
  | .rebuilding _ r => r.rank
  | .wrapping .. => 2
  | .rewrapping _ _ r => r.rank
  | _ => 0

/-- How many more moves a call can make until the next step. -/
def Task.cost (ahead : Nat) : Task → Nat
  | .rebuilding _ r => r.waits + 1
  | .rewrapping _ _ r => r.waits + ahead + 4
  | .playing _ _ a => a.cost ahead
  | .stepping _ a => a.cost ahead
  | _ => 0

/-- How many steps are left. -/
def left (p : Player) : Nat := p.total - p.cursor

/-- How many waits the step under the cursor has. -/
def ahead (p : Player) : Nat := (p.timeline.steps[p.cursor]?.map fun s => waitsOf s.commands).getD 0

variable {p q r : Player} {t u v : Task} {ts : List Task} {a b : Advance} {deeds : List Deed}
  {l : List Standing} {epoch now goal : Nat} {perf : Performance} {rest : List (List Json)}
  {report : Report}

/-- The end is nearer. -/
def Nears (p : Player) (t : Task) (q : Player) (u : Task) : Prop :=
  u.rank < t.rank ∨ u.rank = t.rank ∧
    (q.left < p.left ∨ q.left = p.left ∧ q.ahead = p.ahead ∧ u.cost p.ahead < t.cost p.ahead)

theorem Nears.trans (h : Nears p t q u) (h' : Nears q u r v) : Nears p t r v := by
  rcases h with h | ⟨hrank, h⟩
  · rcases h' with h' | ⟨hrank', _⟩
    · exact .inl (Nat.lt_trans h' h)
    · exact .inl (hrank' ▸ h)
  · rcases h' with h' | ⟨hrank', h'⟩
    · exact .inl (hrank ▸ h')
    · refine .inr ⟨hrank'.trans hrank, ?_⟩
      rcases h with h | ⟨hleft, hahead, h⟩
      · rcases h' with h' | ⟨hleft', _⟩
        · exact .inl (Nat.lt_trans h' h)
        · exact .inl (hleft' ▸ h)
      · rcases h' with h' | ⟨hleft', hahead', h'⟩
        · exact .inl (hleft ▸ h')
        · rw [hahead] at h'
          exact .inr ⟨hleft'.trans hleft, hahead'.trans hahead, Nat.lt_trans h' h⟩

/-- Nothing changed that says how many steps are left, and fewer moves are. -/
theorem Nears.of_cost (hrank : u.rank = t.rank) (hcursor : q.cursor = p.cursor)
    (htimeline : q.timeline = p.timeline) (h : u.cost p.ahead < t.cost p.ahead) :
    Nears p t q u := by
  have hleft : q.left = p.left := by rw [left, left, total, total, hcursor, htimeline]
  have hahead : q.ahead = p.ahead := by rw [ahead, ahead, hcursor, htimeline]
  exact .inr ⟨hrank, .inr ⟨hleft, hahead, h⟩⟩

/-! ### Rebuilding -/

/-- The cursor moves when everything is performed and not before. -/
theorem cursor_performLists {p q : Player} {lists : List (List Json)} {goal' : Nat}
    {report' : Report}
    (h : p.performLists now goal report lists = (q, .performing goal' perf rest report')) :
    q.cursor = p.cursor ∧ q.timeline = p.timeline := by
  induction lists generalizing p report with
  | nil => cases h
  | cons commands lists ih =>
    unfold performLists at h
    dsimp only at h
    split at h
    · exact ih (p := { p with stage := (Performance.start now .instant p.stage commands).1 }) h
    · cases h
      exact ⟨rfl, rfl⟩

/-- A rebuilding that can go on has fewer waits ahead. -/
theorem resumeRebuild_performing {goal' : Nat} {perf' : Performance} {rest' : List (List Json)}
    {report' : Report} {ticket : Nat}
    (h : p.Ordered (.working ticket (.rebuilding goal perf rest) :: l))
    (hready : perf.isReady now = true)
    (hr : p.resumeRebuild now (.performing goal perf rest report) =
      (q, .performing goal' perf' rest' report')) :
    q.cursor = p.cursor ∧ q.timeline = p.timeline ∧
      (Rebuild.performing goal' perf' rest' report').waits <
        (Rebuild.performing goal perf rest report).waits := by
  obtain ⟨_, x, report'', hsettling, _⟩ := h.valid _ List.mem_cons_self _ rfl
  -- The list under way has a wait less, and lists that begin have the waits that were counted.
  obtain ⟨_, _, _, hless⟩ := Performance.resume_spec (s := p.stage) now hsettling.tidy ∅
  rw [hready, if_pos rfl] at hless
  show _ ∧ _ ∧ perf'.waits + (rest'.map waitsOf).sum < perf.waits + (rest.map waitsOf).sum
  unfold resumeRebuild at hr
  dsimp only at hr
  split at hr
  · next hover =>
    obtain ⟨hcoherent, _⟩ := (hsettling.resume now).over hover
    have hspec := performLists_spec (p := { p with stage := (perf.resume now p.stage).1 })
      hcoherent now goal (report.merge (perf.resume now p.stage).2.report) rest
    obtain ⟨hcursor, htimeline⟩ := cursor_performLists hr
    rw [hr] at hspec
    obtain ⟨_, _, hwaits, _⟩ := hspec
    exact ⟨hcursor, htimeline, by omega⟩
  · cases hr
    exact ⟨rfl, rfl, by omega⟩

/-! ### Move by move -/

/-- What follows the commands has fewer waits ahead whenever it goes on. -/
theorem waits_follow_lt (step : Step) {tail : Tail} (htail : tail = .ahead ∨ tail.Rests)
    (hready : (!p.isCurrent epoch || tail.isReady now p.narrator) = true) :
    (p.follow epoch now step tail).2.waits < tail.waits := by
  have hless := (trails_follow step hready htail).less
  have hpositive : 0 < tail.waits := by
    rcases htail with rfl | hrests
    · exact Nat.succ_pos 6
    · cases tail with
      | speaking s => exact Nat.succ_pos _
      | dwelling time => exact Nat.one_pos
      | _ => exact hrests.elim
  omega

theorem Strides.nears (h : p.Ordered (a.standing :: l))
    (hplace : ∀ place, a.stretch? p.cursor = some (.performing place) → place = p.cursor)
    (hmove : Strides epoch now p a deeds q b) (f : Advance → Task)
    (hrank : ∀ a, (f a).rank = 0) (hcost : ∀ a ahead, (f a).cost ahead = a.cost ahead) :
    Nears p (f a) q (f b) := by
  -- The rank never grows along a stride. So either the cost of the task shrinks and the cursor
  -- stays, or the cursor moves on, which happens where a step is over.
  have hsame : (f b).rank = (f a).rank := (hrank b).trans (hrank a).symm
  cases hmove with
  | @begin ticket step hleads hcurrent hstep =>
    have hsettled := h.settled_of_leads rfl hleads rfl
    obtain ⟨_, _, _, _, hwaits⟩ := Performance.start_spec now .realtime hsettled.coherent
      hsettled.coherent.matches_scene step.commands
    have hahead : p.ahead = waitsOf step.commands := by rw [ahead, hstep]; rfl
    refine .of_cost hsame rfl rfl ?_
    rw [hcost, hcost, hahead]
    show (Performance.start now .realtime p.stage step.commands).2.waits < _ + 2
    omega
  | pass hleads hnone =>
    refine .of_cost hsame rfl rfl ?_
    rw [hcost, hcost]
    show 1 < p.ahead + 2
    omega
  | @perform ticket place step perf hready =>
    obtain ⟨_, report, hsettling⟩ := h.valid _ List.mem_cons_self _ rfl
    obtain ⟨_, _, _, hless⟩ := Performance.resume_spec (s := p.stage) now hsettling.tidy ∅
    rw [hready, if_pos rfl] at hless
    refine .of_cost hsame rfl rfl ?_
    rw [hcost, hcost]
    exact hless
  | @proceed ticket place step perf hover =>
    obtain ⟨hstep, _⟩ := h.valid _ List.mem_cons_self _ rfl
    have hbefore : place < p.total := (List.getElem?_eq_some_iff.1 hstep).1
    have hcursor : place = p.cursor := hplace place rfl
    refine .inr ⟨hsame, .inl ?_⟩
    show p.total - (place + 1) < p.total - p.cursor
    omega
  | @follow ticket step report tail htail hready =>
    have hless := waits_follow_lt step htail hready
    obtain ⟨narrator, coins, hfollow⟩ := narrated_follow p epoch now step tail
    have hcursor : (p.follow epoch now step tail).1.cursor = p.cursor := by rw [hfollow]
    have htimeline : (p.follow epoch now step tail).1.timeline = p.timeline := by rw [hfollow]
    refine .of_cost hsame hcursor htimeline ?_
    rw [hcost, hcost]
    show (p.follow epoch now step tail).2.waits + p.ahead + 4 < tail.waits + p.ahead + 4
    omega
  | finish =>
    refine .of_cost hsame rfl rfl ?_
    rw [hcost, hcost]
    show p.ahead + 3 < 0 + p.ahead + 4
    omega

/-- Every move comes nearer to the end. -/
theorem Move.nears (h : p.Ordered (t.standing :: l))
    (hplace : ∀ place, t.stretch? p.cursor = some (.performing place) → place = p.cursor)
    (hmove : Move now p t deeds q u) : Nears p t q u := by
  have hrank : ∀ r : Rebuild, r.rank < 2 := by
    intro r
    cases r with
    | performing => exact Nat.lt_succ_self 1
    | «over» => exact Nat.succ_pos 1
  -- Where a rebuilding ends or begins the rank falls. Where it goes on, a wait less is to come, and
  -- playing and stepping come nearer by their strides.
  cases hmove with
  | rewind hleads => exact .inl (hrank _)
  | @rebuild ticket goal perf rest report q r hready hr =>
    cases r with
    | «over» report' => exact .inl Nat.one_pos
    | performing goal' perf' rest' report' =>
      obtain ⟨hcursor, htimeline, hless⟩ := resumeRebuild_performing h hready hr
      exact .of_cost rfl hcursor htimeline (Nat.succ_lt_succ hless)
  | rebuilt => exact .of_cost rfl rfl rfl (Nat.succ_pos _)
  | wrap hleads hcurrent => exact .inl (hrank _)
  | unwrap hleads hstale => exact .inl (Nat.succ_pos 1)
  | @rewrap ticket epoch goal perf rest report q r hready hr =>
    cases r with
    | «over» report' => exact .inl Nat.one_pos
    | performing goal' perf' rest' report' =>
      obtain ⟨hcursor, htimeline, hless⟩ := resumeRebuild_performing h hready hr
      refine .of_cost rfl hcursor htimeline ?_
      show _ + p.ahead + 4 < _ + p.ahead + 4
      omega
  | rewrapped =>
    refine .of_cost rfl rfl rfl ?_
    show p.ahead + 3 < 0 + p.ahead + 4
    omega
  | play hstrides => exact hstrides.nears h hplace (.playing _ _) (fun _ => rfl) fun _ _ => rfl
  | next hcurrent => exact .of_cost rfl rfl rfl (Nat.lt_succ_self _)
  | stop hstale => exact .of_cost rfl rfl rfl (Nat.succ_pos _)
  | @finish epoch report =>
    obtain ⟨hcursor, htimeline, _⟩ := p.finishPlay_same epoch report
    exact .of_cost rfl hcursor htimeline Nat.one_pos
  | step hstrides => exact hstrides.nears h hplace (.stepping _) (fun _ => rfl) fun _ _ => rfl
  | @stepped epoch report =>
    refine .of_cost rfl rfl rfl ?_
    cases report <;> exact Nat.succ_pos _

/-! ### The line of the narrator -/

/-- The ticket in the narrator's line. -/
def Task.speech? : Task → Option Nat
  | .playing _ _ a => a.speech?
  | .stepping _ a => a.speech?
  | _ => none

/-- Those who speak, or wait to, are in the narrator's line, and nobody else is. -/
def Voiced (p : Player) (ts : List Task) : Prop :=
  p.narrator.line.Holds (ts.flatMap (·.speech?.toList))

theorem Strides.lines {others : List Nat} (h : Strides epoch now p a deeds q b)
    (hline : p.narrator.line.Holds (a.speech?.toList ++ others)) :
    q.narrator.line.Holds (b.speech?.toList ++ others) := by
  cases h with
  | @follow ticket step report tail htail hready =>
    exact (trails_follow step hready htail).lines others hline
  | _ => exact hline

theorem Move.lines {others : List Nat} (h : Move now p t deeds q u)
    (hline : p.narrator.line.Holds (t.speech?.toList ++ others)) :
    q.narrator.line.Holds (u.speech?.toList ++ others) := by
  have hreset : ∀ {q : Player}, p.Reset q → p.narrator.line.Holds others →
      q.narrator.line.Holds others := fun hq hline => hq.same.1 ▸ hline
  cases h with
  | rewind hleads => exact hreset (reset_goal p now _) hline
  | rebuild hready hr => exact hreset (reset_resumeRebuild hr) hline
  | wrap hleads hcurrent => exact hreset (reset_rebuild p now 0) hline
  | rewrap hready hr => exact hreset (reset_resumeRebuild hr) hline
  | play h => exact h.lines hline
  | step h => exact h.lines hline
  | @finish epoch report =>
    -- To stop the narrator does not change its line.
    obtain ⟨_, _, _, _, hsame⟩ := p.finishPlay_same epoch report
    rw [hsame]
    exact hline
  | _ => exact hline

theorem Entered.silent {call : Call} (h : Entered p call q t) :
    q.narrator.line = p.narrator.line ∧ t.speech? = none := by
  cases h <;> exact ⟨rfl, rfl⟩

theorem kept_voiced : Kept fun p ts _ => p.Voiced ts where
  perm hperm h := h.trans (hperm.symm.flatMap_right _)
  enter {p call q t ts log} henter h := by
    obtain ⟨hline, hnone⟩ := henter.silent
    show q.narrator.line.Holds _
    rw [hline, List.flatMap_cons, hnone]
    exact h
  move hmove h := by
    unfold Voiced at h ⊢
    rw [List.flatMap_cons] at h ⊢
    exact hmove.lines h
  returned h := h

/-! ### Someone can go on -/

/-- Whoever speaks alone can go on or names a time. -/
theorem exists_due_speech {n : Narrator} {s : Speech} (hs : s.Rests)
    (hline : n.line.Holds s.ticket?.toList) (now : Nat) :
    s.isReady now n = true ∨ ∃ due, s.due? = some due := by
  cases s with
  | queued turn =>
    have hwaiting : n.line.waiting = [turn.ticket] := List.perm_singleton.1 hline.perm.symm
    have hleads : n.line.leads turn.ticket = true := by
      unfold Line.leads
      rw [hwaiting]
      exact beq_self_eq_true _
    refine .inl ?_
    show (_ || n.line.leads turn.ticket) = true
    rw [hleads, Bool.or_true]
  | delivering turn d =>
    refine .inr ?_
    show ∃ due, d.due? = some due
    cases d with
    | «over» => exact absurd rfl hs
    | _ time => exact ⟨time, rfl⟩
  | «over» outcome => exact hs.elim

theorem exists_due_advance {ticket : Nat} (ha : a.Rests)
    (hticket : a.standing.ticket? = some ticket) (hleads : p.gate.leads ticket = true)
    (hline : p.narrator.line.Holds a.speech?.toList) (now : Nat) :
    a.isReady epoch now p = true ∨ ∃ due, a.due? = some due := by
  -- At the head of the gate nobody waits for it, so a time is due or the line lets the voice go on.
  cases a with
  | queued ticket' =>
    obtain rfl := Option.some.inj hticket
    exact .inl hleads
  | performing ticket' place step perf =>
    show perf.isReady now = true ∨ ∃ due, perf.due? = some due
    cases hready : perf.isReady now with
    | true => exact .inl rfl
    | false =>
      obtain ⟨due, hdue, _⟩ := Performance.exists_due ha hready
      exact .inr ⟨due, hdue⟩
  | trailing ticket' step report tail =>
    cases tail with
    | speaking s =>
      rcases exists_due_speech ha hline now with hready | hdue
      · refine .inl ?_
        show (_ || s.isReady now p.narrator) = true
        rw [hready, Bool.or_true]
      · exact .inr hdue
    | dwelling time => exact .inr ⟨time, rfl⟩
    | _ => exact ha.elim
  | «over» report => cases hticket

/-- Whoever is at the head of the gate can go on or names a time. -/
theorem exists_due_of_heads (h : p.Ordered (t.standing :: ts.map Task.standing))
    (hvoiced : p.Voiced (t :: ts)) (ht : t.Rests) (hheads : p.Heads t.standing) (now : Nat) :
    t.isReady now p = true ∨ ∃ due, t.due? = some due := by
  -- Nobody else is at anything, so nobody else speaks.
  have hline : p.narrator.line.Holds t.speech?.toList := by
    have hsilent : ts.flatMap (·.speech?.toList) = [] := by
      refine List.flatMap_eq_nil_iff.2 fun u hu => ?_
      have hnone := h.stretch?_others hheads u hu 0
      have hadvance : ∀ a : Advance, a.stretch? 0 = none → a.speech?.toList = [] := by
        intro a ha
        cases a with
        | trailing ticket step report tail => cases ha
        | _ => rfl
      cases u with
      | playing epoch report a => exact hadvance a hnone
      | stepping epoch a => exact hadvance a hnone
      | _ => rfl
    have hall : p.narrator.line.Holds (t.speech?.toList ++ ts.flatMap (·.speech?.toList)) := hvoiced
    rwa [hsilent, List.append_nil] at hall
  obtain ⟨ticket, hticket, hleads⟩ := hheads
  cases t with
  | rewinding ticket' goal =>
    obtain rfl := Option.some.inj hticket
    exact .inl hleads
  | rebuilding ticket' r => exact .inl (isReady_of_rests ht now)
  | wrapping ticket' epoch =>
    obtain rfl := Option.some.inj hticket
    exact .inl hleads
  | rewrapping ticket' epoch r => exact .inl (isReady_of_rests ht now)
  | playing epoch report a => exact exists_due_advance ht hticket hleads hline now
  | stepping epoch a => exact exists_due_advance ht hticket hleads hline now
  | «over» report => cases hticket

/-- Whoever has not returned stands at the gate. -/
theorem exists_ticket (hopen : t.isOver = false) (ht : t.Rests) :
    ∃ ticket, t.standing.ticket? = some ticket := by
  have hadvance : ∀ a : Advance, a.Rests → ∃ ticket, a.standing.ticket? = some ticket := by
    intro a ha
    cases a with
    | «over» report => exact ha.elim
    | _ => exact ⟨_, rfl⟩
  have hrebuild : ∀ (ticket : Nat) (r : Rebuild),
      ∃ ticket', (r.standing ticket).ticket? = some ticket' := by
    intro ticket r
    cases r <;> exact ⟨ticket, rfl⟩
  cases t with
  | rewinding ticket goal => exact ⟨ticket, rfl⟩
  | rebuilding ticket r => exact hrebuild ticket r
  | wrapping ticket epoch => exact ⟨ticket, rfl⟩
  | rewrapping ticket epoch r => exact hrebuild ticket r
  | playing epoch report a => exact hadvance a ht
  | stepping epoch a => exact hadvance a ht
  | «over» report => cases hopen

/-- Where somebody stands at the gate, somebody is at its head. -/
theorem Ordered.exists_heads (h : p.Ordered l) {s : Standing} (hs : s ∈ l) {ticket : Nat}
    (hticket : s.ticket? = some ticket) : ∃ s ∈ l, p.Heads s := by
  have hmem : ticket ∈ p.gate.waiting :=
    h.line.perm.mem_iff.1 (List.mem_filterMap.2 ⟨s, hs, hticket⟩)
  obtain ⟨first, hfirst⟩ : ∃ first, p.gate.waiting.head? = some first := by
    cases hwaiting : p.gate.waiting with
    | nil =>
      rw [hwaiting] at hmem
      cases hmem
    | cons first rest => exact ⟨first, rfl⟩
  obtain ⟨s', hs', hticket'⟩ :=
    List.mem_filterMap.1 (h.line.perm.mem_iff.2 (List.mem_of_mem_head? hfirst))
  refine ⟨s', hs', first, hticket', ?_⟩
  unfold Line.leads
  rw [hfirst]
  exact beq_self_eq_true _

/-- From the time on that it names, what follows the commands can go on. -/
theorem tail_isReady_of_due {n : Narrator} {tail : Tail} {due : Nat} (h : tail.due? = some due)
    (hnow : due ≤ now) : tail.isReady now n = true := by
  cases tail with
  | speaking s =>
    cases s with
    | delivering turn d =>
      have hd : d.due? = some due := h
      show (_ || d.due?.any (· ≤ now)) = true
      rw [hd]
      simpa using .inr hnow
    | _ => cases h
  | dwelling time =>
    obtain rfl := Option.some.inj h
    exact decide_eq_true hnow
  | _ => cases h

/-- So can a step. -/
theorem advance_isReady_of_due {due : Nat} (h : a.due? = some due) (hnow : due ≤ now) :
    a.isReady epoch now p = true := by
  cases a with
  | performing ticket place step perf => exact Performance.isReady_of_due h hnow
  | trailing ticket step report tail =>
    show (_ || tail.isReady now p.narrator) = true
    rw [tail_isReady_of_due h hnow, Bool.or_true]
  | _ => cases h

/-- So can a rebuilding. -/
theorem rebuild_isReady_of_due {r : Rebuild} {due : Nat} (h : r.due? = some due)
    (hnow : due ≤ now) : r.isReady now = true := by
  cases r with
  | performing goal perf rest report => exact Performance.isReady_of_due h hnow
  | «over» report => cases h

/-- So can a call. -/
theorem isReady_of_due {due : Nat} (h : t.due? = some due) (hnow : due ≤ now) :
    t.isReady now p = true := by
  cases t with
  | rebuilding ticket r => exact rebuild_isReady_of_due h hnow
  | rewrapping ticket epoch r => exact rebuild_isReady_of_due h hnow
  | playing epoch report a => exact advance_isReady_of_due h hnow
  | stepping epoch a => exact advance_isReady_of_due h hnow
  | _ => cases h

end Player

end Storyboard
