import Storyboard.Proofs.Playback.Gate

/-! # Reports of lists of commands

    Reports are put together as lists are, with the empty report for none.
    Lists of commands that are performed one after another have a report each,
    and what it says depends on the scene that the lists before have left
    (`Scene.reports`). In every report each command is counted once
    (`count_report`). -/

namespace Storyboard

namespace Report

variable {r : Report}

@[simp] theorem empty_merge (r : Report) : empty.merge r = r := by
  simp [merge, empty]

@[simp] theorem merge_empty (r : Report) : r.merge empty = r := by
  simp [merge, empty]

theorem merge_assoc (a b c : Report) : (a.merge b).merge c = a.merge (b.merge c) := by
  simp [merge, Nat.add_assoc]

/-- Some reports as one. -/
def all (rs : List Report) : Report := rs.foldl .merge .empty

theorem foldl_merge (r : Report) (rs : List Report) : rs.foldl .merge r = r.merge (all rs) := by
  unfold all
  induction rs generalizing r with
  | nil => exact (merge_empty r).symm
  | cons a rest ih => rw [List.foldl_cons, List.foldl_cons, ih, ih (empty.merge a), empty_merge,
      merge_assoc]

@[simp] theorem all_nil : all [] = .empty := rfl

@[simp] theorem all_cons (r : Report) (rs : List Report) : all (r :: rs) = r.merge (all rs) := by
  rw [all, List.foldl_cons, empty_merge, foldl_merge]

theorem all_append (rs more : List Report) : all (rs ++ more) = (all rs).merge (all more) := by
  rw [all, List.foldl_append, foldl_merge]
  rfl

/-- How many commands a report tells about. -/
def count (r : Report) : Nat := r.applied + r.skipped.length

theorem count_merge (a b : Report) : (a.merge b).count = a.count + b.count := by
  simp [count, merge]
  omega

theorem count_all (rs : List Report) : (all rs).count = (rs.map count).sum := by
  induction rs with
  | nil => rfl
  | cons r rest ih => rw [all_cons, count_merge, ih, List.map_cons, List.sum_cons]

end Report

/-! ### One list -/

namespace Draft

/-- What is skipped, and where, is told by what becomes of every command. -/
theorem skipped_perform (d : Draft) (i : Nat) (commands : List Json) :
    (d.perform i commands).2.skipped =
      ((d.problems commands).zipIdx i).filterMap fun x => x.1.map fun p => ⟨x.2, p⟩ := by
  induction commands generalizing d i with
  | nil => rfl
  | cons command rest ih =>
    rw [perform, problems, along, List.map_cons, List.zipIdx_cons, problem?, step]
    cases d.takeJson command with
    | error p => exact congrArg (_ :: ·) (ih d (i + 1))
    | ok d' => exact ih d' (i + 1)

theorem count_perform (d : Draft) (i : Nat) (commands : List Json) :
    (d.perform i commands).2.count = commands.length := by
  induction commands generalizing d i with
  | nil => rfl
  | cons command rest ih =>
    rw [perform, List.length_cons]
    cases d.takeJson command with
    | error p => exact (Report.count_merge _ _).trans ((Nat.add_comm _ _).trans
        (congrArg (· + 1) (ih d (i + 1))))
    | ok d' => exact (Report.count_merge _ _).trans ((Nat.add_comm _ _).trans
        (congrArg (· + 1) (ih d' (i + 1))))

end Draft

/-! ### Several lists -/

namespace Scene

variable {s : Scene}

/-- Every command is counted once. -/
theorem count_report (s : Scene) (commands : List Json) :
    (s.report commands).count = commands.length := Draft.count_perform _ 0 commands

/-- The reports of lists of commands that are performed one after another. -/
def reports (s : Scene) : List (List Json) → List Report
  | [] => []
  | commands :: rest => s.report commands :: (s.after commands).reports rest

theorem length_reports (s : Scene) (lists : List (List Json)) :
    (s.reports lists).length = lists.length := by
  induction lists generalizing s with
  | nil => rfl
  | cons commands rest ih => exact congrArg (· + 1) (ih _)

theorem reports_take (s : Scene) (lists : List (List Json)) (n : Nat) :
    s.reports (lists.take n) = (s.reports lists).take n := by
  induction lists generalizing s n with
  | nil => simp [reports]
  | cons commands rest ih =>
    cases n with
    | zero => rfl
    | succ n => exact congrArg (_ :: ·) (ih _ n)

/-- What a list reports is decided by the scene that those before it leave. -/
theorem getElem?_reports (s : Scene) (lists : List (List Json)) (i : Nat) :
    (s.reports lists)[i]? = lists[i]?.map ((lists.take i).foldl after s).report := by
  induction lists generalizing s i with
  | nil => rfl
  | cons commands rest ih =>
    cases i with
    | zero => rfl
    | succ i => exact ih _ i

theorem count_reports (s : Scene) (lists : List (List Json)) :
    (s.reports lists).map Report.count = lists.map List.length := by
  induction lists generalizing s with
  | nil => rfl
  | cons commands rest ih => exact congrArg₂ (· :: ·) (s.count_report commands) (ih _)

end Scene

/-! ### Timelines -/

namespace Timeline

variable {t : Timeline} {place : Nat} {step : Step}

/-- The report of the setup. -/
def setupReport (t : Timeline) : Report := Scene.empty.report t.setup

/-- The reports of the steps, each performed when those before it are through. -/
def stepReports (t : Timeline) : List Report := (t.sceneAt 0).reports (t.steps.map (·.commands))

/-- The reports of everything to be performed before the step at `place`. -/
def reportsBefore (t : Timeline) (place : Nat) : List Report :=
  t.setupReport :: t.stepReports.take place

/-- How many commands are performed before the step at `place`. -/
def commandsBefore (t : Timeline) (place : Nat) : Nat := ((t.before place).map List.length).sum

theorem length_stepReports (t : Timeline) : t.stepReports.length = t.length := by
  rw [stepReports, Scene.length_reports, List.length_map]
  rfl

/-- What a step reports is decided by the scene that the timeline leaves before it. -/
theorem getElem?_stepReports (h : t.steps[place]? = some step) :
    t.stepReports[place]? = some ((t.sceneAt place).report step.commands) := by
  rw [stepReports, Scene.getElem?_reports, List.getElem?_map, h, ← List.map_take]
  rfl

theorem take_succ_stepReports (h : t.steps[place]? = some step) :
    t.stepReports.take (place + 1) =
      t.stepReports.take place ++ [(t.sceneAt place).report step.commands] := by
  rw [List.take_add_one, getElem?_stepReports h]
  rfl

/-- There are no reports behind the last step. -/
theorem reportsBefore_min (t : Timeline) (place : Nat) :
    t.reportsBefore (min place t.length) = t.reportsBefore place := by
  rw [reportsBefore, reportsBefore, ← length_stepReports, ← List.take_take, List.take_length]

theorem reports_before (t : Timeline) (place : Nat) :
    Scene.empty.reports (t.before place) = t.reportsBefore place := by
  refine congrArg (t.setupReport :: ·) ?_
  rw [stepReports, ← Scene.reports_take, ← List.map_take]
  rfl

/-- Each of these commands is counted once. -/
theorem count_reportsBefore (t : Timeline) (place : Nat) :
    (Report.all (t.reportsBefore place)).count = t.commandsBefore place := by
  rw [Report.count_all, ← reports_before, Scene.count_reports]
  rfl

theorem reportsBefore_length (t : Timeline) :
    t.reportsBefore t.length = t.setupReport :: t.stepReports := by
  rw [reportsBefore, ← length_stepReports, List.take_length]

end Timeline

end Storyboard
