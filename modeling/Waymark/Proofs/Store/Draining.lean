import Mathlib.Data.List.Nodup
import Waymark.Proofs.Store.Deferring
/-!
Running the scripts that have been left to run later.

Tasks may have their turns in any order. To follow one of them through the turns, tasks are numbered
in the order in which they come: those that wait at first, and then those that the turns spawn.
Whatever the order, once no task is left every one of them has been run to its end, by turns each of
which has gone on where the one before has got to (`Line.Works.completes`). A script that fails ends
like any other, and no turn comes to anything else because of it (`postponed_and_accounted`).
-/

namespace Waymark.Store

open Waymark.Json

namespace Observable

/-- A turn that a task has had: the task as it was, how far its script has got, and the tasks that
it has spawned. -/
structure Turn where
  number : Nat
  task : Task
  progress : Progress
  spawned : List Task

/-- A store and the tasks that wait there, with their numbers and the next number. -/
structure Line where
  state : Observable
  jobs : List (Task × Nat)
  next : Nat

/-- The line of a store, numbered from the beginning. -/
def line (state : Observable) : Line :=
  ⟨state, state.tasks.zipIdx, state.tasks.length⟩

namespace Line

/-- Any task that waits may have the next turn. The tasks that it spawns go to the end of the line
and get the next numbers, and the task goes behind them with its own, if it has paused. What has
come of the turn can be seen from the tasks and from the journal. -/
inductive Serves (depth : Nat) : Line → Turn → Line → Prop
  | turn {state after : Observable} {front back : List (Task × Nat)} {task : Task}
      {number next : Nat} {progress : Progress} {spawned : List Task}
      (hturn : Observable.turn depth
        { state with tasks := task :: (front ++ back).map Prod.fst } = some after)
      (htasks : after.tasks =
        (front ++ back).map Prod.fst ++ spawned ++ (progress.left task.id).toList)
      (hfresh : ∀ other ∈ spawned, other.fresh = true)
      (hmarks : Entry.marks after.journal = Entry.marks state.journal ++ progress.marks task) :
      Serves depth ⟨state, front ++ (task, number) :: back, next⟩ ⟨number, task, progress, spawned⟩
        ⟨after, front ++ back ++ spawned.zipIdx next ++
          (progress.left task.id).toList.map fun rest => (rest, number), next + spawned.length⟩

/-- Turns one after another. -/
inductive Works (depth : Nat) : Line → List Turn → Line → Prop
  | rest (line : Line) : Works depth line [] line
  | turn {line next last : Line} {turn : Turn} {turns : List Turn}
      (hserves : Serves depth line turn next) (hworks : Works depth next turns last) :
      Works depth line (turn :: turns) last

end Line

/-- Turns that run a task to its end: each goes on with what the one before has left, and nothing is
left by the last. -/
inductive Completes : Task → List Turn → Prop
  | ended {turn : Turn} (h : turn.progress.left turn.task.id = none) : Completes turn.task [turn]
  | paused {turn : Turn} {rest : Task} {turns : List Turn}
      (h : turn.progress.left turn.task.id = some rest) (hrest : Completes rest turns) :
      Completes turn.task (turn :: turns)

/-- The turns of the task with a number. -/
def turnsOf (number : Nat) (turns : List Turn) : List Turn :=
  turns.filter fun turn => turn.number = number

/-- All tasks that the turns have spawned. -/
def spawnedBy (turns : List Turn) : List Task :=
  turns.flatMap Turn.spawned

/-- How the journal tells of the turns. -/
def marksOf (turns : List Turn) : List Event :=
  turns.flatMap fun turn => turn.progress.marks turn.task

theorem spawnedBy_cons (turn : Turn) (turns : List Turn) :
    spawnedBy (turn :: turns) = turn.spawned ++ spawnedBy turns :=
  List.flatMap_cons

theorem marksOf_cons (turn : Turn) (turns : List Turn) :
    marksOf (turn :: turns) = turn.progress.marks turn.task ++ marksOf turns :=
  List.flatMap_cons

namespace Line

/-- Numbers are given once, and in order. -/
structure Numbered (line : Line) : Prop where
  nodup : (line.jobs.map Prod.snd).Nodup
  below : ∀ number ∈ line.jobs.map Prod.snd, number < line.next

/-- All who wait or come in the course of turns. -/
def everybody (line : Line) (turns : List Turn) : List (Task × Nat) :=
  line.jobs ++ (spawnedBy turns).zipIdx line.next

section Numbers

variable {depth : Nat} {line next last : Line} {turn : Turn} {turns : List Turn}

/-- What a turn makes of the line: the task leaves it for the time of the turn. -/
theorem Serves.exists_others (h : Serves depth line turn next) :
    ∃ others, line.jobs.Perm ((turn.task, turn.number) :: others) ∧
      next.jobs = others ++ turn.spawned.zipIdx line.next ++
        (turn.progress.left turn.task.id).toList.map (fun rest => (rest, turn.number)) ∧
      next.next = line.next + turn.spawned.length := by
  cases h
  exact ⟨_, List.perm_middle, rfl, rfl⟩

theorem Numbered.of_perm (h : line.Numbered) {task : Task} {number : Nat}
    {others : List (Task × Nat)} (hperm : line.jobs.Perm ((task, number) :: others)) :
    number ∉ others.map Prod.snd ∧ (others.map Prod.snd).Nodup ∧ number < line.next ∧
      ∀ other ∈ others.map Prod.snd, other < line.next := by
  have hnumbers := hperm.map Prod.snd
  have hnodup := hnumbers.nodup_iff.1 h.nodup
  rw [List.map_cons, List.nodup_cons] at hnodup
  refine ⟨hnodup.1, hnodup.2, h.below number ?_, fun other hother => h.below other ?_⟩
  · exact hnumbers.mem_iff.2 List.mem_cons_self
  · exact hnumbers.mem_iff.2 (List.mem_cons_of_mem _ hother)

/-- The numbers after a turn: those of the others, those of the newcomers and, if the task has
paused, its own. -/
theorem Serves.numbered (h : Serves depth line turn next) (hline : line.Numbered) :
    next.Numbered := by
  obtain ⟨others, hperm, hjobs, hnext⟩ := h.exists_others
  obtain ⟨hfree, hnodup, hnumber, hbelow⟩ := hline.of_perm hperm
  have hnumbers : next.jobs.map Prod.snd = others.map Prod.snd ++
      List.range' line.next turn.spawned.length ++
        (turn.progress.left turn.task.id).toList.map fun _ => turn.number := by
    rw [hjobs, List.map_append, List.map_append, List.zipIdx_map_snd, List.map_map]
    rfl
  have hleft : ∀ number ∈ (turn.progress.left turn.task.id).toList.map fun _ => turn.number,
      number = turn.number := by
    intro number hmem
    obtain ⟨_, _, rfl⟩ := List.mem_map.1 hmem
    rfl
  constructor
  · rw [hnumbers, List.nodup_append, List.nodup_append]
    refine ⟨⟨hnodup, List.nodup_range', ?_⟩, ?_, ?_⟩
    · intro number hother other hspawned
      have hle := (List.mem_range'_1.1 hspawned).1
      exact Nat.ne_of_lt (Nat.lt_of_lt_of_le (hbelow number hother) hle)
    · cases turn.progress.left turn.task.id <;> simp
    · intro number hmem other hpaused
      rw [hleft other hpaused]
      rintro rfl
      rcases List.mem_append.1 hmem with hother | hspawned
      · exact hfree hother
      · exact Nat.not_lt.2 (List.mem_range'_1.1 hspawned).1 hnumber
  · intro number hmem
    rw [hnumbers, List.mem_append, List.mem_append, List.mem_range'_1] at hmem
    rw [hnext]
    rcases hmem with (hother | hspawned) | hpaused
    · exact Nat.lt_add_right _ (hbelow number hother)
    · exact hspawned.2
    · rw [hleft number hpaused]
      exact Nat.lt_add_right _ hnumber

theorem mem_everybody_cons {job : Task × Nat} :
    job ∈ line.everybody (turn :: turns) ↔ job ∈ line.jobs ∨
      job ∈ turn.spawned.zipIdx line.next ∨
        job ∈ (spawnedBy turns).zipIdx (line.next + turn.spawned.length) := by
  rw [everybody, spawnedBy_cons, List.zipIdx_append, List.mem_append, List.mem_append]

/-- Those who wait or come after a turn are those who do from the turn on, but for the task that has
the turn: it has gone, or what is left of it waits. -/
theorem Serves.mem_everybody_iff (h : Serves depth line turn next) (hline : line.Numbered)
    {job : Task × Nat} :
    job ∈ next.everybody turns ↔
      turn.progress.left turn.task.id = some job.1 ∧ job.2 = turn.number ∨
        job ∈ line.everybody (turn :: turns) ∧ job.2 ≠ turn.number := by
  obtain ⟨others, hperm, hjobs, hnext⟩ := h.exists_others
  obtain ⟨hfree, -, hnumber, -⟩ := hline.of_perm hperm
  have hother : job ∈ others → job.2 ≠ turn.number :=
    fun hmem heq => hfree (heq ▸ List.mem_map_of_mem hmem)
  have hcome : ∀ {tasks : List Task} {start : Nat}, line.next ≤ start → job ∈ tasks.zipIdx start →
      job.2 ≠ turn.number := by
    intro tasks start hstart hmem
    have hle := List.le_snd_of_mem_zipIdx hmem
    omega
  have hpaused : job ∈ (turn.progress.left turn.task.id).toList.map
      (fun rest => (rest, turn.number)) ↔
        turn.progress.left turn.task.id = some job.1 ∧ job.2 = turn.number := by
    obtain ⟨task, number⟩ := job
    cases turn.progress.left turn.task.id <;> simp [eq_comm]
  rw [mem_everybody_cons, hperm.mem_iff, List.mem_cons, everybody, hjobs, hnext, List.mem_append,
    List.mem_append, List.mem_append, hpaused]
  constructor
  · rintro (((hmem | hmem) | hmem) | hmem)
    · exact .inr ⟨.inl (.inr hmem), hother hmem⟩
    · exact .inr ⟨.inr (.inl hmem), hcome (Nat.le_refl _) hmem⟩
    · exact .inl hmem
    · exact .inr ⟨.inr (.inr hmem), hcome (Nat.le_add_right _ _) hmem⟩
  · rintro (hmem | ⟨(rfl | hmem) | hmem | hmem, hne⟩)
    · exact .inl (.inr hmem)
    · exact absurd rfl hne
    · exact .inl (.inl (.inl hmem))
    · exact .inl (.inl (.inr hmem))
    · exact .inr hmem

/-- The task that has a turn waits before it, and nobody else has its number. -/
theorem Serves.mem_jobs (h : Serves depth line turn next) :
    (turn.task, turn.number) ∈ line.jobs := by
  obtain ⟨others, hperm, -⟩ := h.exists_others
  exact hperm.mem_iff.2 List.mem_cons_self

theorem eq_of_mem_everybody (hline : line.Numbered) {job other : Task × Nat}
    (hjob : job ∈ line.jobs) (hother : other ∈ line.everybody turns) (heq : other.2 = job.2) :
    other = job := by
  rcases List.mem_append.1 hother with hwaits | hcomes
  · exact List.inj_on_of_nodup_map hline.nodup hwaits hjob heq
  · have hle := List.le_snd_of_mem_zipIdx hcomes
    have hlt := hline.below job.2 (List.mem_map_of_mem hjob)
    omega

/-- Every turn is that of somebody who waits or comes. -/
theorem Works.number_of_mem (h : Works depth line turns last) (hline : line.Numbered) :
    ∀ turn ∈ turns, turn.number ∈ (line.everybody turns).map Prod.snd := by
  induction h with
  | rest line => simp
  | @turn line next last first turns hserves hworks ih =>
      have hfirst : first.number ∈ (line.everybody (first :: turns)).map Prod.snd :=
        List.mem_map.2 ⟨_, List.mem_append_left _ hserves.mem_jobs, rfl⟩
      intro turn hturn
      rcases List.mem_cons.1 hturn with rfl | hlater
      · exact hfirst
      · obtain ⟨job, hjob, hnumber⟩ := List.mem_map.1 (ih (hserves.numbered hline) turn hlater)
        rw [← hnumber]
        rcases (hserves.mem_everybody_iff hline).1 hjob with ⟨-, hsame⟩ | ⟨hmem, -⟩
        · rw [hsame]
          exact hfirst
        · exact List.mem_map_of_mem hmem

/-- Once nobody waits, everybody who has waited or come has been run to the end. By induction on the
turns, with the line general: the first turn is the first of its task and nobody else's. -/
theorem Works.completes (h : Works depth line turns last) (hline : line.Numbered)
    (hempty : last.jobs = []) :
    ∀ job ∈ line.everybody turns, Completes job.1 (turnsOf job.2 turns) := by
  induction h with
  | rest line => simp [everybody, spawnedBy, hempty]
  | @turn line next last first turns hserves hworks ih =>
      have hnext := hserves.numbered hline
      have hlater := ih hnext hempty
      intro job hjob
      by_cases hnumber : job.2 = first.number
      · obtain rfl := eq_of_mem_everybody hline hserves.mem_jobs hjob hnumber
        have hturns : turnsOf first.number (first :: turns) =
            first :: turnsOf first.number turns := List.filter_cons_of_pos (by simp)
        rw [hturns]
        cases hleft : first.progress.left first.task.id with
        | some rest =>
            refine .paused hleft (hlater (rest, first.number) ?_)
            exact (hserves.mem_everybody_iff hline).2 (.inl ⟨hleft, rfl⟩)
        | none =>
            have hnone : turnsOf first.number turns = [] := by
              refine List.filter_eq_nil_iff.2 fun turn hturn => ?_
              obtain ⟨other, hother, hsame⟩ :=
                List.mem_map.1 (hworks.number_of_mem hnext turn hturn)
              rcases (hserves.mem_everybody_iff hline).1 hother with ⟨hrest, -⟩ | ⟨-, hne⟩
              · rw [hleft] at hrest
                cases hrest
              · rw [hsame] at hne
                simpa using hne
            rw [hnone]
            exact .ended hleft
      · have hturns : turnsOf job.2 (first :: turns) = turnsOf job.2 turns :=
          List.filter_cons_of_neg (by simpa using Ne.symm hnumber)
        rw [hturns]
        exact hlater job ((hserves.mem_everybody_iff hline).2 (.inr ⟨hjob, hnumber⟩))

end Numbers

section Served

variable {depth : Nat} {line next last : Line} {turn : Turn} {turns : List Turn}

/-- What is left of a task is not fresh. -/
theorem filter_fresh {spawned : List Task} (h : ∀ task ∈ spawned, task.fresh = true) (id : String)
    (progress : Progress) :
    (spawned ++ (progress.left id).toList).filter Task.fresh = spawned := by
  rw [List.filter_append, List.filter_eq_self.2 h]
  cases progress <;> simp [Progress.left]

theorem progress_inj {id : String} {progress other : Progress}
    (hleft : (progress.left id).toList = (other.left id).toList)
    (hendings : progress.endings id = other.endings id) : progress = other := by
  cases progress <;> cases other <;> simp_all [Progress.left, Progress.endings]

/-- A turn has come to what its script comes to by itself. -/
theorem Serves.turned (h : Serves depth line turn next) (hdefers : Defers line.state) :
    ∃ alone others, advance unheard false (some turn.task.id) turn.task.script line.state =
        some (turn.progress, alone) ∧
      alone.bare = next.state.bare ∧
        Turned line.state turn.task others turn.progress turn.spawned next.state := by
  cases h with
  | @turn state after front back task number next progress spawned hturn htasks hfresh hmarks =>
      obtain ⟨other, alone, ended, tasks, hended, halone, hbare, hturned⟩ :=
        exists_turn_of_defers hdefers depth task ((front ++ back).map Prod.fst)
      obtain rfl : after = ended := Option.some.inj (hturn.symm.trans hended)
      have hsame : spawned ++ (progress.left task.id).toList =
          tasks ++ (other.left task.id).toList := by
        have hboth := htasks.symm.trans hturned.tasks
        rw [List.append_assoc, List.append_assoc] at hboth
        exact List.append_cancel_left hboth
      have hspawned : spawned = tasks := by
        rw [← filter_fresh hfresh task.id progress, hsame, filter_fresh hturned.fresh]
      subst hspawned
      have hleft := List.append_cancel_left hsame
      have hendings : progress.endings task.id = other.endings task.id :=
        List.append_cancel_left (List.append_cancel_left (hmarks.symm.trans hturned.marks))
      obtain rfl := progress_inj hleft hendings
      exact ⟨alone, _, halone, hbare, hturned⟩

/-- Whoever waits can have the next turn. -/
theorem exists_serves {state : Observable} (hdefers : Defers state) (depth : Nat)
    (front back : List (Task × Nat)) (job : Task × Nat) (number : Nat) :
    ∃ turn next, Serves depth ⟨state, front ++ job :: back, number⟩ turn next ∧
      (turn.task, turn.number) = job ∧
        Observable.turn depth { state with tasks := job.1 :: (front ++ back).map Prod.fst } =
          some next.state := by
  obtain ⟨progress, alone, after, spawned, hturn, -, -, hturned⟩ :=
    exists_turn_of_defers hdefers depth job.1 ((front ++ back).map Prod.fst)
  exact ⟨_, _, .turn hturn hturned.tasks hturned.fresh hturned.marks, rfl, hturn⟩

/-- The line is that of the tasks of the store. -/
theorem Serves.tasks_eq (h : Serves depth line turn next) :
    next.state.tasks = next.jobs.map Prod.fst := by
  cases h with
  | turn hturn htasks hfresh hmarks =>
      simp only [htasks, List.map_append, List.zipIdx_map_fst, List.map_map, Function.comp_def,
        List.map_id']

/-- Giving tasks their turns in order until there are none left is one way of doing so. -/
theorem exists_works_of_drain {state final : Observable} {jobs : List (Task × Nat)}
    {number count : Nat} (hdefers : Defers state) (htasks : state.tasks = jobs.map Prod.fst)
    (h : drain depth count state = some final) :
    ∃ turns last, Works depth ⟨state, jobs, number⟩ turns ⟨final, [], last⟩ := by
  induction count generalizing state jobs number with
  | zero =>
      rw [drain, htasks] at h
      split at h
      · next hempty =>
        obtain rfl : jobs = [] := by simpa using hempty
        obtain rfl := Option.some.inj h
        exact ⟨[], number, .rest _⟩
      · cases h
  | succ count ih =>
      rw [drain, htasks] at h
      cases jobs with
      | nil =>
          obtain rfl := Option.some.inj h
          exact ⟨[], number, .rest _⟩
      | cons job back =>
          obtain ⟨turn, next, hserves, -, hturn⟩ := exists_serves hdefers depth [] back job number
          obtain ⟨alone, others, -, -, hturned⟩ := hserves.turned hdefers
          have hline : { state with tasks := job.1 :: ([] ++ back).map Prod.fst } = state := by
            rw [List.nil_append, ← List.map_cons, ← htasks]
          rw [hline] at hturn
          rw [hturn] at h
          obtain ⟨turns, last, hworks⟩ := ih hturned.defers hserves.tasks_eq h
          exact ⟨turn :: turns, last, .turn hserves hworks⟩

end Served

end Line

/-- The turns that tasks have had since a write, in any order, have gone as they should. -/
structure Accounted (depth : Nat) (after : Observable) (turns : List Turn) (line : Line) :
    Prop where
  /-- So every write is still answered as it is by the inner store. -/
  defers : Defers line.state
  /-- Each call of a handler has left one task. -/
  calls : (Entry.calls line.state.journal).map Notification.observer =
    (Entry.calls after.journal).map Notification.observer ++ (spawnedBy turns).map Task.id
  /-- Nothing has begun or ended but in these turns. -/
  marks : Entry.marks line.state.journal = Entry.marks after.journal ++ marksOf turns
  /-- Every task that waits can have the next turn. -/
  serves : ∀ front job back, line.jobs = front ++ job :: back →
    ∃ turn later, Line.Serves depth line turn later ∧ (turn.task, turn.number) = job ∧
      Observable.turn depth { line.state with tasks := job.1 :: (front ++ back).map Prod.fst } =
        some later.state
  /-- In a turn the script is answered as if nobody were told of anything, and comes to the same. -/
  alone : ∀ turn later, Line.Serves depth line turn later →
    ∃ alone, advance unheard false (some turn.task.id) turn.task.script line.state =
        some (turn.progress, alone) ∧ alone.bare = later.state.bare
  /-- Every turn is that of a task that has waited or has been spawned. -/
  numbered : ∀ turn ∈ turns, turn.number < (after.tasks ++ spawnedBy turns).length
  /-- Once nobody waits, each of these tasks has been run to its end. -/
  completes : line.jobs = [] → ∀ job ∈ (after.tasks ++ spawnedBy turns).zipIdx,
    Completes job.1 (turnsOf job.2 turns)
  /-- In the journal it has begun once and ended once, well or not. -/
  ends : line.jobs = [] → ∀ job ∈ (after.tasks ++ spawnedBy turns).zipIdx,
    ∃ failure, marksOf (turnsOf job.2 turns) =
      (if job.1.fresh then [.started job.1.id] else []) ++ [ending job.1.id failure]

section Accounts

variable {depth : Nat} {state after : Observable} {line last : Line} {turns : List Turn}
  {task : Task}

/-- What a task has left that has not come to its end. -/
theorem left_eq_some {id : String} {progress : Progress} {rest : Task}
    (h : progress.left id = some rest) :
    rest.id = id ∧ rest.fresh = false ∧ progress.endings id = [] := by
  cases progress with
  | finished | failed cause => cases h
  | paused script =>
      obtain rfl := Option.some.inj h
      exact ⟨rfl, rfl, rfl⟩

theorem left_eq_none {id : String} {progress : Progress} (h : progress.left id = none) :
    ∃ failure, progress.endings id = [ending id failure] := by
  cases progress with
  | finished => exact ⟨none, rfl⟩
  | failed cause => exact ⟨some cause, rfl⟩
  | paused script => cases h

theorem Completes.exists_marksOf_eq (h : Completes task turns) :
    ∃ failure, marksOf turns =
      (if task.fresh then [.started task.id] else []) ++ [ending task.id failure] := by
  induction h with
  | @ended turn hended =>
      obtain ⟨failure, hfailure⟩ := left_eq_none hended
      refine ⟨failure, ?_⟩
      rw [marksOf_cons, Progress.marks, hfailure]
      exact List.append_nil _
  | @paused turn rest turns hpaused hrest ih =>
      obtain ⟨hid, hfresh, hendings⟩ := left_eq_some hpaused
      obtain ⟨failure, hmarks⟩ := ih
      refine ⟨failure, ?_⟩
      rw [hid, hfresh] at hmarks
      rw [marksOf_cons, Progress.marks, hendings, List.append_nil]
      exact congrArg _ hmarks

theorem everybody_line (state : Observable) (turns : List Turn) :
    state.line.everybody turns = (state.tasks ++ spawnedBy turns).zipIdx := by
  rw [Line.everybody, List.zipIdx_append, Nat.zero_add]
  rfl

theorem numbered_line (state : Observable) : state.line.Numbered := by
  have hnumbers : state.line.jobs.map Prod.snd = List.range' 0 state.tasks.length :=
    List.zipIdx_map_snd 0 state.tasks
  constructor
  · rw [hnumbers]
    exact List.nodup_range'
  · rw [hnumbers]
    intro number hnumber
    have hbelow := (List.mem_range'_1.1 hnumber).2
    rwa [Nat.zero_add] at hbelow

/-- Calls, tasks and marks are in step, by induction on the turns. -/
theorem works_account (h : Defers line.state) (hworks : Line.Works depth line turns last) :
    Defers last.state ∧
      (Entry.calls last.state.journal).map Notification.observer =
        (Entry.calls line.state.journal).map Notification.observer ++
          (spawnedBy turns).map Task.id ∧
      Entry.marks last.state.journal = Entry.marks line.state.journal ++ marksOf turns := by
  induction hworks with
  | rest line => exact ⟨h, (List.append_nil _).symm, (List.append_nil _).symm⟩
  | @turn line next last turn turns hserves hworks ih =>
      obtain ⟨alone, others, -, -, hturned⟩ := hserves.turned h
      obtain ⟨hdefers, hcalls, hmarks⟩ := ih hturned.defers
      refine ⟨hdefers, ?_, ?_⟩
      · rw [hcalls, hturned.calls, spawnedBy_cons, List.map_append, List.append_assoc]
      · rw [hmarks, hturned.marks, marksOf_cons, List.append_assoc]

theorem accounted_of_works (h : Defers after) (hworks : Line.Works depth after.line turns line) :
    Accounted depth after turns line := by
  have hstart : Defers after.line.state := h
  obtain ⟨hdefers, hcalls, hmarks⟩ := works_account hstart hworks
  have hcompletes : line.jobs = [] → ∀ job ∈ (after.tasks ++ spawnedBy turns).zipIdx,
      Completes job.1 (turnsOf job.2 turns) := by
    intro hempty job hjob
    rw [← everybody_line] at hjob
    exact hworks.completes (numbered_line after) hempty job hjob
  constructor
  case defers => exact hdefers
  case calls => exact hcalls
  case marks => exact hmarks
  case serves =>
    intro front job back hjobs
    obtain ⟨state, jobs, number⟩ := line
    obtain rfl : jobs = front ++ job :: back := hjobs
    exact Line.exists_serves hdefers depth front back job number
  case alone =>
    intro turn later hserves
    obtain ⟨alone, others, halone, hbare, -⟩ := hserves.turned hdefers
    exact ⟨alone, halone, hbare⟩
  case numbered =>
    intro turn hturn
    have hnumber := hworks.number_of_mem (numbered_line after) turn hturn
    rw [everybody_line, List.zipIdx_map_snd] at hnumber
    simpa using (List.mem_range'_1.1 hnumber).2
  case completes => exact hcompletes
  case ends => exact fun hempty job hjob => (hcompletes hempty job hjob).exists_marksOf_eq

/-- In a store that leaves the scripts of handlers to run later, every write is answered as it is by
the inner store and leaves what it leaves there. If it starts a cycle, it has called the handlers of
accepted observers in order, and run none of their scripts. In whatever order the tasks then have
their turns, nothing is lost and nothing is done twice: once no task is left, each has been run to
its end, and what became of one has changed nothing for the others or for those who write. -/
theorem postponed_and_accounted (h : Defers state) (depth : Nat) (change : Write) :
    ∃ after, Observable.write (notify depth) state change =
        some ((change.apply state.store).1, after) ∧
      Postponed state change after ∧
      (∀ turns line, Line.Works depth after.line turns line → Accounted depth after turns line) ∧
      ∀ count final, drain depth count after = some final →
        ∃ turns number, Line.Works depth after.line turns ⟨final, [], number⟩ := by
  obtain ⟨spawned, hspawns⟩ := exists_spawns_afterWrite change state
  have hafter := hspawns.defers h
  refine ⟨state.afterWrite change, write_eq_of_defers h depth change,
    postponed_afterWrite change state, fun turns line => accounted_of_works hafter, ?_⟩
  intro count final hdrain
  have htasks : (state.afterWrite change).line.state.tasks =
      (state.afterWrite change).line.jobs.map Prod.fst := (List.zipIdx_map_fst _ _).symm
  exact Line.exists_works_of_drain hafter htasks hdrain

end Accounts

/-- Three observers and a filter that rejects the second. The first one fails, and the last one lets
others run and then writes itself. -/
def writingBack : Observable where
  store := .plain .empty
  observers := [⟨"tired", .null, fun _ => .fail "worn out"⟩, ⟨"deaf", .null, fun _ => .done⟩,
    ⟨"late", .null, fun _ => .pause (.write (.set "b" .null .standard) fun _ => .done)⟩]
  filter := some fun notification => notification.observer != "deaf"
  muted := false
  inFlight := 0
  dispatch := .async
  hasRuntime := true
  tasks := []
  journal := []

/-- The write of the last observer is told of too, and everybody comes to the end in turn. -/
theorem accounted_writingBack :
    ∃ after final turns number, Observable.write (notify 0) writingBack (.set "a" .null .standard) =
        some (.ok (.keys [("a", .null)]), after) ∧
      Postponed writingBack (.set "a" .null .standard) after ∧
      Line.Works 0 after.line turns ⟨final, [], number⟩ ∧
      Accounted 0 after turns ⟨final, [], number⟩ ∧
      (Entry.calls after.journal).map Notification.observer = ["tired", "late"] ∧
      (spawnedBy turns).map Task.id = ["tired", "late"] := by
  have hdefers : Defers writingBack := ⟨rfl, rfl⟩
  obtain ⟨after, hwrite, hpostponed, haccounted, hdrained⟩ :=
    postponed_and_accounted hdefers 0 (.set "a" .null .standard)
  have happly : ((Write.set "a" .null .standard).apply writingBack.store).1 =
      .ok (.keys [("a", .null)]) := by rfl
  have htold : writingBack.told? (.set "a" .null .standard) = some (.keys [("a", .null)]) := by rfl
  have hcalls : (Entry.calls after.journal).map Notification.observer = ["tired", "late"] := by
    rw [(hpostponed.told _ htold).1]
    decide
  have hruns : ((Observable.write (notify 0) writingBack (.set "a" .null .standard)).bind
      fun (_, after) => (drain 0 6 after).map fun final =>
        (Entry.calls final.journal).map Notification.observer) =
      some ["tired", "late", "tired", "late"] := by decide +kernel
  rw [hwrite] at hruns
  obtain ⟨final, hfinal, hall⟩ := Option.map_eq_some_iff.1 hruns
  obtain ⟨turns, number, hworks⟩ := hdrained 6 final hfinal
  have haccount := haccounted turns _ hworks
  rw [happly] at hwrite
  refine ⟨after, final, turns, number, hwrite, hpostponed, hworks, haccount, hcalls, ?_⟩
  have hboth := haccount.calls.symm.trans hall
  rw [hcalls] at hboth
  exact List.append_cancel_left (show _ = ["tired", "late"] ++ ["tired", "late"] from hboth)

end Observable

end Waymark.Store
