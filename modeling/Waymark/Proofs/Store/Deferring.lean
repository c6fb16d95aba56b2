import Waymark.Proofs.Store.Cycles
/-!
How a store goes on that leaves the scripts of its handlers to run later.

A cycle in such a store calls the handlers of accepted observers in order and leaves their scripts
as tasks; it always succeeds, so a write is answered as it is by the inner store
(`write_eq_of_defers`). A script that runs there comes to what it would come to if nobody were told
of anything, but for the journal and the tasks (`alongside_of_defers`).
-/

namespace Waymark.Store

open Waymark.Json

/-- The notification that a handler is called with, if one is. -/
def Event.called? : Event → Option Notification
  | .called notification => some notification
  | _ => none

/-- Whether a script begins or comes to its end. -/
def Event.isMark : Event → Bool
  | .started _ | .finished _ | .failed _ _ => true
  | _ => false

namespace Entry

/-- The notifications that handlers have been called with, in order. -/
def calls (journal : List Entry) : List Notification :=
  journal.filterMap fun entry => entry.event.called?

/-- The beginnings and the ends of scripts, in order. -/
def marks (journal : List Entry) : List Event :=
  (journal.map Entry.event).filter Event.isMark

theorem calls_append (journal entries : List Entry) :
    calls (journal ++ entries) = calls journal ++ calls entries :=
  List.filterMap_append

theorem marks_append (journal entries : List Entry) :
    marks (journal ++ entries) = marks journal ++ marks entries := by
  rw [marks, List.map_append, List.filter_append]
  rfl

end Entry

namespace Observable

/-- A store that leaves the scripts of its handlers to run later, and can. -/
structure Defers (state : Observable) : Prop where
  dispatch : state.dispatch = .async
  hasRuntime : state.hasRuntime = true

/-- The scripts of the handlers of accepted observers, none of which has run. -/
def deferred (filter : Option Filter) (changes : Changes) (args : List Value)
    (observers : List Observer) : List Task :=
  (observers.filter (accepts filter changes args)).map fun observer =>
    ⟨observer.id, true, observer.handler (observer.notification changes args)⟩

/-- The notifications of accepted observers. -/
def informed (filter : Option Filter) (changes : Changes) (args : List Value)
    (observers : List Observer) : List Notification :=
  (observers.filter (accepts filter changes args)).map fun observer =>
    observer.notification changes args

/-- What a cycle enters into the journal about an observer: what the filter says, if there is one,
and the call, if the observer is accepted. -/
def asked (filter : Option Filter) (changes : Changes) (args : List Value) (depth : Nat)
    (observer : Observer) : List Entry :=
  let notification := observer.notification changes args
  filter.toList.map (fun accepts => ⟨.consulted observer.id (accepts notification), depth⟩) ++
    if accepts filter changes args observer then [⟨.called notification, depth⟩] else []

/-- What a cycle leaves that only calls handlers. -/
def putOff (changes : Changes) (args : List Value) (state : Observable) : Observable :=
  if state.muted then state
  else
    { state with
      tasks := state.tasks ++ deferred state.filter changes args state.observers
      journal := state.journal ++ ⟨.opened, state.inFlight + 1⟩ ::
        (state.observers.flatMap (asked state.filter changes args (state.inFlight + 1)) ++
          [⟨.closed, state.inFlight⟩]) }

section Cycles

variable {state : Observable} {filter : Option Filter} {changes : Changes} {args : List Value}

theorem spawnAll_eq (filter : Option Filter) (changes : Changes) (args : List Value)
    (observers : List Observer) (state : Observable) :
    spawnAll filter changes args observers state =
      { state with
        tasks := state.tasks ++ deferred filter changes args observers
        journal := state.journal ++
          observers.flatMap (asked filter changes args state.inFlight) } := by
  induction observers generalizing state with
  | nil => simp [spawnAll, deferred]
  | cons observer observers ih =>
      have hask : state.consult filter (observer.notification changes args) =
          (accepts filter changes args observer,
            { state with journal := state.journal ++ filter.toList.map fun accepts =>
              ⟨.consulted observer.id (accepts (observer.notification changes args)),
                state.inFlight⟩ }) := by
        cases filter with
        | none => simp [consult, accepts]
        | some accepts => rfl
      rw [spawnAll, hask]
      dsimp only
      cases haccepts : accepts filter changes args observer with
      | true =>
          rw [if_pos rfl, ih]
          simp [deferred, asked, haccepts, record]
      | false =>
          rw [if_neg Bool.false_ne_true, ih]
          simp [deferred, asked, haccepts]

/-- However deep cycles may nest, a cycle calls the handlers and succeeds. -/
theorem notify_eq_of_defers (h : Defers state) (depth : Nat) (changes : Changes)
    (args : List Value) :
    notify depth changes args state = some (.ok (), state.putOff changes args) := by
  rw [notify_eq, tell, putOff]
  split
  · rfl
  · rw [h.dispatch]
    dsimp only
    rw [if_pos h.hasRuntime, spawnAll_eq]
    simp [enter, leave, record, h.dispatch]

theorem calls_flatMap_asked (filter : Option Filter) (changes : Changes) (args : List Value)
    (depth : Nat) (observers : List Observer) :
    Entry.calls (observers.flatMap (asked filter changes args depth)) =
      informed filter changes args observers := by
  induction observers with
  | nil => rfl
  | cons observer observers ih =>
      rw [List.flatMap_cons, Entry.calls_append, ih]
      cases haccepts : accepts filter changes args observer <;> cases filter <;>
        simp [asked, informed, haccepts, Entry.calls, Event.called?]

theorem marks_flatMap_asked (filter : Option Filter) (changes : Changes) (args : List Value)
    (depth : Nat) (observers : List Observer) :
    Entry.marks (observers.flatMap (asked filter changes args depth)) = [] := by
  induction observers with
  | nil => rfl
  | cons observer observers ih =>
      rw [List.flatMap_cons, Entry.marks_append, ih]
      cases haccepts : accepts filter changes args observer <;> cases filter <;>
        simp [asked, haccepts, Entry.marks, Event.isMark]

theorem map_id_deferred (filter : Option Filter) (changes : Changes) (args : List Value)
    (observers : List Observer) :
    (deferred filter changes args observers).map Task.id =
      (informed filter changes args observers).map Notification.observer := by
  rw [deferred, informed, List.map_map, List.map_map]
  rfl

end Cycles

/-- What a step does that calls handlers and runs nothing: each call leaves a task. -/
structure Spawns (state after : Observable) (spawned : List Task) : Prop where
  defers : state.Defers → after.Defers
  inFlight : after.inFlight = state.inFlight
  tasks : after.tasks = state.tasks ++ spawned
  fresh : ∀ task ∈ spawned, task.fresh = true
  calls : (Entry.calls after.journal).map Notification.observer =
    (Entry.calls state.journal).map Notification.observer ++ spawned.map Task.id
  marks : Entry.marks after.journal = Entry.marks state.journal

section Steps

variable {state next after : Observable} {spawned others : List Task}

theorem Spawns.trans (h : state.Spawns next spawned) (hnext : next.Spawns after others) :
    state.Spawns after (spawned ++ others) where
  defers hstate := hnext.defers (h.defers hstate)
  inFlight := hnext.inFlight.trans h.inFlight
  tasks := by rw [hnext.tasks, h.tasks, List.append_assoc]
  fresh task htask := by
    rcases List.mem_append.1 htask with hspawned | hothers
    · exact h.fresh task hspawned
    · exact hnext.fresh task hothers
  calls := by rw [hnext.calls, h.calls, List.map_append, List.append_assoc]
  marks := hnext.marks.trans h.marks

/-- A step that leaves the tasks, and enters into the journal neither a call nor a mark. -/
theorem Spawns.still {entries : List Entry} (hdispatch : after.dispatch = state.dispatch)
    (hruntime : after.hasRuntime = state.hasRuntime) (hinFlight : after.inFlight = state.inFlight)
    (htasks : after.tasks = state.tasks) (hjournal : after.journal = state.journal ++ entries)
    (hcalls : Entry.calls entries = []) (hmarks : Entry.marks entries = []) :
    state.Spawns after [] where
  defers h := ⟨hdispatch.trans h.dispatch, hruntime.trans h.hasRuntime⟩
  inFlight := hinFlight
  tasks := by rw [htasks, List.append_nil]
  fresh _ h := absurd h List.not_mem_nil
  calls := by
    rw [hjournal, Entry.calls_append, hcalls, List.append_nil, List.map_nil, List.append_nil]
  marks := by rw [hjournal, Entry.marks_append, hmarks, List.append_nil]

/-- A step that is not in the journal. -/
theorem Spawns.unseen (hdispatch : after.dispatch = state.dispatch)
    (hruntime : after.hasRuntime = state.hasRuntime) (hinFlight : after.inFlight = state.inFlight)
    (htasks : after.tasks = state.tasks) (hjournal : after.journal = state.journal) :
    state.Spawns after [] :=
  .still hdispatch hruntime hinFlight htasks (by rw [hjournal, List.append_nil]) rfl rfl

theorem calls_putOff (changes : Changes) (args : List Value) (hunmuted : state.muted = false) :
    Entry.calls (state.putOff changes args).journal =
      Entry.calls state.journal ++ informed state.filter changes args state.observers := by
  have hasked := calls_flatMap_asked state.filter changes args (state.inFlight + 1) state.observers
  rw [putOff, hunmuted, if_neg Bool.false_ne_true, Entry.calls_append, ← hasked]
  exact congrArg _ ((Entry.calls_append _ _).trans (List.append_nil _))

theorem marks_putOff (changes : Changes) (args : List Value) :
    Entry.marks (state.putOff changes args).journal = Entry.marks state.journal := by
  have hasked := marks_flatMap_asked state.filter changes args (state.inFlight + 1) state.observers
  rw [putOff]
  split
  · rfl
  · rw [Entry.marks_append]
    refine (congrArg _ ?_).trans (List.append_nil _)
    exact (Entry.marks_append _ _).trans (by rw [hasked]; rfl)

/-- A cycle leaves a task for each call. -/
theorem spawns_putOff (changes : Changes) (args : List Value) (hunmuted : state.muted = false) :
    state.Spawns (state.putOff changes args)
      (deferred state.filter changes args state.observers) := by
  have hput : state.putOff changes args = { state with
      tasks := state.tasks ++ deferred state.filter changes args state.observers
      journal := (state.putOff changes args).journal } := by
    rw [putOff, hunmuted, if_neg Bool.false_ne_true]
  constructor
  case defers =>
    intro h
    rw [hput]
    exact ⟨h.dispatch, h.hasRuntime⟩
  case inFlight => rw [hput]
  case tasks => rw [hput]
  case fresh =>
    intro task htask
    obtain ⟨observer, _, rfl⟩ := List.mem_map.1 htask
    rfl
  case calls => rw [calls_putOff changes args hunmuted, List.map_append, map_id_deferred]
  case marks => exact marks_putOff changes args

theorem exists_spawns_putOff (changes : Changes) (args : List Value) (state : Observable) :
    ∃ spawned, state.Spawns (state.putOff changes args) spawned := by
  cases hmuted : state.muted with
  | true =>
      rw [putOff, hmuted, if_pos rfl]
      exact ⟨[], .unseen rfl rfl rfl rfl rfl⟩
  | false => exact ⟨_, spawns_putOff changes args hmuted⟩

end Steps

/-- A store without its journal and its tasks. -/
def bare (state : Observable) : Observable :=
  { state with tasks := [], journal := [] }

/-- A cycle in which nobody is told of anything. -/
def unheard : Cycle := fun _ _ state => some (.ok (), state)

/-- What a write tells observers of, if it starts a cycle. -/
def told? (change : Write) (state : Observable) : Option Changes :=
  match (change.apply state.store).1 with
  | .ok changes => if change.isTold changes && !state.muted then some changes else none
  | .error _ => none

/-- What a write leaves of a store that runs scripts later. The inner store is as the write leaves
it, and nothing else has changed. If there is a cycle, the handlers of accepted observers have been
called in order, once each, and their whole scripts are the last tasks. No script has begun. -/
structure Postponed (state : Observable) (change : Write) (after : Observable) : Prop where
  bare : after.bare = { state.bare with store := (change.apply state.store).2 }
  told : ∀ changes, state.told? change = some changes →
    Entry.calls after.journal =
      Entry.calls state.journal ++ informed state.filter changes [] state.observers ∧
    after.tasks = state.tasks ++ deferred state.filter changes [] state.observers
  untold : state.told? change = none →
    Entry.calls after.journal = Entry.calls state.journal ∧ after.tasks = state.tasks
  marks : Entry.marks after.journal = Entry.marks state.journal

section Writes

variable {state other : Observable} {change : Write} {changes : Changes}

/-- The store after a write, before anybody is told of it. -/
def applied (change : Write) (state : Observable) : Observable :=
  let written := { state with store := (change.apply state.store).2 }
  match (change.apply state.store).1 with
  | .ok changes => written.record (.wrote changes)
  | .error _ => written

/-- The store after a write, with what observers are told of later. -/
def afterWrite (change : Write) (state : Observable) : Observable :=
  match state.told? change with
  | some changes => (state.applied change).putOff changes []
  | none => state.applied change

theorem spawns_applied (change : Write) (state : Observable) :
    state.Spawns (state.applied change) [] := by
  rw [applied]
  cases (change.apply state.store).1 with
  | ok changes => exact .still rfl rfl rfl rfl rfl rfl rfl
  | error error => exact .unseen rfl rfl rfl rfl rfl

theorem calls_applied (change : Write) (state : Observable) :
    Entry.calls (state.applied change).journal = Entry.calls state.journal := by
  rw [applied]
  cases (change.apply state.store).1 with
  | ok changes => exact (Entry.calls_append _ _).trans (List.append_nil _)
  | error error => rfl

theorem bare_applied (change : Write) (state : Observable) :
    (state.applied change).bare = { state.bare with store := (change.apply state.store).2 } := by
  rw [applied]
  cases (change.apply state.store).1 <;> rfl

theorem bare_putOff (changes : Changes) (args : List Value) (state : Observable) :
    (state.putOff changes args).bare = state.bare := by
  rw [putOff]
  split <;> rfl

theorem bare_afterWrite (change : Write) (state : Observable) :
    (state.afterWrite change).bare =
      { state.bare with store := (change.apply state.store).2 } := by
  rw [afterWrite]
  split
  · rw [bare_putOff, bare_applied]
  · exact bare_applied change state

/-- A write is answered as it is by the inner store. -/
theorem write_eq_of_defers (h : Defers state) (depth : Nat) (change : Write) :
    Observable.write (notify depth) state change =
      some ((change.apply state.store).1, state.afterWrite change) := by
  rw [Observable.write, afterWrite, told?, applied]
  rcases change.apply state.store with ⟨answer, store⟩
  cases answer with
  | error error => rfl
  | ok changes =>
      let wrote := { state with store }.record (.wrote changes)
      have hwrote : Defers wrote := ⟨h.dispatch, h.hasRuntime⟩
      have hnotify := notify_eq_of_defers hwrote depth changes []
      dsimp only
      cases htold : change.isTold changes with
      | false => rfl
      | true =>
          rw [if_pos rfl, hnotify, Bool.true_and]
          by_cases hmuted : state.muted = true
          · have hsame : wrote.putOff changes [] = wrote := if_pos hmuted
            rw [hsame, if_neg (by rw [hmuted]; exact Bool.false_ne_true)]
            rfl
          · rw [if_pos (by rw [eq_false_of_ne_true hmuted]; rfl)]
            rfl

/-- A write that nobody is told of is answered so too. -/
theorem write_unheard (change : Write) (state : Observable) :
    Observable.write unheard state change =
      some ((change.apply state.store).1, state.applied change) := by
  rw [Observable.write, applied]
  rcases change.apply state.store with ⟨answer, store⟩
  cases answer with
  | error error => rfl
  | ok changes =>
      dsimp only
      split <;> rfl

theorem bare_applied_eq (h : other.bare = state.bare) (change : Write) :
    (other.applied change).bare = (state.afterWrite change).bare := by
  have hstore : other.store = state.store := congrArg (fun bare => bare.store) h
  rw [bare_applied, bare_afterWrite, h, hstore]

theorem unmuted_of_told? (h : state.told? change = some changes) : state.muted = false := by
  rw [told?] at h
  split at h
  · split at h
    · next htold => simpa using (Bool.and_eq_true_iff.1 htold).2
    · cases h
  · cases h

theorem exists_spawns_afterWrite (change : Write) (state : Observable) :
    ∃ spawned, state.Spawns (state.afterWrite change) spawned := by
  have happlied := spawns_applied change state
  rw [afterWrite]
  split
  · obtain ⟨spawned, hspawned⟩ := exists_spawns_putOff _ [] (state.applied change)
    exact ⟨_, happlied.trans hspawned⟩
  · exact ⟨[], happlied⟩

theorem postponed_afterWrite (change : Write) (state : Observable) :
    Postponed state change (state.afterWrite change) := by
  obtain ⟨spawned, hspawned⟩ := exists_spawns_afterWrite change state
  have hbare := bare_applied change state
  have hobservers : (state.applied change).observers = state.observers :=
    congrArg (fun bare => bare.observers) hbare
  have hfilter : (state.applied change).filter = state.filter :=
    congrArg (fun bare => bare.filter) hbare
  have hmuted : (state.applied change).muted = state.muted :=
    congrArg (fun bare => bare.muted) hbare
  constructor
  case bare => exact bare_afterWrite change state
  case told =>
    intro changes htold
    have hunmuted := hmuted.trans (unmuted_of_told? htold)
    have hcalls := calls_putOff changes [] hunmuted
    have htasks := (spawns_putOff changes [] hunmuted).tasks
    rw [hobservers, hfilter] at hcalls htasks
    rw [afterWrite, htold]
    dsimp only
    rw [hcalls, htasks, calls_applied, (spawns_applied change state).tasks, List.append_nil]
    exact ⟨rfl, rfl⟩
  case untold =>
    intro hnone
    rw [afterWrite, hnone]
    exact ⟨calls_applied change state, by rw [(spawns_applied change state).tasks, List.append_nil]⟩
  case marks => exact hspawned.marks

end Writes

section Scripts

variable {depth : Nat} {passes : Bool} {id : Option String} {script rest : Script}
  {state next other otherNext : Observable}

/-- A script goes in a store that defers as it goes where nobody is told of anything. -/
def Alongside (depth : Nat) (passes : Bool) (id : Option String) (script : Script)
    (state other : Observable) : Prop :=
  ∃ progress after alone spawned, advance (notify depth) passes id script state =
      some (progress, after) ∧
    advance unheard passes id script other = some (progress, alone) ∧ alone.bare = after.bare ∧
      state.Spawns after spawned

/-- A script goes alongside if it does after a step. -/
theorem Alongside.step {spawned : List Task} (hrest : Alongside depth passes id rest next otherNext)
    (hstep : state.Spawns next spawned)
    (hgoes : advance (notify depth) passes id script state =
      advance (notify depth) passes id rest next)
    (halone : advance unheard passes id script other = advance unheard passes id rest otherNext) :
    Alongside depth passes id script state other := by
  obtain ⟨progress, after, alone, others, hafter, hunheard, hbare, hspawns⟩ := hrest
  exact ⟨progress, after, alone, _, hgoes.trans hafter, halone.trans hunheard, hbare,
    hstep.trans hspawns⟩

/-- By induction on the script: a step is a step in both stores, and what it answers is the same. -/
theorem alongside_of_defers (depth : Nat) (passes : Bool) (id : Option String) (script : Script)
    (h : Defers state) (hbare : other.bare = state.bare) :
    Alongside depth passes id script state other := by
  induction script generalizing state other with
  | done => exact ⟨_, _, _, [], rfl, rfl, hbare, .unseen rfl rfl rfl rfl rfl⟩
  | fail cause => exact ⟨_, _, _, [], rfl, rfl, hbare, .unseen rfl rfl rfl rfl rfl⟩
  | pause rest ih =>
      cases passes with
      | true => exact ih h hbare
      | false => exact ⟨_, _, _, [], rfl, rfl, hbare, .unseen rfl rfl rfl rfl rfl⟩
  | look rest ih =>
      have hview : other.view = state.view := congrArg (fun bare => bare.view) hbare
      have hstep : state.Spawns state [] := .unseen rfl rfl rfl rfl rfl
      refine (ih state.view h hbare).step hstep rfl ?_
      rw [advance, hview]
  | remark note rest ih =>
      have hstep : state.Spawns (state.record (.remarked id note)) [] :=
        .still rfl rfl rfl rfl rfl rfl rfl
      have hnext : (other.record (.remarked id note)).bare =
          (state.record (.remarked id note)).bare := hbare
      exact (ih (hstep.defers h) hnext).step hstep rfl rfl
  | write change rest ih =>
      obtain ⟨spawned, hstep⟩ := exists_spawns_afterWrite change state
      have hstore : other.store = state.store := congrArg (fun bare => bare.store) hbare
      have hnext := bare_applied_eq hbare change
      refine (ih (change.apply state.store).1 (hstep.defers h) hnext).step hstep ?_ ?_
      · rw [advance, write_eq_of_defers h]
      · rw [advance, write_unheard, hstore]
  | notify changes args rest ih =>
      obtain ⟨spawned, hstep⟩ := exists_spawns_putOff changes args state
      have hnext : other.bare = (state.putOff changes args).bare := by rw [bare_putOff, hbare]
      refine (ih (.ok ()) (hstep.defers h) hnext).step hstep ?_ rfl
      rw [advance, notify_eq_of_defers h]
  | subscribe name options handler rest _ ih =>
      have hstep : state.Spawns (state.subscribe ⟨name, options, handler⟩) [] :=
        .unseen rfl rfl rfl rfl rfl
      have hnext : (other.subscribe ⟨name, options, handler⟩).bare =
          (state.subscribe ⟨name, options, handler⟩).bare :=
        congrArg (fun bare => bare.subscribe ⟨name, options, handler⟩) hbare
      exact (ih (hstep.defers h) hnext).step hstep rfl rfl
  | unsubscribe name rest ih =>
      have hstep : state.Spawns (state.unsubscribe name).2 [] := .unseen rfl rfl rfl rfl rfl
      have hexisted : (other.unsubscribe name).1 = (state.unsubscribe name).1 :=
        congrArg (fun bare => (bare.unsubscribe name).1) hbare
      have hnext : (other.unsubscribe name).2.bare = (state.unsubscribe name).2.bare :=
        congrArg (fun bare => (bare.unsubscribe name).2) hbare
      refine (ih (state.unsubscribe name).1 (hstep.defers h) hnext).step hstep rfl ?_
      exact congrArg (fun existed => advance unheard passes id (rest existed) _) hexisted
  | setFilter filter rest ih =>
      have hstep : state.Spawns { state with filter } [] := .unseen rfl rfl rfl rfl rfl
      have hnext : { other with filter }.bare = { state with filter }.bare :=
        congrArg (fun bare => { bare with filter }) hbare
      exact (ih (hstep.defers h) hnext).step hstep rfl rfl
  | setMuted muted rest ih =>
      have hstep : state.Spawns { state with muted } [] := .unseen rfl rfl rfl rfl rfl
      have hnext : { other with muted }.bare = { state with muted }.bare :=
        congrArg (fun bare => { bare with muted }) hbare
      exact (ih (hstep.defers h) hnext).step hstep rfl rfl

end Scripts

/-- What is left of a task that has got to a pause. -/
def Progress.left (id : String) : Progress → Option Task
  | .finished | .failed _ => none
  | .paused rest => some ⟨id, false, rest⟩

/-- How the journal tells of the end of a script, if there is one. -/
def Progress.endings (id : String) : Progress → List Event
  | .finished => [.finished id]
  | .failed cause => [.failed id cause]
  | .paused _ => []

/-- How the journal tells of a turn of a task. -/
def Progress.marks (task : Task) (progress : Progress) : List Event :=
  (if task.fresh then [.started task.id] else []) ++ progress.endings task.id

/-- A task has its turn, and other tasks wait. -/
def begun (task : Task) (others : List Task) (state : Observable) : Observable :=
  let waiting := { state with tasks := others }
  if task.fresh then waiting.record (.started task.id) else waiting

/-- The turn of a task is over. -/
def Progress.settle (id : String) (state : Observable) : Progress → Observable
  | .finished => state.record (.finished id)
  | .failed cause => state.record (.failed id cause)
  | .paused rest => { state with tasks := state.tasks ++ [⟨id, false, rest⟩] }

/-- What a turn of a task leaves, with other tasks waiting. -/
structure Turned (state : Observable) (task : Task) (others : List Task) (progress : Progress)
    (spawned : List Task) (after : Observable) : Prop where
  defers : Defers after
  tasks : after.tasks = others ++ spawned ++ (progress.left task.id).toList
  fresh : ∀ other ∈ spawned, other.fresh = true
  calls : (Entry.calls after.journal).map Notification.observer =
    (Entry.calls state.journal).map Notification.observer ++ spawned.map Task.id
  marks : Entry.marks after.journal = Entry.marks state.journal ++ progress.marks task

section Turns

variable {state after : Observable} {task : Task} {others spawned : List Task}

theorem turn_eq (depth : Nat) (task : Task) (others : List Task) (state : Observable) :
    turn depth { state with tasks := task :: others } =
      (advance (notify depth) false (some task.id) task.script (state.begun task others)).map
        fun (progress, after) => progress.settle task.id after := by
  rw [turn, begun]
  dsimp only
  split
  · next hnone =>
    rw [hnone]
    rfl
  all_goals
    next hran =>
    rw [hran]
    rfl

theorem bare_begun (task : Task) (others : List Task) (state : Observable) :
    (state.begun task others).bare = state.bare := by
  rw [begun]
  split <;> rfl

theorem bare_settle (id : String) (progress : Progress) (state : Observable) :
    (progress.settle id state).bare = state.bare := by
  cases progress <;> rfl

theorem Defers.begun (h : Defers state) (task : Task) (others : List Task) :
    Defers (state.begun task others) := by
  rw [Observable.begun]
  split <;> exact ⟨h.dispatch, h.hasRuntime⟩

theorem tasks_begun (task : Task) (others : List Task) (state : Observable) :
    (state.begun task others).tasks = others := by
  rw [begun]
  split <;> rfl

theorem calls_begun (task : Task) (others : List Task) (state : Observable) :
    Entry.calls (state.begun task others).journal = Entry.calls state.journal := by
  rw [begun]
  split
  · exact (Entry.calls_append _ _).trans (List.append_nil _)
  · rfl

theorem marks_begun (task : Task) (others : List Task) (state : Observable) :
    Entry.marks (state.begun task others).journal =
      Entry.marks state.journal ++ if task.fresh then [.started task.id] else [] := by
  rw [begun]
  split
  · exact Entry.marks_append _ _
  · exact (List.append_nil _).symm

theorem tasks_settle (id : String) (progress : Progress) (state : Observable) :
    (progress.settle id state).tasks = state.tasks ++ (progress.left id).toList := by
  cases progress with
  | finished | failed cause => exact (List.append_nil _).symm
  | paused rest => rfl

theorem calls_settle (id : String) (progress : Progress) (state : Observable) :
    Entry.calls (progress.settle id state).journal = Entry.calls state.journal := by
  cases progress with
  | finished | failed cause => exact (Entry.calls_append _ _).trans (List.append_nil _)
  | paused rest => rfl

theorem marks_settle (id : String) (progress : Progress) (state : Observable) :
    Entry.marks (progress.settle id state).journal =
      Entry.marks state.journal ++ progress.endings id := by
  cases progress with
  | finished | failed cause => exact Entry.marks_append _ _
  | paused rest => exact (List.append_nil _).symm

/-- What the script of a task spawns, its turn does. -/
theorem Spawns.turned (h : Defers state) (progress : Progress)
    (hspawns : (state.begun task others).Spawns after spawned) :
    Turned state task others progress spawned (progress.settle task.id after) where
  defers := by
    obtain ⟨hdispatch, hruntime⟩ := hspawns.defers (h.begun task others)
    cases progress <;> exact ⟨hdispatch, hruntime⟩
  tasks := by rw [tasks_settle, hspawns.tasks, tasks_begun]
  fresh := hspawns.fresh
  calls := by rw [calls_settle, hspawns.calls, calls_begun]
  marks := by
    rw [marks_settle, hspawns.marks, marks_begun, Progress.marks, List.append_assoc]

/-- A turn comes to an end, and to what the script comes to by itself. -/
theorem exists_turn_of_defers (h : Defers state) (depth : Nat) (task : Task) (others : List Task) :
    ∃ progress alone after spawned,
      turn depth { state with tasks := task :: others } = some after ∧
        advance unheard false (some task.id) task.script state = some (progress, alone) ∧
        alone.bare = after.bare ∧ Turned state task others progress spawned after := by
  have hbare := (bare_begun task others state).symm
  obtain ⟨progress, ended, alone, spawned, hended, halone, hsame, hspawns⟩ :=
    alongside_of_defers depth false (some task.id) task.script (h.begun task others) hbare
  refine ⟨progress, alone, progress.settle task.id ended, spawned, ?_, halone, ?_, ?_⟩
  · rw [turn_eq, hended]
    rfl
  · rw [bare_settle, hsame]
  · exact hspawns.turned h progress

end Turns

end Observable

end Waymark.Store
