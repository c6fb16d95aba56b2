import Mathlib.Logic.Relation
import Waymark.Proofs.Store.Deferring
/-!
A store with observers, step by step.

What runs on a store is a fiber: a script or a notification cycle, together with what waits for it.
A cycle waits for the script of an observer, and a script waits for a cycle that it has asked for,
so what waits is a stack. Fibers that run on one store take their steps in any order.

Each function of the store comes to what a fiber comes to in steps (`Fiber.follows_notify`,
`Fiber.follows_advance`), however deep cycles nest, and so every state that operations and turns of
tasks leave is a state that fibers leave (`System.reached_of_left`). Fibers have states in between as
well, and they have them even when a function has no answer because cycles never cease to nest.
-/

namespace Waymark.Store

open Waymark.Json
open Relation (ReflTransGen)
open Observable (Cycle Progress write advance tellAll spawnAll notify run turn)

/-- What waits for something that a fiber does. -/
inductive Frame where
  /-- The turn of a task waits for its script. -/
  | turn (id : String)
  /-- A script waits for the cycle that tells of its write. -/
  | written (id : Option String) (changes : Changes) (rest : Except Error Changes → Script)
  /-- A script waits for a cycle that it has asked for. -/
  | notified (id : Option String) (rest : Except Error Unit → Script)
  /-- A cycle waits for the script of an observer. Others are still to be told. -/
  | telling (filter : Option Filter) (changes : Changes) (args : List Value) (id : String)
      (others : List Observer)

/-- What a fiber is at. -/
inductive Activity where
  /-- The script of an observer, or of nobody in particular, goes on. -/
  | script (id : Option String) (script : Script)
  /-- A script has ended. -/
  | ended (failure : Option String)
  /-- A cycle is asked for. -/
  | cycle (changes : Changes) (args : List Value)
  /-- Within a cycle: observers are still to be told. -/
  | telling (filter : Option Filter) (changes : Changes) (args : List Value)
      (observers : List Observer)
  /-- Within a cycle: the handlers of observers are still to be called for their scripts. -/
  | spawning (filter : Option Filter) (changes : Changes) (args : List Value)
      (observers : List Observer)
  /-- Within a cycle that has come to its answer. -/
  | closing (answer : Except Error Unit)
  /-- What has been asked for is answered. -/
  | answered (answer : Except Error Unit)

/-- What runs on a store. -/
structure Fiber where
  activity : Activity
  waiting : List Frame

/-- A fiber and the store as it is. -/
abbrev Point := Fiber × Observable

/-- What a fiber is at whose script has got somewhere. -/
def Observable.Progress.activity (id : Option String) : Progress → Activity
  | .finished => .ended none
  | .failed cause => .ended (some cause)
  | .paused rest => .script id (.pause rest)

namespace Fiber

/-- What a fiber does next, and what becomes of the store. -/
inductive Steps : Point → Point → Prop
  | done {id : Option String} {waiting : List Frame} {state : Observable} :
      Steps (⟨.script id .done, waiting⟩, state) (⟨.ended none, waiting⟩, state)
  | fail {id : Option String} {cause : String} {waiting : List Frame} {state : Observable} :
      Steps (⟨.script id (.fail cause), waiting⟩, state) (⟨.ended (some cause), waiting⟩, state)
  | pause {id : Option String} {rest : Script} {waiting : List Frame} {state : Observable} :
      Steps (⟨.script id (.pause rest), waiting⟩, state) (⟨.script id rest, waiting⟩, state)
  | look {id : Option String} {rest : View → Script} {waiting : List Frame} {state : Observable} :
      Steps (⟨.script id (.look rest), waiting⟩, state)
        (⟨.script id (rest state.view), waiting⟩, state)
  | remark {id : Option String} {note : Value} {rest : Script} {waiting : List Frame}
      {state : Observable} :
      Steps (⟨.script id (.remark note rest), waiting⟩, state)
        (⟨.script id rest, waiting⟩, state.record (.remarked id note))
  | writeFails {id : Option String} {write : Write} {rest : Except Error Changes → Script}
      {waiting : List Frame} {state : Observable} {error : Error} {store : Core}
      (hwrite : write.apply state.store = (.error error, store)) :
      Steps (⟨.script id (.write write rest), waiting⟩, state)
        (⟨.script id (rest (.error error)), waiting⟩, { state with store })
  | writeUntold {id : Option String} {write : Write} {rest : Except Error Changes → Script}
      {waiting : List Frame} {state : Observable} {changes : Changes} {store : Core}
      (hwrite : write.apply state.store = (.ok changes, store))
      (huntold : write.isTold changes = false) :
      Steps (⟨.script id (.write write rest), waiting⟩, state)
        (⟨.script id (rest (.ok changes)), waiting⟩,
          { state with store }.record (.wrote changes))
  | writeTold {id : Option String} {write : Write} {rest : Except Error Changes → Script}
      {waiting : List Frame} {state : Observable} {changes : Changes} {store : Core}
      (hwrite : write.apply state.store = (.ok changes, store))
      (htold : write.isTold changes = true) :
      Steps (⟨.script id (.write write rest), waiting⟩, state)
        (⟨.cycle changes [], .written id changes rest :: waiting⟩,
          { state with store }.record (.wrote changes))
  | notify {id : Option String} {changes : Changes} {args : List Value}
      {rest : Except Error Unit → Script} {waiting : List Frame} {state : Observable} :
      Steps (⟨.script id (.notify changes args rest), waiting⟩, state)
        (⟨.cycle changes args, .notified id rest :: waiting⟩, state)
  | subscribe {id : Option String} {name : String} {options : Value}
      {handler : Notification → Script} {rest : Script} {waiting : List Frame}
      {state : Observable} :
      Steps (⟨.script id (.subscribe name options handler rest), waiting⟩, state)
        (⟨.script id rest, waiting⟩, state.subscribe ⟨name, options, handler⟩)
  | unsubscribe {id : Option String} {name : String} {rest : Bool → Script}
      {waiting : List Frame} {state : Observable} :
      Steps (⟨.script id (.unsubscribe name rest), waiting⟩, state)
        (⟨.script id (rest (state.unsubscribe name).1), waiting⟩, (state.unsubscribe name).2)
  | setFilter {id : Option String} {filter : Option Filter} {rest : Script}
      {waiting : List Frame} {state : Observable} :
      Steps (⟨.script id (.setFilter filter rest), waiting⟩, state)
        (⟨.script id rest, waiting⟩, { state with filter })
  | setMuted {id : Option String} {muted : Bool} {rest : Script} {waiting : List Frame}
      {state : Observable} :
      Steps (⟨.script id (.setMuted muted rest), waiting⟩, state)
        (⟨.script id rest, waiting⟩, { state with muted })
  | muted {changes : Changes} {args : List Value} {waiting : List Frame} {state : Observable}
      (hmuted : state.muted = true) :
      Steps (⟨.cycle changes args, waiting⟩, state) (⟨.answered (.ok ()), waiting⟩, state)
  | tells {changes : Changes} {args : List Value} {waiting : List Frame} {state : Observable}
      (hmuted : state.muted = false) (hdispatch : state.dispatch = .sync) :
      Steps (⟨.cycle changes args, waiting⟩, state)
        (⟨.telling state.filter changes args state.observers, waiting⟩, state.enter)
  | spawns {changes : Changes} {args : List Value} {waiting : List Frame} {state : Observable}
      (hmuted : state.muted = false) (hdispatch : state.dispatch = .async)
      (hruntime : state.hasRuntime = true) :
      Steps (⟨.cycle changes args, waiting⟩, state)
        (⟨.spawning state.filter changes args state.observers, waiting⟩, state.enter)
  | noRuntime {changes : Changes} {args : List Value} {waiting : List Frame}
      {state : Observable} (hmuted : state.muted = false) (hdispatch : state.dispatch = .async)
      (hruntime : state.hasRuntime = false) :
      Steps (⟨.cycle changes args, waiting⟩, state)
        (⟨.closing (.error .noRuntime), waiting⟩, state.enter)
  | rejects {filter : Option Filter} {changes : Changes} {args : List Value}
      {observer : Observer} {others : List Observer} {waiting : List Frame}
      {state asked : Observable}
      (hasked : state.consult filter (observer.notification changes args) = (false, asked)) :
      Steps (⟨.telling filter changes args (observer :: others), waiting⟩, state)
        (⟨.telling filter changes args others, waiting⟩, asked)
  | calls {filter : Option Filter} {changes : Changes} {args : List Value}
      {observer : Observer} {others : List Observer} {waiting : List Frame}
      {state asked : Observable}
      (hasked : state.consult filter (observer.notification changes args) = (true, asked)) :
      Steps (⟨.telling filter changes args (observer :: others), waiting⟩, state)
        (⟨.script (some observer.id) (observer.handler (observer.notification changes args)),
          .telling filter changes args observer.id others :: waiting⟩,
          asked.call (observer.notification changes args))
  | finishes {filter : Option Filter} {changes : Changes} {args : List Value} {id : String}
      {others : List Observer} {waiting : List Frame} {state : Observable} :
      Steps (⟨.ended none, .telling filter changes args id others :: waiting⟩, state)
        (⟨.telling filter changes args others, waiting⟩, state.record (.finished id))
  | breaks {filter : Option Filter} {changes : Changes} {args : List Value} {id cause : String}
      {others : List Observer} {waiting : List Frame} {state : Observable} :
      Steps (⟨.ended (some cause), .telling filter changes args id others :: waiting⟩, state)
        (⟨.closing (.error (.observer id cause)), waiting⟩, state.record (.failed id cause))
  | toldAll {filter : Option Filter} {changes : Changes} {args : List Value}
      {waiting : List Frame} {state : Observable} :
      Steps (⟨.telling filter changes args [], waiting⟩, state)
        (⟨.closing (.ok ()), waiting⟩, state)
  | skips {filter : Option Filter} {changes : Changes} {args : List Value}
      {observer : Observer} {others : List Observer} {waiting : List Frame}
      {state asked : Observable}
      (hasked : state.consult filter (observer.notification changes args) = (false, asked)) :
      Steps (⟨.spawning filter changes args (observer :: others), waiting⟩, state)
        (⟨.spawning filter changes args others, waiting⟩, asked)
  | defers {filter : Option Filter} {changes : Changes} {args : List Value}
      {observer : Observer} {others : List Observer} {waiting : List Frame}
      {state asked : Observable}
      (hasked : state.consult filter (observer.notification changes args) = (true, asked)) :
      Steps (⟨.spawning filter changes args (observer :: others), waiting⟩, state)
        (⟨.spawning filter changes args others, waiting⟩,
          { asked.record (.called (observer.notification changes args)) with
            tasks := asked.tasks ++
              [⟨observer.id, true, observer.handler (observer.notification changes args)⟩] })
  | spawnedAll {filter : Option Filter} {changes : Changes} {args : List Value}
      {waiting : List Frame} {state : Observable} :
      Steps (⟨.spawning filter changes args [], waiting⟩, state)
        (⟨.closing (.ok ()), waiting⟩, state)
  | closes {answer : Except Error Unit} {waiting : List Frame} {state : Observable} :
      Steps (⟨.closing answer, waiting⟩, state) (⟨.answered answer, waiting⟩, state.leave)
  | answersWrite {answer : Except Error Unit} {id : Option String} {changes : Changes}
      {rest : Except Error Changes → Script} {waiting : List Frame} {state : Observable} :
      Steps (⟨.answered answer, .written id changes rest :: waiting⟩, state)
        (⟨.script id (rest (answer.map fun _ => changes)), waiting⟩, state)
  | answersNotify {answer : Except Error Unit} {id : Option String}
      {rest : Except Error Unit → Script} {waiting : List Frame} {state : Observable} :
      Steps (⟨.answered answer, .notified id rest :: waiting⟩, state)
        (⟨.script id (rest answer), waiting⟩, state)

/-- Steps one after another. -/
abbrev Reaches : Point → Point → Prop :=
  ReflTransGen Steps

/-- What runs a cycle comes to what a fiber comes to. -/
def Follows (cycle : Cycle) : Prop :=
  ∀ changes args state answer after waiting, cycle changes args state = some (answer, after) →
    Reaches (⟨.cycle changes args, waiting⟩, state) (⟨.answered answer, waiting⟩, after)

section Following

variable {cycle : Cycle} {state after : Observable} {id : Option String}
  {filter : Option Filter} {changes : Changes} {args : List Value}

theorem follows_write (hcycle : Follows cycle) {change : Write} {answer : Except Error Changes}
    (h : write cycle state change = some (answer, after)) (rest : Except Error Changes → Script)
    (waiting : List Frame) :
    Reaches (⟨.script id (.write change rest), waiting⟩, state)
      (⟨.script id (rest answer), waiting⟩, after) := by
  rw [write] at h
  rcases happly : change.apply state.store with ⟨error | changes, store⟩
  · rw [happly] at h
    obtain ⟨rfl, rfl⟩ := Prod.mk.inj (Option.some.inj h)
    exact .single (.writeFails happly)
  · rw [happly] at h
    dsimp only at h
    cases htold : change.isTold changes with
    | false =>
        rw [htold] at h
        obtain ⟨rfl, rfl⟩ := Prod.mk.inj (Option.some.inj h)
        exact .single (.writeUntold happly htold)
    | true =>
        rw [htold, if_pos rfl] at h
        obtain ⟨⟨told, last⟩, hcycled, heq⟩ := Option.map_eq_some_iff.1 h
        obtain ⟨rfl, rfl⟩ := Prod.mk.inj heq
        have hreaches := hcycle changes [] _ told last (.written id changes rest :: waiting) hcycled
        exact .head (.writeTold happly htold) (hreaches.tail .answersWrite)

theorem follows_advance (hcycle : Follows cycle) {passes : Bool} {script : Script}
    {progress : Progress} (h : advance cycle passes id script state = some (progress, after))
    (waiting : List Frame) :
    Reaches (⟨.script id script, waiting⟩, state) (⟨progress.activity id, waiting⟩, after) := by
  induction script generalizing state with
  | done =>
      obtain ⟨rfl, rfl⟩ := Prod.mk.inj (Option.some.inj h)
      exact .single .done
  | fail cause =>
      obtain ⟨rfl, rfl⟩ := Prod.mk.inj (Option.some.inj h)
      exact .single .fail
  | pause rest ih =>
      rw [advance] at h
      cases passes with
      | true => exact .head .pause (ih h)
      | false =>
          obtain ⟨rfl, rfl⟩ := Prod.mk.inj (Option.some.inj h)
          exact .refl
  | look rest ih => exact .head .look (ih state.view h)
  | remark note rest ih => exact .head .remark (ih h)
  | write change rest ih =>
      obtain ⟨answer, next, hwrite, h⟩ := Observable.exists_of_advance_write h
      exact (follows_write hcycle hwrite rest waiting).trans (ih answer h)
  | notify changes args rest ih =>
      obtain ⟨answer, next, hcycled, h⟩ := Observable.exists_of_advance_notify h
      have hreaches := hcycle changes args state answer next (.notified id rest :: waiting) hcycled
      exact .head .notify (hreaches.trans (.head .answersNotify (ih answer h)))
  | subscribe name options handler rest _ ih => exact .head .subscribe (ih h)
  | unsubscribe name rest ih => exact .head .unsubscribe (ih (state.unsubscribe name).1 h)
  | setFilter filter rest ih => exact .head .setFilter (ih h)
  | setMuted muted rest ih => exact .head .setMuted (ih h)

theorem follows_tellAll (hcycle : Follows cycle) {observers : List Observer}
    {answer : Except Error Unit}
    (h : tellAll cycle filter changes args observers state = some (answer, after))
    (waiting : List Frame) :
    Reaches (⟨.telling filter changes args observers, waiting⟩, state)
      (⟨.closing answer, waiting⟩, after) := by
  induction observers generalizing state with
  | nil =>
      obtain ⟨rfl, rfl⟩ := Prod.mk.inj (Option.some.inj h)
      exact .single .toldAll
  | cons observer others ih =>
      rcases Observable.tellAll_cons_cases h with ⟨asked, hasked, h⟩ |
        ⟨asked, cause, ended, hasked, hrun, rfl, rfl⟩ | ⟨asked, ended, hasked, hrun, h⟩
      · exact .head (.rejects hasked) (ih h)
      · have hran := follows_advance hcycle hrun
          (.telling filter changes args observer.id others :: waiting)
        exact .head (.calls hasked) (hran.tail .breaks)
      · have hran := follows_advance hcycle hrun
          (.telling filter changes args observer.id others :: waiting)
        exact .head (.calls hasked) (hran.trans (.head .finishes (ih h)))

theorem reaches_spawnAll (filter : Option Filter) (changes : Changes) (args : List Value)
    (observers : List Observer) (waiting : List Frame) (state : Observable) :
    Reaches (⟨.spawning filter changes args observers, waiting⟩, state)
      (⟨.closing (.ok ()), waiting⟩, spawnAll filter changes args observers state) := by
  induction observers generalizing state with
  | nil => exact .single .spawnedAll
  | cons observer others ih =>
      rw [spawnAll]
      rcases hasked : state.consult filter (observer.notification changes args) with
        ⟨accepted, asked⟩
      cases accepted with
      | false => exact .head (.skips hasked) (ih asked)
      | true => exact .head (.defers hasked) (ih _)

/-- A cycle comes to what a fiber comes to if the cycles within it do. -/
theorem follows_tell {within : Cycle} (hwithin : Follows within) :
    Follows (Observable.tell within) := by
  intro changes args state answer after waiting h
  rw [Observable.tell] at h
  cases hmuted : state.muted with
  | true =>
      rw [hmuted] at h
      obtain ⟨rfl, rfl⟩ := Prod.mk.inj (Option.some.inj h)
      exact .single (.muted hmuted)
  | false =>
      rw [hmuted, if_neg Bool.false_ne_true] at h
      obtain ⟨⟨told, last⟩, htold, heq⟩ := Option.map_eq_some_iff.1 h
      obtain ⟨rfl, rfl⟩ := Prod.mk.inj heq
      cases hdispatch : state.dispatch with
      | sync =>
          rw [hdispatch] at htold
          exact .head (.tells hmuted hdispatch) ((follows_tellAll hwithin htold waiting).tail .closes)
      | async =>
          rw [hdispatch] at htold
          cases hruntime : state.hasRuntime with
          | true =>
              rw [hruntime] at htold
              obtain ⟨rfl, rfl⟩ := Prod.mk.inj (Option.some.inj htold)
              exact .head (.spawns hmuted hdispatch hruntime)
                ((reaches_spawnAll _ _ _ _ _ _).tail .closes)
          | false =>
              rw [hruntime] at htold
              obtain ⟨rfl, rfl⟩ := Prod.mk.inj (Option.some.inj htold)
              exact .head (.noRuntime hmuted hdispatch hruntime) (.single .closes)

theorem follows_notify (depth : Nat) : Follows (notify depth) := by
  induction depth with
  | zero => exact follows_tell fun _ _ _ _ _ _ h => by cases h
  | succ depth ih => exact follows_tell ih

end Following

end Fiber

/-- A store and the fibers that run on it. -/
structure System where
  state : Observable
  fibers : List Fiber

/-- What a new store with observers and the fibers that run on it come to. Scripts may begin and
tasks may have their turns at any time. -/
inductive System.Reached (config : ObservableConfig) (store : Core) (hasRuntime : Bool) :
    System → Prop
  | start : Reached config store hasRuntime ⟨.ofConfig config store hasRuntime, []⟩
  | begins {state : Observable} {fibers : List Fiber} (script : Script)
      (h : Reached config store hasRuntime ⟨state, fibers⟩) :
      Reached config store hasRuntime ⟨state, ⟨.script none script, []⟩ :: fibers⟩
  | turns {state : Observable} {fibers : List Fiber} {task : Task} {others : List Task}
      (htask : state.tasks.Perm (task :: others))
      (h : Reached config store hasRuntime ⟨state, fibers⟩) :
      Reached config store hasRuntime ⟨state.begun task others,
        ⟨.script (some task.id) task.script, [.turn task.id]⟩ :: fibers⟩
  | steps {state after : Observable} {front back : List Fiber} {fiber next : Fiber}
      (hstep : Fiber.Steps (fiber, state) (next, after))
      (h : Reached config store hasRuntime ⟨state, front ++ fiber :: back⟩) :
      Reached config store hasRuntime ⟨after, front ++ next :: back⟩
  | ends {state : Observable} {front back : List Fiber} {failure : Option String}
      (h : Reached config store hasRuntime ⟨state, front ++ ⟨.ended failure, []⟩ :: back⟩) :
      Reached config store hasRuntime ⟨state, front ++ back⟩
  | settles {state : Observable} {front back : List Fiber} {id : String} {progress : Progress}
      (h : Reached config store hasRuntime
        ⟨state, front ++ ⟨progress.activity (some id), [.turn id]⟩ :: back⟩) :
      Reached config store hasRuntime ⟨progress.settle id state, front ++ back⟩

/-- What operations on a new store with observers, and turns of the tasks that they leave, come to
one after another, whatever they answer. -/
inductive Observable.Left (config : ObservableConfig) (store : Core) (hasRuntime : Bool) :
    Observable → Prop
  | start : Left config store hasRuntime (.ofConfig config store hasRuntime)
  | ran {state after : Observable} {depth : Nat} {script : Script} {progress : Progress}
      (h : Left config store hasRuntime state)
      (hran : run depth script state = some (progress, after)) :
      Left config store hasRuntime after
  | wrote {state after : Observable} {depth : Nat} {change : Write}
      {answer : Except Error Changes} (h : Left config store hasRuntime state)
      (hwrote : write (notify depth) state change = some (answer, after)) :
      Left config store hasRuntime after
  | notified {state after : Observable} {depth : Nat} {changes : Changes} {args : List Value}
      {answer : Except Error Unit} (h : Left config store hasRuntime state)
      (hnotified : notify depth changes args state = some (answer, after)) :
      Left config store hasRuntime after
  | turned {state after : Observable} {depth : Nat} (h : Left config store hasRuntime state)
      (hturned : turn depth state = some after) : Left config store hasRuntime after

namespace System

variable {config : ObservableConfig} {store : Core} {hasRuntime : Bool} {state after : Observable}

theorem Reached.reaches {front back : List Fiber} {fiber next : Fiber}
    (h : Reached config store hasRuntime ⟨state, front ++ fiber :: back⟩)
    (hreaches : Fiber.Reaches (fiber, state) (next, after)) :
    Reached config store hasRuntime ⟨after, front ++ next :: back⟩ := by
  generalize hlast : (next, after) = last at hreaches
  induction hreaches generalizing next after with
  | refl =>
      obtain ⟨rfl, rfl⟩ := Prod.mk.inj hlast
      exact h
  | @tail between last hbefore hstep ih =>
      subst hlast
      exact .steps hstep (ih rfl)

/-- A script that runs by itself to its end leaves no fiber. -/
theorem Reached.ran (h : Reached config store hasRuntime ⟨state, []⟩) {script : Script}
    {failure : Option String}
    (hreaches : Fiber.Reaches (⟨.script none script, []⟩, state) (⟨.ended failure, []⟩, after)) :
    Reached config store hasRuntime ⟨after, []⟩ := by
  have hbegun : Reached config store hasRuntime ⟨state, [] ++ ⟨.script none script, []⟩ :: []⟩ :=
    .begins script h
  have hended : Reached config store hasRuntime ⟨after, [] ++ ⟨.ended failure, []⟩ :: []⟩ :=
    hbegun.reaches hreaches
  exact .ends hended

/-- What operations and turns come to, fibers come to, and none of them is left. -/
theorem reached_of_left (h : Observable.Left config store hasRuntime state) :
    Reached config store hasRuntime ⟨state, []⟩ := by
  induction h with
  | start => exact .start
  | @ran state after depth script progress _ hran ih =>
      have hreaches := Fiber.follows_advance (Fiber.follows_notify depth) hran []
      cases progress with
      | finished => exact ih.ran hreaches
      | failed cause => exact ih.ran hreaches
      | paused rest => exact absurd hran Observable.not_paused_of_advance
  | @wrote state after depth change answer _ hwrote ih =>
      have hreaches : Fiber.Reaches (⟨.script none (.write change fun _ => .done), []⟩, state)
          (⟨.script none .done, []⟩, after) :=
        Fiber.follows_write (Fiber.follows_notify depth) hwrote (fun _ => .done) []
      exact ih.ran (hreaches.tail .done)
  | @notified state after depth changes args answer _ hnotified ih =>
      have hreaches := Fiber.follows_notify depth changes args state answer after
        [.notified none fun _ => .done] hnotified
      have hanswered := (hreaches.tail .answersNotify).tail .done
      exact ih.ran (.head .notify hanswered)
  | @turned state after depth _ hturned ih =>
      cases htasks : state.tasks with
      | nil =>
          rw [turn, htasks] at hturned
          rw [← Option.some.inj hturned]
          exact ih
      | cons task others =>
          have heq : state = { state with tasks := task :: others } := by rw [← htasks]
          rw [heq, Observable.turn_eq] at hturned
          obtain ⟨⟨progress, last⟩, hran, rfl⟩ := Option.map_eq_some_iff.1 hturned
          have hbegun : Reached config store hasRuntime ⟨state.begun task others,
              [] ++ ⟨.script (some task.id) task.script, [.turn task.id]⟩ :: []⟩ :=
            .turns (.of_eq htasks) ih
          have hreaches := Fiber.follows_advance (Fiber.follows_notify depth) hran [.turn task.id]
          exact .settles (hbegun.reaches hreaches)

end System

end Waymark.Store
