import Waymark.Store.Observable
/-!
What scripts do to a store with observers that tells them at once, as trees.

The journal of a script is a row of deeds, some of which open a cycle. The journal of a cycle is a
row of calls, each with the deeds of the script that the handler has run, and the script has come to
its end before the next observer is called (`exists_history`).
-/

namespace Waymark.Store

open Waymark.Json

mutual

/-- What a script has done. -/
inductive History where
  | done
  | remarked (id : Option String) (note : Value) (rest : History)
  /-- A write without a cycle. -/
  | wrote (changes : Changes) (rest : History)
  /-- A write and the cycle that tells of it. -/
  | told (changes : Changes) (round : Round) (rest : History)
  /-- A cycle that a script has asked for. -/
  | notified (changes : Changes) (args : List Value) (round : Round) (rest : History)

/-- What has been done in a cycle. -/
inductive Round where
  | done
  | consulted (id : String) (accepted : Bool) (rest : Round)
  | called (id : String) (options : Value) (script : History) (failure : Option String)
      (rest : Round)

end

/-- How the script of an observer has ended. -/
def ending (id : String) : Option String → Event
  | none => .finished id
  | some cause => .failed id cause

/-- How far the script of an observer has got when it ends. -/
def Observable.outcome : Option String → Observable.Progress
  | none => .finished
  | some cause => .failed cause

/-- The filter has been asked about an observer before the rest of a cycle, if there is one. -/
def Round.asked (filter : Option Filter) (notification : Notification) (rest : Round) : Round :=
  match filter with
  | none => rest
  | some accepts => .consulted notification.observer (accepts notification) rest

mutual

/-- The journal of a script that runs while a number of cycles are open. -/
def History.entries (depth : Nat) : History → List Entry
  | .done => []
  | .remarked id note rest => ⟨.remarked id note, depth⟩ :: rest.entries depth
  | .wrote changes rest => ⟨.wrote changes, depth⟩ :: rest.entries depth
  | .told changes round rest =>
      ⟨.wrote changes, depth⟩ :: ⟨.opened, depth + 1⟩ ::
        (round.entries (depth + 1) changes [] ++ ⟨.closed, depth⟩ :: rest.entries depth)
  | .notified changes args round rest =>
      ⟨.opened, depth + 1⟩ ::
        (round.entries (depth + 1) changes args ++ ⟨.closed, depth⟩ :: rest.entries depth)

/-- The journal of a cycle that tells of changes. -/
def Round.entries (depth : Nat) (changes : Changes) (args : List Value) : Round → List Entry
  | .done => []
  | .consulted id accepted rest =>
      ⟨.consulted id accepted, depth⟩ :: rest.entries depth changes args
  | .called id options script failure rest =>
      ⟨.called ⟨id, options, changes, args⟩, depth⟩ :: ⟨.started id, depth⟩ ::
        (script.entries depth ++ ⟨ending id failure, depth⟩ :: rest.entries depth changes args)

end

namespace Observable

/-- What a step leaves: as many open cycles as before, and entries in the journal. -/
structure Leaves (state after : Observable) (entries : List Entry) : Prop where
  dispatch : after.dispatch = state.dispatch
  inFlight : after.inFlight = state.inFlight
  journal : after.journal = state.journal ++ entries

/-- What runs a cycle leaves nothing, if the store is muted, or the journal of a cycle. -/
def Rounds (cycle : Cycle) : Prop :=
  ∀ changes args state answer after, state.dispatch = .sync →
    cycle changes args state = some (answer, after) →
      state.Leaves after [] ∨ ∃ round : Round, state.Leaves after
        (⟨.opened, state.inFlight + 1⟩ ::
          (round.entries (state.inFlight + 1) changes args ++ [⟨.closed, state.inFlight⟩]))

section Steps

variable {cycle : Cycle} {state next after : Observable} {entries others : List Entry}

/-- A step that is not in the journal. -/
theorem Leaves.unseen (hdispatch : after.dispatch = state.dispatch)
    (hinFlight : after.inFlight = state.inFlight) (hjournal : after.journal = state.journal) :
    state.Leaves after [] :=
  ⟨hdispatch, hinFlight, by rw [hjournal, List.append_nil]⟩

theorem Leaves.refl (state : Observable) : state.Leaves state [] :=
  .unseen rfl rfl rfl

theorem Leaves.trans (h : state.Leaves next entries) (hnext : next.Leaves after others) :
    state.Leaves after (entries ++ others) where
  dispatch := hnext.dispatch.trans h.dispatch
  inFlight := hnext.inFlight.trans h.inFlight
  journal := by rw [hnext.journal, h.journal, List.append_assoc]

/-- A step that leaves nothing may come before what a script does. -/
theorem Leaves.andThen (h : state.Leaves next [])
    (hnext : ∃ history : History, next.Leaves after (history.entries next.inFlight)) :
    ∃ history : History, state.Leaves after (history.entries state.inFlight) := by
  obtain ⟨history, hhistory⟩ := hnext
  refine ⟨history, ?_⟩
  rw [← h.inFlight]
  exact h.trans hhistory

theorem leaves_record (state : Observable) (event : Event) :
    state.Leaves (state.record event) [⟨event, state.inFlight⟩] :=
  ⟨rfl, rfl, rfl⟩

/-- A write leaves nothing if it fails, its entry, or its entry and a cycle that tells of it. -/
theorem leaves_write (hcycle : Rounds cycle) (hsync : state.dispatch = .sync) {change : Write}
    {answer : Except Error Changes} (h : write cycle state change = some (answer, after)) :
    state.Leaves after [] ∨ ∃ changes, state.Leaves after [⟨.wrote changes, state.inFlight⟩] ∨
      ∃ round : Round, state.Leaves after
        (⟨.wrote changes, state.inFlight⟩ :: ⟨.opened, state.inFlight + 1⟩ ::
          (round.entries (state.inFlight + 1) changes [] ++ [⟨.closed, state.inFlight⟩])) := by
  rw [write] at h
  rcases happly : change.apply state.store with ⟨applied, store⟩
  rw [happly] at h
  cases applied with
  | error error =>
      obtain ⟨-, rfl⟩ := Prod.mk.inj (Option.some.inj h)
      exact .inl (.unseen rfl rfl rfl)
  | ok changes =>
      have hwrote : state.Leaves ({ state with store }.record (.wrote changes))
          [⟨.wrote changes, state.inFlight⟩] := ⟨rfl, rfl, rfl⟩
      dsimp only at h
      split at h
      · obtain ⟨⟨told, last⟩, htold, hlast⟩ := Option.map_eq_some_iff.1 h
        obtain ⟨-, rfl⟩ := Prod.mk.inj hlast
        have hsync' : ({ state with store }.record (.wrote changes)).dispatch = .sync := hsync
        rcases hcycle changes [] _ told last hsync' htold with hnothing | ⟨round, hround⟩
        · exact .inr ⟨changes, .inl (hwrote.trans hnothing)⟩
        · exact .inr ⟨changes, .inr ⟨round, hwrote.trans hround⟩⟩
      · obtain ⟨-, rfl⟩ := Prod.mk.inj (Option.some.inj h)
        exact .inr ⟨changes, .inl hwrote⟩

/-- A write is a deed of the script, and so is the cycle that tells of it. -/
theorem exists_history_of_write (hcycle : Rounds cycle) (hsync : state.dispatch = .sync)
    {change : Write} {answer : Except Error Changes}
    (hwrite : write cycle state change = some (answer, next))
    (hrest : next.dispatch = .sync →
      ∃ history : History, next.Leaves after (history.entries next.inFlight)) :
    ∃ history : History, state.Leaves after (history.entries state.inFlight) := by
  rcases leaves_write hcycle hsync hwrite with hnothing | ⟨changes, hwrote | ⟨round, hround⟩⟩
  · exact hnothing.andThen (hrest (hnothing.dispatch.trans hsync))
  · obtain ⟨history, hhistory⟩ := hrest (hwrote.dispatch.trans hsync)
    rw [hwrote.inFlight] at hhistory
    exact ⟨.wrote changes history, hwrote.trans hhistory⟩
  · obtain ⟨history, hhistory⟩ := hrest (hround.dispatch.trans hsync)
    rw [hround.inFlight] at hhistory
    have hboth := hround.trans hhistory
    exact ⟨.told changes round history, by simpa [History.entries] using hboth⟩

/-- A cycle that a script asks for is a deed of the script. -/
theorem exists_history_of_cycle (hcycle : Rounds cycle) (hsync : state.dispatch = .sync)
    {changes : Changes} {args : List Value} {answer : Except Error Unit}
    (hcycled : cycle changes args state = some (answer, next))
    (hrest : next.dispatch = .sync →
      ∃ history : History, next.Leaves after (history.entries next.inFlight)) :
    ∃ history : History, state.Leaves after (history.entries state.inFlight) := by
  rcases hcycle changes args state answer next hsync hcycled with hnothing | ⟨round, hround⟩
  · exact hnothing.andThen (hrest (hnothing.dispatch.trans hsync))
  · obtain ⟨history, hhistory⟩ := hrest (hround.dispatch.trans hsync)
    rw [hround.inFlight] at hhistory
    have hboth := hround.trans hhistory
    exact ⟨.notified changes args round history, by simpa [History.entries] using hboth⟩

/-- A script goes on with the answer to its write. -/
theorem exists_of_advance_write {passes : Bool} {id : Option String} {change : Write}
    {rest : Except Error Changes → Script} {progress : Progress}
    (h : advance cycle passes id (.write change rest) state = some (progress, after)) :
    ∃ answer next, write cycle state change = some (answer, next) ∧
      advance cycle passes id (rest answer) next = some (progress, after) := by
  rw [advance] at h
  split at h
  · cases h
  · next answer next hwrite => exact ⟨answer, next, hwrite, h⟩

theorem exists_of_advance_notify {passes : Bool} {id : Option String} {changes : Changes}
    {args : List Value} {rest : Except Error Unit → Script} {progress : Progress}
    (h : advance cycle passes id (.notify changes args rest) state = some (progress, after)) :
    ∃ answer next, cycle changes args state = some (answer, next) ∧
      advance cycle passes id (rest answer) next = some (progress, after) := by
  rw [advance] at h
  split at h
  · cases h
  · next answer next hcycled => exact ⟨answer, next, hcycled, h⟩

/-- What a script leaves is the journal of what it has done. -/
theorem leaves_advance (hcycle : Rounds cycle) (id : Option String) (script : Script)
    (hsync : state.dispatch = .sync) {progress : Progress}
    (h : advance cycle true id script state = some (progress, after)) :
    ∃ history : History, state.Leaves after (history.entries state.inFlight) := by
  -- Each step leaves a state that dispatches as before, from which the rest of the script goes on.
  induction script generalizing state with
  | done =>
      obtain ⟨-, rfl⟩ := Prod.mk.inj (Option.some.inj h)
      exact ⟨.done, .refl state⟩
  | fail cause =>
      obtain ⟨-, rfl⟩ := Prod.mk.inj (Option.some.inj h)
      exact ⟨.done, .refl state⟩
  | pause rest ih => exact ih hsync h
  | look rest ih => exact ih state.view hsync h
  | remark note rest ih =>
      have hrecorded : (state.record (.remarked id note)).dispatch = .sync := hsync
      obtain ⟨history, hrest⟩ := ih hrecorded h
      exact ⟨.remarked id note history, (leaves_record state (.remarked id note)).trans hrest⟩
  | write change rest ih =>
      obtain ⟨answer, next, hwrite, h⟩ := exists_of_advance_write h
      exact exists_history_of_write hcycle hsync hwrite fun hnext => ih answer hnext h
  | notify changes args rest ih =>
      obtain ⟨answer, next, hcycled, h⟩ := exists_of_advance_notify h
      exact exists_history_of_cycle hcycle hsync hcycled fun hnext => ih answer hnext h
  | subscribe name options handler rest _ ih =>
      have hsame : state.Leaves (state.subscribe ⟨name, options, handler⟩) [] :=
        .unseen rfl rfl rfl
      exact hsame.andThen (ih hsync h)
  | unsubscribe name rest ih =>
      have hsame : state.Leaves (state.unsubscribe name).2 [] := .unseen rfl rfl rfl
      exact hsame.andThen (ih (state.unsubscribe name).1 hsync h)
  | setFilter filter rest ih =>
      have hsame : state.Leaves { state with filter } [] := .unseen rfl rfl rfl
      exact hsame.andThen (ih hsync h)
  | setMuted muted rest ih =>
      have hsame : state.Leaves { state with muted } [] := .unseen rfl rfl rfl
      exact hsame.andThen (ih hsync h)

/-- A script that passes over its pauses comes to an end. -/
theorem not_paused_of_advance {id : Option String} {script rest : Script} :
    advance cycle true id script state ≠ some (.paused rest, after) := by
  intro h
  induction script generalizing state with
  | done => cases h
  | fail cause => cases h
  | pause rest ih => exact ih h
  | look rest ih => exact ih state.view h
  | remark note rest ih => exact ih h
  | write change rest ih =>
      obtain ⟨answer, next, -, h⟩ := exists_of_advance_write h
      exact ih answer h
  | notify changes args rest ih =>
      obtain ⟨answer, next, -, h⟩ := exists_of_advance_notify h
      exact ih answer h
  | subscribe name options handler rest _ ih => exact ih h
  | unsubscribe name rest ih => exact ih (state.unsubscribe name).1 h
  | setFilter filter rest ih => exact ih h
  | setMuted muted rest ih => exact ih h

end Steps

section Cycles

/-- The handler of an observer is called. -/
def call (state : Observable) (notification : Notification) : Observable :=
  (state.record (.called notification)).record (.started notification.observer)

/-- The handler of an observer is called and its script run to the end, before anything else. -/
structure Runs (within : Cycle) (observer : Observer) (notification : Notification)
    (state : Observable) (script : History) (failure : Option String) (ended : Observable) :
    Prop where
  run : advance within true (some observer.id) (observer.handler notification)
    (state.call notification) = some (outcome failure, ended)
  leaves : (state.call notification).Leaves ended (script.entries state.inFlight)

/-- A cycle goes through observers in order. It asks the filter about each of them, if there is one,
and calls the handlers of those that are accepted. The script of a handler runs to its end before
the next observer is asked about, and the first that fails ends the cycle. -/
inductive Goes (within : Cycle) (filter : Option Filter) (changes : Changes) (args : List Value) :
    Observable → List Observer → Round → Except Error Unit → Observable → Prop
  | done (state : Observable) : Goes within filter changes args state [] .done (.ok ()) state
  | passedOver {state asked after : Observable} {observer : Observer} {rest : List Observer}
      {round : Round} {answer : Except Error Unit}
      (hasked : state.consult filter (observer.notification changes args) = (false, asked))
      (hrest : Goes within filter changes args asked rest round answer after) :
      Goes within filter changes args state (observer :: rest)
        (round.asked filter (observer.notification changes args)) answer after
  | finished {state asked ended after : Observable} {observer : Observer} {rest : List Observer}
      {script : History} {round : Round} {answer : Except Error Unit}
      (hasked : state.consult filter (observer.notification changes args) = (true, asked))
      (hran : Runs within observer (observer.notification changes args) asked script none ended)
      (hrest : Goes within filter changes args (ended.record (.finished observer.id)) rest round
        answer after) :
      Goes within filter changes args state (observer :: rest)
        (Round.asked filter (observer.notification changes args)
          (.called observer.id observer.options script none round)) answer after
  | failed {state asked ended : Observable} {observer : Observer} {rest : List Observer}
      {script : History} {cause : String}
      (hasked : state.consult filter (observer.notification changes args) = (true, asked))
      (hran : Runs within observer (observer.notification changes args) asked script (some cause)
        ended) :
      Goes within filter changes args state (observer :: rest)
        (Round.asked filter (observer.notification changes args)
          (.called observer.id observer.options script (some cause) .done))
        (.error (.observer observer.id cause)) (ended.record (.failed observer.id cause))

variable {within : Cycle} {filter : Option Filter} {changes : Changes} {args : List Value}
  {state next after : Observable} {observers : List Observer} {answer : Except Error Unit}

/-- Asking the filter leaves an entry, which belongs to the cycle, if there is a filter. -/
theorem leaves_consult {notification : Notification} {accepted : Bool} {round : Round}
    (hconsult : state.consult filter notification = (accepted, next))
    (hnext : next.Leaves after (round.entries next.inFlight changes args)) :
    state.Leaves after ((round.asked filter notification).entries state.inFlight changes args) := by
  cases filter with
  | none =>
      obtain ⟨-, rfl⟩ := Prod.mk.inj hconsult
      exact hnext
  | some accepts =>
      obtain ⟨-, rfl⟩ := Prod.mk.inj hconsult
      exact (leaves_record state _).trans hnext

theorem dispatch_consult {notification : Notification} {accepted : Bool}
    (hconsult : state.consult filter notification = (accepted, next)) :
    next.dispatch = state.dispatch := by
  cases filter with
  | none => exact congrArg (·.2.dispatch) hconsult.symm
  | some accepts => exact congrArg (·.2.dispatch) hconsult.symm

/-- An observer is called, runs its script to the end, and what follows comes after that. -/
theorem Runs.leaves_called {observer : Observer} {script : History} {failure : Option String}
    {ended : Observable} {round : Round}
    (hran : Runs within observer (observer.notification changes args) state script failure ended)
    (hrest : (ended.record (ending observer.id failure)).Leaves after
      (round.entries ended.inFlight changes args)) :
    state.Leaves after ((Round.called observer.id observer.options script failure round).entries
      state.inFlight changes args) := by
  have hcalled := (leaves_record state (.called (observer.notification changes args))).trans
    (leaves_record _ (.started observer.id))
  have hended := (hcalled.trans hran.leaves).trans
    (leaves_record ended (ending observer.id failure))
  have hall := hended.trans hrest
  have hinFlight : ended.inFlight = state.inFlight := hran.leaves.inFlight
  rw [hinFlight] at hall
  simpa [Round.entries, record, Observer.notification] using hall

/-- A cycle leaves the journal of what it has gone through. -/
theorem Goes.leaves {round : Round}
    (h : Goes within filter changes args state observers round answer after) :
    state.Leaves after (round.entries state.inFlight changes args) := by
  induction h with
  | done state => exact .refl state
  | passedOver hasked hrest ih => exact leaves_consult hasked ih
  | finished hasked hran hrest ih => exact leaves_consult hasked (hran.leaves_called ih)
  | @failed state asked ended observer rest script cause hasked hran =>
      have hdone : (ended.record (ending observer.id (some cause))).Leaves
          (ended.record (.failed observer.id cause))
          (Round.done.entries ended.inFlight changes args) := .refl _
      exact leaves_consult hasked (hran.leaves_called hdone)

/-- The first of several observers is passed over, or its script fails and with it the cycle, or the
script comes to its end and the others are told. -/
theorem tellAll_cons_cases {observer : Observer}
    (h : tellAll within filter changes args (observer :: observers) state = some (answer, after)) :
    (∃ asked, state.consult filter (observer.notification changes args) = (false, asked) ∧
      tellAll within filter changes args observers asked = some (answer, after)) ∨
    (∃ asked cause ended, state.consult filter (observer.notification changes args) = (true, asked) ∧
      advance within true (some observer.id) (observer.handler (observer.notification changes args))
        (asked.call (observer.notification changes args)) = some (.failed cause, ended) ∧
      answer = .error (.observer observer.id cause) ∧
      after = ended.record (.failed observer.id cause)) ∨
    ∃ asked ended, state.consult filter (observer.notification changes args) = (true, asked) ∧
      advance within true (some observer.id) (observer.handler (observer.notification changes args))
        (asked.call (observer.notification changes args)) = some (.finished, ended) ∧
      tellAll within filter changes args observers (ended.record (.finished observer.id)) =
        some (answer, after) := by
  rw [tellAll] at h
  rcases hasked : state.consult filter (observer.notification changes args) with ⟨accepted, asked⟩
  rw [hasked] at h
  cases accepted with
  | false => exact .inl ⟨asked, rfl, h⟩
  | true =>
      dsimp only at h
      rw [if_pos rfl] at h
      split at h
      · cases h
      · next cause ended hrun =>
        obtain ⟨rfl, rfl⟩ := Prod.mk.inj (Option.some.inj h)
        exact .inr (.inl ⟨asked, cause, ended, rfl, hrun, rfl, rfl⟩)
      · next progress ended hfailed hrun =>
        cases progress with
        | finished => exact .inr (.inr ⟨asked, ended, rfl, hrun, h⟩)
        | failed cause => exact absurd rfl (hfailed cause)
        | paused rest => exact absurd hrun not_paused_of_advance

/-- Telling observers goes through them, where what is run within the cycle leaves the journal of a
cycle itself. -/
theorem exists_goes_of_tellAll (hwithin : Rounds within) (hsync : state.dispatch = .sync)
    (h : tellAll within filter changes args observers state = some (answer, after)) :
    ∃ round : Round, Goes within filter changes args state observers round answer after := by
  induction observers generalizing state with
  | nil =>
      obtain ⟨rfl, rfl⟩ := Prod.mk.inj (Option.some.inj h)
      exact ⟨.done, .done state⟩
  | cons observer observers ih =>
      rcases tellAll_cons_cases h with ⟨asked, hasked, h⟩ |
        ⟨asked, cause, ended, hasked, hrun, rfl, rfl⟩ | ⟨asked, ended, hasked, hrun, h⟩
      · obtain ⟨round, hround⟩ := ih ((dispatch_consult hasked).trans hsync) h
        exact ⟨_, .passedOver hasked hround⟩
      · have hcalled : (asked.call (observer.notification changes args)).dispatch = .sync :=
          (dispatch_consult hasked).trans hsync
        obtain ⟨script, hscript⟩ := leaves_advance hwithin _ _ hcalled hrun
        exact ⟨_, .failed hasked ⟨hrun, hscript⟩⟩
      · have hcalled : (asked.call (observer.notification changes args)).dispatch = .sync :=
          (dispatch_consult hasked).trans hsync
        obtain ⟨script, hscript⟩ := leaves_advance hwithin _ _ hcalled hrun
        have hended : (ended.record (.finished observer.id)).dispatch = .sync :=
          hscript.dispatch.trans hcalled
        obtain ⟨round, hround⟩ := ih hended h
        exact ⟨_, .finished hasked ⟨hrun, hscript⟩ hround⟩

/-- The journal of a cycle stands between its opening and its closing. -/
theorem Leaves.cycle {last : Observable} {entries : List Entry}
    (h : state.enter.Leaves last entries) :
    state.Leaves last.leave
      (⟨.opened, state.inFlight + 1⟩ :: (entries ++ [⟨.closed, state.inFlight⟩])) where
  dispatch := h.dispatch
  inFlight := by
    change last.inFlight - 1 = state.inFlight
    rw [h.inFlight]
    rfl
  journal := by
    change last.journal ++ [⟨.closed, last.inFlight - 1⟩] = _
    rw [h.journal, h.inFlight, enter, record]
    simp

/-- A cycle that tells observers one after another leaves the journal of a cycle. -/
theorem rounds_tell (hwithin : Rounds within) : Rounds (tell within) := by
  intro changes args state answer after hsync h
  rw [tell] at h
  split at h
  · obtain ⟨-, rfl⟩ := Prod.mk.inj (Option.some.inj h)
    exact .inl (.refl state)
  · rw [hsync] at h
    obtain ⟨⟨told, last⟩, htold, hlast⟩ := Option.map_eq_some_iff.1 h
    obtain ⟨-, rfl⟩ := Prod.mk.inj hlast
    have hentered : state.enter.dispatch = .sync := hsync
    obtain ⟨round, hgoes⟩ := exists_goes_of_tellAll hwithin hentered htold
    exact .inr ⟨round, hgoes.leaves.cycle⟩

theorem rounds_notify (depth : Nat) : Rounds (notify depth) := by
  induction depth with
  | zero => exact rounds_tell fun _ _ _ _ _ _ h => by cases h
  | succ depth ih => exact rounds_tell ih

/-- The journal of a run is that of a history. -/
theorem exists_history {depth : Nat} {script : Script} {config : ObservableConfig} {store : Core}
    {hasRuntime : Bool} {progress : Progress} (hsync : config.dispatch = .sync)
    (h : run depth script (ofConfig config store hasRuntime) = some (progress, after)) :
    ∃ history : History, after.journal = history.entries 0 := by
  have hstart : (ofConfig config store hasRuntime).dispatch = .sync := hsync
  obtain ⟨history, hleaves⟩ := leaves_advance (rounds_notify depth) none script hstart h
  exact ⟨history, hleaves.journal⟩

end Cycles

end Observable

end Waymark.Store
