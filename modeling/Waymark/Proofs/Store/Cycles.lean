import Waymark.Proofs.Store.Histories
/-!
How a cycle goes in a store that tells its observers at once.

A cycle works on the observers and the filter that are there when it begins, whatever the handlers
that it calls do to the store. It asks about the observers in order, once each, and calls those that
are accepted; it ends with the first failure, which is its answer, or after the last observer
(`notify_iff_cycled`).
-/

namespace Waymark.Store

open Waymark.Json

/-- The observers that the filter has been asked about, and what it has said. -/
def Round.consultations : Round → List (String × Bool)
  | .done => []
  | .consulted id accepted rest => (id, accepted) :: rest.consultations
  | .called _ _ _ _ rest => rest.consultations

/-- The observers that have been called, with their options, and why their scripts have failed. -/
def Round.calls : Round → List (String × Value × Option String)
  | .done => []
  | .consulted _ _ rest => rest.calls
  | .called id options _ failure rest => (id, options, failure) :: rest.calls

namespace Observable

/-- What runs the cycles within a cycle. -/
def inner : Nat → Cycle
  | 0 => fun _ _ _ => none
  | depth + 1 => notify depth

theorem notify_eq (depth : Nat) : notify depth = tell (inner depth) := by
  cases depth <;> rfl

theorem rounds_inner (depth : Nat) : Rounds (inner depth) := by
  cases depth with
  | zero => exact fun _ _ _ _ _ _ h => by cases h
  | succ depth => exact rounds_notify depth

/-- An observer is accepted: the filter says so, or there is none. -/
def accepts (filter : Option Filter) (changes : Changes) (args : List Value) (observer : Observer) :
    Bool :=
  filter.all fun accepts => accepts (observer.notification changes args)

/-- What the filter says about observers, if there is one. -/
def opinions (filter : Option Filter) (changes : Changes) (args : List Value)
    (observers : List Observer) : List (String × Bool) :=
  filter.toList.flatMap fun accepts =>
    observers.map fun observer => (observer.id, accepts (observer.notification changes args))

/-- The calls of accepted observers, without a failure. -/
def accepted (filter : Option Filter) (changes : Changes) (args : List Value)
    (observers : List Observer) : List (String × Value × Option String) :=
  (observers.filter (accepts filter changes args)).map fun observer =>
    (observer.id, observer.options, none)

/-- How far a cycle has come: to the end, or up to a failure. -/
inductive Visits (filter : Option Filter) (changes : Changes) (args : List Value)
    (observers : List Observer) (round : Round) : Except Error Unit → Prop
  /-- The filter has been asked about all observers, and those it accepts have been called. -/
  | all (hasked : round.consultations = opinions filter changes args observers)
      (hcalled : round.calls = accepted filter changes args observers) :
      Visits filter changes args observers round (.ok ())
  /-- The same up to an accepted observer whose script has failed. Nobody else is asked about. -/
  | upTo (front : List Observer) {rest : List Observer} {failing : Observer} {cause : String}
      (hobservers : observers = front ++ failing :: rest)
      (haccepted : accepts filter changes args failing = true)
      (hasked : round.consultations = opinions filter changes args (front ++ [failing]))
      (hcalled : round.calls =
        accepted filter changes args front ++ [(failing.id, failing.options, some cause)]) :
      Visits filter changes args observers round (.error (.observer failing.id cause))

section Visiting

variable {within : Cycle} {filter : Option Filter} {changes : Changes} {args : List Value}
  {state next after : Observable} {observer : Observer} {observers front : List Observer}
  {round : Round} {answer : Except Error Unit}

theorem accepts_of_consult {accepted : Bool}
    (h : state.consult filter (observer.notification changes args) = (accepted, next)) :
    accepts filter changes args observer = accepted := by
  cases filter <;> exact (Prod.mk.inj h).1

theorem calls_asked (round : Round) (filter : Option Filter) (notification : Notification) :
    (round.asked filter notification).calls = round.calls := by
  cases filter <;> rfl

/-- The filter is asked about one observer more. -/
theorem consultations_asked
    (h : round.consultations = opinions filter changes args observers) :
    (round.asked filter (observer.notification changes args)).consultations =
      opinions filter changes args (observer :: observers) := by
  cases filter with
  | none => exact h
  | some accepts =>
      rw [Round.asked, Round.consultations, h]
      simp [opinions, Observer.notification]

theorem accepted_cons_of_accepts (h : accepts filter changes args observer = true) :
    accepted filter changes args (observer :: front) =
      (observer.id, observer.options, none) :: accepted filter changes args front := by
  rw [accepted, List.filter_cons_of_pos h]
  rfl

theorem accepted_cons_of_rejects (h : accepts filter changes args observer = false) :
    accepted filter changes args (observer :: front) = accepted filter changes args front := by
  rw [accepted, List.filter_cons_of_neg (by rw [h]; exact Bool.false_ne_true)]
  rfl

/-- A cycle that goes through observers visits them in order. -/
theorem Goes.visits (h : Goes within filter changes args state observers round answer after) :
    Visits filter changes args observers round answer := by
  induction h with
  | done state => exact .all (by cases filter <;> rfl) rfl
  | passedOver hasked hrest ih =>
      have hrejects := accepts_of_consult hasked
      cases ih with
      | all hconsulted hcalled =>
          refine .all (consultations_asked hconsulted) ?_
          rw [calls_asked, hcalled, accepted_cons_of_rejects hrejects]
      | @upTo front rest failing cause hobservers haccepted hconsulted hcalled =>
          refine .upTo (_ :: front) (by rw [hobservers]; rfl) haccepted
            (consultations_asked hconsulted) ?_
          rw [calls_asked, hcalled, accepted_cons_of_rejects hrejects]
  | finished hasked hran hrest ih =>
      have haccepts := accepts_of_consult hasked
      cases ih with
      | all hconsulted hcalled =>
          refine .all (consultations_asked hconsulted) ?_
          rw [calls_asked, Round.calls, hcalled, accepted_cons_of_accepts haccepts]
      | @upTo front rest failing cause hobservers haccepted hconsulted hcalled =>
          refine .upTo (_ :: front) (by rw [hobservers]; rfl) haccepted
            (consultations_asked hconsulted) ?_
          rw [calls_asked, Round.calls, hcalled, accepted_cons_of_accepts haccepts]
          rfl
  | failed hasked hran =>
      refine .upTo [] rfl (accepts_of_consult hasked) (consultations_asked ?_) ?_
      · cases filter <;> rfl
      · rw [calls_asked]
        rfl

/-- Telling an accepted observer runs its script to the end. -/
theorem tellAll_of_runs {asked ended : Observable} {rest : List Observer} {script : History}
    {failure : Option String}
    (hasked : state.consult filter (observer.notification changes args) = (true, asked))
    (hran : Runs within observer (observer.notification changes args) asked script failure ended) :
    tellAll within filter changes args (observer :: rest) state =
      match failure with
      | none => tellAll within filter changes args rest (ended.record (.finished observer.id))
      | some cause =>
          some (.error (.observer observer.id cause), ended.record (.failed observer.id cause)) := by
  have hrun : advance within true (some observer.id)
      (observer.handler (observer.notification changes args))
      ((asked.record (.called (observer.notification changes args))).record
        (.started observer.id)) = some (outcome failure, ended) := hran.run
  rw [tellAll, hasked]
  dsimp only
  rw [if_pos rfl, hrun]
  cases failure <;> rfl

/-- What a cycle that goes through observers comes to is what telling them comes to. -/
theorem tellAll_of_goes (h : Goes within filter changes args state observers round answer after) :
    tellAll within filter changes args observers state = some (answer, after) := by
  induction h with
  | done state => rfl
  | passedOver hasked hrest ih =>
      rw [tellAll, hasked]
      exact ih
  | finished hasked hran hrest ih =>
      rw [tellAll_of_runs hasked hran]
      exact ih
  | failed hasked hran => exact tellAll_of_runs hasked hran

/-- A cycle comes to no answer: after it has gone through some observers, the script of an accepted
one does not come to its end. -/
inductive Stalls (within : Cycle) (filter : Option Filter) (changes : Changes) (args : List Value)
    (state : Observable) : List Observer → Prop
  | within {front rest : List Observer} {observer : Observer} {round : Round}
      {before asked : Observable}
      (hgoes : Goes within filter changes args state front round (.ok ()) before)
      (hasked : before.consult filter (observer.notification changes args) = (true, asked))
      (hrun : advance within true (some observer.id)
        (observer.handler (observer.notification changes args))
        (asked.call (observer.notification changes args)) = none) :
      Stalls within filter changes args state (front ++ observer :: rest)

/-- Telling observers comes to no answer only if one of their scripts does not come to its end. -/
theorem stalls_of_tellAll (hwithin : Rounds within) (hsync : state.dispatch = .sync)
    (h : tellAll within filter changes args observers state = none) :
    Stalls within filter changes args state observers := by
  induction observers generalizing state with
  | nil => cases h
  | cons observer observers ih =>
      rw [tellAll] at h
      rcases hasked : state.consult filter (observer.notification changes args) with
        ⟨accepted, asked⟩
      have hsync : asked.dispatch = .sync := (dispatch_consult hasked).trans hsync
      rw [hasked] at h
      cases accepted with
      | false =>
          obtain ⟨hgoes, hnext, hrun⟩ := ih hsync h
          exact .within (.passedOver hasked hgoes) hnext hrun
      | true =>
          dsimp only at h
          rw [if_pos rfl] at h
          split at h
          · next hrun => exact .within (.done state) hasked hrun
          · cases h
          · next progress ended hfailed hrun =>
            have hcalled : (asked.call (observer.notification changes args)).dispatch = .sync :=
              hsync
            obtain ⟨script, hscript⟩ := leaves_advance hwithin _ _ hcalled hrun
            have hended : (ended.record (.finished observer.id)).dispatch = .sync :=
              hscript.dispatch.trans hcalled
            obtain ⟨hgoes, hnext, hstuck⟩ := ih hended h
            cases progress with
            | finished => exact .within (.finished hasked ⟨hrun, hscript⟩ hgoes) hnext hstuck
            | failed cause => exact absurd rfl (hfailed cause)
            | paused rest => exact absurd hrun not_paused_of_advance

end Visiting

/-- A cycle in a store that tells its observers at once: it has gone through the observers that were
there when it began, given the filter of that moment, and has left the journal of that. -/
structure Cycled (within : Cycle) (changes : Changes) (args : List Value) (state : Observable)
    (round : Round) (answer : Except Error Unit) (after : Observable) : Prop where
  goes : ∃ last, Goes within state.filter changes args state.enter state.observers round answer last ∧
    after = last.leave
  visits : Visits state.filter changes args state.observers round answer
  journal : after.journal = state.journal ++ ⟨.opened, state.inFlight + 1⟩ ::
    (round.entries (state.inFlight + 1) changes args ++ [⟨.closed, state.inFlight⟩])

section Notifying

variable {state after : Observable} {changes : Changes} {args : List Value}
  {answer : Except Error Unit}

theorem tell_eq_of_sync {within : Cycle} (hsync : state.dispatch = .sync)
    (hunmuted : state.muted = false) :
    tell within changes args state =
      (tellAll within state.filter changes args state.observers state.enter).map
        fun (answer, state) => (answer, state.leave) := by
  rw [tell, hunmuted, hsync]
  rfl

theorem tell_iff_cycled {within : Cycle} (hwithin : Rounds within)
    (hsync : state.dispatch = .sync) (hunmuted : state.muted = false) :
    tell within changes args state = some (answer, after) ↔
      ∃ round, Cycled within changes args state round answer after := by
  have hentered : state.enter.dispatch = .sync := hsync
  rw [tell_eq_of_sync hsync hunmuted]
  constructor
  · intro h
    obtain ⟨⟨told, last⟩, htold, hlast⟩ := Option.map_eq_some_iff.1 h
    obtain ⟨rfl, rfl⟩ := Prod.mk.inj hlast
    obtain ⟨round, hgoes⟩ := exists_goes_of_tellAll hwithin hentered htold
    exact ⟨round, ⟨last, hgoes, rfl⟩, hgoes.visits, hgoes.leaves.cycle.journal⟩
  · rintro ⟨round, ⟨last, hgoes, rfl⟩, -, -⟩
    rw [tellAll_of_goes hgoes]
    rfl

/-- In a store that tells its observers at once, a cycle goes through the observers that are there
when it begins and comes to what they make of it, unless the store is muted: then nobody is asked or
called. It comes to no answer only if the script of one of them does not come to its end. -/
theorem notify_iff_cycled (hsync : state.dispatch = .sync) (depth : Nat) (changes : Changes)
    (args : List Value) :
    (state.muted = true → notify depth changes args state = some (.ok (), state)) ∧
    (state.muted = false →
      (∀ answer after, notify depth changes args state = some (answer, after) ↔
        ∃ round, Cycled (inner depth) changes args state round answer after) ∧
      (notify depth changes args state = none →
        Stalls (inner depth) state.filter changes args state.enter state.observers)) := by
  have hentered : state.enter.dispatch = .sync := hsync
  rw [notify_eq]
  refine ⟨fun hmuted => ?_, fun hunmuted => ⟨fun answer after => ?_, fun hnone => ?_⟩⟩
  · rw [tell, if_pos hmuted]
  · exact tell_iff_cycled (rounds_inner depth) hsync hunmuted
  · rw [tell_eq_of_sync hsync hunmuted] at hnone
    exact stalls_of_tellAll (rounds_inner depth) hentered (Option.map_eq_none_iff.1 hnone)

end Notifying

/-- Four observers and a filter that rejects the third. The first one removes the second and the
filter and mutes the store, and the last one fails. -/
def meddled : Observable where
  store := .plain .empty
  observers := [
    ⟨"first", .null, fun _ => .unsubscribe "second" fun _ => .setFilter none (.setMuted true .done)⟩,
    ⟨"second", .null, fun _ => .write (.set "a" .null .standard) fun _ => .done⟩,
    ⟨"third", .null, fun _ => .done⟩, ⟨"last", .null, fun _ => .fail "tired"⟩]
  filter := some fun notification => notification.observer != "third"
  muted := false
  inFlight := 0
  dispatch := .sync
  hasRuntime := false
  tasks := []
  journal := []

/-- The cycle goes on as if nothing had been changed, and ends with the failure. -/
theorem cycled_meddled :
    ∃ round after, notify 1 .everything [] meddled =
        some (.error (.observer "last" "tired"), after) ∧
      Cycled (inner 1) .everything [] meddled round (.error (.observer "last" "tired")) after ∧
      after.observers.map (·.id) = ["first", "third", "last"] ∧ after.filter.isNone := by
  obtain ⟨after, hnotify, hobservers, hfilter⟩ : ∃ after, notify 1 .everything [] meddled =
      some (.error (.observer "last" "tired"), after) ∧
      after.observers.map (·.id) = ["first", "third", "last"] ∧ after.filter.isNone := by
    refine ⟨_, rfl, ?_, ?_⟩ <;> rfl
  have hsync : meddled.dispatch = .sync := rfl
  obtain ⟨round, hcycled⟩ :=
    (((notify_iff_cycled hsync 1 .everything []).2 rfl).1 _ after).1 hnotify
  exact ⟨round, after, hnotify, hcycled, hobservers, hfilter⟩

end Observable

end Waymark.Store
