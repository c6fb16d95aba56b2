import Mathlib.Algebra.GroupWithZero.Nat
import Waymark.Proofs.Store.Fibers
/-!
How many notification cycles are open.

Cycles nest: a cycle waits for the script of an observer, and the script may ask for a cycle in turn.
They end when all observers have been told, when one of them has failed, or for want of a runtime, and
a store that is muted opens none. Whatever has happened, the store counts the cycles that the fibers
on it have entered and not yet left, and once an operation has been answered there are none
(`System.counted_and_idle`).
-/

namespace Waymark.Store

open Waymark.Json

/-- A store says that it is notifying. -/
def Observable.isNotifying (state : Observable) : Bool :=
  0 < state.inFlight

/-- A frame is that of a cycle that waits for the script of an observer. -/
def Frame.isCycle : Frame → Bool
  | .telling .. => true
  | .turn _ | .written .. | .notified .. => false

/-- An activity is within a cycle. -/
def Activity.isCycle : Activity → Bool
  | .telling .. | .spawning .. | .closing _ => true
  | .script .. | .ended _ | .cycle .. | .answered _ => false

namespace Fiber

/-- How many cycles a fiber has entered and not yet left. -/
def entered (fiber : Fiber) : Nat :=
  fiber.waiting.countP Frame.isCycle + fiber.activity.isCycle.toNat

end Fiber

/-- How many cycles the fibers on a store have entered and not yet left. -/
def System.entered (system : System) : Nat :=
  (system.fibers.map Fiber.entered).sum

/-- What a store says of its cycles is right. -/
structure System.Counted (system : System) : Prop where
  inFlight : system.state.inFlight = system.entered
  /-- It says that it is notifying exactly while some cycle is open. -/
  notifying : system.state.isNotifying = true ↔ ∃ fiber ∈ system.fibers, 0 < fiber.entered
  /-- A cycle that is about to be left is counted. -/
  closing : ∀ answer waiting, ⟨.closing answer, waiting⟩ ∈ system.fibers →
    0 < system.state.inFlight

section Counting

variable {state after : Observable} {fiber next : Fiber}

@[simp] theorem Observable.inFlight_record (state : Observable) (event : Event) :
    (state.record event).inFlight = state.inFlight := rfl

@[simp] theorem Observable.inFlight_enter (state : Observable) :
    state.enter.inFlight = state.inFlight + 1 := rfl

@[simp] theorem Observable.inFlight_leave (state : Observable) :
    state.leave.inFlight = state.inFlight - 1 := rfl

theorem Observable.inFlight_of_consult {filter : Option Filter} {notification : Notification}
    {accepted : Bool} (h : state.consult filter notification = (accepted, after)) :
    after.inFlight = state.inFlight := by
  cases filter with
  | none =>
      rw [← (Prod.mk.inj h).2]
  | some accepts =>
      rw [← (Prod.mk.inj h).2]
      rfl

theorem Observable.inFlight_begun (task : Task) (others : List Task) (state : Observable) :
    (state.begun task others).inFlight = state.inFlight := by
  rw [begun]
  split <;> rfl

theorem Observable.inFlight_settle (id : String) (progress : Progress) (state : Observable) :
    (progress.settle id state).inFlight = state.inFlight := by
  cases progress <;> rfl

/-- As many cycles as a fiber enters or leaves by a step, the store counts more or fewer. -/
theorem Fiber.Steps.inFlight_add_entered (h : Fiber.Steps (fiber, state) (next, after))
    (hcounted : fiber.entered ≤ state.inFlight) :
    after.inFlight + fiber.entered = state.inFlight + next.entered := by
  cases h with
  | tells | spawns | noRuntime =>
      simp [entered, Activity.isCycle]
      omega
  | closes =>
      -- The count cannot fall below zero, as the cycle that is left is among those counted.
      simp [entered, Activity.isCycle] at hcounted ⊢
      omega
  | rejects hasked | skips hasked =>
      rw [Observable.inFlight_of_consult hasked]
      rfl
  | defers hasked =>
      have hsame := Observable.inFlight_of_consult hasked
      simp [entered, Activity.isCycle, hsame]
  | calls hasked =>
      have hsame := Observable.inFlight_of_consult hasked
      simp [entered, List.countP_cons, Frame.isCycle, Activity.isCycle, Observable.call, hsame]
  | finishes | breaks | writeTold | notify | answersWrite | answersNotify =>
      simp [entered, List.countP_cons, Frame.isCycle, Activity.isCycle]
  | _ => rfl

end Counting

namespace System

variable {config : ObservableConfig} {store : Core} {hasRuntime : Bool} {system : System}

/-- The store counts the cycles that are open. -/
theorem inFlight_eq_entered_of_reached (h : Reached config store hasRuntime system) :
    system.state.inFlight = system.entered := by
  induction h with
  | start => rfl
  | begins script _ ih => simpa [entered, Fiber.entered, Activity.isCycle] using ih
  | turns _ _ ih =>
      simpa [entered, Fiber.entered, Activity.isCycle, Frame.isCycle,
        Observable.inFlight_begun] using ih
  | @steps state after front back fiber next hstep _ ih =>
      simp only [entered, List.map_append, List.map_cons, List.sum_append, List.sum_cons] at ih ⊢
      have hcounted : fiber.entered ≤ state.inFlight := by omega
      have hstep := hstep.inFlight_add_entered hcounted
      omega
  | ends _ ih => simpa [entered, Fiber.entered, Activity.isCycle] using ih
  | @settles state front back id progress _ ih =>
      have hnone : Fiber.entered ⟨progress.activity (some id), [.turn id]⟩ = 0 := by
        cases progress <;> rfl
      simpa [entered, hnone, Observable.inFlight_settle] using ih

theorem entered_pos_iff : 0 < system.entered ↔ ∃ fiber ∈ system.fibers, 0 < fiber.entered := by
  rw [entered, List.sum_pos_iff_exists_pos_nat]
  constructor
  · intro hsome
    obtain ⟨count, hcount, hpos⟩ := hsome
    obtain ⟨fiber, hfiber, rfl⟩ := List.mem_map.1 hcount
    exact ⟨fiber, hfiber, hpos⟩
  · intro hsome
    obtain ⟨fiber, hfiber, hpos⟩ := hsome
    exact ⟨fiber.entered, List.mem_map_of_mem hfiber, hpos⟩

theorem counted_of_reached (h : Reached config store hasRuntime system) : system.Counted where
  inFlight := inFlight_eq_entered_of_reached h
  notifying := by
    rw [← entered_pos_iff, ← inFlight_eq_entered_of_reached h]
    exact decide_eq_true_iff
  closing := by
    intro answer waiting hfiber
    rw [inFlight_eq_entered_of_reached h]
    exact entered_pos_iff.2 ⟨_, hfiber, Nat.succ_pos _⟩

/-- At every point the store counts the cycles that are open, and when operations have been answered
one after another, whatever the answers, it says that it is idle. -/
theorem counted_and_idle (config : ObservableConfig) (store : Core) (hasRuntime : Bool) :
    (∀ system, Reached config store hasRuntime system → system.Counted) ∧
      ∀ state, Observable.Left config store hasRuntime state →
        Reached config store hasRuntime ⟨state, []⟩ ∧ state.isNotifying = false := by
  constructor
  · intro system h
    exact counted_of_reached h
  · intro state h
    have hreached := reached_of_left h
    have hzero : state.inFlight = 0 := inFlight_eq_entered_of_reached hreached
    refine ⟨hreached, ?_⟩
    rw [Observable.isNotifying, hzero]
    rfl

end System

section Echo

/-- An observer that asks for another cycle, of which nobody is told, and then fails. -/
def echo : Observer :=
  ⟨"echo", .null, fun _ =>
    .unsubscribe "echo" fun _ => .notify .everything [] fun _ => .fail "no more"⟩

/-- Two cycles are open when the observer has asked for the second, and none after it has failed. -/
theorem notifying_then_idle_echo :
    (∃ state fiber, System.Reached .standard (.plain .empty) false ⟨state, [fiber]⟩ ∧
      fiber.entered = 2 ∧ state.inFlight = 2 ∧ state.isNotifying = true) ∧
    ∃ state after, Observable.Left .standard (.plain .empty) false state ∧
      Observable.notify 1 .everything [] state =
        some (.error (.observer "echo" "no more"), after) ∧ after.isNotifying = false := by
  have hcounted := System.counted_and_idle .standard (.plain .empty) false
  let quiet := (Observable.ofConfig .standard (.plain .empty) false).subscribe echo
  have hquiet : Observable.Left .standard (.plain .empty) false quiet :=
    .ran .start (show Observable.run 0 (.subscribe echo.id echo.options echo.handler .done) _ =
      some (.finished, quiet) from rfl)
  constructor
  · -- The first cycle waits for the script of the observer, which waits for the second.
    have hbegun := System.Reached.begins (.notify .everything [] fun _ => .done)
      (hcounted.2 quiet hquiet).1
    have hpath : ∃ state fiber,
        Fiber.Reaches (⟨.script none (.notify .everything [] fun _ => .done), []⟩, quiet)
          (fiber, state) ∧ fiber.entered = 2 :=
      ⟨_, _, .head .notify (.head (.tells rfl rfl) (.head (.calls rfl)
        (.head .unsubscribe (.head .notify (.single (.tells rfl rfl)))))), rfl⟩
    obtain ⟨state, fiber, hreaches, htwo⟩ := hpath
    have hreached : System.Reached .standard (.plain .empty) false ⟨state, [] ++ fiber :: []⟩ :=
      System.Reached.reaches hbegun hreaches
    have h := hcounted.1 _ hreached
    exact ⟨state, fiber, hreached, htwo, h.inFlight.trans htwo,
      h.notifying.2 ⟨fiber, List.mem_singleton_self fiber, by omega⟩⟩
  · have hfailed : Observable.notify 1 .everything [] quiet =
        some (.error (.observer "echo" "no more"), _) := rfl
    exact ⟨_, _, hquiet, hfailed, (hcounted.2 _ (.notified hquiet hfailed)).2⟩

end Echo

end Waymark.Store
