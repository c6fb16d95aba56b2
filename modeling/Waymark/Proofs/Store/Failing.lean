import Waymark.Proofs.Store.Keeping
/-!
Calls that fail.

A store that was built by one of its constructors and written to ever since holds an object, and a
call on it that fails leaves it as it was: a walk along a path fails only where it has created
nothing yet, and what a policy leaves instead of an object is taken back.
-/

namespace Waymark.Store

open Waymark.Json
open Waymark.Json.Value (Ordered)

/-- A call that writes to a plain store. -/
inductive Call where
  | write (change : Write)
  | mergeWith (value : Value) (policy : Value → Value → Value)

namespace Call

/-- Write to a store. -/
def applyTo (store : Store) : Call → Written Store
  | .write change => change.applyTo store
  | .mergeWith value policy => store.mergeWith value policy

/-- What a call brings along has its fields in key order, as documents do, and a policy leaves them
so. -/
def Brings : Call → Prop
  | .write change => change.Brings Ordered
  | .mergeWith value policy => Ordered value ∧ ∀ tree, Ordered tree → Ordered (policy tree value)

end Call

/-- The stores that there are: those that are built, and what calls leave of them. -/
inductive Reached : Store → Prop
  | empty : Reached .empty
  | ofValue {value : Value} (hvalue : Ordered value) : Reached (.ofValue value)
  | freeze {store : Store} (h : Reached store) : Reached store.freeze
  | call {store : Store} {call : Call} (h : Reached store) (hbrings : call.Brings) :
      Reached (call.applyTo store).2

section Calls

variable {store after : Store} {value : Value} {call : Call} {error : Error}

/-- A policy that does not leave an object leaves no trace. -/
theorem mergeWith_of_error {policy : Value → Value → Value}
    (h : store.mergeWith value policy = (.error error, after)) : after = store := by
  refine eq_of_ifWritable_error (fun hwritten => ?_) h
  dsimp only at hwritten
  split at hwritten
  · exact absurd hwritten (by simp)
  · exact (Prod.mk.inj hwritten).2.symm

theorem tree_mergeWith (store : Store) (value : Value) (policy : Value → Value → Value) :
    (store.mergeWith value policy).2.tree = store.tree ∨
      (store.mergeWith value policy).2.tree = policy store.tree value ∧
        (policy store.tree value).isObject = true := by
  rw [Store.mergeWith, Store.ifWritable]
  split
  · exact .inl rfl
  · dsimp only
    split
    · next hobject => exact .inr ⟨rfl, hobject⟩
    · exact .inl rfl

/-- A call that fails leaves a store as it is. -/
theorem Call.applyTo_of_error (hordered : Ordered store.tree)
    (h : call.applyTo store = (.error error, after)) : after = store := by
  cases call with
  | write change => exact Store.applyTo_of_error hordered h
  | mergeWith value policy => exact mergeWith_of_error h

/-- A call keeps fields in key order and an object at the root. -/
theorem Call.ordered_applyTo (hordered : Ordered store.tree) (hobject : store.tree.isObject = true)
    (hbrings : call.Brings) :
    Ordered (call.applyTo store).2.tree ∧ (call.applyTo store).2.tree.isObject = true := by
  cases call with
  | write change =>
      exact Store.ordered_applyTo hordered hobject hbrings (Prod.eta (change.applyTo store))
  | mergeWith value policy =>
      rw [Call.applyTo]
      rcases tree_mergeWith store value policy with heq | ⟨heq, hmerged⟩
      · rw [heq]
        exact ⟨hordered, hobject⟩
      · rw [heq]
        exact ⟨hbrings.2 store.tree hordered, hmerged⟩

theorem Reached.ordered (h : Reached store) :
    Ordered store.tree ∧ store.tree.isObject = true := by
  induction h with
  | empty => exact ⟨⟨List.Pairwise.nil, trivial⟩, rfl⟩
  | @ofValue value hvalue =>
      cases value with
      | object fields => exact ⟨hvalue, rfl⟩
      | _ => exact ⟨⟨List.pairwise_singleton _ _, hvalue, trivial⟩, rfl⟩
  | freeze h ih => exact ih
  | call h hbrings ih => exact Call.ordered_applyTo ih.1 ih.2 hbrings

/-- The root of a store is an object, and a call that fails leaves no trace. -/
theorem Reached.isObject_and_unchanged_of_error (h : Reached store) :
    store.tree.isObject = true ∧ ∀ (call : Call) (error : Error) (after : Store),
      call.applyTo store = (.error error, after) → after = store := by
  obtain ⟨hordered, hobject⟩ := h.ordered
  exact ⟨hobject, fun _ _ _ hcall => Call.applyTo_of_error hordered hcall⟩

/-- A list that a write has padded, with an empty list at its end. -/
def paddedRows : Store :=
  ⟨.object [("rows", .array [.null, .object [("cells", .array [])]])], false⟩

theorem reached_paddedRows : Reached paddedRows := by
  have hvalue : Ordered (.object [("rows", .array [])]) :=
    ⟨List.pairwise_singleton _ _, trivial, trivial⟩
  have hbrings : (Call.write (.set "rows.1.cells" (.array []) .standard)).Brings := trivial
  have hwritten : ((Call.write (.set "rows.1.cells" (.array []) .standard)).applyTo
      (.ofValue (.object [("rows", .array [])]))).2 = paddedRows := by rfl
  rw [← hwritten]
  exact .call (.ofValue hvalue) hbrings

/-- A name is taken for an index of the innermost list, after the walk has been through all that the
write before it created. -/
theorem unchanged_paddedRows :
    Reached paddedRows ∧ ∃ after,
      (Call.write (.set "rows.1.cells.name.first" (.string "x") .standard)).applyTo paddedRows =
        (.error (.assertion (.segmentIsIndex "name")), after) ∧ after = paddedRows := by
  obtain ⟨after, hcall⟩ : ∃ after,
      (Call.write (.set "rows.1.cells.name.first" (.string "x") .standard)).applyTo paddedRows =
        (.error (.assertion (.segmentIsIndex "name")), after) := ⟨_, rfl⟩
  exact ⟨reached_paddedRows, after, hcall,
    reached_paddedRows.isObject_and_unchanged_of_error.2 _ _ _ hcall⟩

end Calls

end Waymark.Store
