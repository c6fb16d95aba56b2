import Waymark.Proofs.Store.Failing
/-!
Stores that are never to be written to.

A frozen store refuses every call and stays as it is, and what it answers hangs on the call alone. That
the operation is not supported is the answer of every call but one: a value to be merged is looked at
before the store is, and if it is no object, that is what the answer names
(`applyAll_eq_and_unsupported_iff`).
-/

namespace Waymark.Store

open Waymark.Json

namespace Call

/-- The operation that a call asks for. -/
def operation : Call → Operation
  | .write (.set _ _ _) => .set
  | .write (.remove _) => .remove
  | .write (.merge _) => .merge
  | .write .clear => .clear
  | .write (.replace _) => .replace
  | .mergeWith _ _ => .merge

/-- Whether a call asks for a value to be merged that is not an object. A policy may make an object of
any value. -/
def isMisfit : Call → Bool
  | .write (.merge value) => !value.isObject
  | _ => false

/-- Why a frozen store refuses a call. -/
def refusal (call : Call) : Error :=
  if call.isMisfit then .assertion .objectToMerge else .unsupported call.operation .readOnly

/-- Calls on a store one after another: their answers, and what they leave of the store. -/
def applyAll (store : Store) : List Call → List (Except Error Changes) × Store
  | [] => ([], store)
  | call :: calls =>
      let (answer, after) := call.applyTo store
      let (answers, last) := applyAll after calls
      (answer :: answers, last)

end Call

section Frozen

variable {store : Store}

theorem ifWritable_of_readOnly (h : store.readOnly = true) (operation : Operation)
    (write : Written Store) :
    store.ifWritable operation write = (.error (.unsupported operation .readOnly), store) := by
  rw [ifWritable, h]
  rfl

/-- A frozen store refuses a call, and stays as it is. -/
theorem Call.applyTo_of_readOnly (h : store.readOnly = true) (call : Call) :
    call.applyTo store = (.error call.refusal, store) := by
  have hrefused := ifWritable_of_readOnly h
  cases call with
  | mergeWith value policy => exact hrefused .merge _
  | write change =>
      cases change with
      | set path value options => exact hrefused .set _
      | remove path => exact hrefused .remove _
      | clear => exact hrefused .clear _
      | replace value => exact hrefused .replace _
      | merge value =>
          rw [applyTo, Write.applyTo, Store.merge, Store.mergeWith, hrefused, refusal, isMisfit]
          -- The value is looked at before the store.
          cases value.isObject with
          | true => rfl
          | false => rfl

theorem Call.applyAll_of_readOnly (h : store.readOnly = true) (calls : List Call) :
    applyAll store calls = (calls.map fun call => .error call.refusal, store) := by
  induction calls with
  | nil => rfl
  | cons call calls ih => simp only [applyAll, applyTo_of_readOnly h, ih, List.map_cons]

theorem Call.refusal_eq_unsupported_iff (call : Call) :
    call.refusal = .unsupported call.operation .readOnly ↔ call.isMisfit = false := by
  unfold refusal
  split
  · next hmisfit => simp [hmisfit]
  · next hmisfit => simp [hmisfit]

/-- However many calls are made on a frozen store, it stays as it is and refuses each of them. It says
of all of them that the operation is not supported if and only if none of them is to merge a value
that is not an object; of such a one it says that. -/
theorem applyAll_eq_and_unsupported_iff (h : store.readOnly = true) (calls : List Call) :
    Call.applyAll store calls = (calls.map fun call => .error call.refusal, store) ∧
      ((Call.applyAll store calls).1 =
          calls.map (fun call => .error (.unsupported call.operation .readOnly)) ↔
        ∀ call ∈ calls, call.isMisfit = false) := by
  have hall := Call.applyAll_of_readOnly h calls
  refine ⟨hall, ?_⟩
  rw [hall, List.map_inj_left]
  refine forall₂_congr fun call _ => ?_
  rw [Except.error.injEq]
  exact call.refusal_eq_unsupported_iff

/-- A user, never to be written to. -/
def frozenUser : Store :=
  (ofValue (.object [("name", .string "ada")])).freeze

/-- A text that is to be merged is refused as no object, where a text that is to replace the user, or to
be merged by a policy, is refused as all writes are. -/
theorem not_unsupported_mergedText :
    frozenUser.readOnly = true ∧
      (Call.applyAll frozenUser [.write (.replace (.string "x")), .write (.merge (.string "x"))]) =
        ([.error (.unsupported .replace .readOnly), .error (.assertion .objectToMerge)],
          frozenUser) ∧
      (Call.applyAll frozenUser [.write (.replace (.string "x")), .write (.merge (.string "x"))]).1 ≠
        [.error (.unsupported .replace .readOnly), .error (.unsupported .merge .readOnly)] := by
  have hfrozen : frozenUser.readOnly = true := rfl
  obtain ⟨hall, hiff⟩ := applyAll_eq_and_unsupported_iff hfrozen
    [.write (.replace (.string "x")), .write (.merge (.string "x"))]
  refine ⟨hfrozen, hall, fun hsupported => ?_⟩
  have hfits := hiff.1 hsupported (.write (.merge (.string "x"))) (by simp)
  exact absurd hfits (by decide)

end Frozen

end Waymark.Store
