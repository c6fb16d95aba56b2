import Waymark.Proofs.Except
import Waymark.Proofs.Json.Value
import Waymark.Store.Tree
/-!
Reading along segments, and reading trees that are the same.

Trees that are the same are the same along every path (`not_differs_lookup`), and merging keeps
fields in key order.
-/

namespace Waymark.Store

open Waymark.Json
open Waymark.Json.Value (Differs Ordered OrderedFields OrderedItems)

section Lookup

variable {tree left right value : Value}

theorem lookup_cons (tree : Value) (segment : String) (path : List String) :
    lookup tree (segment :: path) = (child? tree segment).bind (lookup · path) :=
  rfl

theorem lookup_append (tree : Value) (path rest : List String) :
    lookup tree (path ++ rest) = (lookup tree path).bind (lookup · rest) := by
  simp [lookup, List.foldlM_append]

theorem not_differs_child? (h : left.same right = true) (segment : String) :
    ¬ Differs (child? left segment) (child? right segment) := by
  cases left with
  | object fields =>
      cases right with
      | object others => exact Value.not_differs_get? h segment
      | _ => exact absurd h (by simp [Value.same])
  | array items =>
      cases right with
      | array others =>
          simp only [child?]
          cases index? segment with
          | none => exact id
          | some index => exact Value.not_differs_getElem? h index
      | _ => exact absurd h (by simp [Value.same])
  | _ =>
      cases right with
      | object | array => exact absurd h (by simp [Value.same])
      | _ => exact id

/-- Trees that are the same are the same along every path. -/
theorem not_differs_lookup (h : left.same right = true) (path : List String) :
    ¬ Differs (lookup left path) (lookup right path) := by
  induction path generalizing left right with
  | nil =>
      intro hdiffers
      exact absurd (h.symm.trans hdiffers) (by simp)
  | cons segment path ih =>
      have hchild := not_differs_child? h segment
      rw [lookup_cons, lookup_cons]
      cases hleft : child? left segment with
      | none =>
          cases hright : child? right segment with
          | none => exact id
          | some right => exact absurd (by rw [hleft, hright]; trivial) hchild
      | some left =>
          cases hright : child? right segment with
          | none => exact absurd (by rw [hleft, hright]; trivial) hchild
          | some right =>
              rw [hleft, hright, Differs, Bool.not_eq_false] at hchild
              exact ih hchild

end Lookup

theorem sizeOf_lt_of_mem {fields : List (String × Value)} {key : String} {value : Value}
    (h : (key, value) ∈ fields) : sizeOf value < sizeOf (Value.object fields) := by
  have hlt := List.sizeOf_lt_of_mem h
  simp at hlt ⊢
  omega

section Order

variable {tree value : Value}

theorem ordered_of_get? {fields : Dict Value} (h : Ordered (.object fields)) {key : String}
    (hget : Dict.get? fields key = some value) : Ordered value :=
  Value.orderedFields_iff.1 h.2 _ (Dict.mem_of_get? hget)

theorem ordered_child? (h : Ordered tree) {segment : String}
    (hchild : child? tree segment = some value) : Ordered value := by
  cases tree with
  | object fields => exact ordered_of_get? h hchild
  | array items =>
      obtain ⟨index, -, hitem⟩ := Option.bind_eq_some_iff.1 hchild
      exact Value.orderedItems_iff.1 h _ (List.mem_of_getElem? hitem)
  | _ => exact absurd hchild (by simp [child?])

theorem ordered_lookup (h : Ordered tree) {path : List String}
    (hlookup : lookup tree path = some value) : Ordered value := by
  induction path generalizing tree with
  | nil =>
      obtain rfl := Option.some.inj hlookup
      exact h
  | cons segment path ih =>
      obtain ⟨child, hchild, hlookup⟩ := Option.bind_eq_some_iff.1 hlookup
      exact ih (ordered_child? h hchild) hlookup

theorem ordered_insert {fields : Dict Value} (h : Ordered (.object fields)) (key : String)
    (hvalue : Ordered value) : Ordered (.object (Dict.insert fields key value)) := by
  refine ⟨h.1.insert key value, Value.orderedFields_iff.2 fun field hfield => ?_⟩
  rcases Dict.mem_insert hfield with rfl | hfield
  · exact hvalue
  · exact Value.orderedFields_iff.1 h.2 field hfield

mutual

/-- Merging keeps fields in key order. -/
theorem ordered_deepMerge (target source : Value) (htarget : Ordered target)
    (hsource : Ordered source) : Ordered (deepMerge target source) := by
  cases source with
  | object source =>
      cases target with
      | object target => exact ordered_mergeFields target source htarget hsource.2
      | _ => exact hsource
  | array source =>
      cases target with
      | array target =>
          refine Value.orderedItems_iff.2 fun item hitem => ?_
          rcases List.mem_append.1 hitem with hitem | hitem
          · exact Value.orderedItems_iff.1 htarget item hitem
          · exact Value.orderedItems_iff.1 hsource item hitem
      | _ => exact hsource
  | _ => cases target <;> exact hsource

theorem ordered_mergeFields (target : Dict Value) (source : List (String × Value))
    (htarget : Ordered (.object target)) (hsource : OrderedFields source) :
    Ordered (.object (mergeFields target source)) := by
  cases source with
  | nil => exact htarget
  | cons field source =>
      obtain ⟨key, value⟩ := field
      rw [mergeFields]
      refine ordered_mergeFields _ source (ordered_insert htarget key ?_) hsource.2
      cases hslot : Dict.get? target key with
      | none => exact hsource.1
      | some slot =>
          exact ordered_deepMerge slot value (ordered_of_get? htarget hslot) hsource.1

end

end Order

end Waymark.Store
