import Waymark.Proofs.Store.Apart
/-!
Walks that write in place.

A walk creates what is missing on its way, and what it creates it never fails in. So a walk that
fails has only been through what was there, and leaves the tree as it was (`putInPlace_eq`).
-/

namespace Waymark.Store

open Waymark.Json
open Waymark.Json.Value (Ordered)

variable {tree value after : Value} {path : List String} {error : Error}

/-- What a walk comes to, given the tree it was to make. -/
def walked (tree : Value) : Except Error Value → Except Error Unit × Value
  | .ok after => (.ok (), after)
  | .error error => (.error error, tree)

/-- Nothing fails below what has just been created. -/
theorem exists_put_null (value : Value) (path : List String) :
    ∃ after, put value .null path = .ok after := by
  induction path with
  | nil => exact ⟨value, rfl⟩
  | cons segment path ih =>
      obtain ⟨below, hbelow⟩ := ih
      exact ⟨.object (Dict.insert [] segment below), by simp only [put, hbelow]; rfl⟩

/-- A walk that fails further down has entered something that was there. -/
theorem exists_of_put_error {found : Option Value}
    (h : put value (found.getD .null) path = .error error) :
    ∃ child, found = some child ∧ found.getD .null = child := by
  cases found with
  | some child => exact ⟨child, rfl, rfl⟩
  | none =>
      obtain ⟨after, hafter⟩ := exists_put_null value path
      rw [Option.getD_none, hafter] at h
      cases h

/-- A walk makes the tree that has the value along its segments, or leaves the tree as it was. -/
theorem putInPlace_eq (hordered : Ordered tree) :
    putInPlace value tree path = walked tree (put value tree path) := by
  induction path generalizing tree with
  | nil => cases tree <;> rfl
  | cons segment path ih =>
      have hchild : Ordered ((child? tree segment).getD .null) := by
        cases hchild : child? tree segment with
        | none => trivial
        | some child => exact ordered_child? hordered hchild
      cases tree with
      | object fields =>
          have hbelow := ih hchild
          simp only [child?] at hbelow
          rw [putInPlace, put, hbelow]
          cases hput : put value ((Dict.get? fields segment).getD .null) path with
          | ok below => rfl
          | error error =>
              obtain ⟨child, hget, heq⟩ := exists_of_put_error hput
              rw [heq]
              simp only [walked, Dict.insert_of_get? hordered.1 hget]
              rfl
      | array items =>
          rw [putInPlace, put]
          cases hindex : index? segment with
          | none => rfl
          | some index =>
              have hbelow := ih hchild
              simp only [child?, hindex, Option.bind_eq_bind, Option.bind_some] at hbelow
              simp only [getD_padTo, hbelow]
              cases hput : put value (items[index]?.getD .null) path with
              | ok below => rfl
              | error error =>
                  obtain ⟨child, hget, heq⟩ := exists_of_put_error hput
                  obtain ⟨hlt, hitem⟩ := List.getElem?_eq_some_iff.1 hget
                  have hsame : (padTo items index).set index child = items := by
                    rw [padTo_of_lt hlt, ← hitem, List.set_getElem_self]
                  rw [heq]
                  simp only [walked, hsame]
                  rfl
      | _ =>
          obtain ⟨below, hput⟩ := exists_put_null value path
          have hnull : Ordered Value.null := trivial
          have hbelow := ih hnull
          rw [hput] at hbelow
          simp only [putInPlace, put, hbelow, hput]
          rfl

end Waymark.Store
