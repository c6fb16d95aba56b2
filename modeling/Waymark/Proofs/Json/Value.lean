import Waymark.Json.Value
import Waymark.Proofs.Dict
/-!
When documents count as the same.

Documents that are the same hold the same below every field and every item. In the other direction
this needs fields in key order, which every object that is read or built has (`Ordered`).
-/

namespace Waymark.Json

theorem Binary64.same_refl (number : Binary64) : number.same number = true := by
  simp [Binary64.same]

theorem Number.same_refl (number : Number) : number.same number = true := by
  cases number with
  | integer value => simp [Number.same]
  | real value => exact value.same_refl

theorem Binary64.same_iff {left right : Binary64} :
    left.same right = true ↔ left = right ∨ (left.isZero = true ∧ right.isZero = true) := by
  rw [Binary64.same, Bool.or_eq_true, Bool.and_eq_true, beq_iff_eq]

theorem Number.same_symm {left right : Number} (h : left.same right = true) :
    right.same left = true := by
  cases left with
  | integer value =>
      cases right with
      | integer other =>
          obtain rfl : value = other := by simpa [Number.same] using h
          exact h
      | real other => exact absurd h (by simp [Number.same])
  | real value =>
      cases right with
      | integer other => exact absurd h (by simp [Number.same])
      | real other => exact Binary64.same_iff.2 ((Binary64.same_iff.1 h).imp Eq.symm And.symm)

theorem Number.same_trans {left middle right : Number} (h : left.same middle = true)
    (hnext : middle.same right = true) : left.same right = true := by
  cases left with
  | integer value =>
      cases middle with
      | real other => exact absurd h (by simp [Number.same])
      | integer other =>
          obtain rfl : value = other := by simpa [Number.same] using h
          exact hnext
  | real value =>
      cases middle with
      | integer other => exact absurd h (by simp [Number.same])
      | real other =>
          cases right with
          | integer last => exact absurd hnext (by simp [Number.same])
          | real last =>
              rcases Binary64.same_iff.1 h with rfl | ⟨hleft, hmiddle⟩
              · exact hnext
              · rcases Binary64.same_iff.1 hnext with rfl | ⟨-, hright⟩
                · exact h
                · exact Binary64.same_iff.2 (.inr ⟨hleft, hright⟩)

namespace Value

mutual

theorem same_refl (value : Value) : value.same value = true := by
  cases value with
  | null => rfl
  | bool value => simp [same]
  | number value => exact value.same_refl
  | string value => simp [same]
  | array items => exact sameItems_refl items
  | object fields => exact sameFields_refl fields

theorem sameItems_refl (items : List Value) : sameItems items items = true := by
  cases items with
  | nil => rfl
  | cons item items => simp [sameItems, same_refl item, sameItems_refl items]

theorem sameFields_refl (fields : List (String × Value)) : sameFields fields fields = true := by
  cases fields with
  | nil => rfl
  | cons field fields =>
      obtain ⟨name, value⟩ := field
      simp [sameFields, same_refl value, sameFields_refl fields]

end

mutual

theorem same_symm {left right : Value} (h : left.same right = true) : right.same left = true := by
  cases left with
  | array items =>
      cases right with
      | array others => exact sameItems_symm h
      | _ => exact absurd h (by simp [same])
  | object fields =>
      cases right with
      | object others => exact sameFields_symm h
      | _ => exact absurd h (by simp [same])
  | number value =>
      cases right with
      | number other => exact Number.same_symm h
      | _ => exact absurd h (by simp [same])
  | null =>
      cases right with
      | null => rfl
      | _ => exact absurd h (by simp [same])
  | bool value =>
      cases right with
      | bool other =>
          obtain rfl : value = other := by simpa [same] using h
          exact h
      | _ => exact absurd h (by simp [same])
  | string value =>
      cases right with
      | string other =>
          obtain rfl : value = other := by simpa [same] using h
          exact h
      | _ => exact absurd h (by simp [same])

theorem sameItems_symm {left right : List Value} (h : sameItems left right = true) :
    sameItems right left = true := by
  cases left with
  | nil =>
      cases right with
      | nil => rfl
      | cons => exact absurd h (by simp [sameItems])
  | cons item left =>
      cases right with
      | nil => exact absurd h (by simp [sameItems])
      | cons other right =>
          rw [sameItems, Bool.and_eq_true] at h ⊢
          exact ⟨same_symm h.1, sameItems_symm h.2⟩

theorem sameFields_symm {left right : List (String × Value)} (h : sameFields left right = true) :
    sameFields right left = true := by
  cases left with
  | nil =>
      cases right with
      | nil => rfl
      | cons => exact absurd h (by simp [sameFields])
  | cons field left =>
      cases right with
      | nil => exact absurd h (by simp [sameFields])
      | cons other right =>
          obtain ⟨name, value⟩ := field
          obtain ⟨name', value'⟩ := other
          rw [sameFields, Bool.and_eq_true, Bool.and_eq_true, beq_iff_eq] at h ⊢
          exact ⟨⟨h.1.1.symm, same_symm h.1.2⟩, sameFields_symm h.2⟩

end

mutual

theorem same_trans {left middle right : Value} (h : left.same middle = true)
    (hnext : middle.same right = true) : left.same right = true := by
  cases left with
  | array items =>
      cases middle with
      | array others =>
          cases right with
          | array last => exact sameItems_trans h hnext
          | _ => exact absurd hnext (by simp [same])
      | _ => exact absurd h (by simp [same])
  | object fields =>
      cases middle with
      | object others =>
          cases right with
          | object last => exact sameFields_trans h hnext
          | _ => exact absurd hnext (by simp [same])
      | _ => exact absurd h (by simp [same])
  | number value =>
      cases middle with
      | number other =>
          cases right with
          | number last => exact Number.same_trans h hnext
          | _ => exact absurd hnext (by simp [same])
      | _ => exact absurd h (by simp [same])
  | null =>
      cases middle with
      | null => exact hnext
      | _ => exact absurd h (by simp [same])
  | bool value =>
      cases middle with
      | bool other =>
          obtain rfl : value = other := by simpa [same] using h
          exact hnext
      | _ => exact absurd h (by simp [same])
  | string value =>
      cases middle with
      | string other =>
          obtain rfl : value = other := by simpa [same] using h
          exact hnext
      | _ => exact absurd h (by simp [same])
termination_by structural left

theorem sameItems_trans {left middle right : List Value} (h : sameItems left middle = true)
    (hnext : sameItems middle right = true) : sameItems left right = true := by
  cases left with
  | nil =>
      cases middle with
      | nil => exact hnext
      | cons => exact absurd h (by simp [sameItems])
  | cons item left =>
      cases middle with
      | nil => exact absurd h (by simp [sameItems])
      | cons other middle =>
          cases right with
          | nil => exact absurd hnext (by simp [sameItems])
          | cons last right =>
              rw [sameItems, Bool.and_eq_true] at h hnext ⊢
              exact ⟨same_trans h.1 hnext.1, sameItems_trans h.2 hnext.2⟩
termination_by structural left

theorem sameFields_trans {left middle right : List (String × Value)}
    (h : sameFields left middle = true) (hnext : sameFields middle right = true) :
    sameFields left right = true := by
  cases left with
  | nil =>
      cases middle with
      | nil => exact hnext
      | cons => exact absurd h (by simp [sameFields])
  | cons field left =>
      cases middle with
      | nil => exact absurd h (by simp [sameFields])
      | cons other middle =>
          cases right with
          | nil => exact absurd hnext (by simp [sameFields])
          | cons last right =>
              obtain ⟨name, value⟩ := field
              obtain ⟨name', value'⟩ := other
              obtain ⟨name'', value''⟩ := last
              rw [sameFields, Bool.and_eq_true, Bool.and_eq_true, beq_iff_eq] at h hnext ⊢
              exact ⟨⟨h.1.1.trans hnext.1.1, same_trans h.1.2 hnext.1.2⟩,
                sameFields_trans h.2 hnext.2⟩
termination_by structural left

end

/-- What is found before and after a write is not the same. -/
def Differs : Option Value → Option Value → Prop
  | none, none => False
  | some left, some right => left.same right = false
  | _, _ => True

theorem not_differs_self (found : Option Value) : ¬ Differs found found := by
  cases found with
  | none => exact id
  | some value =>
      intro h
      rw [Differs, same_refl] at h
      exact absurd h (by simp)

theorem isSome_of_differs_none {found : Option Value} (h : Differs none found) :
    found.isSome = true := by
  cases found with
  | none => exact absurd h id
  | some value => rfl

theorem isSome_of_differs_none_right {found : Option Value} (h : Differs found none) :
    found.isSome = true := by
  cases found with
  | none => exact absurd h id
  | some value => rfl

theorem not_differs_get? {left right : Dict Value} (h : sameFields left right = true)
    (key : String) : ¬ Differs (Dict.get? left key) (Dict.get? right key) := by
  induction left generalizing right with
  | nil =>
      cases right with
      | nil => exact not_differs_self none
      | cons => exact absurd h (by simp [sameFields])
  | cons field left ih =>
      cases right with
      | nil => exact absurd h (by simp [sameFields])
      | cons other right =>
          obtain ⟨name, value⟩ := field
          obtain ⟨name', value'⟩ := other
          rw [sameFields, Bool.and_eq_true, Bool.and_eq_true, beq_iff_eq] at h
          obtain ⟨⟨rfl, hvalue⟩, hfields⟩ := h
          rw [Dict.get?_cons, Dict.get?_cons]
          split
          · simp [Differs, hvalue]
          · exact ih hfields

theorem not_differs_getElem? {left right : List Value} (h : sameItems left right = true)
    (index : Nat) : ¬ Differs left[index]? right[index]? := by
  induction left generalizing right index with
  | nil =>
      cases right with
      | nil => exact not_differs_self none
      | cons => exact absurd h (by simp [sameItems])
  | cons item left ih =>
      cases right with
      | nil => exact absurd h (by simp [sameItems])
      | cons other right =>
          rw [sameItems, Bool.and_eq_true] at h
          cases index with
          | zero => simp [Differs, h.1]
          | succ index => exact ih h.2 index

/-- Objects in key order whose fields do not differ are the same. -/
theorem sameFields_of_sorted {left right : Dict Value} (hleft : Dict.Sorted left)
    (hright : Dict.Sorted right)
    (h : ∀ key, ¬ Differs (Dict.get? left key) (Dict.get? right key)) :
    sameFields left right = true := by
  induction left generalizing right with
  | nil =>
      cases right with
      | nil => rfl
      | cons other right =>
          refine absurd ?_ (h other.1)
          rw [Dict.get?_cons, if_pos rfl]
          trivial
  | cons field left ih =>
      cases right with
      | nil =>
          refine absurd ?_ (h field.1)
          rw [Dict.get?_cons, if_pos rfl]
          trivial
      | cons other right =>
          obtain ⟨name, value⟩ := field
          obtain ⟨name', value'⟩ := other
          obtain ⟨hfirst, hsorted⟩ := List.pairwise_cons.1 hleft
          obtain ⟨hfirst', hsorted'⟩ := List.pairwise_cons.1 hright
          by_cases hlt : name < name'
          · refine absurd ?_ (h name)
            rw [Dict.get?_cons, if_pos rfl, Dict.get?_eq_none_of_lt]
            · trivial
            · intro entry hentry
              rcases List.mem_cons.1 hentry with rfl | hentry
              · exact hlt
              · exact String.lt_trans hlt (hfirst' entry hentry)
          · by_cases heq : name = name'
            · subst heq
              have hvalue := h name
              rw [Dict.get?_cons, Dict.get?_cons, if_pos rfl, if_pos rfl, Differs,
                Bool.not_eq_false] at hvalue
              have hrest : sameFields left right = true := by
                refine ih hsorted hsorted' fun key => ?_
                by_cases hkey : name = key
                · subst hkey
                  rw [Dict.get?_eq_none_of_lt hfirst, Dict.get?_eq_none_of_lt hfirst']
                  exact not_differs_self none
                · have hfield := h key
                  rwa [Dict.get?_cons, Dict.get?_cons, if_neg hkey, if_neg hkey] at hfield
              simp [sameFields, hvalue, hrest]
            · refine absurd ?_ (h name')
              rw [Dict.get?_cons name', if_pos rfl, Dict.get?_eq_none_of_lt]
              · trivial
              · intro entry hentry
                rcases List.mem_cons.1 hentry with rfl | hentry
                · exact Dict.lt_of_not_lt_of_ne hlt heq
                · exact String.lt_trans (Dict.lt_of_not_lt_of_ne hlt heq) (hfirst entry hentry)

/-- An item in place of one that is the same leaves the same items. -/
theorem sameItems_set {items : List Value} {index : Nat} {old value : Value}
    (hget : items[index]? = some old) (hsame : old.same value = true) :
    sameItems items (items.set index value) = true := by
  induction items generalizing index with
  | nil => exact absurd hget (by simp)
  | cons item items ih =>
      cases index with
      | zero =>
          obtain rfl := Option.some.inj hget
          simp [sameItems, hsame, sameItems_refl items]
      | succ index =>
          have hrest := @ih index hget
          simp [sameItems, hrest, same_refl item]

/-- A field in place of one that is the same leaves the same fields. -/
theorem sameFields_insert {fields : Dict Value} {key : String} {old value : Value}
    (hsorted : Dict.Sorted fields) (hget : Dict.get? fields key = some old)
    (hsame : old.same value = true) : sameFields fields (Dict.insert fields key value) = true := by
  refine sameFields_of_sorted hsorted (hsorted.insert key value) fun other => ?_
  rw [Dict.get?_insert]
  by_cases hkey : key = other
  · subst hkey
    simp [hget, Differs, hsame]
  · rw [if_neg hkey]
    exact not_differs_self (Dict.get? fields other)

mutual

/-- The objects of a document have their fields in key order. -/
def Ordered : Value → Prop
  | .array items => OrderedItems items
  | .object fields => Dict.Sorted fields ∧ OrderedFields fields
  | _ => True

/-- The objects of items have their fields in key order. -/
def OrderedItems : List Value → Prop
  | [] => True
  | item :: items => Ordered item ∧ OrderedItems items

/-- The objects of fields have their fields in key order. -/
def OrderedFields : List (String × Value) → Prop
  | [] => True
  | (_, value) :: fields => Ordered value ∧ OrderedFields fields

end

theorem orderedItems_iff {items : List Value} :
    OrderedItems items ↔ ∀ item ∈ items, Ordered item := by
  induction items with
  | nil => simp [OrderedItems]
  | cons item items ih => simp [OrderedItems, ih]

theorem orderedFields_iff {fields : List (String × Value)} :
    OrderedFields fields ↔ ∀ field ∈ fields, Ordered field.2 := by
  induction fields with
  | nil => simp [OrderedFields]
  | cons field fields ih =>
      obtain ⟨name, value⟩ := field
      simp [OrderedFields, ih]

end Value

end Waymark.Json
