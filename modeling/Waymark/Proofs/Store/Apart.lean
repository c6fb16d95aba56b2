import Waymark.Proofs.Store.Trees
/-!
What a write into a tree leaves as it is.

A write along segments changes each tree on its way under one segment (`Renewed`). An object keeps
what it holds under other segments, and an array need not: items of an array have many spellings,
and the items after a removed one move up. So a value is found where it was put (`lookup_put`), and what
stands along segments that part from those of the write stays, unless they part at an array
(`lookup_put_of_parted`, `lookup_takeOut_of_parted`).
-/

namespace Waymark.Store

open Waymark.Json
open Waymark.Json.Value (Ordered)

/-- A tree that holds a new value under a segment. -/
structure Renewed (tree : Value) (segment : String) (below after : Value) : Prop where
  held : child? after segment = some below
  others : (∀ items, tree ≠ .array items) →
    ∀ other, other ≠ segment → child? after other = child? tree other
  ordered : Ordered tree → Ordered below → Ordered after
  rooted : tree.isObject = true → after.isObject = true

/-- A tree that has lost what it held under a segment. -/
structure Lessened (tree : Value) (segment : String) (removed after : Value) : Prop where
  held : child? tree segment = some removed
  gone : (∀ items, tree ≠ .array items) → Ordered tree → child? after segment = none
  others : (∀ items, tree ≠ .array items) →
    ∀ other, other ≠ segment → child? after other = child? tree other
  ordered : Ordered tree → Ordered after
  rooted : tree.isObject = true → after.isObject = true

section Steps

variable {tree value removed after below : Value} {segment : String} {rest : List String}

theorem renewed_object (fields : Dict Value) (segment : String) (below : Value) :
    Renewed (.object fields) segment below (.object (Dict.insert fields segment below)) where
  held := Dict.get?_insert_self fields segment below
  others _ _ hne := Dict.get?_insert_of_ne fields below (Ne.symm hne)
  ordered hordered hbelow := ordered_insert hordered segment hbelow
  rooted _ := rfl

theorem lt_length_padTo (items : List Value) (index : Nat) :
    index < (padTo items index).length := by
  rw [padTo, List.length_append, List.length_replicate]
  omega

theorem padTo_of_lt {items : List Value} {index : Nat} (h : index < items.length) :
    padTo items index = items := by
  rw [padTo, Nat.sub_eq_zero_of_le h, List.replicate_zero, List.append_nil]

theorem getD_padTo (items : List Value) (index : Nat) :
    (padTo items index).getD index .null = items[index]?.getD .null := by
  rw [List.getD_eq_getElem?_getD, padTo]
  by_cases hlt : index < items.length
  · rw [List.getElem?_append_left hlt]
  · rw [List.getElem?_append_right (Nat.not_lt.1 hlt), List.getElem?_replicate,
      List.getElem?_eq_none (Nat.not_lt.1 hlt)]
    split <;> rfl

theorem renewed_array {index : Nat} (hindex : index? segment = some index) (items : List Value)
    (below : Value) :
    Renewed (.array items) segment below (.array ((padTo items index).set index below)) where
  held := by
    rw [child?, hindex]
    exact List.getElem?_set_self (lt_length_padTo items index)
  others hnot := absurd rfl (hnot items)
  ordered hordered hbelow := by
    refine Value.orderedItems_iff.2 fun item hitem => ?_
    rcases List.mem_or_eq_of_mem_set hitem with hitem | rfl
    · rcases List.mem_append.1 hitem with hitem | hnull
      · exact Value.orderedItems_iff.1 hordered item hitem
      · rw [List.eq_of_mem_replicate hnull]
        trivial
    · exact hbelow
  rooted hobject := by cases hobject

/-- What is neither an object nor an array holds nothing, and gives way to an object. -/
theorem renewed_scalar (hnone : ∀ segment, child? tree segment = none)
    (hobject : tree.isObject = false) (segment : String) (below : Value) :
    Renewed tree segment below (.object (Dict.insert [] segment below)) where
  held := Dict.get?_insert_self [] segment below
  others _ other hne := by
    rw [hnone other]
    exact Dict.get?_insert_of_ne [] below (Ne.symm hne)
  ordered _ hbelow := ordered_insert ⟨List.Pairwise.nil, trivial⟩ segment hbelow
  rooted hrooted := by
    rw [hobject] at hrooted
    cases hrooted

/-- An array takes a value below an item that it is padded to have, and stays an array. -/
theorem exists_array_of_put {items : List Value}
    (h : put value (.array items) (segment :: rest) = .ok after) :
    ∃ index below, index? segment = some index ∧
      put value ((padTo items index).getD index .null) rest = .ok below ∧
      after = .array ((padTo items index).set index below) := by
  rw [put] at h
  cases hindex : index? segment with
  | none =>
      rw [hindex] at h
      exact absurd h (by simp)
  | some index =>
      rw [hindex] at h
      obtain ⟨below, hbelow, h⟩ := bind_eq_ok_iff.1 h
      exact ⟨index, below, rfl, hbelow, (Except.ok.inj h).symm⟩

/-- A value is put below what stands under the first segment. -/
theorem renewed_of_put (h : put value tree (segment :: rest) = .ok after) :
    ∃ below, put value ((child? tree segment).getD .null) rest = .ok below ∧
      Renewed tree segment below after := by
  cases tree with
  | object fields =>
      obtain ⟨below, hbelow, h⟩ := bind_eq_ok_iff.1 h
      obtain rfl := Except.ok.inj h
      exact ⟨below, hbelow, renewed_object fields segment below⟩
  | array items =>
      obtain ⟨index, below, hindex, hbelow, rfl⟩ := exists_array_of_put h
      rw [getD_padTo] at hbelow
      refine ⟨below, ?_, renewed_array hindex items below⟩
      rw [child?, hindex]
      exact hbelow
  | _ =>
      obtain ⟨below, hbelow, h⟩ := bind_eq_ok_iff.1 h
      obtain rfl := Except.ok.inj h
      exact ⟨below, hbelow, renewed_scalar (fun _ => rfl) rfl segment below⟩

/-- What is taken out further down is taken out of what stands under the first segment. -/
theorem renewed_of_takeOut (hne : rest ≠ [])
    (h : takeOut tree (segment :: rest) = some (removed, after)) :
    ∃ child below, child? tree segment = some child ∧
      takeOut child rest = some (removed, below) ∧ Renewed tree segment below after := by
  obtain ⟨next, rest, rfl⟩ := List.exists_cons_of_ne_nil hne
  cases tree with
  | object fields =>
      obtain ⟨child, hchild, h⟩ := Option.bind_eq_some_iff.1 h
      obtain ⟨⟨taken, below⟩, hbelow, h⟩ := Option.bind_eq_some_iff.1 h
      obtain ⟨rfl, rfl⟩ := Prod.mk.inj (Option.some.inj h)
      exact ⟨child, below, hchild, hbelow, renewed_object fields segment below⟩
  | array items =>
      obtain ⟨index, hindex, h⟩ := Option.bind_eq_some_iff.1 h
      obtain ⟨child, hchild, h⟩ := Option.bind_eq_some_iff.1 h
      obtain ⟨⟨taken, below⟩, hbelow, h⟩ := Option.bind_eq_some_iff.1 h
      obtain ⟨rfl, rfl⟩ := Prod.mk.inj (Option.some.inj h)
      have hrenewed := renewed_array hindex items below
      rw [padTo_of_lt (List.getElem?_eq_some_iff.1 hchild).1] at hrenewed
      refine ⟨child, below, ?_, hbelow, hrenewed⟩
      rw [child?, hindex]
      exact hchild
  | _ => cases h

theorem lessened_of_takeOut (h : takeOut tree [segment] = some (removed, after)) :
    Lessened tree segment removed after := by
  cases tree with
  | object fields =>
      obtain ⟨child, hchild, h⟩ := Option.bind_eq_some_iff.1 h
      obtain ⟨rfl, rfl⟩ := Prod.mk.inj (Option.some.inj h)
      constructor
      · exact hchild
      · exact fun _ hordered => Dict.get?_erase_self hordered.1 segment
      · exact fun _ other hne => Dict.get?_erase_of_ne fields (Ne.symm hne)
      · refine fun hordered => ⟨hordered.1.erase segment, Value.orderedFields_iff.2 ?_⟩
        intro field hfield
        exact Value.orderedFields_iff.1 hordered.2 field
          ((Dict.erase_sublist fields segment).subset hfield)
      · exact fun _ => rfl
  | array items =>
      obtain ⟨index, hindex, h⟩ := Option.bind_eq_some_iff.1 h
      obtain ⟨child, hchild, h⟩ := Option.bind_eq_some_iff.1 h
      obtain ⟨rfl, rfl⟩ := Prod.mk.inj (Option.some.inj h)
      constructor
      · rw [child?, hindex]
        exact hchild
      · exact fun hnot => absurd rfl (hnot items)
      · exact fun hnot => absurd rfl (hnot items)
      · refine fun hordered => Value.orderedItems_iff.2 fun item hitem => ?_
        exact Value.orderedItems_iff.1 hordered item (List.mem_of_mem_eraseIdx hitem)
      · intro hobject
        cases hobject
  | _ => cases h

end Steps

section Trees

variable {tree value removed after : Value} {path key : List String}

/-- A value is found where it was put. -/
theorem lookup_put (h : put value tree path = .ok after) : lookup after path = some value := by
  induction path generalizing tree after with
  | nil =>
      obtain rfl := Except.ok.inj h
      rfl
  | cons segment path ih =>
      obtain ⟨below, hbelow, hrenewed⟩ := renewed_of_put h
      rw [lookup_cons, hrenewed.held]
      exact ih hbelow

theorem ordered_put (htree : Ordered tree) (hvalue : Ordered value)
    (h : put value tree path = .ok after) : Ordered after := by
  induction path generalizing tree after with
  | nil =>
      obtain rfl := Except.ok.inj h
      exact hvalue
  | cons segment path ih =>
      obtain ⟨below, hbelow, hrenewed⟩ := renewed_of_put h
      refine hrenewed.ordered htree (ih ?_ hbelow)
      cases hchild : child? tree segment with
      | none => trivial
      | some child => exact ordered_child? htree hchild

theorem isObject_put (htree : tree.isObject = true) (hroot : path = [] → value.isObject = true)
    (h : put value tree path = .ok after) : after.isObject = true := by
  cases path with
  | nil =>
      obtain rfl := Except.ok.inj h
      exact hroot rfl
  | cons segment path =>
      obtain ⟨below, -, hrenewed⟩ := renewed_of_put h
      exact hrenewed.rooted htree

/-- A tree loses one leaf, or is renewed under the first of several segments. -/
theorem takeOut_cases (h : takeOut tree path = some (removed, after)) :
    (∃ segment, path = [segment] ∧ Lessened tree segment removed after) ∨
    ∃ segment rest child below, path = segment :: rest ∧ rest ≠ [] ∧
      child? tree segment = some child ∧ takeOut child rest = some (removed, below) ∧
        Renewed tree segment below after := by
  cases path with
  | nil => cases h
  | cons segment rest =>
      by_cases hne : rest = []
      · subst hne
        exact .inl ⟨segment, rfl, lessened_of_takeOut h⟩
      · obtain ⟨child, below, hchild, hbelow, hrenewed⟩ := renewed_of_takeOut hne h
        exact .inr ⟨segment, rest, child, below, rfl, hne, hchild, hbelow, hrenewed⟩

theorem lookup_of_takeOut (h : takeOut tree path = some (removed, after)) :
    lookup tree path = some removed := by
  induction path generalizing tree after with
  | nil => cases h
  | cons first path ih =>
      rcases takeOut_cases h with ⟨segment, hpath, hlessened⟩ |
        ⟨segment, rest, child, below, hpath, -, hchild, hbelow, -⟩
      · obtain ⟨rfl, rfl⟩ := List.cons.inj hpath
        rw [lookup_cons, hlessened.held]
        rfl
      · obtain ⟨rfl, rfl⟩ := List.cons.inj hpath
        rw [lookup_cons, hchild]
        exact ih hbelow

theorem ordered_takeOut (htree : Ordered tree) (h : takeOut tree path = some (removed, after)) :
    Ordered after := by
  induction path generalizing tree after with
  | nil => cases h
  | cons first path ih =>
      rcases takeOut_cases h with ⟨segment, -, hlessened⟩ |
        ⟨segment, rest, child, below, hpath, -, hchild, hbelow, hrenewed⟩
      · exact hlessened.ordered htree
      · obtain ⟨rfl, rfl⟩ := List.cons.inj hpath
        exact hrenewed.ordered htree (ih (ordered_child? htree hchild) hbelow)

theorem isObject_takeOut (htree : tree.isObject = true)
    (h : takeOut tree path = some (removed, after)) : after.isObject = true := by
  rcases takeOut_cases h with ⟨segment, -, hlessened⟩ |
    ⟨segment, rest, child, below, -, -, -, -, hrenewed⟩
  · exact hlessened.rooted htree
  · exact hrenewed.rooted htree

end Trees

/-- Two paths lead through the same array. -/
def ThroughArray (tree : Value) (path key : List String) : Prop :=
  ∃ front segment rest other others items, path = front ++ segment :: rest ∧
    key = front ++ other :: others ∧ lookup tree front = some (.array items)

section Parting

variable {tree value removed after child : Value} {segment : String} {path key : List String}

theorem ThroughArray.below (hchild : child? tree segment = some child)
    (h : ThroughArray child path key) : ThroughArray tree (segment :: path) (segment :: key) := by
  obtain ⟨front, name, rest, other, others, items, rfl, rfl, hitems⟩ := h
  refine ⟨segment :: front, name, rest, other, others, items, rfl, rfl, ?_⟩
  rw [lookup_cons, hchild]
  exact hitems

/-- Paths that both have a first segment and do not lead through an array start at something else. -/
theorem ne_array_of_not_through {rest others : List String} {other : String}
    (h : ¬ ThroughArray tree (segment :: rest) (other :: others)) : ∀ items, tree ≠ .array items := by
  rintro items rfl
  exact h ⟨[], segment, rest, other, others, items, rfl, rfl, rfl⟩

theorem lookup_null (hne : path ≠ []) : lookup .null path = none := by
  obtain ⟨segment, path, rfl⟩ := List.exists_cons_of_ne_nil hne
  rfl

theorem not_throughArray_null (path key : List String) : ¬ ThroughArray .null path key := by
  rintro ⟨front, segment, rest, other, others, items, -, -, hitems⟩
  by_cases hfront : front = []
  · subst hfront
    cases hitems
  · rw [lookup_null hfront] at hitems
    cases hitems

/-- What is put in stays apart from what stands along a path that parts from it. -/
theorem lookup_put_of_parted (h : put value tree path = .ok after)
    (hthrough : ¬ ThroughArray tree path key) (habove : ¬ path <+: key) (hbelow : ¬ key <+: path) :
    lookup after key = lookup tree key := by
  induction path generalizing tree after key with
  | nil => exact absurd List.nil_prefix habove
  | cons segment path ih =>
      cases key with
      | nil => exact absurd List.nil_prefix hbelow
      | cons other key =>
          obtain ⟨below, hput, hrenewed⟩ := renewed_of_put h
          rw [lookup_cons, lookup_cons]
          by_cases heq : other = segment
          · subst heq
            rw [List.cons_prefix_cons, not_and] at habove hbelow
            have hbelow := hbelow rfl
            rw [hrenewed.held, Option.bind_some]
            cases hchild : child? tree other with
            | some child =>
                rw [hchild] at hput
                exact ih hput (fun h => hthrough (h.below hchild)) (habove rfl) hbelow
            | none =>
                rw [hchild] at hput
                have hkey : key ≠ [] := fun hnil => hbelow (hnil ▸ List.nil_prefix)
                rw [ih hput (not_throughArray_null path key) (habove rfl) hbelow, Option.bind_none]
                exact lookup_null hkey
          · rw [hrenewed.others (ne_array_of_not_through hthrough) other heq]

/-- What is taken out leaves alone what stands along a path that parts from its own. -/
theorem lookup_takeOut_of_parted (h : takeOut tree path = some (removed, after))
    (hthrough : ¬ ThroughArray tree path key) (habove : ¬ path <+: key) (hbelow : ¬ key <+: path) :
    lookup after key = lookup tree key := by
  induction path generalizing tree after key with
  | nil => exact absurd List.nil_prefix habove
  | cons first path ih =>
      cases key with
      | nil => exact absurd List.nil_prefix hbelow
      | cons other key =>
          have hnot := ne_array_of_not_through hthrough
          rw [lookup_cons, lookup_cons]
          rw [List.cons_prefix_cons, not_and] at habove hbelow
          rcases takeOut_cases h with ⟨segment, hpath, hlessened⟩ |
            ⟨segment, rest, child, below, hpath, -, hchild, htaken, hrenewed⟩
          · obtain ⟨rfl, rfl⟩ := List.cons.inj hpath
            rw [hlessened.others hnot other fun heq => habove heq.symm List.nil_prefix]
          · obtain ⟨rfl, rfl⟩ := List.cons.inj hpath
            by_cases heq : other = first
            · subst heq
              rw [hrenewed.held, hchild, Option.bind_some, Option.bind_some]
              exact ih htaken (fun h => hthrough (h.below hchild)) (habove rfl) (hbelow rfl)
            · rw [hrenewed.others hnot other heq]

/-- Nothing is left where something was taken out of an object, nor below. -/
theorem lookup_takeOut_of_within (hordered : Ordered tree)
    (h : takeOut tree path = some (removed, after)) (rest : List String)
    (hthrough : ¬ ThroughArray tree path (path ++ rest)) : lookup after (path ++ rest) = none := by
  induction path generalizing tree after with
  | nil => cases h
  | cons first path ih =>
      rw [List.cons_append] at hthrough ⊢
      rw [lookup_cons]
      rcases takeOut_cases h with ⟨segment, hpath, hlessened⟩ |
        ⟨segment, others, child, below, hpath, -, hchild, htaken, hrenewed⟩
      · obtain ⟨rfl, rfl⟩ := List.cons.inj hpath
        rw [hlessened.gone (ne_array_of_not_through hthrough) hordered, Option.bind_none]
      · obtain ⟨rfl, rfl⟩ := List.cons.inj hpath
        rw [hrenewed.held, Option.bind_some]
        exact ih (ordered_child? hordered hchild) htaken fun h => hthrough (h.below hchild)

end Parting

end Waymark.Store
