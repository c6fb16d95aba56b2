import Waymark.Proofs.Store.Diverging
import Waymark.Proofs.Store.Effective
/-!
What can be read and written after a value has been set.

A store is a lens at every path below its root: what has been set is what is read there, what
diverges reads as before, and a second value that is set leaves no trace of the first one
(`isLens_of_set`). The one exception to the frame are the indexes that an array is padded at.
-/

namespace Waymark.Store

open Waymark.Json
open Waymark.Json.Value (Differs Ordered)

section Put

variable {tree value old after : Value} {segment : String} {path : List String}

/-- Whether a value can be put somewhere does not depend on the value. -/
theorem exists_put_of_put (h : put value tree path = .ok after) (other : Value) :
    ∃ written, put other tree path = .ok written := by
  induction path generalizing tree after with
  | nil => exact ⟨other, by cases tree <;> rfl⟩
  | cons segment path ih =>
      obtain ⟨below, hbelow, -⟩ := renewed_of_put h
      obtain ⟨written, hwritten⟩ := ih hbelow
      cases tree with
      | array items =>
          obtain ⟨index, -, hindex, -, -⟩ := exists_array_of_put h
          simp only [child?, hindex, Option.bind_eq_bind, Option.bind_some] at hwritten
          exact ⟨.array ((padTo items index).set index written),
            by simp only [put, hindex, getD_padTo, hwritten]; rfl⟩
      | object fields =>
          rw [child?] at hwritten
          exact ⟨.object (Dict.insert fields segment written),
            by simp only [put, hwritten]; rfl⟩
      | _ =>
          have hnull : put other .null path = .ok written := hwritten
          exact ⟨.object (Dict.insert [] segment written), by simp only [put, hnull]; rfl⟩

/-- Of two values that are put in at the same place, the second one counts. -/
theorem put_put (h : put value tree path = .ok after) (other : Value) :
    put other after path = put other tree path := by
  induction path generalizing tree after with
  | nil =>
      cases after <;> cases tree <;> rfl
  | cons segment path ih =>
      cases tree with
      | array items =>
          obtain ⟨index, below, hindex, hbelow, rfl⟩ := exists_array_of_put h
          have hlength := lt_length_padTo items index
          have hpadded : padTo ((padTo items index).set index below) index =
              (padTo items index).set index below := padTo_of_lt (by simpa using hlength)
          have hheld : ((padTo items index).set index below).getD index .null = below := by
            simp [List.getD_eq_getElem?_getD, List.getElem?_set_self hlength]
          simp only [put, hindex, hpadded, hheld, ih hbelow, List.set_set]
      | object fields =>
          obtain ⟨below, hbelow, h⟩ := bind_eq_ok_iff.1 h
          obtain rfl := Except.ok.inj h
          simp only [put, Dict.get?_insert_self, Option.getD_some, ih hbelow, Dict.insert_insert]
      | _ =>
          obtain ⟨below, hbelow, h⟩ := bind_eq_ok_iff.1 h
          obtain rfl := Except.ok.inj h
          simp only [put, Dict.get?_insert_self, Option.getD_some, ih hbelow, Dict.insert_insert]

/-- A value can be put in place of one that is the same, and the tree stays the same. -/
theorem exists_put_of_same (hordered : Ordered tree) (hold : lookup tree path = some old)
    (hsame : old.same value = true) :
    ∃ after, put value tree path = .ok after ∧ tree.same after = true := by
  induction path generalizing tree with
  | nil =>
      obtain rfl := Option.some.inj hold
      exact ⟨value, by cases tree <;> rfl, hsame⟩
  | cons segment path ih =>
      rw [lookup_cons] at hold
      obtain ⟨child, hchild, hrest⟩ := Option.bind_eq_some_iff.1 hold
      obtain ⟨below, hbelow, hsame⟩ := ih (ordered_child? hordered hchild) hrest
      cases tree with
      | array items =>
          obtain ⟨index, hindex, hitem⟩ := Option.bind_eq_some_iff.1 hchild
          have hpadded : padTo items index = items :=
            padTo_of_lt (List.getElem?_eq_some_iff.1 hitem).1
          have hheld : items.getD index .null = child := by
            rw [List.getD_eq_getElem?_getD, hitem, Option.getD_some]
          refine ⟨.array (items.set index below), ?_, Value.sameItems_set hitem hsame⟩
          simp only [put, hindex, hpadded, hheld, hbelow]
          rfl
      | object fields =>
          rw [child?] at hchild
          refine ⟨.object (Dict.insert fields segment below), ?_,
            Value.sameFields_insert hordered.1 hchild hsame⟩
          simp only [put, hchild, Option.getD_some, hbelow]
          rfl
      | _ => cases hchild

end Put

section Lens

variable {store after : Store} {changes : Changes} {path q : String} {value written : Value}
  {options : SetOptions}

theorem set_eq_rewrite (hordered : Ordered store.tree) (hpath : segments path ≠ [])
    (hmerge : options.merge = false) :
    store.set path value options = store.ifWritable .set (Edit.rewrite store path value) := by
  have hroot : (segments path).isEmpty = false := by simpa using hpath
  rw [Edit.set_eq hordered, hroot, hmerge]
  rfl

/-- A store in which a value has been set holds the tree that a walk would make, or its own if that is
the same. -/
structure SetTo (store after : Store) (path : String) (value written : Value) : Prop where
  put_eq : put value store.tree (segments path) = .ok written
  after_eq : (after = store ∧ store.tree.same written = true) ∨ after = ⟨written, false⟩

theorem exists_setTo (hordered : Ordered store.tree) (hvalue : Ordered value)
    (hpath : segments path ≠ []) (hmerge : options.merge = false)
    (h : store.set path value options = (.ok changes, after)) :
    ∃ written, SetTo store after path value written := by
  have hwritable := writable_of_ifWritable_ok h
  rw [set_eq_rewrite hordered hpath hmerge] at h
  rcases rewrite_cases hordered hvalue (of_ifWritable_ok h) with ⟨hsame, -, rfl⟩ |
    ⟨hput, hreadOnly, -⟩
  · obtain ⟨old, hold, hsame⟩ := (Option.any_eq_true _ _).1 hsame
    obtain ⟨written, hput, hsame⟩ := exists_put_of_same hordered hold hsame
    exact ⟨written, hput, .inl ⟨rfl, hsame⟩⟩
  · refine ⟨after.tree, hput, .inr ?_⟩
    rw [← hwritable, ← hreadOnly]

namespace SetTo

theorem same (h : SetTo store after path value written) : after.tree.same written = true := by
  rcases h.after_eq with ⟨rfl, hsame⟩ | rfl
  · exact hsame
  · exact Value.same_refl written

theorem ordered (h : SetTo store after path value written) (hordered : Ordered store.tree)
    (hvalue : Ordered value) : Ordered after.tree := by
  rcases h.after_eq with ⟨rfl, -⟩ | rfl
  · exact hordered
  · exact ordered_put hordered hvalue h.put_eq

theorem writable (h : SetTo store after path value written) (hwritable : store.readOnly = false) :
    after.readOnly = false := by
  rcases h.after_eq with ⟨rfl, -⟩ | rfl
  · exact hwritable
  · rfl

theorem got (h : SetTo store after path value written) :
    ∃ found, after.get? path = some found ∧ found.same value = true := by
  have hlookup := not_differs_lookup h.same (segments path)
  rw [lookup_put h.put_eq] at hlookup
  rw [Store.get?]
  cases hfound : lookup after.tree (segments path) with
  | none => exact absurd (by rw [hfound]; trivial) hlookup
  | some found =>
      rw [hfound, Differs, Bool.not_eq_false] at hlookup
      exact ⟨found, rfl, hlookup⟩

theorem padded (h : SetTo store after path value written)
    (hpadded : PaddedAt store.tree (segments path) (segments q)) : after.get? q = some .null := by
  rcases h.after_eq with ⟨rfl, -⟩ | rfl
  · -- Where an array would be padded there is nothing yet that could be the same.
    obtain ⟨found, hfound, -⟩ := h.got
    rw [Store.get?, hpadded.lookup_eq_none.1] at hfound
    cases hfound
  · exact lookup_put_of_paddedAt h.put_eq hpadded

theorem kept (h : SetTo store after path value written)
    (hdiverge : Diverge store.tree (segments path) (segments q))
    (hpadded : ¬ PaddedAt store.tree (segments path) (segments q)) :
    after.get? q = store.get? q := by
  rcases h.after_eq with ⟨rfl, -⟩ | rfl
  · rfl
  · exact lookup_put_of_diverge h.put_eq hdiverge hpadded

/-- What is put in next comes to the same as if it had been put in at once. -/
theorem exists_put (h : SetTo store after path value written) (other : Value) :
    ∃ wanted, put other store.tree (segments path) = .ok wanted ∧
      put other after.tree (segments path) = .ok wanted := by
  obtain ⟨wanted, hwanted⟩ := exists_put_of_put h.put_eq other
  refine ⟨wanted, hwanted, ?_⟩
  rcases h.after_eq with ⟨rfl, -⟩ | rfl
  · exact hwanted
  · exact (put_put h.put_eq other).trans hwanted

end SetTo

/-- Where a value can be put, it can be set. -/
theorem exists_set_of_put (hordered : Ordered store.tree) (hvalue : Ordered value)
    (hwritable : store.readOnly = false) (hpath : segments path ≠ [])
    (hmerge : options.merge = false) (hput : put value store.tree (segments path) = .ok written) :
    ∃ changes after, store.set path value options = (.ok changes, after) ∧
      after.tree.same written = true := by
  obtain ⟨changes, after, hset⟩ : ∃ changes after,
      store.set path value options = (.ok changes, after) := by
    rw [set_eq_rewrite hordered hpath hmerge, ifWritable, hwritable, if_neg Bool.false_ne_true,
      Edit.rewrite, hput]
    dsimp only
    split
    · exact ⟨_, _, rfl⟩
    · exact ⟨_, _, rfl⟩
  refine ⟨changes, after, hset, ?_⟩
  obtain ⟨other, hother⟩ := exists_setTo hordered hvalue hpath hmerge hset
  obtain rfl := Except.ok.inj (hput.symm.trans hother.put_eq)
  exact hother.same

/-- A value that is there already is not set again. -/
theorem set_of_same (hordered : Ordered store.tree) (hwritable : store.readOnly = false)
    (hpath : segments path ≠ []) (hmerge : options.merge = false)
    (hsame : (store.get? path).any (Value.same · value) = true) :
    store.set path value options = (.ok .none, store) := by
  have hnone : diff path (lookup store.tree (segments path)) value [] = [] :=
    diff_of_same path [] hsame
  rw [set_eq_rewrite hordered hpath hmerge, ifWritable, hwritable, if_neg Bool.false_ne_true,
    Edit.rewrite, hnone]
  rfl

/-- A store after a value has been set in it is to the store before as a lens has it. -/
structure IsLens (store after : Store) (path : String) (value : Value) (options : SetOptions) :
    Prop where
  got : ∃ found, after.get? path = some found ∧ found.same value = true
  padded : ∀ q, PaddedAt store.tree (segments path) (segments q) → after.get? q = some .null
  kept : ∀ q, Diverge store.tree (segments path) (segments q) →
    ¬ PaddedAt store.tree (segments path) (segments q) → after.get? q = store.get? q
  /-- Whatever is set next comes to the same as if it had been set at once. -/
  overwritten : ∀ other next, Ordered other → next.merge = false →
    ∃ changes last changes' last', after.set path other next = (.ok changes, last) ∧
      store.set path other next = (.ok changes', last') ∧ last.tree.same last'.tree = true
  repeated : after.set path value options = (.ok .none, after)

/-- A store is a lens at every path below its root. -/
theorem isLens_of_set (hordered : Ordered store.tree) (hvalue : Ordered value)
    (hpath : segments path ≠ []) (hmerge : options.merge = false)
    (h : store.set path value options = (.ok changes, after)) :
    IsLens store after path value options := by
  have hwritable := writable_of_ifWritable_ok h
  obtain ⟨written, hset⟩ := exists_setTo hordered hvalue hpath hmerge h
  have hordered' := hset.ordered hordered hvalue
  have hwritable' := hset.writable hwritable
  constructor
  · exact hset.got
  · exact fun q hpadded => hset.padded hpadded
  · exact fun q hdiverge hpadded => hset.kept hdiverge hpadded
  · intro other next hother hnext
    obtain ⟨wanted, hput, hput'⟩ := hset.exists_put other
    obtain ⟨changes, last, hlast, hleft⟩ :=
      exists_set_of_put hordered' hother hwritable' hpath hnext hput'
    obtain ⟨changes', last', hlast', hright⟩ :=
      exists_set_of_put hordered hother hwritable hpath hnext hput
    exact ⟨changes, last, changes', last', hlast, hlast',
      Value.same_trans hleft (Value.same_symm hright)⟩
  · obtain ⟨found, hfound, hsame⟩ := hset.got
    refine set_of_same hordered' hwritable' hpath hmerge ?_
    rw [hfound]
    exact hsame

/-- A store of a list with one item. -/
def singleItem : Store :=
  ⟨.object [("list", .array [.bool true])], false⟩

/-- The store after its list has been padded to hold an object as the fourth item. -/
def paddedItem : Store :=
  ⟨.object [("list", .array [.bool true, .null, .null, .object [("a", .bool false)]])], false⟩

/-- What the list is padded with reads as null, and its first item as before. -/
theorem isLens_paddedItem :
    IsLens singleItem paddedItem "list.+3.a" (.bool false) .standard ∧
      paddedItem.get? "list.02" = some .null ∧
      paddedItem.get? "list.0" = singleItem.get? "list.0" := by
  have hordered : Ordered singleItem.tree :=
    ⟨List.pairwise_singleton _ _, ⟨trivial, trivial⟩, trivial⟩
  have hvalue : Ordered (.bool false) := trivial
  have hset : singleItem.set "list.+3.a" (.bool false) .standard =
      (.ok (.keys [("list.+3.a", .bool false)]), paddedItem) := rfl
  have hlens := isLens_of_set hordered hvalue (by decide) rfl hset
  have hpadded : PaddedAt singleItem.tree ["list", "+3", "a"] ["list", "02"] :=
    .further rfl rfl (.here rfl rfl (by decide) (by decide))
  have hdiverge : Diverge singleItem.tree ["list", "+3", "a"] ["list", "0"] :=
    ⟨by decide, by decide⟩
  have hfirst : lookup singleItem.tree ["list", "0"] = some (.bool true) := rfl
  have hkept : ¬ PaddedAt singleItem.tree ["list", "+3", "a"] ["list", "0"] := by
    intro hpadded
    rw [hpadded.lookup_eq_none.2] at hfirst
    cases hfirst
  exact ⟨hlens, hlens.padded "list.02" hpadded, hlens.kept "list.0" hdiverge hkept⟩

end Lens

end Waymark.Store
