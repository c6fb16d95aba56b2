import Waymark.Proofs.Store.Diverging
import Waymark.Proofs.Store.Overlooking
/-!
What can be read after a removal.

A removed field leaves a gap and a removed item does not: the items after it move up. So what
diverges from the path of a removal reads as before or as what stood one index further, and the path
itself reads as absent unless an item has moved up to it (`removes_of_remove`).
-/

namespace Waymark.Store

open Waymark.Json
open Waymark.Json.Value (Ordered)

/-- An array has an item after the one that a path leads to. -/
def Followed (tree : Value) (path : List String) : Prop :=
  ∃ item, MovesUp tree path path (some item)

/-- What a removal leaves of a store that has a value at the path. -/
structure Removes (store after : Store) (path : String) (changes : Changes) : Prop where
  moved : ∀ q found, MovesUp store.tree (segments path) (segments q) found → after.get? q = found
  kept : ∀ q, Diverge store.tree (segments path) (segments q) →
    (∀ found, ¬ MovesUp store.tree (segments path) (segments q) found) →
      after.get? q = store.get? q
  has_iff : after.has path = true ↔ Followed store.tree (segments path)
  /-- What is reported reads as absent. -/
  reported : ¬ Followed store.tree (segments path) →
    ∃ values, changes = .keys values ∧ ∀ key ∈ Dict.keys values, after.has key = false
  /-- A second removal finds nothing. -/
  repeated : ¬ Followed store.tree (segments path) → after.remove path = (.ok .none, after)

/-- Something is left at a path if and only if an item has moved up to it. -/
theorem isSome_lookup_takeOut_iff {tree removed after : Value} {path : List String}
    (hordered : Ordered tree) (h : takeOut tree path = some (removed, after)) :
    (lookup after path).isSome = true ↔ Followed tree path := by
  constructor
  · intro hfound
    rcases lookup_takeOut_self hordered h with hnone | ⟨item, hmoves, -⟩
    · rw [hnone] at hfound
      cases hfound
    · exact ⟨item, hmoves⟩
  · rintro ⟨item, hmoves⟩
    rw [lookup_takeOut_of_movesUp h hmoves]
    rfl

section Removing

variable {store after : Store} {path key : String} {changes : Changes}

theorem has_eq_false_iff :
    store.has path = false ↔ lookup store.tree (segments path) = none := by
  rw [Store.has, Store.get?, Option.isSome_eq_false_iff, Option.isNone_iff_eq_none]

theorem remove_of_absent (hwritable : store.readOnly = false) (habsent : store.has path = false) :
    store.remove path = (.ok .none, store) := by
  have hnone : takeOut store.tree (segments path) = none := by
    cases htaken : takeOut store.tree (segments path) with
    | none => rfl
    | some taken =>
        have hfound := lookup_of_takeOut htaken
        rw [has_eq_false_iff.1 habsent] at hfound
        cases hfound
  rw [Store.remove, hnone, ifWritable, hwritable]
  rfl

/-- Nothing is found below a path that reads as absent. -/
theorem has_of_within (habsent : store.has path = false) (hwithin : Within key path) :
    store.has key = false := by
  obtain ⟨rest, hsegments⟩ := segments_of_within hwithin
  rw [has_eq_false_iff] at habsent ⊢
  rw [hsegments, lookup_append, habsent]
  rfl

/-- What is there is taken out, and its leaves are reported. -/
theorem exists_takeOut_of_remove (hpath : segments path ≠ []) (hpresent : store.has path = true)
    (h : store.remove path = (.ok changes, after)) :
    ∃ removed tree, takeOut store.tree (segments path) = some (removed, tree) ∧
      after = ⟨tree, false⟩ ∧ changes = .keys (removedLeaves path removed []) := by
  obtain ⟨found, hfound⟩ := Option.isSome_iff_exists.1 hpresent
  obtain ⟨_, hthere⟩ := exists_takeOut_of_lookup hpath hfound
  have hwritable := writable_of_ifWritable_ok h
  rcases of_remove_ok h with ⟨removed, tree, htaken, rfl, rfl⟩ | ⟨hnone, -, -⟩
  · exact ⟨removed, tree, htaken, by rw [hwritable], rfl⟩
  · cases hnone.symm.trans hthere

/-- A removal changes nothing where a path reads as absent. Otherwise the path reads as absent
afterwards, as do all keys that are reported, unless an item has moved up to it, and what diverges
from it has moved up as well or reads as before. -/
theorem removes_of_remove (hordered : Ordered store.tree) (hpath : segments path ≠ [])
    (h : store.remove path = (.ok changes, after)) :
    (store.has path = false → changes = .none ∧ after = store) ∧
      (store.has path = true → Removes store after path changes) := by
  constructor
  · intro habsent
    rw [remove_of_absent (writable_of_ifWritable_ok h) habsent] at h
    obtain ⟨hchanges, rfl⟩ := Prod.mk.inj h
    exact ⟨(Except.ok.inj hchanges).symm, rfl⟩
  · intro hpresent
    obtain ⟨removed, tree, htaken, rfl, rfl⟩ := exists_takeOut_of_remove hpath hpresent h
    have hhas : Store.has ⟨tree, false⟩ path = true ↔ Followed store.tree (segments path) :=
      isSome_lookup_takeOut_iff hordered htaken
    have habsent : ¬ Followed store.tree (segments path) → Store.has ⟨tree, false⟩ path = false :=
      fun hlast => Bool.not_eq_true _ ▸ mt hhas.1 hlast
    constructor
    · exact fun q found hmoves => lookup_takeOut_of_movesUp htaken hmoves
    · exact fun q hdiverge hmoves => lookup_takeOut_of_diverge htaken hdiverge hmoves
    · exact hhas
    · refine fun hlast => ⟨_, rfl, fun key hkey => ?_⟩
      have hwithin := ((extends_removedLeaves path removed []).within key hkey).resolve_left
        List.not_mem_nil
      exact has_of_within (habsent hlast) hwithin
    · exact fun hlast => remove_of_absent rfl (habsent hlast)

/-- A store of a list with two items, each with a field. -/
def twoItems : Store :=
  ⟨.object [("list", .array [.object [("a", .bool true)], .object [("b", .bool false)]])], false⟩

/-- The store after the first of its items has been removed. -/
def secondItem : Store :=
  ⟨.object [("list", .array [.object [("b", .bool false)]])], false⟩

/-- The store after the field of its first item has been removed. -/
def bareItem : Store :=
  ⟨.object [("list", .array [.object [], .object [("b", .bool false)]])], false⟩

/-- The second item moves up to where the first one has been removed, and is found there with its
field. A field of an item leaves nothing behind. -/
theorem removes_twoItems :
    secondItem.has "list.0" = true ∧ secondItem.get? "list.00.b" = some (.bool false) ∧
      bareItem.has "list.0.a" = false ∧ bareItem.remove "list.0.a" = (.ok .none, bareItem) := by
  have hordered : Ordered twoItems.tree := by
    refine ⟨List.pairwise_singleton _ _, ⟨?_, ?_, trivial⟩, trivial⟩
    · exact ⟨List.pairwise_singleton _ _, trivial, trivial⟩
    · exact ⟨List.pairwise_singleton _ _, trivial, trivial⟩
  have hitem : twoItems.remove "list.0" = (.ok (.keys [("list.0.a", .null)]), secondItem) := rfl
  have hfield : twoItems.remove "list.0.a" = (.ok (.keys [("list.0.a", .null)]), bareItem) := rfl
  have hup := (removes_of_remove hordered (by decide) hitem).2 rfl
  have hgone := (removes_of_remove hordered (by decide) hfield).2 rfl
  have hfollowed : Followed twoItems.tree ["list", "0"] :=
    ⟨_, .further rfl rfl (.here rfl rfl (Nat.le_refl 0))⟩
  have hmoves : MovesUp twoItems.tree ["list", "0"] ["list", "00", "b"] (some (.bool false)) :=
    .further rfl rfl (.here rfl rfl (Nat.le_refl 0))
  have hlast : ¬ Followed twoItems.tree ["list", "0", "a"] := by
    rintro ⟨item, hmoves⟩
    cases hmoves with
    | further _ hlist hmoves =>
      obtain rfl := Option.some.inj hlist
      cases hmoves with
      | further _ hitem hmoves =>
        obtain rfl := Option.some.inj hitem
        cases hmoves with
        | further _ _ hmoves => cases hmoves
  exact ⟨hup.has_iff.2 hfollowed, hup.moved "list.00.b" _ hmoves,
    Bool.not_eq_true _ ▸ mt hgone.has_iff.1 hlast, hgone.repeated hlast⟩

/-- Something is left where the first item has been removed, and a second removal takes it away as
well. Where the field of the item has been removed, a path that spells the index otherwise reads
differently from before. -/
theorem left_and_respelled_twoItems :
    (twoItems.remove "list.0" = (.ok (.keys [("list.0.a", .null)]), secondItem) ∧
      secondItem.has "list.0" = true ∧
      (secondItem.remove "list.0").1.toOption.any (fun changes => !changes.isEmpty) = true) ∧
    (twoItems.remove "list.0.a" = (.ok (.keys [("list.0.a", .null)]), bareItem) ∧
      ¬ segments "list.0.a" <+: segments "list.00.a" ∧
      ¬ segments "list.00.a" <+: segments "list.0.a" ∧
      twoItems.has "list.00.a" = true ∧ bareItem.has "list.00.a" = false) :=
  ⟨⟨rfl, rfl, rfl⟩, rfl, by decide, by decide, rfl, rfl⟩

end Removing

end Waymark.Store
