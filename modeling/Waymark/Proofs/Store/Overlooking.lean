import Waymark.Proofs.Store.Apart
import Waymark.Proofs.Store.Binding
import Waymark.Proofs.Store.Touching
/-!
Which changes a write may overlook.

What a write tells touches every key whose value has changed, with three exceptions: the path of the
write is spelled with empty parts, it leads through the same array as the key, or an array at the
key or above it gave way to an object (`touches_or_overlooked`).
-/

namespace Waymark.Store

open Waymark.Json
open Waymark.Json.Value (Differs Ordered)

namespace Write

/-- The path that a write goes to. -/
def path : Write → String
  | .set path _ _ => path
  | .remove path => path
  | .merge _ => ""
  | .clear => ""
  | .replace _ => ""

/-- Nobody is to be told of a write. -/
def isSilent : Write → Bool
  | .set _ _ options => options.silent
  | _ => false

/-- Write to a plain store. -/
def applyTo (store : Store) : Write → Written Store
  | .set path value options => store.set path value options
  | .remove path => store.remove path
  | .merge value => store.merge value
  | .clear => store.clear
  | .replace value => store.replace value

theorem apply_plain (write : Write) (store : Store) :
    write.apply (.plain store) =
      ((write.applyTo store).1, .plain (write.applyTo store).2) := by
  cases write <;> rfl

/-- Layers are not written to. -/
theorem exists_apply_layered (write : Write) (layers : List Core) :
    ∃ error, write.apply (.layered layers) = (.error error, .layered layers) := by
  cases write <;> exact ⟨_, rfl⟩

end Write

/-- Why a write may tell nothing of a change at a key. -/
inductive Overlooked (path : String) (before after : Store) (key : String) : Prop
  /-- The path has empty parts, which are left out where it is read, and not where it is told. -/
  | spelling (hroot : path ≠ "") (hspelling : ¬ Canonical path)
  /-- Items of an array have many spellings, and move when one of them is removed. -/
  | array (hthrough : ThroughArray before.tree (segments path) (segments key))
  /-- The items of an array are not told of when an object takes its place. -/
  | gaveWay {front : String} (hfront : Canonical front) (hwithin : Within key front)
      (hgave : GaveWay (before.get? front) (after.get? front))

section Told

variable {store after : Store} {changes : Changes} {path q : String}

theorem within_iff_segments {other : String} (hpath : Canonical path) (hother : Canonical other) :
    Within path other ↔ segments other <+: segments path := by
  constructor
  · intro hwithin
    obtain ⟨rest, hrest⟩ := segments_of_within hwithin
    exact ⟨rest, hrest.symm⟩
  · intro hprefix
    rw [Within, parts_eq_of_canonical hpath, parts_eq_of_canonical hother]
    exact hprefix.map String.toList

/-- What an edit does not tell of although it changes is overlooked. -/
theorem touches_or_overlooked_of_effect {edit : Edit} {new : Value}
    (heffect : Edit.Effect edit store after changes new) (hordered : Ordered store.tree)
    (hobject : store.tree.isObject = true) (hq : Canonical q)
    (hdiffers : Differs (store.get? q) (after.get? q)) :
    changes.touches q = true ∨ Overlooked edit.path store after q := by
  by_cases halong : Along edit.path q
  · rcases touches_or_gaveWay heffect hordered hobject hq hdiffers halong with htouches |
      ⟨front, hfront, hwithin, hgave⟩
    · exact .inl htouches
    · exact .inr (.gaveWay hfront hwithin hgave)
  · refine .inr ?_
    obtain ⟨hroot, hapart⟩ := not_or.1 halong
    by_cases hpath : Canonical edit.path
    · by_cases hthrough : ThroughArray store.tree (segments edit.path) (segments q)
      · exact .array hthrough
      · rw [overlap_iff hroot hq.1, within_iff_segments hpath hq, within_iff_segments hq hpath,
          not_or] at hapart
        rw [Store.get?, Store.get?,
          lookup_put_of_parted heffect.written hthrough hapart.2 hapart.1] at hdiffers
        exact absurd hdiffers (Value.not_differs_self _)
    · exact .spelling hroot hpath

/-- The leaves of a value that is taken out touch what was within it. -/
theorem touches_removedLeaves {removed tree : Value} (hordered : Ordered store.tree)
    (htaken : takeOut store.tree (segments path) = some (removed, tree)) (hpath : Canonical path)
    (hq : Canonical q) (hthrough : ¬ ThroughArray store.tree (segments path) (segments q))
    (hwithin : Within q path) (hdiffers : Differs (store.get? q) (lookup tree (segments q))) :
    (Changes.keys (removedLeaves path removed [])).touches q = true := by
  obtain ⟨rest, hrest⟩ := segments_of_within hwithin
  rw [hrest] at hthrough
  have hgone := lookup_takeOut_of_within hordered htaken rest hthrough
  rw [Store.get?, hrest, hgone, lookup_append, lookup_of_takeOut htaken,
    Option.bind_some] at hdiffers
  have hplain : ∀ segment ∈ rest, Plain segment := fun segment hsegment =>
    plain_of_mem_segments (hrest ▸ List.mem_append_right _ hsegment)
  have hway : OnWay (removedLeaves path removed []) (parts path ++ rest.map String.toList) :=
    onWay_removedLeaves hpath.1 hplain (Value.isSome_of_differs_none_right hdiffers)
  rw [parts_eq_of_canonical hpath, ← List.map_append, ← hrest,
    ← parts_eq_of_canonical hq] at hway
  exact touches_of_onWay hq hway

/-- What the removal of a value does not tell of although it changes is overlooked. -/
theorem touches_or_overlooked_of_remove (hordered : Ordered store.tree)
    (happly : store.remove path = (.ok changes, after)) (hq : Canonical q)
    (hdiffers : Differs (store.get? q) (after.get? q)) :
    changes.touches q = true ∨ Overlooked path store after q := by
  rcases of_remove_ok happly with ⟨removed, tree, htaken, rfl, rfl⟩ | ⟨-, -, rfl⟩
  · by_cases hpath : Canonical path
    · by_cases hthrough : ThroughArray store.tree (segments path) (segments q)
      · exact .inr (.array hthrough)
      by_cases habove : Within path q
      · have hreports := reports_removedLeaves path removed []
        exact .inl (touches_of_onWay hq ((hreports.widen habove).onWay hq.1))
      by_cases hbelow : Within q path
      · exact .inl (touches_removedLeaves hordered htaken hpath hq hthrough hbelow hdiffers)
      · rw [within_iff_segments hpath hq] at habove
        rw [within_iff_segments hq hpath] at hbelow
        rw [Store.get?, Store.get?,
          lookup_takeOut_of_parted htaken hthrough hbelow habove] at hdiffers
        exact absurd hdiffers (Value.not_differs_self _)
    · refine .inr (.spelling ?_ hpath)
      rintro rfl
      cases htaken
  · exact absurd hdiffers (Value.not_differs_self _)

/-- What a write tells touches every key whose value has changed, or the change is of a kind that is
overlooked. -/
theorem touches_or_overlooked {write : Write} (hordered : Ordered store.tree)
    (hbrings : write.Brings Ordered) (hobject : store.tree.isObject = true)
    (hloud : write.isSilent = false)
    (happly : write.applyTo store = (.ok changes, after)) (hq : Canonical q)
    (hdiffers : Differs (store.get? q) (after.get? q)) :
    (Bindable.toldChanges write changes).touches q = true ∨
      Overlooked write.path store after q := by
  have hsame : after = store → False := by
    rintro rfl
    exact Value.not_differs_self _ hdiffers
  cases write with
  | set path value options =>
      rw [Bindable.toldChanges, show options.silent = false from hloud]
      rcases Edit.effect_of_set hordered hbrings happly with heq | ⟨new, heffect, -⟩
      · exact absurd heq hsame
      · exact touches_or_overlooked_of_effect heffect hordered hobject hq hdiffers
  | merge value =>
      have hmerge : (Edit.merge value).apply store = (.ok changes, after) := happly
      have hvalue : Ordered (Edit.merge value).value := hbrings
      rcases Edit.effect_of_apply hordered hvalue trivial hmerge with heq | ⟨new, heffect⟩
      · exact absurd heq hsame
      · exact touches_or_overlooked_of_effect heffect hordered hobject hq hdiffers
  | remove path =>
      exact touches_or_overlooked_of_remove hordered happly hq hdiffers
  | clear =>
      obtain ⟨hchanges, -⟩ := Prod.mk.inj (of_ifWritable_ok happly)
      rw [← Except.ok.inj hchanges]
      exact .inl rfl
  | replace value => exact .inl rfl

end Told

end Waymark.Store
