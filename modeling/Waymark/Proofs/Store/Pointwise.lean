import Waymark.Proofs.Store.Merging
/-!
What stands where in a merged tree.

Along keys that lead through objects, a merged tree holds what the two trees hold there, combined:
fields of two objects are joined, items of two arrays appended, and of anything else the tree merged
in decides (`mergesAt_deepMerge`). Nothing is lost from the tree merged in, and from the other one
only what gives way to something that stands in its place or above it.
-/

namespace Waymark.Store

open Waymark.Json
open Waymark.Json.Value (Ordered OrderedFields OrderedItems)

/-- Whether a tree has something other than an object on the way along keys, before their end. -/
def Covers (keys : List String) (tree : Value) : Prop :=
  ∃ front key back found, keys = front ++ key :: back ∧ under? front tree = some found ∧
    shape found ≠ .object

/-- What is found in a merged tree, given what is found in the tree that was there and in the tree
merged in. -/
inductive Combines : Option Value → Option Value → Option Value → Prop
  | kept (target : Option Value) : Combines target none target
  | added (source : Value) : Combines none (some source) (some source)
  | joined {target source merged : Dict Value}
      (hkeys : ∀ key,
        key ∈ Dict.keys merged ↔ key ∈ Dict.keys target ∨ key ∈ Dict.keys source) :
      Combines (some (.object target)) (some (.object source)) (some (.object merged))
  | appended (target source : List Value) :
      Combines (some (.array target)) (some (.array source)) (some (.array (target ++ source)))
  | replaced {target source : Value} (h : shape target ≠ shape source ∨ shape source = .scalar) :
      Combines (some target) (some source) (some source)

/-- What a merged tree holds along keys. -/
structure MergesAt (keys : List String) (target source : Value) : Prop where
  /-- Nothing stands below what is no object in the tree merged in. -/
  covered : Covers keys source → under? keys (deepMerge target source) = none
  /-- Elsewhere, what the two trees hold is combined. -/
  combined : ¬Covers keys source →
    Combines (under? keys target) (under? keys source) (under? keys (deepMerge target source))
  /-- Nothing of the tree merged in is lost. -/
  keepsSource : (under? keys source).isSome → (under? keys (deepMerge target source)).isSome
  /-- Of the other tree, only what is covered is lost. -/
  keepsTarget : (under? keys target).isSome → ¬Covers keys source →
    (under? keys (deepMerge target source)).isSome

section Covering

variable {keys : List String} {key : String} {tree : Value}

theorem not_covers_nil (tree : Value) : ¬Covers [] tree := by
  rintro ⟨front, key, back, found, hkeys, -⟩
  simp at hkeys

theorem covers_cons_iff :
    Covers (key :: keys) tree ↔
      shape tree ≠ .object ∨ ∃ below, field? tree key = some below ∧ Covers keys below := by
  constructor
  · rintro ⟨_ | ⟨first, front⟩, next, back, found, hkeys, hfound, hshape⟩
    · obtain rfl := Option.some.inj hfound
      exact .inl hshape
    · obtain ⟨rfl, rfl⟩ := List.cons.inj hkeys
      obtain ⟨below, hbelow, hfound⟩ := Option.bind_eq_some_iff.1 hfound
      exact .inr ⟨below, hbelow, front, next, back, found, rfl, hfound, hshape⟩
  · rintro (hshape | ⟨below, hbelow, front, next, back, found, rfl, hfound, hshape⟩)
    · exact ⟨[], key, keys, tree, rfl, rfl, hshape⟩
    · refine ⟨key :: front, next, back, found, rfl, ?_, hshape⟩
      rw [under?_cons, hbelow]
      exact hfound

/-- A tree holds nothing along keys that it covers. -/
theorem Covers.under?_eq_none (h : Covers keys tree) : under? keys tree = none := by
  induction keys generalizing tree with
  | nil => exact absurd h (not_covers_nil tree)
  | cons key keys ih =>
    rw [under?_cons]
    rcases covers_cons_iff.1 h with hshape | ⟨below, hbelow, hcovers⟩
    · rw [field?_eq_none hshape]
      rfl
    · rw [hbelow]
      exact ih hcovers

theorem not_covers_of_isSome (h : (under? keys tree).isSome) : ¬Covers keys tree := by
  intro hcovers
  rw [hcovers.under?_eq_none] at h
  cases h

end Covering

section Merging

variable {keys : List String} {target source : Value}

/-- A field of an object merged into any tree. -/
theorem field?_deepMerge_of_object (hobject : shape source = .object) (hordered : Ordered source)
    (target : Value) (key : String) :
    field? (deepMerge target source) key =
      mergeFound (field? target key) (field? source key) := by
  by_cases htarget : shape target = .object
  · exact field?_deepMerge htarget hobject hordered key
  · rw [deepMerge_of_shape_ne (hobject ▸ htarget), field?_eq_none htarget]
    rfl

theorem Covers.under?_deepMerge (h : Covers keys source) (hordered : Ordered source)
    (target : Value) : under? keys (deepMerge target source) = none := by
  induction keys generalizing target source with
  | nil => exact absurd h (not_covers_nil source)
  | cons key keys ih =>
    rw [under?_cons]
    by_cases hobject : shape source = .object
    · rw [field?_deepMerge_of_object hobject hordered]
      rcases covers_cons_iff.1 h with hshape | ⟨below, hbelow, hcovers⟩
      · exact absurd hobject hshape
      · rw [hbelow]
        cases field? target key with
        | none => exact hcovers.under?_eq_none
        | some found => exact ih hcovers (ordered_field? hordered hbelow) found
    · rw [field?_eq_none (by rwa [shape_deepMerge])]
      rfl

theorem isSome_mergeFound_iff {left right : Option Value} :
    (mergeFound left right).isSome ↔ left.isSome ∨ right.isSome := by
  cases left <;> cases right <;> simp [mergeFound]

/-- Two trees are combined as a whole. -/
theorem combines_some_deepMerge (hordered : Ordered source) (target : Value) :
    Combines (some target) (some source) (some (deepMerge target source)) := by
  by_cases hshape : shape target = shape source
  · cases source with
    | object fields =>
      cases target with
      | object others =>
        refine .joined fun key => ?_
        rw [Dict.mem_keys_iff, Dict.mem_keys_iff, Dict.mem_keys_iff,
          get?_mergeFields hordered.1 others key, isSome_mergeFound_iff]
      | _ => cases hshape
    | array items =>
      cases target with
      | array others => exact .appended others items
      | _ => cases hshape
    | _ => rw [deepMerge_of_scalar rfl]; exact .replaced (.inr rfl)
  · rw [deepMerge_of_shape_ne hshape]
    exact .replaced (.inl hshape)

theorem combines_deepMerge (hordered : Ordered source) (h : ¬Covers keys source) (target : Value) :
    Combines (under? keys target) (under? keys source)
      (under? keys (deepMerge target source)) := by
  induction keys generalizing target source with
  | nil => exact combines_some_deepMerge hordered target
  | cons key keys ih =>
    obtain ⟨hobject, hbelow⟩ := not_or.1 ((not_congr covers_cons_iff).1 h)
    rw [under?_cons, under?_cons, under?_cons,
      field?_deepMerge_of_object (Decidable.not_not.1 hobject) hordered]
    cases hsource : field? source key with
    | none =>
      cases field? target key with
      | none => exact .kept none
      | some found => exact .kept (under? keys found)
    | some below =>
      have hfree : ¬Covers keys below := fun hcovers => hbelow ⟨below, hsource, hcovers⟩
      cases field? target key with
      | none =>
        show Combines none (under? keys below) (under? keys below)
        cases under? keys below with
        | none => exact .kept none
        | some value => exact .added value
      | some found => exact ih (ordered_field? hordered hsource) hfree found

theorem Combines.isSome_of_source {left right merged : Option Value}
    (h : Combines left right merged) (hright : right.isSome) : merged.isSome := by
  cases h with
  | kept => cases hright
  | _ => rfl

theorem Combines.isSome_of_target {left right merged : Option Value}
    (h : Combines left right merged) (hleft : left.isSome) : merged.isSome := by
  cases h with
  | kept => exact hleft
  | _ => rfl

/-- What a merged tree holds along keys that lead through objects: nothing where the tree merged in
has something else than an object on the way, and otherwise what the two trees hold there,
combined. -/
theorem mergesAt_deepMerge (hordered : Ordered source) (target : Value) (keys : List String) :
    MergesAt keys target source where
  covered h := h.under?_deepMerge hordered target
  combined h := combines_deepMerge hordered h target
  keepsSource h :=
    (combines_deepMerge hordered (not_covers_of_isSome h) target).isSome_of_source h
  keepsTarget htarget h := (combines_deepMerge hordered h target).isSome_of_target htarget

/-- A tree whose fields are of every shape. -/
def manifold : Value :=
  .object [("a", .object [("b", .ofNat 0), ("c", .array [.ofNat 1])]),
    ("d", .object [("e", .null)]), ("f", .ofNat 2)]

/-- A tree that has fields of other shapes in part. -/
def reshaping : Value :=
  .object [("a", .object [("c", .array [.ofNat 3]), ("g", .bool true)]), ("d", .ofNat 4),
    ("f", .object [("h", .null)])]

theorem mergesAt_reshaping :
    Ordered reshaping ∧ under? ["d", "e"] manifold = some .null ∧
      under? ["d", "e"] (deepMerge manifold reshaping) = none ∧
      (under? ["f", "h"] (deepMerge manifold reshaping)).isSome ∧
      Combines (some (.array [.ofNat 1])) (some (.array [.ofNat 3]))
        (under? ["a", "c"] (deepMerge manifold reshaping)) := by
  have hordered : Ordered reshaping := by
    refine ⟨?_, ⟨?_, ⟨trivial, trivial⟩, trivial, trivial⟩, trivial,
      ⟨List.pairwise_singleton _ _, trivial, trivial⟩, trivial⟩
    · show List.Pairwise _ _
      decide
    · show List.Pairwise _ _
      decide
  have hcovers : Covers ["d", "e"] reshaping := ⟨["d"], "e", [], .ofNat 4, rfl, rfl, by decide⟩
  have hlists : ¬Covers ["a", "c"] reshaping := not_covers_of_isSome rfl
  refine ⟨hordered, rfl, ?_, ?_, ?_⟩
  · exact (mergesAt_deepMerge hordered manifold _).covered hcovers
  · exact (mergesAt_deepMerge hordered manifold _).keepsSource rfl
  · exact (mergesAt_deepMerge hordered manifold _).combined hlists

end Merging

end Waymark.Store
