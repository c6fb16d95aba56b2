import Mathlib.Data.List.Induction
import Waymark.Proofs.Store.Merging
import Waymark.Store.Layered
/-!
Layers of layers.

A lookup does not tell layers from layers of layers (`get?_flat`). A merged tree does: where an inner
store has lost an object or an array to something else and has got one back, it hides from the layers
before it that there was anything else between (`agrees_with_flat`).
-/

namespace Waymark.Store

open Waymark.Json
open Waymark.Json.Value (Ordered)

namespace Core

mutual

/-- The plain stores of a store, in order. -/
def leaves : Core → List Store
  | .plain store => [store]
  | .layered layers => leavesOf layers

/-- The plain stores of layers, in order. -/
def leavesOf : List Core → List Store
  | [] => []
  | layer :: rest => leaves layer ++ leavesOf rest

end

/-- Stores as layers. -/
def plains (stores : List Store) : List Core :=
  stores.map .plain

/-- The store that has the plain stores of a store as its layers. -/
def flat (core : Core) : Core :=
  .layered (plains core.leaves)

section Lookup

theorem getFirst?_append (path : String) (layers others : List Core) :
    getFirst? path (layers ++ others) = (getFirst? path layers).or (getFirst? path others) := by
  induction layers with
  | nil => rfl
  | cons layer layers ih =>
      rw [List.cons_append, getFirst?, getFirst?]
      cases get? path layer with
      | some value => rfl
      | none => exact ih

theorem anyHas_append (path : String) (layers others : List Core) :
    anyHas path (layers ++ others) = (anyHas path layers || anyHas path others) := by
  induction layers with
  | nil => rfl
  | cons layer layers ih => rw [List.cons_append, anyHas, anyHas, ih, Bool.or_assoc]

mutual

/-- The first layer that has a path has it from its first plain store that has it. -/
theorem getFirst?_leaves (path : String) (core : Core) :
    getFirst? path (plains core.leaves) = get? path core := by
  cases core with
  | plain store =>
      change (match store.get? path with | some value => some value | none => none) = store.get? path
      cases store.get? path <;> rfl
  | layered layers => exact getFirst?_leavesOf path layers

theorem getFirst?_leavesOf (path : String) (layers : List Core) :
    getFirst? path (plains (leavesOf layers)) = getFirst? path layers := by
  cases layers with
  | nil => rfl
  | cons layer rest =>
      rw [leavesOf, plains, List.map_append, getFirst?_append, getFirst?]
      have hlayer := getFirst?_leaves path layer
      have hrest := getFirst?_leavesOf path rest
      rw [plains] at hlayer hrest
      rw [hlayer, hrest]
      cases get? path layer <;> rfl

end

mutual

theorem anyHas_leaves (path : String) (core : Core) :
    anyHas path (plains core.leaves) = has path core := by
  cases core with
  | plain store => exact Bool.or_false _
  | layered layers => exact anyHas_leavesOf path layers

theorem anyHas_leavesOf (path : String) (layers : List Core) :
    anyHas path (plains (leavesOf layers)) = anyHas path layers := by
  cases layers with
  | nil => rfl
  | cons layer rest =>
      have hlayer := anyHas_leaves path layer
      have hrest := anyHas_leavesOf path rest
      rw [plains] at hlayer hrest
      rw [leavesOf, plains, List.map_append, anyHas_append, anyHas, hlayer, hrest]

end

/-- Lookups do not tell a store from its plain stores as layers. -/
theorem get?_flat (core : Core) (path : String) : core.flat.get? path = core.get? path :=
  getFirst?_leaves path core

theorem has_flat (core : Core) (path : String) : core.flat.has path = core.has path :=
  anyHas_leaves path core

end Lookup

section Merging

variable {tree : Value} {stores before : List Store} {keys : List String}

theorem mergeLayers_append (tree : Value) (layers others : List Core) :
    mergeLayers tree (layers ++ others) = mergeLayers (mergeLayers tree layers) others := by
  induction layers generalizing tree with
  | nil => rfl
  | cons layer layers ih =>
      rw [List.cons_append, mergeLayers, mergeLayers]
      exact ih _

theorem mergeLayers_concat (tree : Value) (stores : List Store) (store : Store) :
    mergeLayers tree (plains (stores ++ [store])) =
      deepMerge (mergeLayers tree (plains stores)) store.tree := by
  rw [plains, List.map_append, mergeLayers_append]
  rfl

/-- The tree is an object with its fields in order. -/
structure Sound (store : Store) : Prop where
  object : shape store.tree = .object
  ordered : Ordered store.tree

/-- What stands in a tree below its root has its shape from some of the stores. -/
def Provides (stores : List Store) (tree : Value) : Prop :=
  ∀ key keys value, under? (key :: keys) tree = some value →
    ∃ store ∈ stores, ∃ found, under? (key :: keys) store.tree = some found ∧
      shape found = shape value

theorem provides_emptyObject (stores : List Store) : Provides stores .emptyObject :=
  fun _ _ _ h => nomatch h

theorem provides_tree (store : Store) : Provides [store] store.tree :=
  fun _ _ value h => ⟨store, List.mem_singleton_self store, value, h, rfl⟩

theorem Provides.deepMerge {others : List Store} {other : Value} (h : Provides stores tree)
    (hother : Provides others other) (hordered : Ordered other) :
    Provides (stores ++ others) (deepMerge tree other) := by
  intro key keys value hvalue
  rcases under?_deepMerge hordered hvalue with ⟨found, hfound, hshape⟩ | hfound
  · obtain ⟨store, hstore, held, hheld, hsame⟩ := hother key keys found hfound
    exact ⟨store, List.mem_append_right _ hstore, held, hheld, hsame.trans hshape⟩
  · obtain ⟨store, hstore, held, hheld, hsame⟩ := h key keys value hfound
    exact ⟨store, List.mem_append_left _ hstore, held, hheld, hsame⟩

/-- A merged tree is a sound object that gets its shapes from the stores. -/
structure Gathers (stores : List Store) (tree : Value) : Prop where
  object : shape tree = .object
  ordered : Ordered tree
  provides : Provides stores tree

theorem gathers_emptyObject : Gathers [] .emptyObject :=
  ⟨rfl, ⟨List.Pairwise.nil, trivial⟩, provides_emptyObject []⟩

theorem Gathers.deepMerge {others : List Store} {other : Value} (h : Gathers stores tree)
    (hother : Gathers others other) : Gathers (stores ++ others) (Store.deepMerge tree other) where
  object := (shape_deepMerge _ _).trans hother.object
  ordered := ordered_deepMerge _ _ h.ordered hother.ordered
  provides := h.provides.deepMerge hother.provides hother.ordered

mutual

theorem gathers_snapshot (core : Core) (h : ∀ store ∈ core.leaves, Sound store) :
    Gathers core.leaves core.snapshot := by
  cases core with
  | plain store =>
      have hsound := h store (List.mem_singleton_self store)
      exact ⟨hsound.object, hsound.ordered, provides_tree store⟩
  | layered layers => exact gathers_mergeLayers [] gathers_emptyObject layers h

theorem gathers_mergeLayers (stores : List Store) {tree : Value} (htree : Gathers stores tree)
    (layers : List Core) (h : ∀ store ∈ leavesOf layers, Sound store) :
    Gathers (stores ++ leavesOf layers) (mergeLayers tree layers) := by
  cases layers with
  | nil =>
      rw [leavesOf, List.append_nil]
      exact htree
  | cons layer rest =>
      rw [leavesOf, ← List.append_assoc, mergeLayers]
      apply gathers_mergeLayers
      · apply htree.deepMerge
        exact gathers_snapshot layer fun store hstore => h store (List.mem_append_left _ hstore)
      · exact fun store hstore => h store (List.mem_append_right _ hstore)

end

theorem leavesOf_plains (stores : List Store) : leavesOf (plains stores) = stores := by
  induction stores with
  | nil => rfl
  | cons store stores ih => exact congrArg (store :: ·) ih

theorem leavesOf_append (layers others : List Core) :
    leavesOf (layers ++ others) = leavesOf layers ++ leavesOf others := by
  induction layers with
  | nil => rfl
  | cons layer layers ih => rw [List.cons_append, leavesOf, leavesOf, ih, List.append_assoc]

theorem gathers_plains {before : List Store} (htree : Gathers before tree)
    (h : ∀ store ∈ stores, Sound store) :
    Gathers (before ++ stores) (mergeLayers tree (plains stores)) := by
  have hgathers := gathers_mergeLayers before htree (plains stores)
  rw [leavesOf_plains] at hgathers
  exact hgathers h

theorem deepMerge_emptyObject (h : shape tree = .object) : deepMerge tree .emptyObject = tree := by
  cases tree with
  | object => rfl
  | _ => cases h

theorem emptyObject_deepMerge (h : shape tree = .object) (hordered : Ordered tree) :
    deepMerge .emptyObject tree = tree := by
  apply eq_of_field? ((shape_deepMerge _ _).trans h) h _ hordered
  · exact field?_deepMerge rfl h hordered
  · exact ordered_deepMerge _ _ gathers_emptyObject.ordered hordered

/-- Merging stores into trees that agree along keys keeps them in agreement. -/
theorem agreeAlong_mergeLayers_congr {other : Value} (hagree : AgreeAlong keys tree other)
    (h : ∀ store ∈ stores, Sound store) :
    AgreeAlong keys (mergeLayers tree (plains stores)) (mergeLayers other (plains stores)) := by
  induction stores generalizing tree other with
  | nil => exact hagree
  | cons store stores ih =>
      have hordered := (h store List.mem_cons_self).ordered
      apply ih (hagree.deepMerge (AgreeAlong.refl keys store.tree) hordered hordered)
      exact fun other hother => h other (List.mem_cons_of_mem _ hother)

/-- Stores merged by themselves and then into a tree, or one by one: it is the same along keys unless
a shape comes back among them that some store before them has. -/
theorem agreeAlong_plains (htree : Gathers before tree) (h : ∀ store ∈ stores, Sound store)
    (hclash : ∀ others, Comparable keys others → ∀ first ∈ before, ∀ second third,
      [second, third].Sublist stores → ¬Clash others first.tree second.tree third.tree) :
    AgreeAlong keys (deepMerge tree (mergeLayers .emptyObject (plains stores)))
      (mergeLayers tree (plains stores)) := by
  induction stores using List.reverseRecOn with
  | nil => exact AgreeAlong.of_eq (deepMerge_emptyObject htree.object)
  | append_singleton stores store ih =>
      have hstore : Sound store := h store (by simp)
      have hstores : ∀ other ∈ stores, Sound other :=
        fun other hother => h other (List.mem_append_left _ hother)
      have hinner := gathers_plains gathers_emptyObject hstores
      have hmerged := ih hstores fun others hothers first hfirst second third hsublist =>
        hclash others hothers first hfirst second third (hsublist.trans (List.sublist_append_left _ _))
      rw [mergeLayers_concat, mergeLayers_concat]
      apply AgreeAlong.trans _ (hmerged.deepMerge (AgreeAlong.refl _ _) hstore.ordered hstore.ordered)
      apply agreeAlong_deepMerge_assoc htree.ordered hinner.ordered hstore.ordered
      rintro others hothers ⟨left, middle, right, hleft, hmiddle, hright, hsame, hscalar, hne⟩
      cases others with
      | nil =>
          obtain rfl := Option.some.inj hleft
          obtain rfl := Option.some.inj hmiddle
          exact hne (hinner.object.trans htree.object.symm)
      | cons key others =>
          obtain ⟨first, hfirst, found, hfound, hshape⟩ := htree.provides key others left hleft
          obtain ⟨second, hsecond, held, hheld, hshape'⟩ := hinner.provides key others middle hmiddle
          have hsublist : [second, store].Sublist (stores ++ [store]) :=
            (List.singleton_sublist.2 hsecond).append (List.Sublist.refl [store])
          apply hclash _ hothers first hfirst second store hsublist
          refine ⟨found, held, right, hfound, hheld, hright, hshape.trans hsame, ?_, ?_⟩
          · rw [hshape]
            exact hscalar
          · rw [hshape, hshape']
            exact hne

end Merging

/-- At the end of some keys, a shape comes back in a layer: two of its plain stores have other shapes
there, and the second of them has that of a plain store of an earlier layer. -/
inductive Reverts (keys : List String) : Core → Prop
  | across {before after : List Core} {inner : Core} {first second third : Store}
      (hfirst : first ∈ leavesOf before) (hinner : [second, third].Sublist inner.leaves)
      (hclash : Clash keys first.tree second.tree third.tree) :
      Reverts keys (.layered (before ++ inner :: after))
  | within {layers : List Core} {layer : Core} (hlayer : layer ∈ layers)
      (hreverts : Reverts keys layer) : Reverts keys (.layered layers)

section Flat

variable {keys : List String}

theorem not_reverts_plain (store : Store) : ¬Reverts keys (.plain store) :=
  fun h => nomatch h

/-- Nothing comes back within a layer where all layers are plain. -/
theorem not_reverts_plains (stores : List Store) : ¬Reverts keys (.layered (plains stores)) := by
  have hplain : ∀ layer ∈ plains stores, ∃ store, layer = .plain store := by
    intro layer hlayer
    obtain ⟨store, -, rfl⟩ := List.mem_map.1 hlayer
    exact ⟨store, rfl⟩
  generalize plains stores = layers at hplain
  intro h
  cases h with
  | @across before after inner _ _ _ _ hinner _ =>
      obtain ⟨store, rfl⟩ := hplain inner (by simp)
      exact absurd hinner.length_le (by simp [leaves])
  | within hlayer hreverts =>
      obtain ⟨store, rfl⟩ := hplain _ hlayer
      exact not_reverts_plain store hreverts

/-- A shape comes back in plain layers beside one plain store only. -/
theorem clash_of_reverts {store : Store} {stores : List Store}
    (h : Reverts keys (.layered [.plain store, .layered (plains stores)])) :
    ∃ second third, [second, third].Sublist stores ∧
      Clash keys store.tree second.tree third.tree := by
  generalize hcore : Core.layered [.plain store, .layered (plains stores)] = core at h
  cases h with
  | @across before after inner first second third hfirst hinner hclash =>
      have hlayers := Core.layered.inj hcore
      rcases before with _ | ⟨layer, _ | ⟨other, before⟩⟩
      · cases hfirst
      · obtain ⟨rfl, hrest⟩ := List.cons.inj hlayers
        obtain ⟨rfl, -⟩ := List.cons.inj hrest
        obtain rfl := List.mem_singleton.1 hfirst
        rw [leaves, leavesOf_plains] at hinner
        exact ⟨second, third, hinner, hclash⟩
      · simp at hlayers
  | within hlayer hreverts =>
      rw [← Core.layered.inj hcore] at hlayer
      simp only [List.mem_cons, List.not_mem_nil, or_false] at hlayer
      rcases hlayer with rfl | rfl
      · exact absurd hreverts (not_reverts_plain store)
      · exact absurd hreverts (not_reverts_plains stores)

mutual

/-- A store has the tree of its plain stores along keys, unless a shape comes back. -/
theorem agreeAlong_snapshot (core : Core) (h : ∀ store ∈ core.leaves, Sound store)
    (hreverts : ∀ others, Comparable keys others → ¬Reverts others core) :
    AgreeAlong keys core.snapshot core.flat.snapshot := by
  cases core with
  | plain store =>
      have hsound := h store (List.mem_singleton_self store)
      exact AgreeAlong.of_eq (emptyObject_deepMerge hsound.object hsound.ordered).symm
  | layered layers => exact agreeAlong_mergeLayers [] gathers_emptyObject layers h hreverts

/-- Layers are merged into a tree as their plain stores are, layer by layer. -/
theorem agreeAlong_mergeLayers (before : List Core) {tree : Value}
    (htree : Gathers (leavesOf before) tree) (layers : List Core)
    (h : ∀ store ∈ leavesOf layers, Sound store)
    (hreverts : ∀ others, Comparable keys others → ¬Reverts others (.layered (before ++ layers))) :
    AgreeAlong keys (mergeLayers tree layers) (mergeLayers tree (plains (leavesOf layers))) := by
  cases layers with
  | nil => exact AgreeAlong.refl _ _
  | cons layer rest =>
      have hlayer : ∀ store ∈ layer.leaves, Sound store :=
        fun store hstore => h store (List.mem_append_left _ hstore)
      have hrest : ∀ store ∈ leavesOf rest, Sound store :=
        fun store hstore => h store (List.mem_append_right _ hstore)
      have hsnapshot := gathers_snapshot layer hlayer
      have hflat := gathers_plains gathers_emptyObject hlayer
      -- The layer is merged into the tree as its plain stores are.
      have hinner : AgreeAlong keys (deepMerge tree layer.snapshot)
          (mergeLayers tree (plains layer.leaves)) := by
        have hagree := agreeAlong_snapshot layer hlayer fun others hothers hlayer =>
          hreverts others hothers (.within (by simp) hlayer)
        have hmerged := (AgreeAlong.refl keys tree).deepMerge hagree hsnapshot.ordered hflat.ordered
        apply hmerged.trans
        apply agreeAlong_plains htree hlayer
        intro others hothers first hfirst second third hsublist hclash
        exact hreverts others hothers (.across hfirst hsublist hclash)
      -- The rest is merged into what comes of that.
      have hnext : Gathers (leavesOf (before ++ [layer])) (deepMerge tree layer.snapshot) := by
        rw [leavesOf_append, leavesOf, leavesOf, List.append_nil]
        exact htree.deepMerge hsnapshot
      have hothers := agreeAlong_mergeLayers (before ++ [layer]) hnext rest hrest (by simpa using hreverts)
      rw [mergeLayers, leavesOf, plains, List.map_append, mergeLayers_append]
      exact hothers.trans (agreeAlong_mergeLayers_congr hinner hrest)

end

theorem tree_cloneTree {core : Core} (h : shape core.snapshot = .object) :
    core.cloneTree.tree = core.snapshot := by
  rw [cloneTree]
  cases hsnapshot : core.snapshot with
  | object => rfl
  | _ =>
      rw [hsnapshot] at h
      cases h

/-- A store answers lookups as its plain stores in a row do. It shows the tree of that row along all
keys above and below which no shape comes back. -/
theorem agrees_with_flat (core : Core) (h : ∀ store ∈ core.leaves, Sound store) :
    (∀ path, core.get? path = core.flat.get? path ∧ core.has path = core.flat.has path) ∧
    (∀ keys, (∀ others, Comparable keys others → ¬Reverts others core) →
      under? keys core.snapshot = under? keys core.flat.snapshot ∧
        under? keys core.cloneTree.tree = under? keys core.flat.cloneTree.tree) ∧
    ((∀ keys, ¬Reverts keys core) →
      core.snapshot = core.flat.snapshot ∧ core.cloneTree = core.flat.cloneTree) := by
  have hnested := gathers_snapshot core h
  have hflat : Gathers ([] ++ core.leaves) core.flat.snapshot := gathers_plains gathers_emptyObject h
  refine ⟨fun path => ⟨(get?_flat core path).symm, (has_flat core path).symm⟩, ?_, ?_⟩
  · intro keys hreverts
    have hagree := (agreeAlong_snapshot core h hreverts).under?_eq
    rw [tree_cloneTree hnested.object, tree_cloneTree hflat.object]
    exact ⟨hagree, hagree⟩
  · intro hreverts
    have hagree : AgreeAlong [] core.snapshot core.flat.snapshot :=
      agreeAlong_snapshot core h fun others _ => hreverts others
    exact ⟨hagree, congrArg Store.ofValue hagree⟩

end Flat

/-- A store with a field and an object of one field. -/
def mixed (field : Value) (key : String) : Store :=
  ⟨.object [("x", field), ("y", .object [(key, .null)])], false⟩

theorem sound_mixed {field : Value} (h : Ordered field) (key : String) : Sound (mixed field key) := by
  have hrow : Dict.Sorted [("x", field), ("y", .object [(key, .null)])] := by
    apply List.pairwise_cons.2
    refine ⟨fun entry hentry => ?_, List.pairwise_singleton _ _⟩
    rw [List.mem_singleton.1 hentry]
    show "x" < "y"
    decide
  exact ⟨rfl, hrow, h, ⟨List.pairwise_singleton _ _, trivial, trivial⟩, trivial⟩

theorem eq_of_under?_mixed {field value : Value} {key name : String} {keys : List String}
    (h : under? ("y" :: name :: keys) (mixed field key).tree = some value) : name = key := by
  have hget : (field? (.object [(key, .null)]) name).bind (under? keys) = some value := h
  obtain ⟨below, hbelow, -⟩ := Option.bind_eq_some_iff.1 hget
  have hmem : (name, below) ∈ [(key, Value.null)] := Dict.mem_of_get? hbelow
  exact congrArg Prod.fst (List.mem_singleton.1 hmem)

/-- A field is an array, a number and an array again, the last two in a store of their own. Another
field is an object throughout. -/
def relapsing : Core :=
  .layered [.plain (mixed (.array [.ofNat 1]) "a"),
    .layered (plains [mixed (.ofNat 0) "b", mixed (.array [.ofNat 2]) "c"])]

theorem sound_relapsing : ∀ store ∈ relapsing.leaves, Sound store := by
  have harray : ∀ number, Ordered (.array [.ofNat number]) := fun _ => ⟨trivial, trivial⟩
  have hleaves : relapsing.leaves = [mixed (.array [.ofNat 1]) "a", mixed (.ofNat 0) "b",
      mixed (.array [.ofNat 2]) "c"] := rfl
  rw [hleaves]
  simp only [List.mem_cons, List.not_mem_nil, or_false]
  rintro store (rfl | rfl | rfl)
  · exact sound_mixed (harray 1) "a"
  · exact sound_mixed (show Ordered (.ofNat 0) from trivial) "b"
  · exact sound_mixed (harray 2) "c"

/-- The inner store hides that the number has taken the place of the first array. -/
theorem relapsing_differs :
    (∀ store ∈ relapsing.leaves, Sound store) ∧
      under? ["x"] relapsing.snapshot = some (.array [.ofNat 1, .ofNat 2]) ∧
      under? ["x"] relapsing.flat.snapshot = some (.array [.ofNat 2]) ∧
      relapsing.snapshot ≠ relapsing.flat.snapshot ∧
      relapsing.cloneTree ≠ relapsing.flat.cloneTree := by
  have hnested : under? ["x"] relapsing.snapshot = some (.array [.ofNat 1, .ofNat 2]) := rfl
  have hflat : under? ["x"] relapsing.flat.snapshot = some (.array [.ofNat 2]) := rfl
  have hne : under? ["x"] relapsing.snapshot ≠ under? ["x"] relapsing.flat.snapshot := by
    rw [hnested, hflat]
    simp
  refine ⟨sound_relapsing, hnested, hflat, fun h => hne (congrArg _ h), fun h => hne ?_⟩
  exact congrArg (fun store : Store => under? ["x"] store.tree) h

/-- No shape comes back along the other field, and there both show the same. -/
theorem agrees_with_flat_relapsing :
    under? ["y"] relapsing.snapshot = under? ["y"] relapsing.flat.snapshot ∧
      relapsing.get? "x" = relapsing.flat.get? "x" := by
  obtain ⟨hlookups, htrees, -⟩ := agrees_with_flat relapsing sound_relapsing
  refine ⟨(htrees ["y"] fun others hothers hreverts => ?_).1, (hlookups "x").1⟩
  obtain ⟨second, third, hsublist, hclash⟩ := clash_of_reverts hreverts
  obtain ⟨rfl, rfl⟩ : second = mixed (.ofNat 0) "b" ∧ third = mixed (.array [.ofNat 2]) "c" := by
    have heq := hsublist.eq_of_length rfl
    simpa using heq
  obtain ⟨left, middle, right, hleft, hmiddle, -, -, -, hne⟩ := hclash
  rcases others with _ | ⟨key, _ | ⟨name, others⟩⟩
  · exact hne (by rw [← Option.some.inj hleft, ← Option.some.inj hmiddle]; rfl)
  · obtain rfl : key = "y" := by simpa [Comparable, eq_comm] using hothers
    exact hne (by rw [← Option.some.inj hleft, ← Option.some.inj hmiddle]; rfl)
  · obtain rfl : key = "y" := by simpa [Comparable, eq_comm] using hothers
    have heq := (eq_of_under?_mixed hleft).symm.trans (eq_of_under?_mixed hmiddle)
    exact absurd heq (by decide)

end Core

end Waymark.Store
