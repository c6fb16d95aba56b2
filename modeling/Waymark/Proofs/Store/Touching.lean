import Waymark.Proofs.Store.InPlace
import Waymark.Proofs.Store.Reports
import Waymark.Store.Basic
/-!
Which changes of a store are told of.

Setting a value and merging an object report the leaves in which the trees differ, under the path as
it was given. The report touches every path whose value has changed if and only if two things hold:
all these paths overlap the given one as it is spelled, and every array that gave way to an object is
itself reported (`touches_iff`). What a write that succeeds has done is said once for each kind
(`of_merge_ok`, `of_remove_ok`, `Edit.of_rewrite_ok`).
-/

namespace Waymark.Store

open Waymark.Json
open Waymark.Json.Value (Differs Ordered)

section Answers

variable {store after : Store} {changes : Changes}

/-- A store that may be written to takes what is written. -/
theorem of_ifWritable_ok {operation : Operation} {written : Written Store} {changes : Changes}
    (h : store.ifWritable operation written = (.ok changes, after)) :
    written = (.ok changes, after) := by
  rw [Store.ifWritable] at h
  split at h
  · exact absurd h (by simp)
  · exact h

theorem writable_of_ifWritable_ok {operation : Operation} {written : Written Store}
    {changes : Changes} (h : store.ifWritable operation written = (.ok changes, after)) :
    store.readOnly = false := by
  rw [Store.ifWritable] at h
  split at h
  · exact absurd h (by simp)
  · next hwritable => exact Bool.not_eq_true _ ▸ hwritable

/-- Merging an object reports how the trees differ. -/
theorem of_merge_ok {value : Value} (h : store.merge value = (.ok changes, after)) :
    (deepMerge store.tree value).isObject = true ∧
      changes = diffTrees store.tree (deepMerge store.tree value) ∧
      after = { store with tree := deepMerge store.tree value } := by
  rw [Store.merge] at h
  split at h
  · have hwritten := of_ifWritable_ok h
    dsimp only at hwritten
    split at hwritten
    · next hobject =>
      obtain ⟨hchanges, rfl⟩ := Prod.mk.inj hwritten
      exact ⟨hobject, (Except.ok.inj hchanges).symm, rfl⟩
    · cases (Prod.mk.inj hwritten).1
  · cases (Prod.mk.inj h).1

/-- What is there is taken out and its leaves are reported, and otherwise nothing is done. -/
theorem of_remove_ok {path : String} (h : store.remove path = (.ok changes, after)) :
    (∃ removed tree, takeOut store.tree (segments path) = some (removed, tree) ∧
      changes = .keys (removedLeaves path removed []) ∧ after = { store with tree := tree }) ∨
    takeOut store.tree (segments path) = none ∧ changes = .none ∧ after = store := by
  have hwritten := of_ifWritable_ok h
  split at hwritten
  · next removed tree htaken =>
    obtain ⟨hchanges, rfl⟩ := Prod.mk.inj hwritten
    exact .inl ⟨removed, tree, htaken, (Except.ok.inj hchanges).symm, rfl⟩
  · next hnone =>
    obtain ⟨hchanges, rfl⟩ := Prod.mk.inj hwritten
    exact .inr ⟨hnone, (Except.ok.inj hchanges).symm, rfl⟩

end Answers

/-- A value that is set at a path, or an object that is merged into the tree. -/
inductive Edit where
  | set (path : String) (value : Value) (options : SetOptions)
  | merge (value : Value)

namespace Edit

/-- The path under which changes are reported. -/
def path : Edit → String
  | .set path _ _ => path
  | .merge _ => ""

/-- The value that is written. -/
def value : Edit → Value
  | .set _ value _ => value
  | .merge value => value

/-- Write to a store. -/
def apply (store : Store) : Edit → Written Store
  | .set path value options => store.set path value options
  | .merge value => store.merge value

/-- Nothing is set at the root itself. -/
def Proper : Edit → Prop
  | .set path _ _ => segments path ≠ []
  | .merge _ => True

/-- What an edit does that changes something: it puts a new value at its path and reports the
comparison with the old one. -/
structure Effect (edit : Edit) (store after : Store) (changes : Changes) (new : Value) : Prop where
  ordered : Ordered new
  written : put new store.tree (segments edit.path) = .ok after.tree
  reported : changes = .keys (diff edit.path (lookup store.tree (segments edit.path)) new [])
  differs : edit.path ≠ "" →
    ¬ (lookup store.tree (segments edit.path)).any (Value.same · new) = true
  rooted : edit.path = "" → new.isObject = true

variable {edit : Edit} {store after : Store} {changes : Changes}

/-- The value that takes the place of an old one. -/
def replacement (merge : Bool) (old : Option Value) (value : Value) : Value :=
  match merge, old with
  | true, some old => deepMerge old value
  | _, _ => value

/-- Put a new value in place of the one at a path. -/
def rewrite (store : Store) (path : String) (new : Value) : Written Store :=
  let changed := diff path (lookup store.tree (segments path)) new []
  if changed.isEmpty then (.ok .none, store)
  else
    match put new store.tree (segments path) with
    | .ok tree => (.ok (.keys changed), { store with tree := tree })
    | .error e => (.error e, store)

theorem set_eq (hordered : Ordered store.tree) (path : String) (value : Value)
    (options : SetOptions) :
    store.set path value options = store.ifWritable .set
      (if (segments path).isEmpty && !value.isObject then (.error (.assertion .objectAtRoot), store)
      else rewrite store path
        (replacement options.merge (lookup store.tree (segments path)) value)) := by
  unfold Store.set rewrite replacement
  simp only [putInPlace_eq hordered]
  cases put _ store.tree (segments path) <;> rfl

theorem ordered_replacement {tree value : Value} {path : List String} {merge : Bool}
    (htree : Ordered tree) (hvalue : Ordered value) :
    Ordered (replacement merge (lookup tree path) value) := by
  unfold replacement
  split
  · next old hold => exact ordered_deepMerge old value (ordered_lookup htree hold) hvalue
  · exact hvalue

/-- A value that does not differ is left alone, and any other is put in and the difference is
reported. -/
theorem of_rewrite_ok {path : String} {new : Value}
    (h : rewrite store path new = (.ok changes, after)) :
    (diff path (lookup store.tree (segments path)) new [] = [] ∧ changes = .none ∧
      after = store) ∨
    diff path (lookup store.tree (segments path)) new [] ≠ [] ∧
      put new store.tree (segments path) = .ok after.tree ∧ after.readOnly = store.readOnly ∧
      changes = .keys (diff path (lookup store.tree (segments path)) new []) := by
  simp only [rewrite] at h
  split at h
  · next hempty =>
    obtain ⟨hchanges, rfl⟩ := Prod.mk.inj h
    exact .inl ⟨List.isEmpty_iff.1 hempty, (Except.ok.inj hchanges).symm, rfl⟩
  · next hchanged =>
    split at h
    · next tree hput =>
      obtain ⟨hchanges, rfl⟩ := Prod.mk.inj h
      exact .inr ⟨mt List.isEmpty_iff.2 hchanged, hput, rfl, (Except.ok.inj hchanges).symm⟩
    · cases (Prod.mk.inj h).1

/-- What is put in place of a value is the same, or it is told of. -/
theorem effect_of_rewrite {path : String} {value : Value} {options : SetOptions} {new : Value}
    (hnew : Ordered new) (hroot : path = "" → new.isObject = true)
    (happly : rewrite store path new = (.ok changes, after)) :
    after = store ∨ Effect (.set path value options) store after changes new := by
  rcases of_rewrite_ok happly with ⟨-, -, rfl⟩ | ⟨hchanged, hput, -, rfl⟩
  · exact .inl rfl
  · refine .inr ⟨hnew, hput, rfl, fun _ hsame => ?_, hroot⟩
    exact hchanged (diff_of_same path [] hsame)

theorem isObject_replacement {merge : Bool} {old : Option Value} {value : Value}
    (hvalue : value.isObject = true) : (replacement merge old value).isObject = true := by
  unfold replacement
  split
  · next old =>
    cases value with
    | object fields => cases old <;> rfl
    | _ => cases hvalue
  · exact hvalue

/-- Setting a value changes nothing or puts a new value at its path, which is an object where the
path is the root. -/
theorem effect_of_set {path : String} {value : Value} {options : SetOptions}
    (hordered : Ordered store.tree) (hvalue : Ordered value)
    (happly : store.set path value options = (.ok changes, after)) :
    after = store ∨ ∃ new, Effect (.set path value options) store after changes new ∧
      (segments path = [] → new.isObject = true) := by
  have hnew : Ordered (replacement options.merge (lookup store.tree (segments path)) value) :=
    ordered_replacement hordered hvalue
  rw [set_eq hordered] at happly
  have hwritten := of_ifWritable_ok happly
  split at hwritten
  · cases (Prod.mk.inj hwritten).1
  · next hguard =>
    have hroot : segments path = [] →
        (replacement options.merge (lookup store.tree (segments path)) value).isObject = true := by
      intro hsegments
      refine isObject_replacement ?_
      rw [hsegments] at hguard
      simpa using hguard
    refine (effect_of_rewrite hnew (fun hempty => hroot (by rw [hempty]; rfl)) hwritten).imp_right
      fun heffect => ⟨_, heffect, hroot⟩

/-- An edit that succeeds changes nothing or puts a new value at its path. -/
theorem effect_of_apply (hordered : Ordered store.tree) (hvalue : Ordered edit.value)
    (hproper : edit.Proper) (happly : edit.apply store = (.ok changes, after)) :
    after = store ∨ ∃ new, Effect edit store after changes new := by
  cases edit with
  | set path value options =>
      have hpath : path ≠ "" := by
        rintro rfl
        exact hproper rfl
      have hnew : Ordered (replacement options.merge (lookup store.tree (segments path)) value) :=
        ordered_replacement hordered hvalue
      rw [apply, set_eq hordered] at happly
      have hwritten := of_ifWritable_ok happly
      split at hwritten
      · cases (Prod.mk.inj hwritten).1
      · exact (effect_of_rewrite hnew (fun hempty => absurd hempty hpath) hwritten).imp_right
          fun heffect => ⟨_, heffect⟩
  | merge value =>
      obtain ⟨hobject, rfl, rfl⟩ := of_merge_ok happly
      exact .inr ⟨_, ordered_deepMerge store.tree value hordered hvalue, rfl, rfl,
        fun hne => absurd rfl hne, fun _ => hobject⟩

end Edit

section Touching

variable {path key q front : String} {result : Dict Value}

theorem touches_keys_iff :
    (Changes.keys result).touches q = true ↔ ∃ key ∈ Dict.keys result, overlap key q = true := by
  simp only [Changes.touches, List.any_eq_true, Dict.keys, List.mem_map]
  constructor
  · rintro ⟨⟨key, value⟩, hmem, h⟩
    exact ⟨key, ⟨_, hmem, rfl⟩, h⟩
  · rintro ⟨key, ⟨field, hmem, rfl⟩, h⟩
    exact ⟨field, hmem, h⟩

theorem touches_of_onWay (hq : Canonical q) (h : OnWay result (parts q)) :
    (Changes.keys result).touches q = true := by
  obtain ⟨key, hkey, hne, hway⟩ := h
  exact touches_keys_iff.2 ⟨key, hkey, (overlap_iff hne hq.1).2 hway.symm⟩

/-- A path overlaps the one under which changes are reported. -/
def Along (path q : String) : Prop :=
  path = "" ∨ overlap path q = true

/-- A key is reported that is the given path or above it. -/
def ReportedAbove (changes : Changes) (front : String) : Prop :=
  ∃ values, changes = .keys values ∧ ∃ key ∈ Dict.keys values, key ≠ "" ∧ Within front key

/-- What is touched overlaps the path under which changes are reported. -/
theorem along_of_touches (hq : Canonical q)
    (hwithin : ∀ key ∈ Dict.keys result, Within key path)
    (h : (Changes.keys result).touches q = true) : Along path q := by
  by_cases hpath : path = ""
  · exact .inl hpath
  · obtain ⟨key, hkey, hoverlap⟩ := touches_keys_iff.1 h
    have hkeypath := hwithin key hkey
    refine .inr ((overlap_iff hpath hq.1).2 ?_)
    rcases (overlap_iff (ne_empty_of_overlap hq hoverlap) hq.1).1 hoverlap with habove | hbelow
    · exact (List.prefix_or_prefix_of_prefix hkeypath habove).symm
    · exact .inr (hbelow.trans hkeypath)

theorem within_keys_diff (path : String) (old : Option Value) (new : Value) :
    ∀ key ∈ Dict.keys (diff path old new []), Within key path :=
  fun key hkey => ((extends_diff path old new []).within key hkey).resolve_left List.not_mem_nil

end Touching

section Reported

variable {edit : Edit} {store after : Store} {changes : Changes} {new : Value} {q : String}

theorem ReportedAbove.touches {front : String} (h : ReportedAbove changes front) (hq : Canonical q)
    (hwithin : Within q front) : changes.touches q = true := by
  obtain ⟨values, rfl, key, hkey, hne, habove⟩ := h
  exact touches_keys_iff.2 ⟨key, hkey, (overlap_iff hne hq.1).2 (.inr (hwithin.trans habove))⟩

theorem exists_object {tree : Value} (h : tree.isObject = true) :
    ∃ fields, tree = .object fields := by
  cases tree with
  | object fields => exact ⟨fields, rfl⟩
  | _ => exact absurd h (by simp [Value.isObject])

/-- What differs below the path of an edit is touched, or an array above it gave way. -/
theorem touches_or_gaveWay_of_within (heffect : Edit.Effect edit store after changes new)
    (hordered : Ordered store.tree) (hpath : edit.path ≠ "") (hq : Canonical q)
    (hdiffers : Differs (store.get? q) (after.get? q)) (hwithin : Within q edit.path) :
    changes.touches q = true ∨ ∃ front, Canonical front ∧ Within q front ∧
      GaveWay (store.get? front) (after.get? front) := by
  obtain ⟨rest, hsegments⟩ := segments_of_within hwithin
  have hcanonical := canonical_of_within hq hpath hwithin
  have hplain : ∀ segment ∈ rest, Plain segment := fun segment hsegment =>
    plain_of_mem_segments (hsegments ▸ List.mem_append_right _ hsegment)
  have hwritten := lookup_put heffect.written
  have hbefore : ∀ names, lookup store.tree (segments edit.path ++ names) =
      (lookup store.tree (segments edit.path)).bind (lookup · names) :=
    lookup_append store.tree (segments edit.path)
  have hafter : ∀ names, lookup after.tree (segments edit.path ++ names) = lookup new names := by
    intro names
    rw [lookup_append, hwritten, Option.bind_some]
  rw [Store.get?, Store.get?, hsegments, hbefore, hafter] at hdiffers
  have hreported := @reportedOrGaveWay_diff edit.path [] _ new rest hpath hplain
    (fun tree htree => ordered_lookup hordered htree) heffect.ordered hdiffers
  rcases hreported with hway | ⟨front, below, hrest, hgave⟩
  · rw [parts_eq_of_canonical hcanonical, ← List.map_append, ← hsegments,
      ← parts_eq_of_canonical hq] at hway
    rw [heffect.reported]
    exact .inl (touches_of_onWay hq hway)
  · have hnames : segments q = (segments edit.path ++ front) ++ below := by
      rw [hsegments, hrest, List.append_assoc]
    obtain ⟨path, hpath, habove, hfront⟩ := exists_above hq hnames
      (List.append_ne_nil_of_left_ne_nil (segments_ne_nil hcanonical) front)
    refine .inr ⟨path, hpath, habove, ?_⟩
    rw [Store.get?, Store.get?, hfront, hbefore, hafter]
    exact hgave

/-- The same for what differs after a merge. -/
theorem touches_or_gaveWay_of_root (heffect : Edit.Effect edit store after changes new)
    (hordered : Ordered store.tree) (hobject : store.tree.isObject = true) (hpath : edit.path = "")
    (hq : Canonical q) (hdiffers : Differs (store.get? q) (after.get? q)) :
    changes.touches q = true ∨ ∃ front, Canonical front ∧ Within q front ∧
      GaveWay (store.get? front) (after.get? front) := by
  obtain ⟨olds, holds⟩ := exists_object hobject
  obtain ⟨news, rfl⟩ := exists_object (heffect.rooted hpath)
  have hwritten := heffect.written
  have hreported := heffect.reported
  rw [hpath] at hwritten hreported
  have hafter : after.tree = .object news := (Except.ok.inj hwritten).symm
  rw [holds] at hordered hreported
  rw [Store.get?, Store.get?, holds, hafter] at hdiffers
  have hplain : ∀ segment ∈ segments q, Plain segment := fun _ => plain_of_mem_segments
  rcases @reportedOrGaveWay_root [] (segments q) olds news (segments_ne_nil hq) hplain hordered
    heffect.ordered hdiffers with hway | ⟨front, rest, hsegments, hgave⟩
  · rw [← parts_eq_of_canonical hq] at hway
    rw [hreported]
    exact .inl (touches_of_onWay hq hway)
  · have hne : front ≠ [] := by
      rintro rfl
      obtain ⟨⟨items, -, hitems⟩, -⟩ := hgave
      exact absurd (Option.some.inj hitems) (by simp)
    obtain ⟨path, hpath, hwithin, rfl⟩ := exists_above hq hsegments hne
    refine .inr ⟨path, hpath, hwithin, ?_⟩
    rw [Store.get?, Store.get?, holds, hafter]
    exact hgave

/-- An edit touches what differs along its path, or an array above it gave way. -/
theorem touches_or_gaveWay (heffect : Edit.Effect edit store after changes new)
    (hordered : Ordered store.tree) (hobject : store.tree.isObject = true) (hq : Canonical q)
    (hdiffers : Differs (store.get? q) (after.get? q)) (halong : Along edit.path q) :
    changes.touches q = true ∨ ∃ front, Canonical front ∧ Within q front ∧
      GaveWay (store.get? front) (after.get? front) := by
  by_cases hpath : edit.path = ""
  · exact touches_or_gaveWay_of_root heffect hordered hobject hpath hq hdiffers
  · rcases (overlap_iff hpath hq.1).1 (halong.resolve_left hpath) with habove | hbelow
    · -- Everything that is reported is within the path, and so within what is above it.
      obtain ⟨key, hkey, hwithin⟩ := reports_diff edit.path []
        (fun tree htree => ordered_lookup hordered htree) heffect.ordered (heffect.differs hpath)
      have hkeyq := hwithin.trans habove
      rw [heffect.reported]
      exact .inl (touches_of_onWay hq ⟨key, hkey, ne_empty_of_within hq.1 hkeyq, .inr hkeyq⟩)
    · exact touches_or_gaveWay_of_within heffect hordered hpath hq hdiffers hbelow

/-- An edit touches what differs along its path, unless an array gave way to an object unreported. -/
theorem touches_of_differs (heffect : Edit.Effect edit store after changes new)
    (hordered : Ordered store.tree) (hobject : store.tree.isObject = true) (hq : Canonical q)
    (hdiffers : Differs (store.get? q) (after.get? q)) (halong : Along edit.path q)
    (hfronts : ∀ front, Canonical front → GaveWay (store.get? front) (after.get? front) →
      ReportedAbove changes front) : changes.touches q = true := by
  rcases touches_or_gaveWay heffect hordered hobject hq hdiffers halong with htouches |
    ⟨front, hfront, hwithin, hgave⟩
  · exact htouches
  · exact (hfronts front hfront hgave).touches hq hwithin

end Reported

section Spellings

theorem foldl_zeros (count : Nat) :
    (List.replicate count '0').foldl (fun value c => value * 10 + (c.toNat - 48)) 0 = 0 := by
  induction count with
  | zero => rfl
  | succ count ih =>
      rw [List.replicate_succ, List.foldl_cons]
      exact ih

/-- The index zero has a spelling of every length. -/
theorem index?_zeros (count : Nat) :
    index? (String.ofList (List.replicate (count + 1) '0')) = some 0 := by
  have hdigits : (List.replicate (count + 1) '0').all Char.isDigit = true := by
    rw [List.all_eq_true]
    intro c hc
    rw [List.eq_of_mem_replicate hc]
    rfl
  have hvalue := foldl_zeros (count + 1)
  rw [List.replicate_succ] at hdigits hvalue ⊢
  rw [index?, String.toList_ofList]
  change (if ('0' :: List.replicate count '0').isEmpty ||
      !('0' :: List.replicate count '0').all Char.isDigit then none
    else if ('0' :: List.replicate count '0').foldl
        (fun value c => value * 10 + (c.toNat - 48)) 0 < indexLimit then
      some (('0' :: List.replicate count '0').foldl (fun value c => value * 10 + (c.toNat - 48)) 0)
    else none) = some 0
  rw [hdigits, hvalue]
  rfl

theorem plain_zeros (count : Nat) : Plain (String.ofList (List.replicate (count + 1) '0')) := by
  refine ⟨fun h => ?_, ?_⟩
  · have hlist := congrArg String.toList h
    rw [String.toList_ofList] at hlist
    exact absurd hlist (by simp)
  · rw [String.toList_ofList]
    intro hmem
    exact absurd (List.eq_of_mem_replicate hmem) (by decide)

theorem exists_bound (texts : List String) :
    ∃ bound, ∀ text ∈ texts, text.toList.length ≤ bound := by
  induction texts with
  | nil => exact ⟨0, fun _ h => absurd h List.not_mem_nil⟩
  | cons text texts ih =>
      obtain ⟨bound, hbound⟩ := ih
      refine ⟨max text.toList.length bound, List.forall_mem_cons.2 ⟨Nat.le_max_left _ _, ?_⟩⟩
      exact fun other hother => Nat.le_trans (hbound other hother) (Nat.le_max_right _ _)

end Spellings

section Necessity

variable {front : String} {before after : Option Value} {result : Dict Value}

/-- An item of an array is gone where an object without a field of its name takes its place. -/
theorem differs_of_replaced {store after : Store} {items : List Value} {fields : Dict Value}
    {name : String} (hplain : Plain name) (hname : index? name = some 0) (hitems : items ≠ [])
    (hbefore : store.get? front = some (.array items))
    (hafter : after.get? front = some (.object fields)) (habsent : Dict.get? fields name = none) :
    Differs (store.get? (join front name)) (after.get? (join front name)) := by
  rw [Store.get?] at hbefore hafter
  obtain ⟨item, items, rfl⟩ := List.exists_cons_of_ne_nil hitems
  have hitem : child? (.array (item :: items)) name = some item := by
    rw [child?, hname]
    rfl
  have hfield : child? (.object fields) name = none := habsent
  rw [Store.get?, Store.get?, segments_join hplain, lookup_append, lookup_append, hbefore, hafter,
    Option.bind_some, Option.bind_some, lookup_cons, lookup_cons, hitem, hfield]
  trivial

/-- Where an array gave way to an object, its first item has a spelling that no key is reported
for. -/
theorem reportedAbove_of_forall_touches {store after : Store} (hfront : Canonical front)
    (hgave : GaveWay (store.get? front) (after.get? front))
    (htouches : ∀ q, Canonical q → Differs (store.get? q) (after.get? q) →
      (Changes.keys result).touches q = true) : ReportedAbove (.keys result) front := by
  obtain ⟨⟨items, hitems, hbefore⟩, fields, -, hafter⟩ := hgave
  obtain ⟨bound, hbound⟩ := exists_bound (Dict.keys result ++ Dict.keys fields)
  obtain ⟨name, hname⟩ : ∃ name, name = String.ofList (List.replicate (bound + 1) '0') := ⟨_, rfl⟩
  have hplain : Plain name := hname ▸ plain_zeros bound
  have hindex : index? name = some 0 := hname ▸ index?_zeros bound
  have hlength : name.toList.length = bound + 1 := by
    rw [hname, String.toList_ofList, List.length_replicate]
  have habsent : Dict.get? fields name = none := by
    refine Dict.get?_eq_none_of_forall_ne fun field hfield hkey => ?_
    have hle := hbound field.1 (List.mem_append_right _ (List.mem_map_of_mem hfield))
    rw [hkey] at hle
    omega
  have hq : Canonical (join front name) := canonical_join hfront hplain
  have hdiffers := differs_of_replaced hplain hindex hitems hbefore hafter habsent
  obtain ⟨key, hkey, hoverlap⟩ := touches_keys_iff.1 (htouches _ hq hdiffers)
  have hnot : name.toList ∉ parts key := by
    intro hmem
    have hle := hbound key (List.mem_append_left _ hkey)
    have hpart := length_le_of_mem_parts hmem
    omega
  have hne := ne_empty_of_overlap hq hoverlap
  refine ⟨result, rfl, key, hkey, hne, ?_⟩
  rcases (overlap_iff hne hq.1).1 hoverlap with hbelow | habove
  · refine absurd (hbelow.subset ?_) hnot
    rw [parts_join hplain]
    exact List.mem_append_right _ List.mem_cons_self
  · exact within_of_within_join hplain habove hnot

theorem not_gaveWay_self (found : Option Value) : ¬ GaveWay found found := by
  rintro ⟨⟨items, -, rfl⟩, fields, -, hfields⟩
  exact absurd hfields (by simp)

/-- A report touches every path whose value has changed if and only if all these paths overlap the
path of the edit as it is spelled, and every array that gave way to an object is reported. -/
theorem touches_iff {edit : Edit} {store after : Store} {changes : Changes}
    (hordered : Ordered store.tree) (hvalue : Ordered edit.value)
    (hobject : store.tree.isObject = true) (hproper : edit.Proper)
    (happly : edit.apply store = (.ok changes, after)) :
    (∀ q, Canonical q → Differs (store.get? q) (after.get? q) → changes.touches q = true) ↔
      (∀ q, Canonical q → Differs (store.get? q) (after.get? q) → Along edit.path q) ∧
      ∀ front, Canonical front → GaveWay (store.get? front) (after.get? front) →
        ReportedAbove changes front := by
  rcases Edit.effect_of_apply hordered hvalue hproper happly with rfl | ⟨new, heffect⟩
  · refine ⟨fun _ => ⟨fun q _ hdiffers => ?_, fun front _ hgave => ?_⟩, fun _ q _ hdiffers => ?_⟩
    · exact absurd hdiffers (Value.not_differs_self _)
    · exact absurd hgave (not_gaveWay_self _)
    · exact absurd hdiffers (Value.not_differs_self _)
  · constructor
    · intro htouches
      rw [heffect.reported] at htouches ⊢
      refine ⟨fun q hq hdiffers => ?_, fun front hfront hgave => ?_⟩
      · exact along_of_touches hq (within_keys_diff _ _ _) (htouches q hq hdiffers)
      · exact reportedAbove_of_forall_touches hfront hgave htouches
    · rintro ⟨halong, hfronts⟩ q hq hdiffers
      exact touches_of_differs heffect hordered hobject hq hdiffers (halong q hq hdiffers) hfronts

/-- Where an object takes the place of an array, an item of the array is gone without a report. -/
theorem not_touches_arrayReplaced :
    ¬ ∀ q, Canonical q →
      Differs ((Store.mk (.object [("a", .array [.null])]) false).get? q)
        ((Store.mk (.object [("a", .object [("x", .null)])]) false).get? q) →
      (Changes.keys [("a.x", .null)]).touches q = true := by
  have happly : (Edit.set "a" (.object [("x", .null)]) .standard).apply
      (Store.mk (.object [("a", .array [.null])]) false) =
        (.ok (.keys [("a.x", .null)]), Store.mk (.object [("a", .object [("x", .null)])]) false) := by
    rfl
  intro htouches
  have hordered : Ordered (.object [("a", .array [.null])]) :=
    ⟨List.pairwise_singleton _ _, ⟨trivial, trivial⟩, trivial⟩
  have hvalue : Ordered (Edit.set "a" (.object [("x", .null)]) .standard).value :=
    ⟨List.pairwise_singleton _ _, trivial, trivial⟩
  have hproper : segments "a" ≠ [] := by decide
  obtain ⟨-, hfronts⟩ := (touches_iff hordered hvalue rfl hproper happly).1 htouches
  have hgave : GaveWay ((Store.mk (.object [("a", .array [.null])]) false).get? "a")
      ((Store.mk (.object [("a", .object [("x", .null)])]) false).get? "a") :=
    ⟨⟨[.null], by simp, rfl⟩, [("x", .null)], by simp, rfl⟩
  obtain ⟨values, hvalues, key, hkey, -, hwithin⟩ := hfronts "a" ⟨by decide, by decide⟩ hgave
  rw [← Changes.keys.inj hvalues, Dict.keys, List.map_singleton, List.mem_singleton] at hkey
  rw [hkey] at hwithin
  exact absurd hwithin (by rw [Within]; decide)

end Necessity

end Waymark.Store
