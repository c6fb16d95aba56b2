import Waymark.Proofs.Store.Effective
/-!
That what a write reports is what can be read afterwards.

Reported keys are put together from the path of a write and the keys of objects. Where these keys
are parts of paths themselves, every entry of a report is read back at its key, and what is reported
as null is null or absent (`truthful_of_apply`).
-/

namespace Waymark.Store

open Waymark.Json
open Waymark.Json.Value (Ordered)

/-- Some object within a tree has a key. -/
inductive HasKey : Value → String → Prop where
  | here {fields : Dict Value} {key : String} (h : key ∈ Dict.keys fields) :
      HasKey (.object fields) key
  | field {fields : Dict Value} {name key : String} {value : Value} (h : (name, value) ∈ fields)
      (hkey : HasKey value key) : HasKey (.object fields) key
  | item {items : List Value} {item : Value} {key : String} (h : item ∈ items)
      (hkey : HasKey item key) : HasKey (.array items) key

/-- The keys of all objects within a tree are parts of paths. -/
def PlainKeys (tree : Value) : Prop :=
  ∀ key, HasKey tree key → Plain key

section Keys

variable {tree value : Value} {fields rest : Dict Value} {name key : String} {path : List String}

theorem hasKey_of_child? (h : child? tree name = some value) (hkey : HasKey value key) :
    HasKey tree key := by
  cases tree with
  | object fields => exact .field (Dict.mem_of_get? h) hkey
  | array items =>
      obtain ⟨index, -, hitem⟩ := Option.bind_eq_some_iff.1 h
      exact .item (List.mem_of_getElem? hitem) hkey
  | _ => cases h

theorem hasKey_of_lookup (h : lookup tree path = some value) (hkey : HasKey value key) :
    HasKey tree key := by
  induction path generalizing tree with
  | nil =>
      obtain rfl := Option.some.inj h
      exact hkey
  | cons segment path ih =>
      obtain ⟨child, hchild, h⟩ := Option.bind_eq_some_iff.1 h
      exact hasKey_of_child? hchild (ih h)

theorem HasKey.mono (h : HasKey (.object fields) key) (hsubset : fields ⊆ rest) :
    HasKey (.object rest) key := by
  cases h with
  | here h => exact .here (List.map_subset Prod.fst hsubset h)
  | field h hkey => exact .field (hsubset h) hkey

/-- What has been inserted has its key and the keys within it. -/
theorem hasKey_insert (h : HasKey (.object (Dict.insert fields name value)) key) :
    key = name ∨ HasKey value key ∨ HasKey (.object fields) key := by
  cases h with
  | here h => exact (Dict.mem_keys_insert.1 h).imp_right fun h => .inr (.here h)
  | field h hkey =>
      rcases Dict.mem_insert h with heq | h
      · obtain ⟨rfl, rfl⟩ := Prod.mk.inj heq
        exact .inr (.inl hkey)
      · exact .inr (.inr (.field h hkey))

mutual

/-- Merging adds no keys. -/
theorem hasKey_deepMerge (target source : Value) (h : HasKey (deepMerge target source) key) :
    HasKey target key ∨ HasKey source key := by
  cases source with
  | object source =>
      cases target with
      | object target => exact hasKey_mergeFields target source h
      | _ => exact .inr h
  | array source =>
      cases target with
      | array target =>
          cases h with
          | item hitem hkey =>
              exact (List.mem_append.1 hitem).imp (fun hitem => .item hitem hkey)
                fun hitem => .item hitem hkey
      | _ => exact .inr h
  | _ => cases target <;> exact .inr h

theorem hasKey_mergeFields (target : Dict Value) (source : List (String × Value))
    (h : HasKey (.object (mergeFields target source)) key) :
    HasKey (.object target) key ∨ HasKey (.object source) key := by
  cases source with
  | nil => exact .inl h
  | cons field source =>
      obtain ⟨name, value⟩ := field
      have hfirst : (name, value) ∈ (name, value) :: source := List.mem_cons_self
      rw [mergeFields] at h
      rcases hasKey_mergeFields _ source h with h | h
      · rcases hasKey_insert h with rfl | hmerged | h
        · exact .inr (.here List.mem_cons_self)
        · cases hslot : Dict.get? target name with
          | none =>
              rw [hslot] at hmerged
              exact .inr (.field hfirst hmerged)
          | some slot =>
              rw [hslot] at hmerged
              exact (hasKey_deepMerge slot value hmerged).imp
                (fun hkey => .field (Dict.mem_of_get? hslot) hkey) fun hkey => .field hfirst hkey
        · exact .inl h
      · exact .inr (h.mono (List.subset_cons_self _ source))

end

theorem plainKeys_object (h : ∀ field ∈ fields, Plain field.1 ∧ PlainKeys field.2) :
    PlainKeys (.object fields) := by
  intro key hkey
  cases hkey with
  | here hmem =>
      obtain ⟨field, hfield, rfl⟩ := List.mem_map.1 hmem
      exact (h field hfield).1
  | field hmem hkey => exact (h _ hmem).2 key hkey

theorem plainKeys_array {items : List Value} (h : ∀ item ∈ items, PlainKeys item) :
    PlainKeys (.array items) := by
  intro key hkey
  cases hkey with
  | item hmem hkey => exact h _ hmem key hkey

theorem PlainKeys.plain (h : PlainKeys (.object fields)) (hmem : (name, value) ∈ fields) :
    Plain name :=
  h name (.here (List.mem_map_of_mem hmem))

theorem PlainKeys.field (h : PlainKeys (.object fields)) (hmem : (name, value) ∈ fields) :
    PlainKeys value :=
  fun key hkey => h key (.field hmem hkey)

theorem PlainKeys.mono (h : PlainKeys (.object rest)) (hsubset : fields ⊆ rest) :
    PlainKeys (.object fields) :=
  fun key hkey => h key (hkey.mono hsubset)

theorem PlainKeys.of_lookup (h : PlainKeys tree) (hfound : lookup tree path = some value) :
    PlainKeys value :=
  fun key hkey => h key (hasKey_of_lookup hfound hkey)

theorem PlainKeys.deepMerge {target source : Value} (h : PlainKeys target)
    (hsource : PlainKeys source) : PlainKeys (deepMerge target source) :=
  fun key hkey => (hasKey_deepMerge target source hkey).elim (h key) (hsource key)

end Keys

/-- What is reported is what can be read, where null is read for what is absent. -/
def Truthful (tree : Value) (out : Dict Value) : Prop :=
  ∀ key value, (key, value) ∈ out → (lookup tree (segments key)).getD .null = value

section Reporting

variable {tree value : Value} {path key : String} {out : Dict Value}

theorem Truthful.insert (h : Truthful tree out)
    (hvalue : (lookup tree (segments path)).getD .null = value) :
    Truthful tree (Dict.insert out path value) := by
  intro name other hmem
  rcases Dict.mem_insert hmem with heq | hmem
  · obtain ⟨rfl, rfl⟩ := Prod.mk.inj heq
    exact hvalue
  · exact h name other hmem

mutual

/-- What is gone reads as absent, and so do its leaves. -/
theorem truthful_removedLeaves (path : String) (old : Value) (out : Dict Value)
    (hplain : PlainKeys old) (hgone : lookup tree (segments path) = none)
    (h : Truthful tree out) : Truthful tree (removedLeaves path old out) := by
  cases old with
  | object fields =>
      cases fields with
      | nil => exact h.insert (by rw [hgone]; rfl)
      | cons field fields =>
          refine truthful_removedFields path (field :: fields) out hplain (fun name old hmem => ?_) h
          rw [segments_join (hplain.plain hmem), lookup_append, hgone]
          rfl
  | _ => exact h.insert (by rw [hgone]; rfl)

theorem truthful_removedFields (path : String) (fields : List (String × Value)) (out : Dict Value)
    (hplain : PlainKeys (.object fields))
    (hgone : ∀ name old, (name, old) ∈ fields → lookup tree (segments (join path name)) = none)
    (h : Truthful tree out) : Truthful tree (removedFields path fields out) := by
  cases fields with
  | nil => exact h
  | cons field fields =>
      obtain ⟨name, old⟩ := field
      have hfirst : (name, old) ∈ (name, old) :: fields := List.mem_cons_self
      have hsubset := List.subset_cons_self (name, old) fields
      have hleaves := truthful_removedLeaves (join path name) old out (hplain.field hfirst)
        (hgone name old hfirst) h
      exact truthful_removedFields path fields _ (hplain.mono hsubset)
        (fun other old hmem => hgone other old (hsubset hmem)) hleaves

end

/-- A key below an object is read as a field of it. -/
theorem lookup_join {fields : Dict Value}
    (hfound : lookup tree (segments path) = some (.object fields)) (hkey : Plain key) :
    lookup tree (segments (join path key)) = Dict.get? fields key := by
  rw [segments_join hkey, lookup_append, hfound, Option.bind_some, lookup_cons, child?]
  cases Dict.get? fields key <;> rfl

mutual

/-- Where the new value stands, what a comparison with an old one reports can be read. -/
theorem truthful_diff (path : String) (old : Option Value) (new : Value) (out : Dict Value)
    (hold : ∀ value ∈ old, PlainKeys value) (hplain : PlainKeys new) (hordered : Ordered new)
    (hfound : lookup tree (segments path) = some new) (h : Truthful tree out) :
    Truthful tree (diff path old new out) := by
  by_cases hsame : old.any (Value.same · new) = true
  · rw [diff_of_same path out hsame]
    exact h
  · have hfields : ∀ news, new = .object news → ∀ olds, PlainKeys (.object olds) →
        Truthful tree (diffFields path olds news out) := by
      rintro news rfl olds holds
      refine truthful_diffFields path olds news out holds hplain hordered.2 ?_ h
      intro key value hmem
      rw [lookup_join hfound (hplain.plain hmem), Dict.get?_of_mem hordered.1 hmem]
    rcases diff_cases path out hsame with ⟨olds, news, rfl, hvalue, heq⟩ |
      ⟨field, fields, hobject, hvalue, heq⟩ | heq
    · rw [heq]
      have holds := hold _ rfl
      refine truthful_removedFields path _ _ (holds.mono List.filter_sublist.subset) ?_
        (hfields news hvalue olds holds)
      intro key value hmem
      obtain ⟨hmem, hlost⟩ := List.mem_filter.1 hmem
      rw [hvalue] at hfound
      rw [lookup_join hfound (holds.plain hmem)]
      simpa [Dict.contains] using hlost
    · rw [heq]
      exact hfields (field :: fields) hvalue [] (plainKeys_object nofun)
    · rw [heq]
      exact h.insert (by rw [hfound]; rfl)
termination_by sizeOf new

theorem truthful_diffFields (path : String) (olds : Dict Value) (news : List (String × Value))
    (out : Dict Value) (hold : PlainKeys (.object olds)) (hplain : PlainKeys (.object news))
    (hordered : Value.OrderedFields news)
    (hfound : ∀ key value, (key, value) ∈ news →
      lookup tree (segments (join path key)) = some value)
    (h : Truthful tree out) : Truthful tree (diffFields path olds news out) := by
  match news with
  | [] => exact h
  | (key, value) :: news =>
      have hfirst : (key, value) ∈ (key, value) :: news := List.mem_cons_self
      have hsubset := List.subset_cons_self (key, value) news
      have hvalue : Truthful tree (diff (join path key) (Dict.get? olds key) value out) :=
        truthful_diff (join path key) (Dict.get? olds key) value out
          (fun old hget => hold.field (Dict.mem_of_get? hget)) (hplain.field hfirst) hordered.1
          (hfound key value hfirst) h
      exact truthful_diffFields path olds news _ hold (hplain.mono hsubset) hordered.2
        (fun other value hmem => hfound other value (hsubset hmem)) hvalue
termination_by sizeOf news

end

end Reporting

section Writing

variable {edit : Edit} {store after : Store} {changes : Changes}

/-- A write that reports something has left a new value at its path, and reports how it differs from
the old one. -/
theorem Edit.reported_cases (hordered : Ordered store.tree) (hvalue : Ordered edit.value)
    (hkeys : PlainKeys store.tree) (hplain : PlainKeys edit.value)
    (happly : edit.apply store = (.ok changes, after)) :
    changes = .none ∨ ∃ new, Ordered new ∧ PlainKeys new ∧
      lookup after.tree (segments edit.path) = some new ∧
      changes = .keys (diff edit.path (lookup store.tree (segments edit.path)) new []) := by
  cases edit with
  | set path value options =>
      have hnew : Ordered (replacement options.merge (lookup store.tree (segments path)) value) :=
        ordered_replacement hordered hvalue
      have hnews : PlainKeys
          (replacement options.merge (lookup store.tree (segments path)) value) := by
        unfold replacement
        split
        · next old hold => exact (hkeys.of_lookup hold).deepMerge hplain
        · exact hplain
      rw [Edit.apply, set_eq hordered] at happly
      have hwritten := of_ifWritable_ok happly
      split at hwritten
      · cases (Prod.mk.inj hwritten).1
      · rcases rewrite_cases hordered hnew hwritten with ⟨-, hnone, -⟩ | ⟨hput, -, hchanges⟩
        · exact .inl hnone
        · exact .inr ⟨_, hnew, hnews, lookup_put hput, hchanges⟩
  | merge value =>
      obtain ⟨-, rfl, rfl⟩ := of_merge_ok happly
      exact .inr ⟨_, ordered_deepMerge store.tree value hordered hvalue, hkeys.deepMerge hplain,
        rfl, rfl⟩

/-- Where all keys are parts of paths, every entry of a report is read back at its key, which is the
path of the write or below it. -/
theorem truthful_of_apply (hordered : Ordered store.tree) (hvalue : Ordered edit.value)
    (hkeys : PlainKeys store.tree) (hplain : PlainKeys edit.value)
    (happly : edit.apply store = (.ok changes, after)) :
    ∃ values, changes = .keys values ∧ ∀ key value, (key, value) ∈ values →
      (after.get? key).getD .null = value ∧ Within key edit.path := by
  rcases Edit.reported_cases hordered hvalue hkeys hplain happly with
    rfl | ⟨new, hnew, hnews, hfound, rfl⟩
  · exact ⟨[], rfl, fun key value hmem => absurd hmem List.not_mem_nil⟩
  · have htruthful : Truthful after.tree
        (diff edit.path (lookup store.tree (segments edit.path)) new []) :=
      truthful_diff edit.path _ new [] (fun old hold => hkeys.of_lookup hold) hnews hnew hfound
        fun key value hmem => absurd hmem List.not_mem_nil
    refine ⟨_, rfl, fun key value hmem => ⟨htruthful key value hmem, ?_⟩⟩
    exact within_keys_diff _ _ _ key (List.mem_map_of_mem hmem)

/-- A store of a list whose only item has a field within a field. -/
def nestedItem : Store :=
  ⟨.object [("a", .array [.object [("b", .object [("c", .null)])]])], false⟩

/-- The store with another field in the item. -/
def overwrittenItem : Store :=
  ⟨.object [("a", .array [.object [("d", .bool true)]])], false⟩

/-- Another object is put in place of the item, whose index is spelled with two digits. -/
def overwriting : Edit :=
  .set "a.00" (.object [("d", .bool true)]) .standard

/-- The field that has gone is reported below the path as it is spelled, and so is the new one. -/
theorem truthful_overwriting :
    overwriting.apply nestedItem =
      (.ok (.keys [("a.00.b.c", .null), ("a.00.d", .bool true)]), overwrittenItem) ∧
    ∃ values, Changes.keys [("a.00.b.c", .null), ("a.00.d", .bool true)] = .keys values ∧
      ∀ key value, (key, value) ∈ values →
        (overwrittenItem.get? key).getD .null = value ∧ Within key overwriting.path := by
  have hordered : Ordered nestedItem.tree := by
    refine ⟨List.pairwise_singleton _ _, ⟨⟨List.pairwise_singleton _ _, ?_, trivial⟩, trivial⟩,
      trivial⟩
    exact ⟨List.pairwise_singleton _ _, trivial, trivial⟩
  have hvalue : Ordered overwriting.value := ⟨List.pairwise_singleton _ _, trivial, trivial⟩
  have hinner : PlainKeys (.object [("c", .null)]) :=
    plainKeys_object (List.forall_mem_singleton.2 ⟨⟨by decide, by decide⟩, nofun⟩)
  have hitem : PlainKeys (.object [("b", .object [("c", .null)])]) :=
    plainKeys_object (List.forall_mem_singleton.2 ⟨⟨by decide, by decide⟩, hinner⟩)
  have hkeys : PlainKeys nestedItem.tree :=
    plainKeys_object (List.forall_mem_singleton.2 ⟨⟨by decide, by decide⟩,
      plainKeys_array (List.forall_mem_singleton.2 hitem)⟩)
  have hplain : PlainKeys overwriting.value :=
    plainKeys_object (List.forall_mem_singleton.2 ⟨⟨by decide, by decide⟩, nofun⟩)
  have happly : overwriting.apply nestedItem =
      (.ok (.keys [("a.00.b.c", .null), ("a.00.d", .bool true)]), overwrittenItem) := rfl
  exact ⟨happly, truthful_of_apply hordered hvalue hkeys hplain happly⟩

end Writing

end Waymark.Store
