import Waymark.Proofs.Store.Paths
import Waymark.Proofs.Store.Trees
import Waymark.Store.Changes
/-!
Which keys a comparison of trees reports.

A comparison reports keys within the path of the trees only. Whatever differs along some segments
has a reported key on its way, unless an array on the way gave way to an object
(`reportedOrGaveWay_diff`).
-/

namespace Waymark.Store

open Waymark.Json
open Waymark.Json.Value (Differs Ordered)

/-- Reporting keeps the keys that are reported and adds keys within a path. -/
structure Extends (path : String) (out result : Dict Value) : Prop where
  keeps : Dict.keys out ⊆ Dict.keys result
  within : ∀ key ∈ Dict.keys result, key ∈ Dict.keys out ∨ Within key path

/-- A key is reported within a path. -/
def Reports (result : Dict Value) (path : String) : Prop :=
  ∃ key ∈ Dict.keys result, Within key path

section Reporting

variable {path inner : String} {out between result : Dict Value}

namespace Extends

theorem refl (path : String) (out : Dict Value) : Extends path out out :=
  ⟨List.Subset.refl _, fun _ hkey => .inl hkey⟩

theorem trans (h : Extends path out between) (hnext : Extends path between result) :
    Extends path out result where
  keeps := List.Subset.trans h.keeps hnext.keeps
  within key hkey := by
    rcases hnext.within key hkey with hkey | hwithin
    · exact h.within key hkey
    · exact .inr hwithin

theorem widen (h : Extends inner out result) (hwithin : Within inner path) :
    Extends path out result where
  keeps := h.keeps
  within key hkey := (h.within key hkey).imp_right fun hkey => hkey.trans hwithin

theorem insert (out : Dict Value) (path : String) (value : Value) :
    Extends path out (Dict.insert out path value) where
  keeps _ hkey := Dict.mem_keys_insert.2 (.inr hkey)
  within key hkey := by
    rcases Dict.mem_keys_insert.1 hkey with rfl | hkey
    · exact .inr (within_refl key)
    · exact .inl hkey

end Extends

theorem Reports.mono (h : Reports out path) (hsubset : Dict.keys out ⊆ Dict.keys result) :
    Reports result path := by
  obtain ⟨key, hkey, hwithin⟩ := h
  exact ⟨key, hsubset hkey, hwithin⟩

theorem Reports.widen (h : Reports out inner) (hwithin : Within inner path) :
    Reports out path := by
  obtain ⟨key, hkey, hinner⟩ := h
  exact ⟨key, hkey, hinner.trans hwithin⟩

theorem reports_insert (out : Dict Value) (path : String) (value : Value) :
    Reports (Dict.insert out path value) path :=
  ⟨path, Dict.mem_keys_insert.2 (.inl rfl), within_refl path⟩

end Reporting

section Removed

theorem removedLeaves_cases (path : String) (value : Value) (out : Dict Value) :
    (∃ field fields, value = .object (field :: fields) ∧
      removedLeaves path value out = removedFields path (field :: fields) out) ∨
    removedLeaves path value out = Dict.insert out path .null := by
  cases value with
  | object fields =>
      cases fields with
      | nil => exact .inr rfl
      | cons field fields => exact .inl ⟨field, fields, rfl, rfl⟩
  | _ => exact .inr rfl

mutual

theorem extends_removedLeaves (path : String) (value : Value) (out : Dict Value) :
    Extends path out (removedLeaves path value out) := by
  cases value with
  | object fields =>
      cases fields with
      | nil => exact Extends.insert out path .null
      | cons field fields => exact extends_removedFields path (field :: fields) out
  | _ => exact Extends.insert out path .null

theorem extends_removedFields (path : String) (fields : List (String × Value))
    (out : Dict Value) : Extends path out (removedFields path fields out) := by
  cases fields with
  | nil => exact Extends.refl path out
  | cons field fields =>
      obtain ⟨key, value⟩ := field
      exact ((extends_removedLeaves (join path key) value out).widen (within_join path key)).trans
        (extends_removedFields path fields _)

end

/-- The leaves of each field are among those that are reported. -/
theorem removedFields_of_mem (path : String) {fields : List (String × Value)} {key : String}
    {value : Value} (h : (key, value) ∈ fields) (out : Dict Value) :
    ∃ before, Dict.keys (removedLeaves (join path key) value before) ⊆
      Dict.keys (removedFields path fields out) := by
  induction fields generalizing out with
  | nil => exact absurd h List.not_mem_nil
  | cons field fields ih =>
      obtain ⟨name, other⟩ := field
      rcases List.mem_cons.1 h with heq | hmem
      · obtain ⟨rfl, rfl⟩ := Prod.mk.inj heq
        exact ⟨out, (extends_removedFields path fields _).keeps⟩
      · exact ih hmem (removedLeaves (join path name) other out)

/-- A key is reported for everything that is gone. -/
theorem reports_removedLeaves (path : String) (value : Value) (out : Dict Value) :
    Reports (removedLeaves path value out) path := by
  rcases removedLeaves_cases path value out with ⟨⟨key, inner⟩, fields, hvalue, heq⟩ | heq
  · obtain ⟨before, hsubset⟩ := removedFields_of_mem path (List.mem_cons_self (l := fields)) out
    have hinner := reports_removedLeaves (join path key) inner before
    rw [heq]
    exact (hinner.mono hsubset).widen (within_join path key)
  · rw [heq]
    exact reports_insert out path .null
termination_by value
decreasing_by
  subst hvalue
  simp
  omega

end Removed

section Compared

/-- A new tree that is not the old one is compared with it field by field if both are objects, is
reported field by field if only it is an object with fields, and is reported as a whole otherwise. -/
theorem diff_cases (path : String) {old : Option Value} {new : Value} (out : Dict Value)
    (hnew : ¬ old.any (Value.same · new) = true) :
    (∃ olds news, old = some (.object olds) ∧ new = .object news ∧
      diff path old new out = lostFields path news olds (diffFields path olds news out)) ∨
    (∃ field fields, (∀ olds, old ≠ some (.object olds)) ∧ new = .object (field :: fields) ∧
      diff path old new out = diffFields path [] (field :: fields) out) ∨
    diff path old new out = Dict.insert out path new := by
  cases new with
  | object news =>
      by_cases hold : ∃ olds, old = some (.object olds)
      · obtain ⟨olds, rfl⟩ := hold
        exact .inl ⟨olds, news, rfl, rfl, by rw [diff, if_neg hnew]⟩
      · have hobject : ∀ olds, old ≠ some (.object olds) := fun olds heq => hold ⟨olds, heq⟩
        cases news with
        | nil =>
            refine .inr (.inr ?_)
            rw [diff, if_neg hnew]
            exact hobject
        | cons field fields =>
            refine .inr (.inl ⟨field, fields, hobject, rfl, ?_⟩)
            rw [diff, if_neg hnew]
            · exact hobject
            · exact List.cons_ne_nil field fields
  | _ =>
      refine .inr (.inr ?_)
      rw [diff, if_neg hnew]
      all_goals simp

theorem not_any_of_differs {old : Option Value} {new : Value} (h : Differs old (some new)) :
    ¬ old.any (Value.same · new) = true := by
  cases old with
  | none => simp
  | some tree =>
      rw [Differs] at h
      simp [h]

theorem diff_of_same (path : String) {old : Option Value} {new : Value} (out : Dict Value)
    (hnew : old.any (Value.same · new) = true) : diff path old new out = out := by
  cases new with
  | object news =>
      unfold diff
      exact if_pos hnew
  | _ =>
      rw [diff, if_pos hnew]
      all_goals simp

mutual

theorem extends_diff (path : String) (old : Option Value) (new : Value) (out : Dict Value) :
    Extends path out (diff path old new out) := by
  by_cases hnew : old.any (Value.same · new) = true
  · rw [diff_of_same path out hnew]
    exact Extends.refl path out
  · rcases diff_cases path out hnew with ⟨olds, news, hold, hvalue, heq⟩ |
      ⟨field, fields, hobject, hvalue, heq⟩ | heq
    · rw [heq]
      exact (extends_diffFields path olds news out).trans
        (extends_removedFields path (olds.filter _) _)
    · rw [heq]
      exact extends_diffFields path [] (field :: fields) out
    · rw [heq]
      exact Extends.insert out path new
termination_by sizeOf new
decreasing_by
  all_goals
    subst hvalue
    simp

theorem extends_diffFields (path : String) (olds : Dict Value) (news : List (String × Value))
    (out : Dict Value) : Extends path out (diffFields path olds news out) := by
  match news with
  | [] => exact Extends.refl path out
  | (key, value) :: news =>
      exact ((extends_diff (join path key) (Dict.get? olds key) value out).widen
        (within_join path key)).trans (extends_diffFields path olds news _)
termination_by sizeOf news

end

/-- The keys that each new field is reported with are among those that are reported. -/
theorem diffFields_of_mem (path : String) (olds : Dict Value) {news : List (String × Value)}
    {key : String} {value : Value} (h : (key, value) ∈ news) (out : Dict Value) :
    ∃ before, Dict.keys (diff (join path key) (Dict.get? olds key) value before) ⊆
      Dict.keys (diffFields path olds news out) := by
  induction news generalizing out with
  | nil => exact absurd h List.not_mem_nil
  | cons field news ih =>
      obtain ⟨name, other⟩ := field
      rcases List.mem_cons.1 h with heq | hmem
      · obtain ⟨rfl, rfl⟩ := Prod.mk.inj heq
        exact ⟨out, (extends_diffFields path olds news _).keeps⟩
      · exact ih hmem (diff (join path name) (Dict.get? olds name) other out)

theorem diffFields_subset_lostFields (path : String) (olds news : Dict Value)
    (out : Dict Value) : Dict.keys out ⊆ Dict.keys (lostFields path news olds out) :=
  (extends_removedFields path (olds.filter _) out).keeps

/-- The leaves of a field that is gone are among the keys that are reported. -/
theorem lostFields_of_get? (path : String) {olds news : Dict Value} {key : String} {value : Value}
    (hold : Dict.get? olds key = some value) (hnew : Dict.get? news key = none)
    (out : Dict Value) :
    ∃ before, Dict.keys (removedLeaves (join path key) value before) ⊆
      Dict.keys (lostFields path news olds out) := by
  refine removedFields_of_mem path (List.mem_filter.2 ⟨Dict.mem_of_get? hold, ?_⟩) out
  simp [Dict.contains, hnew]

/-- Whatever is not the same is reported. -/
theorem reports_diff (path : String) {old : Option Value} {new : Value} (out : Dict Value)
    (hold : ∀ tree ∈ old, Ordered tree) (hnew : Ordered new)
    (hdiffers : ¬ old.any (Value.same · new) = true) : Reports (diff path old new out) path := by
  rcases diff_cases path out hdiffers with ⟨olds, news, rfl, hvalue, heq⟩ |
    ⟨⟨key, value⟩, fields, hobject, hvalue, heq⟩ | heq
  · rw [heq]
    have hfields : ∃ key, Differs (Dict.get? olds key) (Dict.get? news key) := by
      apply Classical.byContradiction
      intro hsame
      rw [hvalue] at hdiffers hnew
      refine hdiffers (Value.sameFields_of_sorted (hold _ rfl).1 hnew.1 fun key hkey => ?_)
      exact hsame ⟨key, hkey⟩
    obtain ⟨key, hkey⟩ := hfields
    cases hget : Dict.get? news key with
    | none =>
        rw [hget] at hkey
        obtain ⟨lost, hlost⟩ :=
          Option.isSome_iff_exists.1 (Value.isSome_of_differs_none_right hkey)
        obtain ⟨before, hsubset⟩ :=
          lostFields_of_get? path hlost hget (diffFields path olds news out)
        exact ((reports_removedLeaves (join path key) lost before).mono hsubset).widen
          (within_join path key)
    | some value =>
        have hmem := Dict.mem_of_get? hget
        obtain ⟨before, hsubset⟩ := diffFields_of_mem path olds hmem out
        have hinner : Reports (diff (join path key) (Dict.get? olds key) value before)
            (join path key) := by
          refine reports_diff (join path key) before ?_ ?_ ?_
          · intro tree htree
            exact ordered_of_get? (hold _ rfl) htree
          · rw [hvalue] at hnew
            exact ordered_of_get? hnew hget
          · rw [hget] at hkey
            exact not_any_of_differs hkey
        exact ((hinner.mono hsubset).mono (diffFields_subset_lostFields path olds news _)).widen
          (within_join path key)
  · rw [heq]
    have hmem : (key, value) ∈ (key, value) :: fields := List.mem_cons_self
    obtain ⟨before, hsubset⟩ := diffFields_of_mem path [] hmem out
    have hinner : Reports (diff (join path key) none value before) (join path key) := by
      refine reports_diff (join path key) before (fun _ h => absurd h (by simp)) ?_ (by simp)
      rw [hvalue] at hnew
      exact Value.orderedFields_iff.1 hnew.2 _ hmem
    exact (hinner.mono hsubset).widen (within_join path key)
  · rw [heq]
    exact reports_insert out path new
termination_by sizeOf new
decreasing_by
  · subst hvalue
    exact sizeOf_lt_of_mem hmem
  · subst hvalue
    exact sizeOf_lt_of_mem hmem

end Compared

/-- A key is reported at, above or below the place with given parts. -/
def OnWay (result : Dict Value) (place : List (List Char)) : Prop :=
  ∃ key ∈ Dict.keys result, key ≠ "" ∧ (parts key <+: place ∨ place <+: parts key)

/-- An array with items gave way to an object with fields. -/
def GaveWay (before after : Option Value) : Prop :=
  (∃ items, items ≠ [] ∧ before = some (.array items)) ∧
    ∃ fields, fields ≠ [] ∧ after = some (.object fields)

section Ways

variable {path : String} {out result : Dict Value} {old : Option Value} {new tree : Value}
  {place : List (List Char)} {segments : List String}

theorem OnWay.mono (h : OnWay out place) (hsubset : Dict.keys out ⊆ Dict.keys result) :
    OnWay result place := by
  obtain ⟨key, hkey, hway⟩ := h
  exact ⟨key, hsubset hkey, hway⟩

theorem Reports.onWay (h : Reports out path) (hne : path ≠ "") : OnWay out (parts path) := by
  obtain ⟨key, hkey, hwithin⟩ := h
  exact ⟨key, hkey, ne_empty_of_within hne hwithin, .inr hwithin⟩

theorem onWay_insert (out : Dict Value) (hne : path ≠ "") (value : Value)
    (rest : List (List Char)) : OnWay (Dict.insert out path value) (parts path ++ rest) :=
  ⟨path, Dict.mem_keys_insert.2 (.inl rfl), hne, .inl (List.prefix_append _ _)⟩

theorem parts_join_append {segment : String} (h : Plain segment) (rest : List (List Char)) :
    parts (join path segment) ++ rest = parts path ++ segment.toList :: rest := by
  rw [parts_join h, List.append_assoc, List.singleton_append]

/-- Whatever could be read of a tree that is gone has a reported key on its way. -/
theorem onWay_removedLeaves (hne : path ≠ "") (hplain : ∀ segment ∈ segments, Plain segment)
    (hfound : (lookup tree segments).isSome = true) :
    OnWay (removedLeaves path tree out) (parts path ++ segments.map String.toList) := by
  induction segments generalizing tree path out with
  | nil =>
      rw [List.map_nil, List.append_nil]
      exact (reports_removedLeaves path tree out).onWay hne
  | cons segment segments ih =>
      obtain ⟨hsegment, hplain⟩ := List.forall_mem_cons.1 hplain
      rcases removedLeaves_cases path tree out with ⟨field, fields, rfl, heq⟩ | heq
      · rw [lookup_cons, child?] at hfound
        cases hget : Dict.get? (field :: fields) segment with
        | none =>
            rw [hget] at hfound
            exact absurd hfound (by simp)
        | some value =>
            rw [hget, Option.bind_some] at hfound
            obtain ⟨before, hsubset⟩ := removedFields_of_mem path (Dict.mem_of_get? hget) out
            have hway : OnWay (removedLeaves (join path segment) value before)
                (parts (join path segment) ++ segments.map String.toList) :=
              ih (join_ne_empty path hsegment) hplain hfound
            rw [parts_join_append hsegment] at hway
            rw [heq]
            exact hway.mono hsubset
      · rw [heq]
        exact onWay_insert out hne .null _

theorem not_any_of_differs_lookup
    (h : Differs (old.bind (lookup · segments)) (lookup new segments)) :
    ¬ old.any (Value.same · new) = true := by
  cases old with
  | none => simp
  | some tree =>
      intro hsame
      exact not_differs_lookup hsame segments h

/-- Only objects and arrays with items have something below them. -/
theorem bind_lookup_cons_eq_none (hobject : ∀ olds, old ≠ some (.object olds))
    (harray : ∀ items, items ≠ [] → old ≠ some (.array items)) (segment : String)
    (segments : List String) : old.bind (lookup · (segment :: segments)) = none := by
  cases old with
  | none => rfl
  | some tree =>
      cases tree with
      | object olds => exact absurd rfl (hobject olds)
      | array items =>
          cases items with
          | cons item items => exact absurd rfl (harray _ (List.cons_ne_nil item items))
          | nil =>
              rw [Option.bind_some, lookup_cons, child?]
              cases index? segment <;> rfl
      | _ => rfl

/-- What differs along segments is reported on its way or an array on the way gave way. -/
def ReportedOrGaveWay (result : Dict Value) (path : String) (old : Option Value) (new : Value)
    (segments : List String) : Prop :=
  OnWay result (parts path ++ segments.map String.toList) ∨
    ∃ front rest, segments = front ++ rest ∧
      GaveWay (old.bind (lookup · front)) (lookup new front)

theorem ReportedOrGaveWay.below {segment : String} {olds news : Dict Value} {value : Value}
    (hsegment : Plain segment) (hget : Dict.get? news segment = some value)
    (h : ReportedOrGaveWay out (join path segment) (Dict.get? olds segment) value segments)
    (hsubset : Dict.keys out ⊆ Dict.keys result) :
    ReportedOrGaveWay result path (some (.object olds)) (.object news) (segment :: segments) := by
  rcases h with hway | ⟨front, rest, rfl, hgave⟩
  · rw [parts_join_append hsegment] at hway
    exact .inl (hway.mono hsubset)
  · refine .inr ⟨segment :: front, rest, rfl, ?_⟩
    rw [Option.bind_some, lookup_cons, lookup_cons, child?, child?, hget]
    exact hgave

/-- What differs below two objects differs below a field that the new one has, or is gone. -/
theorem reportedOrGaveWay_objects {segment : String} {olds news : Dict Value}
    (hsegment : Plain segment) (hplain : ∀ other ∈ segments, Plain other)
    (hdiffers : Differs ((Dict.get? olds segment).bind (lookup · segments))
      ((Dict.get? news segment).bind (lookup · segments)))
    (hfield : ∀ value before, Dict.get? news segment = some value →
      Differs ((Dict.get? olds segment).bind (lookup · segments)) (lookup value segments) →
      ReportedOrGaveWay (diff (join path segment) (Dict.get? olds segment) value before)
        (join path segment) (Dict.get? olds segment) value segments) :
    ReportedOrGaveWay (lostFields path news olds (diffFields path olds news out)) path
      (some (.object olds)) (.object news) (segment :: segments) := by
  cases hget : Dict.get? news segment with
  | none =>
      rw [hget] at hdiffers
      obtain ⟨found, hfound⟩ :=
        Option.isSome_iff_exists.1 (Value.isSome_of_differs_none_right hdiffers)
      obtain ⟨lost, hlost, hfound⟩ := Option.bind_eq_some_iff.1 hfound
      obtain ⟨before, hsubset⟩ := lostFields_of_get? path hlost hget (diffFields path olds news out)
      have hway : OnWay (removedLeaves (join path segment) lost before)
          (parts (join path segment) ++ segments.map String.toList) :=
        onWay_removedLeaves (join_ne_empty path hsegment) hplain (by rw [hfound]; rfl)
      rw [parts_join_append hsegment] at hway
      exact .inl (hway.mono hsubset)
  | some value =>
      rw [hget, Option.bind_some] at hdiffers
      obtain ⟨before, hsubset⟩ := diffFields_of_mem path olds (Dict.mem_of_get? hget) out
      exact (hfield value before hget hdiffers).below hsegment hget
        (List.Subset.trans hsubset (diffFields_subset_lostFields path olds news _))

/-- Whatever differs along segments has a reported key on its way, unless an array on the way gave
way to an object. -/
theorem reportedOrGaveWay_diff (hne : path ≠ "") (hplain : ∀ segment ∈ segments, Plain segment)
    (hold : ∀ tree ∈ old, Ordered tree) (hnew : Ordered new)
    (hdiffers : Differs (old.bind (lookup · segments)) (lookup new segments)) :
    ReportedOrGaveWay (diff path old new out) path old new segments := by
  induction segments generalizing old new path out with
  | nil =>
      have hreports := reports_diff path out hold hnew (not_any_of_differs_lookup hdiffers)
      rw [ReportedOrGaveWay, List.map_nil, List.append_nil]
      exact .inl (hreports.onWay hne)
  | cons segment segments ih =>
      obtain ⟨hsegment, hrest⟩ := List.forall_mem_cons.1 hplain
      have hjoin := join_ne_empty path hsegment
      rcases diff_cases path out (not_any_of_differs_lookup hdiffers) with
        ⟨olds, news, rfl, rfl, heq⟩ | ⟨field, fields, hobject, rfl, heq⟩ | heq
      · rw [heq]
        refine reportedOrGaveWay_objects hsegment hrest hdiffers fun value before hget hbelow => ?_
        refine ih hjoin hrest (fun tree htree => ?_) ?_ hbelow
        · exact ordered_of_get? (hold _ rfl) htree
        · exact ordered_of_get? hnew hget
      · by_cases harray : ∃ items, items ≠ [] ∧ old = some (.array items)
        · obtain ⟨items, hitems, rfl⟩ := harray
          exact .inr ⟨[], segment :: segments, rfl, ⟨items, hitems, rfl⟩, _,
            List.cons_ne_nil field fields, rfl⟩
        · -- Nothing stood here before, so the new value is reported as below no old tree at all.
          have hnone := bind_lookup_cons_eq_none hobject
            (fun items hitems h => harray ⟨items, hitems, h⟩) segment segments
          rw [hnone] at hdiffers
          obtain ⟨found, hfound⟩ :=
            Option.isSome_iff_exists.1 (Value.isSome_of_differs_none hdiffers)
          obtain ⟨value, hget, hfound⟩ := Option.bind_eq_some_iff.1 hfound
          obtain ⟨before, hsubset⟩ := diffFields_of_mem path [] (Dict.mem_of_get? hget) out
          have hbelow : Differs (Option.bind none (lookup · segments)) (lookup value segments) := by
            rw [show lookup value segments = some found from hfound]
            trivial
          have hvalue := @ih (join path segment) before none value hjoin hrest
            (fun _ h => absurd h (by simp)) (ordered_of_get? hnew hget) hbelow
          rcases hvalue with hway | ⟨front, rest, -, ⟨items, -, hitems⟩, -⟩
          · rw [parts_join_append hsegment] at hway
            rw [heq]
            exact .inl (hway.mono hsubset)
          · exact absurd hitems (by simp)
      · rw [heq]
        exact .inl (onWay_insert out hne new _)

/-- The same from the root, where both trees are objects. -/
theorem reportedOrGaveWay_root {olds news : Dict Value} (hne : segments ≠ [])
    (hplain : ∀ segment ∈ segments, Plain segment) (hold : Ordered (.object olds))
    (hnew : Ordered (.object news))
    (hdiffers : Differs (lookup (.object olds) segments) (lookup (.object news) segments)) :
    ReportedOrGaveWay (diff "" (some (.object olds)) (.object news) out) ""
      (some (.object olds)) (.object news) segments := by
  obtain ⟨segment, segments, rfl⟩ := List.exists_cons_of_ne_nil hne
  obtain ⟨hsegment, hrest⟩ := List.forall_mem_cons.1 hplain
  have hsame : ¬ (some (.object olds)).any (Value.same · (.object news)) = true :=
    @not_any_of_differs_lookup (some (.object olds)) _ _ hdiffers
  have heq : diff "" (some (.object olds)) (.object news) out =
      lostFields "" news olds (diffFields "" olds news out) := by
    rw [diff, if_neg hsame]
  rw [heq]
  refine reportedOrGaveWay_objects hsegment hrest hdiffers fun value before hget hbelow => ?_
  refine reportedOrGaveWay_diff (join_ne_empty "" hsegment) hrest (fun tree htree => ?_) ?_ hbelow
  · exact ordered_of_get? hold htree
  · exact ordered_of_get? hnew hget

end Ways

end Waymark.Store
