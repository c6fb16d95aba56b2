import Waymark.Proofs.Store.Touching
/-!
Paths that are spelled differently.

A path may have empty parts, which do not count when it is read. Paths with the same segments read
the same values and write the same trees, and what they tell of has the same leaves. But each leaf
is called by the path as it was written, so the changes are the same only if the paths are, and a
path with empty parts tells nothing of the keys that are written without them
(`respelled_of_segments_eq`).
-/

namespace Waymark.Store

open Waymark.Json

/-- Leaves that are told of under a path: what each is called below the path, and its value. -/
def report (path : String) (leaves : List (List String × Value)) (out : Dict Value) : Dict Value :=
  leaves.foldl (fun out leaf => Dict.insert out (dotted path leaf.1) leaf.2) out

section Leaves

variable {path other : String} {leaves others : List (List String × Value)}

theorem report_append (path : String) (leaves others : List (List String × Value))
    (out : Dict Value) :
    report path (leaves ++ others) out = report path others (report path leaves out) :=
  List.foldl_append

/-- Leaves under a field are leaves under the object. -/
theorem report_join (path key : String) (leaves : List (List String × Value)) (out : Dict Value) :
    report (join path key) leaves out =
      report path (leaves.map fun leaf => (key :: leaf.1, leaf.2)) out := by
  rw [report, report, List.foldl_map]
  rfl

theorem mem_keys_report {key : String} {out : Dict Value} :
    key ∈ Dict.keys (report path leaves out) ↔
      key ∈ Dict.keys out ∨ ∃ leaf ∈ leaves, key = dotted path leaf.1 := by
  induction leaves generalizing out with
  | nil => simp [report]
  | cons leaf leaves ih =>
      rw [report, List.foldl_cons, ← report, ih, Dict.mem_keys_insert]
      simp only [List.mem_cons, exists_eq_or_imp, or_assoc, or_left_comm]

theorem isEmpty_report (path : String) (leaves : List (List String × Value)) :
    (Changes.keys (report path leaves [])).isEmpty = true ↔ leaves = [] := by
  cases leaves with
  | nil => exact ⟨fun _ => rfl, fun _ => rfl⟩
  | cons leaf leaves =>
      have hkey : dotted path leaf.1 ∈ Dict.keys (report path (leaf :: leaves) []) :=
        mem_keys_report.2 (.inr ⟨leaf, List.mem_cons_self, rfl⟩)
      constructor
      · intro hempty
        rw [List.isEmpty_iff.1 hempty] at hkey
        exact absurd hkey List.not_mem_nil
      · intro hnil
        exact absurd hnil (List.cons_ne_nil leaf leaves)

mutual

/-- Which leaves a value has that is gone does not depend on where it was. -/
theorem exists_report_removedLeaves (value : Value) :
    ∃ leaves, ∀ path out, removedLeaves path value out = report path leaves out := by
  cases value with
  | object fields =>
      cases fields with
      | nil => exact ⟨[([], .null)], fun path out => rfl⟩
      | cons field fields => exact exists_report_removedFields (field :: fields)
  | _ => exact ⟨[([], .null)], fun path out => rfl⟩

theorem exists_report_removedFields (fields : List (String × Value)) :
    ∃ leaves, ∀ path out, removedFields path fields out = report path leaves out := by
  cases fields with
  | nil => exact ⟨[], fun path out => rfl⟩
  | cons field fields =>
      obtain ⟨key, value⟩ := field
      obtain ⟨leaves, hleaves⟩ := exists_report_removedLeaves value
      obtain ⟨others, hothers⟩ := exists_report_removedFields fields
      refine ⟨leaves.map (fun leaf => (key :: leaf.1, leaf.2)) ++ others, fun path out => ?_⟩
      rw [removedFields, hleaves, report_join, hothers, report_append]

end

/-- What is no object is told of as a whole. -/
theorem exists_report_whole {old : Option Value} {new : Value}
    (hnew : ∀ news, new ≠ .object news) (hsame : ¬ old.any (Value.same · new) = true) :
    ∃ leaves, ∀ path out, diff path old new out = report path leaves out := by
  refine ⟨[([], new)], fun path out => ?_⟩
  rcases diff_cases path out hsame with ⟨olds, news, -, heq, -⟩ | ⟨field, fields, -, heq, -⟩ | heq
  · exact absurd heq (hnew news)
  · exact absurd heq (hnew (field :: fields))
  · exact heq

mutual

/-- In which leaves two values differ does not depend on where they are. -/
theorem exists_report_diff (old : Option Value) (new : Value) :
    ∃ leaves, ∀ path out, diff path old new out = report path leaves out := by
  by_cases hsame : old.any (Value.same · new) = true
  · exact ⟨[], fun path out => diff_of_same path out hsame⟩
  · cases new with
    | object news =>
        by_cases hobject : ∃ olds, old = some (.object olds)
        · obtain ⟨olds, rfl⟩ := hobject
          obtain ⟨leaves, hleaves⟩ := exists_report_diffFields olds news
          obtain ⟨lost, hlost⟩ := exists_report_removedFields
            (olds.filter fun (key, _) => !Dict.contains news key)
          refine ⟨leaves ++ lost, fun path out => ?_⟩
          rw [diff, if_neg hsame, hleaves, lostFields, hlost, report_append]
        · have hold : ∀ olds, old ≠ some (.object olds) := fun olds heq => hobject ⟨olds, heq⟩
          cases news with
          | nil =>
              refine ⟨[([], .object [])], fun path out => ?_⟩
              rw [diff, if_neg hsame]
              · rfl
              · exact hold
          | cons field fields =>
              obtain ⟨leaves, hleaves⟩ := exists_report_diffFields [] (field :: fields)
              refine ⟨leaves, fun path out => ?_⟩
              rw [diff, if_neg hsame, hleaves]
              · exact hold
              · exact List.cons_ne_nil field fields
    | _ => exact exists_report_whole (by simp) hsame

theorem exists_report_diffFields (olds : Dict Value) (news : List (String × Value)) :
    ∃ leaves, ∀ path out, diffFields path olds news out = report path leaves out := by
  cases news with
  | nil => exact ⟨[], fun path out => rfl⟩
  | cons field news =>
      obtain ⟨key, value⟩ := field
      obtain ⟨leaves, hleaves⟩ := exists_report_diff (Dict.get? olds key) value
      obtain ⟨others, hothers⟩ := exists_report_diffFields olds news
      refine ⟨leaves.map (fun leaf => (key :: leaf.1, leaf.2)) ++ others, fun path out => ?_⟩
      rw [diffFields, hleaves, report_join, hothers, report_append]

end

end Leaves

section Names

variable {path other q : String} {names : List String} {leaves : List (List String × Value)}

theorem length_join (path key : String) (h : path ≠ "") :
    (join path key).length = path.length + 1 + key.length := by
  rw [join, if_neg (by simpa using h), String.length_append, String.length_append]
  rfl

/-- A longer path has longer names below it. -/
theorem length_dotted_lt (h : path.length < other.length) (names : List String) :
    (dotted path names).length < (dotted other names).length := by
  induction names generalizing path other with
  | nil => exact h
  | cons name names ih =>
      refine ih ?_
      have hother : other ≠ "" := by
        rintro rfl
        exact Nat.not_lt_zero _ h
      rw [length_join other name hother]
      by_cases hpath : path = ""
      · subst hpath
        have hjoin : (join "" name).length = name.length := rfl
        omega
      · rw [length_join path name hpath]
        omega

theorem prefix_toList_dotted (path : String) (names : List String) :
    path.toList <+: (dotted path names).toList := by
  induction names generalizing path with
  | nil => exact List.prefix_refl _
  | cons name names ih =>
      have hjoin : path.toList <+: (join path name).toList := by
        by_cases hpath : path = ""
        · rw [hpath]
          exact List.nil_prefix
        · rw [join, if_neg (by simpa using hpath), String.toList_append, String.toList_append,
            List.append_assoc]
          exact List.prefix_append _ _
      exact hjoin.trans (ih (join path name))

theorem within_dotted (path : String) (names : List String) : Within (dotted path names) path := by
  induction names generalizing path with
  | nil => exact within_refl path
  | cons name names ih => exact (ih (join path name)).trans (within_join path name)

/-- Leaves under a longer path have other names: if each were also a name under the shorter path,
there would be ever longer ones. -/
theorem report_ne_of_length_lt (h : path.length < other.length) (hne : leaves ≠ []) :
    report path leaves [] ≠ report other leaves [] := by
  intro heq
  have hgrows : ∀ size, ∃ leaf ∈ leaves, size ≤ (dotted path leaf.1).length := by
    intro size
    induction size with
    | zero =>
        obtain ⟨leaf, leaves, rfl⟩ := List.exists_cons_of_ne_nil hne
        exact ⟨leaf, List.mem_cons_self, Nat.zero_le _⟩
    | succ size ih =>
        obtain ⟨leaf, hleaf, hsize⟩ := ih
        have hkey : dotted other leaf.1 ∈ Dict.keys (report path leaves []) := by
          rw [heq]
          exact mem_keys_report.2 (.inr ⟨leaf, hleaf, rfl⟩)
        obtain ⟨longer, hlonger, hname⟩ := (mem_keys_report.1 hkey).resolve_left List.not_mem_nil
        have hlength := length_dotted_lt h leaf.1
        rw [hname] at hlength
        exact ⟨longer, hlonger, by omega⟩
  obtain ⟨bound, hbound⟩ := exists_bound (leaves.map fun leaf => dotted path leaf.1)
  obtain ⟨leaf, hleaf, hlength⟩ := hgrows (bound + 1)
  have hle := hbound _ (List.mem_map_of_mem hleaf)
  rw [String.length_toList] at hle
  omega

/-- The same leaves are told of in the same way under one path only. -/
theorem report_inj :
    report path leaves [] = report other leaves [] ↔ path = other ∨ leaves = [] := by
  constructor
  · intro heq
    by_cases hne : leaves = []
    · exact .inr hne
    · rcases Nat.lt_trichotomy path.length other.length with hlt | hlength | hlt
      · exact absurd heq (report_ne_of_length_lt hlt hne)
      · obtain ⟨leaf, rest, rfl⟩ := List.exists_cons_of_ne_nil hne
        have hkey : dotted path leaf.1 ∈ Dict.keys (report other (leaf :: rest) []) := by
          rw [← heq]
          exact mem_keys_report.2 (.inr ⟨leaf, List.mem_cons_self, rfl⟩)
        obtain ⟨found, -, hname⟩ := (mem_keys_report.1 hkey).resolve_left List.not_mem_nil
        have hpath := prefix_toList_dotted path leaf.1
        rw [hname] at hpath
        have hlists : path.toList.length = other.toList.length := by
          rw [String.length_toList, String.length_toList, hlength]
        have hfront := List.prefix_of_prefix_length_le hpath (prefix_toList_dotted other found.1)
          (Nat.le_of_eq hlists)
        exact .inl (String.toList_inj.1 (hfront.eq_of_length hlists))
      · exact absurd heq.symm (report_ne_of_length_lt hlt hne)
  · rintro (rfl | rfl)
    · rfl
    · rfl

/-- Leaves under a plainly written path touch it. -/
theorem touches_report_self (hpath : Canonical path) (hne : leaves ≠ []) :
    (Changes.keys (report path leaves [])).touches path = true := by
  obtain ⟨leaf, leaves, rfl⟩ := List.exists_cons_of_ne_nil hne
  have hwithin := within_dotted path leaf.1
  refine touches_keys_iff.2 ⟨dotted path leaf.1, ?_, ?_⟩
  · exact mem_keys_report.2 (.inr ⟨leaf, List.mem_cons_self, rfl⟩)
  · exact (overlap_iff (ne_empty_of_within hpath.1 hwithin) hpath.1).2 (.inl hwithin)

/-- Leaves under a path with empty parts touch what the path is within as it is written, and no
other key that is plainly written. -/
theorem touches_report_iff (hempty : path ≠ "") (hspelling : ¬ Canonical path) (hq : Canonical q) :
    (Changes.keys (report path leaves [])).touches q = true ↔ leaves ≠ [] ∧ Within path q := by
  have hgap : [] ∈ parts path := Classical.byContradiction fun h => hspelling ⟨hempty, h⟩
  rw [touches_keys_iff]
  constructor
  · rintro ⟨key, hkey, hoverlap⟩
    obtain ⟨leaf, hleaf, rfl⟩ := (mem_keys_report.1 hkey).resolve_left List.not_mem_nil
    have hbelow := within_dotted path leaf.1
    refine ⟨List.ne_nil_of_mem hleaf, ?_⟩
    rcases (overlap_iff (ne_empty_of_within hempty hbelow) hq.1).1 hoverlap with habove | habove
    · rcases List.prefix_or_prefix_of_prefix hbelow habove with hpath | hwithin
      · exact absurd (hpath.subset hgap) hq.2
      · exact hwithin
    · exact absurd ((habove.trans hbelow).subset hgap) hq.2
  · rintro ⟨hne, hwithin⟩
    obtain ⟨leaf, leaves, rfl⟩ := List.exists_cons_of_ne_nil hne
    have hbelow := within_dotted path leaf.1
    refine ⟨dotted path leaf.1, mem_keys_report.2 (.inr ⟨leaf, List.mem_cons_self, rfl⟩), ?_⟩
    exact (overlap_iff (ne_empty_of_within hempty hbelow) hq.1).2 (.inl (hbelow.trans hwithin))

end Names

/-- What writing through a path of given segments comes to: it fails in one way, or leaves one store
and tells of the same leaves, which are called by the path. -/
def Uniform (names : List String) (write : String → Written Store) : Prop :=
  (∃ error after, ∀ path, segments path = names → write path = (.error error, after)) ∨
    ∃ leaves after, ∀ path, segments path = names →
      write path = (.ok (.keys (report path leaves [])), after)

/-- What writing through two paths comes to: the same store and the same failures, and the same
leaves, each of them called by the path as it was written. -/
structure Respelled (path other : String) (written others : Written Store) : Prop where
  store : others.2 = written.2
  failed : ∀ error, others.1 = .error error ↔ written.1 = .error error
  told : ∀ changes, written.1 = .ok changes → ∃ leaves,
    changes = .keys (report path leaves []) ∧ others.1 = .ok (.keys (report other leaves []))
  same_iff : others.1 = written.1 ↔
    path = other ∨ ∀ changes, written.1 = .ok changes → changes.isEmpty = true
  plain : Canonical path → ∀ changes, written.1 = .ok changes → changes.isEmpty = false →
    changes.touches path = true
  touches_iff : other ≠ "" → ¬ Canonical other → ∀ changes, others.1 = .ok changes →
    ∀ q, Canonical q → (changes.touches q = true ↔ changes.isEmpty = false ∧ Within other q)

section Writing

variable {path other : String} {names : List String} {write : String → Written Store}

/-- A store that is not to be written to refuses all paths alike. -/
theorem uniform_ifWritable {store : Store} {operation : Operation} {write : String → Written Store}
    (h : Uniform names write) :
    Uniform names fun path => store.ifWritable operation (write path) := by
  by_cases hreadOnly : store.readOnly = true
  · exact .inl ⟨.unsupported operation .readOnly, store, fun path _ => if_pos hreadOnly⟩
  · rcases h with ⟨error, after, hwrite⟩ | ⟨leaves, after, hwrite⟩
    · refine .inl ⟨error, after, fun path hpath => ?_⟩
      exact (if_neg hreadOnly).trans (hwrite path hpath)
    · refine .inr ⟨leaves, after, fun path hpath => ?_⟩
      exact (if_neg hreadOnly).trans (hwrite path hpath)

theorem uniform_of_answer (answer : Except Error Unit) (leaves : List (List String × Value))
    (after : Store) (h : ∀ path, segments path = names →
      write path = (answer.map fun _ => .keys (report path leaves []), after)) :
    Uniform names write := by
  cases answer with
  | error error => exact .inl ⟨error, after, h⟩
  | ok done => exact .inr ⟨leaves, after, h⟩

/-- Setting a value depends on how its path is spelled only in what is told. -/
theorem uniform_set (store : Store) (value : Value) (options : SetOptions) (names : List String) :
    Uniform names fun path => store.set path value options := by
  refine uniform_ifWritable ?_
  by_cases hroot : (names.isEmpty && !value.isObject) = true
  · refine .inl ⟨.assertion .objectAtRoot, store, fun path hpath => ?_⟩
    subst hpath
    exact if_pos hroot
  · let old := lookup store.tree names
    let new := Edit.replacement options.merge old value
    obtain ⟨leaves, hleaves⟩ := exists_report_diff old new
    by_cases hnone : leaves = []
    · refine .inr ⟨leaves, store, fun path hpath => ?_⟩
      subst hpath hnone
      have hreported : (diff path old new []).isEmpty = true := by rw [hleaves]; rfl
      exact (if_neg hroot).trans (if_pos hreported)
    · have hreported : ∀ path, ¬ (diff path old new []).isEmpty = true := by
        intro path
        rw [hleaves]
        exact fun hempty => hnone ((isEmpty_report path leaves).1 hempty)
      let written := putInPlace new store.tree names
      refine uniform_of_answer written.1 leaves { store with tree := written.2 }
        fun path hpath => ?_
      subst hpath
      rw [← hleaves]
      exact (if_neg hroot).trans (if_neg (hreported path))

/-- So does removing a value. -/
theorem uniform_remove (store : Store) (names : List String) : Uniform names store.remove := by
  refine uniform_ifWritable ?_
  cases htaken : takeOut store.tree names with
  | none =>
      refine .inr ⟨[], store, fun path hpath => ?_⟩
      subst hpath
      dsimp only
      rw [htaken]
      rfl
  | some taken =>
      obtain ⟨leaves, hleaves⟩ := exists_report_removedLeaves taken.1
      refine .inr ⟨leaves, { store with tree := taken.2 }, fun path hpath => ?_⟩
      subst hpath
      dsimp only
      rw [htaken, ← hleaves]

/-- Two paths with the same segments. -/
theorem Uniform.respelled (h : Uniform (segments path) write)
    (hsegments : segments path = segments other) :
    Respelled path other (write path) (write other) := by
  rcases h with ⟨error, after, hwrite⟩ | ⟨leaves, after, hwrite⟩
  · rw [hwrite path rfl, hwrite other hsegments.symm]
    constructor
    case store => rfl
    case failed => exact fun _ => Iff.rfl
    case same_iff =>
      constructor
      · exact fun _ => .inr fun changes h => nomatch h
      · exact fun _ => rfl
    case told => exact fun changes h => nomatch h
    case plain => exact fun _ changes h => nomatch h
    case touches_iff => exact fun _ _ changes h => nomatch h
  · rw [hwrite path rfl, hwrite other hsegments.symm]
    constructor
    case store => rfl
    case failed =>
      intro error
      constructor <;> exact fun h => by cases h
    case told =>
      intro changes hchanges
      exact ⟨leaves, (Except.ok.inj hchanges).symm, rfl⟩
    case same_iff =>
      dsimp only
      rw [Except.ok.injEq, Changes.keys.injEq, eq_comm, report_inj]
      refine or_congr_right ⟨fun hnil changes hchanges => ?_, fun hempty => ?_⟩
      · rw [← Except.ok.inj hchanges, isEmpty_report]
        exact hnil
      · exact (isEmpty_report path leaves).1 (hempty _ rfl)
    case plain =>
      intro hpath changes hchanges hsome
      obtain rfl := Except.ok.inj hchanges
      refine touches_report_self hpath fun hnil => ?_
      rw [(isEmpty_report path leaves).2 hnil] at hsome
      cases hsome
    case touches_iff =>
      intro hempty hspelling changes hchanges q hq
      obtain rfl := Except.ok.inj hchanges
      rw [touches_report_iff hempty hspelling hq, ← Bool.not_eq_true, isEmpty_report]

/-- Paths with the same segments read the same values, and writing through them leaves the same
store, fails alike and tells of the same leaves. Each leaf is called by the path as it was written,
so the changes are the same only for one path or if there are none; and while a plainly written path
touches itself, one with empty parts touches only what it is within as it is written. -/
theorem respelled_of_segments_eq (store : Store) (h : segments path = segments other) :
    store.get? path = store.get? other ∧ store.has path = store.has other ∧
      (∀ value options, Respelled path other (store.set path value options)
        (store.set other value options)) ∧
      Respelled path other (store.remove path) (store.remove other) := by
  have hget : store.get? path = store.get? other := by rw [Store.get?, Store.get?, h]
  refine ⟨hget, ?_, fun value options => ?_, ?_⟩
  · rw [Store.has, Store.has, hget]
  · exact (uniform_set store value options (segments path)).respelled h
  · exact (uniform_remove store (segments path)).respelled h

/-- A value that is set through a path with two dots is told of under another key, and not to those
who follow the key with one dot. -/
theorem not_touches_doubledDot :
    segments "a.b" = segments "a..b" ∧
      (Store.empty.set "a.b" .null .standard).2 = (Store.empty.set "a..b" .null .standard).2 ∧
      (Store.empty.set "a..b" .null .standard).1 ≠ (Store.empty.set "a.b" .null .standard).1 ∧
      ∃ changes, (Store.empty.set "a..b" .null .standard).1 = .ok changes ∧
        changes.isEmpty = false ∧ changes.touches "a.b" = false := by
  have hsegments : segments "a.b" = segments "a..b" := by decide
  have hset := (respelled_of_segments_eq Store.empty hsegments).2.2.1 .null .standard
  have hplain : (Store.empty.set "a.b" .null .standard).1 = .ok (.keys [("a.b", .null)]) := by rfl
  have hspelled : (Store.empty.set "a..b" .null .standard).1 =
      .ok (.keys [("a..b", .null)]) := by rfl
  refine ⟨hsegments, hset.store.symm, ?_, _, hspelled, rfl, ?_⟩
  · intro hsame
    rcases hset.same_iff.1 hsame with hpath | hempty
    · exact absurd hpath (by decide)
    · exact absurd (hempty _ hplain) Bool.false_ne_true
  · have htouches := hset.touches_iff (by decide) (fun h => absurd h.2 (by decide)) _ hspelled "a.b"
      ⟨by decide, by decide⟩
    rw [← Bool.not_eq_true, htouches]
    rintro ⟨-, hwithin⟩
    exact absurd hwithin (by rw [Within]; decide)

end Writing

end Waymark.Store
