import Waymark.Proofs.Store.Touching
/-!
Which keys changes touch, in terms of segments.

Keys are compared as texts: two of them overlap if they are equal or if one starts with the other
and a dot. For paths that are spelled as segments with dots between them this is a comparison of
segments: two paths overlap if and only if the segments of one begin with those of the other. So a
key is touched if and only if a changed key is the key itself, above it or below it, and no key is
touched any less when more has changed (`overlap_and_touches_iff_related`).
-/

namespace Waymark.Store

open Waymark.Json

/-- A path is written as segments with dots between them: at least one segment, none of them empty
and none with a dot in it. -/
structure Spells (path : String) (names : List String) : Prop where
  ne_nil : names ≠ []
  plain : ∀ name ∈ names, Plain name
  written : path = ".".intercalate names

/-- Of two rows of segments one begins with the other, or they are the same. -/
def Related (names others : List String) : Prop :=
  names <+: others ∨ others <+: names

/-- Whatever has changed according to some changes has changed according to others too. -/
def Changes.Includes : Changes → Changes → Prop
  | .everything, _ => True
  | .keys _, .everything => False
  | .keys more, .keys values => Dict.keys values ⊆ Dict.keys more

section Spelled

variable {path other : String} {names others : List String}

theorem Spells.toList_eq (h : Spells path names) :
    path.toList = List.intercalate ['.'] (names.map String.toList) := by
  rw [h.written, String.toList_intercalate]
  rfl

theorem Spells.ne_empty (h : Spells path names) : path ≠ "" := by
  rintro rfl
  obtain ⟨name, hname⟩ := List.exists_mem_of_ne_nil _ h.ne_nil
  have hle : name.toList.length ≤ (List.intercalate ['.'] (names.map String.toList)).length :=
    length_le_intercalate (List.mem_map_of_mem hname)
  rw [← h.toList_eq, String.toList_empty, List.length_nil, Nat.le_zero,
    List.length_eq_zero_iff] at hle
  exact (h.plain name hname).1 (String.toList_inj.1 hle)

/-- The parts of a path that is spelled are its segments. -/
theorem Spells.parts_eq (h : Spells path names) : parts path = names.map String.toList := by
  have hplain : ∀ part ∈ names.map String.toList, '.' ∉ part := by
    intro part hpart
    obtain ⟨name, hname, rfl⟩ := List.mem_map.1 hpart
    exact (h.plain name hname).2
  rw [parts_of_ne h.ne_empty, h.toList_eq,
    List.splitOn_intercalate '.' hplain (by simpa using h.ne_nil)]

theorem Spells.segments_eq (h : Spells path names) : segments path = names :=
  segments_eq_of_parts_eq h.plain h.parts_eq

/-- Paths that are spelled overlap if and only if the segments of one begin with those of the
other. -/
theorem Spells.overlap_iff (h : Spells path names) (hother : Spells other others) :
    overlap path other = true ↔ Related names others := by
  have hprefix (names others : List String) :
      names.map String.toList <+: others.map String.toList ↔ names <+: others :=
    List.prefix_map_iff_of_injective fun _ _ => String.toList_inj.1
  rw [Store.overlap_iff h.ne_empty hother.ne_empty, Within, Within, h.parts_eq, hother.parts_eq,
    hprefix, hprefix]
  exact or_comm

end Spelled

section Touched

variable {changes more : Changes} {values : Dict Value} {key : String}

/-- A key is touched if and only if it is related to one that has changed. -/
theorem touches_iff_related (hkey : Spells key (segments key))
    (hvalues : ∀ changed ∈ Dict.keys values, Spells changed (segments changed)) :
    (Changes.keys values).touches key = true ↔
      ∃ changed ∈ Dict.keys values, Related (segments changed) (segments key) := by
  rw [touches_keys_iff]
  constructor
  · rintro ⟨changed, hchanged, hoverlap⟩
    exact ⟨changed, hchanged, ((hvalues changed hchanged).overlap_iff hkey).1 hoverlap⟩
  · rintro ⟨changed, hchanged, hrelated⟩
    exact ⟨changed, hchanged, ((hvalues changed hchanged).overlap_iff hkey).2 hrelated⟩

/-- What is touched stays so when more has changed. -/
theorem touches_of_includes (hmore : more.Includes changes) (h : changes.touches key = true) :
    more.touches key = true := by
  cases more with
  | everything => rfl
  | keys values =>
      cases changes with
      | everything => exact hmore.elim
      | keys few =>
          obtain ⟨changed, hchanged, hoverlap⟩ := touches_keys_iff.1 h
          exact touches_keys_iff.2 ⟨changed, hmore hchanged, hoverlap⟩

/-- Paths overlap if and only if the segments of one begin with those of the other. Changes touch a
key if and only if a changed key is the key itself, above it or below it, and they touch no less
when more has changed. -/
theorem overlap_and_touches_iff_related :
    (∀ path other names others, Spells path names → Spells other others →
      segments path = names ∧ segments other = others ∧
        (overlap path other = true ↔ Related names others)) ∧
      (∀ values key, Spells key (segments key) →
        (∀ changed ∈ Dict.keys values, Spells changed (segments changed)) →
          ((Changes.keys values).touches key = true ↔
            ∃ changed ∈ Dict.keys values, Related (segments changed) (segments key))) ∧
      ∀ changes more key, Changes.Includes more changes → changes.touches key = true →
        more.touches key = true := by
  refine ⟨?_, ?_, ?_⟩
  · intro path other names others hpath hother
    exact ⟨hpath.segments_eq, hother.segments_eq, hpath.overlap_iff hother⟩
  · intro values key hkey hvalues
    exact touches_iff_related hkey hvalues
  · intro changes more key hmore h
    exact touches_of_includes hmore h

/-- A user is above the user's name, and not above a username. -/
theorem related_username :
    overlap "app.user" "app.username" = false ∧
      (Changes.keys [("app.user.name", .null)]).touches "app.user" = true ∧
      (Changes.keys [("app.user.name", .null)]).touches "app.username" = false ∧
      (Changes.keys [("app.list", .null), ("app.user.name", .null)]).touches "app.user" = true := by
  have huser : Spells "app.user" ["app", "user"] := ⟨by decide, by simp [Plain], by decide⟩
  have husername : Spells "app.username" ["app", "username"] :=
    ⟨by decide, by simp [Plain], by decide⟩
  have hname : Spells "app.user.name" ["app", "user", "name"] :=
    ⟨by decide, by simp [Plain], by decide⟩
  obtain ⟨hoverlap, htouches, hmore⟩ := overlap_and_touches_iff_related
  have hkeys : ∀ changed ∈ Dict.keys [("app.user.name", Value.null)],
      Spells changed (segments changed) := by
    intro changed hchanged
    obtain rfl := List.mem_singleton.1 hchanged
    rw [hname.segments_eq]
    exact hname
  have huser' : (Changes.keys [("app.user.name", .null)]).touches "app.user" = true := by
    refine (htouches _ _ (huser.segments_eq ▸ huser) hkeys).2 ⟨_, List.mem_singleton_self _, ?_⟩
    rw [hname.segments_eq, huser.segments_eq, Related]
    decide
  refine ⟨?_, huser', ?_, hmore _ _ _ (List.subset_cons_self _ _) huser'⟩
  · rw [Bool.eq_false_iff, ne_eq, (hoverlap _ _ _ _ huser husername).2.2, Related]
    decide
  · rw [Bool.eq_false_iff, ne_eq, htouches _ _ (husername.segments_eq ▸ husername) hkeys]
    rintro ⟨changed, hchanged, hrelated⟩
    obtain rfl := List.mem_singleton.1 hchanged
    rw [hname.segments_eq, husername.segments_eq, Related] at hrelated
    exact absurd hrelated (by decide)

end Touched

end Waymark.Store
