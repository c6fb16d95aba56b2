import Waymark.Store.Path
/-!
Dotted paths and the parts they are written in.

One path is within another if its parts begin with those of the other one, and two paths overlap if
one is within the other (`overlap_iff`). The parts of a path that has no empty ones are its segments.
-/

namespace Waymark.Store

section Splitting

theorem splitAtChar_eq_splitOn (separator : Char) (text : List Char) :
    splitAtChar separator text = text.splitOn separator := by
  induction text with
  | nil => rfl
  | cons c rest ih =>
      rw [splitAtChar, List.splitOn_cons_eq_if_modifyHead, ih]
      by_cases hc : c = separator
      · simp [hc]
      · cases hsplit : rest.splitOn separator with
        | nil => exact absurd hsplit (List.splitOn_ne_nil separator rest)
        | cons part parts => simp [hc]

theorem not_mem_of_mem_splitOn {separator : Char} {text part : List Char}
    (h : part ∈ text.splitOn separator) : separator ∉ part := by
  induction text generalizing part with
  | nil =>
      rw [List.mem_singleton.1 h]
      exact List.not_mem_nil
  | cons c rest ih =>
      rw [List.splitOn_cons_eq_if_modifyHead] at h
      by_cases hc : c = separator
      · rw [if_pos (by simpa using hc)] at h
        rcases List.mem_cons.1 h with rfl | h
        · exact List.not_mem_nil
        · exact ih h
      · rw [if_neg (by simpa using hc)] at h
        cases hsplit : rest.splitOn separator with
        | nil => exact absurd hsplit (List.splitOn_ne_nil separator rest)
        | cons first parts =>
            rw [hsplit] at h ih
            rcases List.mem_cons.1 h with rfl | h
            · rw [List.mem_cons, not_or]
              exact ⟨Ne.symm hc, ih List.mem_cons_self⟩
            · exact ih (List.mem_cons_of_mem first h)

theorem intercalate_append {separator : List Char} {texts others : List (List Char)}
    (hne : texts ≠ []) (hothers : others ≠ []) :
    List.intercalate separator (texts ++ others) =
      List.intercalate separator texts ++ separator ++ List.intercalate separator others := by
  induction texts with
  | nil => exact absurd rfl hne
  | cons text texts ih =>
      cases texts with
      | nil =>
          rw [List.singleton_append, List.intercalate_cons_of_ne_nil hothers,
            List.intercalate_singleton]
      | cons next texts =>
          rw [List.cons_append, List.cons_append, List.intercalate_cons_cons, ← List.cons_append,
            ih (List.cons_ne_nil _ _), List.intercalate_cons_cons]
          simp only [List.append_assoc]

theorem length_le_intercalate {separator text : List Char} {texts : List (List Char)}
    (h : text ∈ texts) : text.length ≤ (List.intercalate separator texts).length := by
  induction texts with
  | nil => exact absurd h List.not_mem_nil
  | cons first texts ih =>
      by_cases hnil : texts = []
      · subst hnil
        refine Nat.le_of_eq ?_
        rw [List.mem_singleton.1 h, List.intercalate_singleton]
      · rw [List.intercalate_cons_of_ne_nil hnil, List.length_append, List.length_append]
        rcases List.mem_cons.1 h with rfl | h
        · omega
        · have hle := ih h
          omega

end Splitting

/-- The parts of a path between its dots, the empty ones too. The empty path has none. -/
def parts (path : String) : List (List Char) :=
  if path = "" then [] else splitAtChar '.' path.toList

/-- A path is another one or below it; every path is within the empty one. -/
def Within (path above : String) : Prop :=
  parts above <+: parts path

/-- A path with at least one part and without empty ones. -/
def Canonical (path : String) : Prop :=
  path ≠ "" ∧ [] ∉ parts path

/-- A text that is one part of a path. -/
def Plain (segment : String) : Prop :=
  segment ≠ "" ∧ '.' ∉ segment.toList

section Parts

variable {path above other : String}

theorem parts_of_ne (hne : path ≠ "") : parts path = path.toList.splitOn '.' := by
  rw [parts, if_neg hne, splitAtChar_eq_splitOn]

theorem parts_ne_nil (hne : path ≠ "") : parts path ≠ [] := by
  rw [parts_of_ne hne]
  exact List.splitOn_ne_nil '.' path.toList

theorem intercalate_parts (path : String) : List.intercalate ['.'] (parts path) = path.toList := by
  by_cases hne : path = ""
  · subst hne
    rfl
  · rw [parts_of_ne hne, List.intercalate_splitOn]

theorem length_le_of_mem_parts {part : List Char} (h : part ∈ parts path) :
    part.length ≤ path.toList.length := by
  rw [← intercalate_parts path]
  exact length_le_intercalate h

theorem parts_inj (h : parts path = parts other) : path = other := by
  rw [← String.toList_inj, ← intercalate_parts path, ← intercalate_parts other, h]

theorem parts_of_plain {segment : String} (h : Plain segment) :
    parts segment = [segment.toList] := by
  rw [parts_of_ne h.1, List.splitOn_eq_singleton h.2]

theorem parts_append_dot (hne : path ≠ "") (rest : String) :
    parts (path ++ "." ++ rest) = parts path ++ rest.toList.splitOn '.' := by
  have hlist : (path ++ "." ++ rest).toList = path.toList ++ '.' :: rest.toList := by
    simp
  rw [parts_of_ne, parts_of_ne hne, hlist, List.splitOn_append_cons_self]
  intro h
  rw [h] at hlist
  exact absurd hlist.symm (by simp)

theorem within_refl (path : String) : Within path path :=
  List.prefix_refl _

theorem Within.trans (h : Within path above) (hother : Within above other) : Within path other :=
  List.IsPrefix.trans hother h

theorem ne_empty_of_within (hne : above ≠ "") (h : Within path above) : path ≠ "" := by
  rintro rfl
  exact parts_ne_nil hne (List.prefix_nil.1 h)

/-- A path with more parts starts with the other one and a dot. -/
theorem isBelow_iff (hne : above ≠ "") :
    isBelow path above = true ↔ ∃ more, more ≠ [] ∧ parts path = parts above ++ more := by
  rw [isBelow, List.isPrefixOf_iff_prefix]
  constructor
  · rintro ⟨rest, hrest⟩
    have hpath : path = above ++ "." ++ String.ofList rest := by
      rw [← String.toList_inj, ← hrest]
      simp
    rw [hpath, parts_append_dot hne]
    exact ⟨_, List.splitOn_ne_nil '.' _, rfl⟩
  · rintro ⟨more, hmore, h⟩
    refine ⟨List.intercalate ['.'] more, ?_⟩
    rw [← intercalate_parts path, h, intercalate_append (parts_ne_nil hne) hmore, intercalate_parts]

theorem within_iff (hne : above ≠ "") :
    Within path above ↔ path = above ∨ isBelow path above = true := by
  rw [isBelow_iff hne]
  constructor
  · rintro ⟨more, hmore⟩
    by_cases hnil : more = []
    · rw [hnil, List.append_nil] at hmore
      exact .inl (parts_inj hmore.symm)
    · exact .inr ⟨more, hnil, hmore.symm⟩
  · rintro (rfl | ⟨more, -, hmore⟩)
    · exact within_refl path
    · exact ⟨more, hmore.symm⟩

/-- Paths overlap if one is within the other. -/
theorem overlap_iff (hne : path ≠ "") (hother : other ≠ "") :
    overlap path other = true ↔ Within path other ∨ Within other path := by
  rw [within_iff hother, within_iff hne, overlap, Bool.or_eq_true, Bool.or_eq_true, beq_iff_eq]
  constructor
  · rintro ((rfl | h) | h)
    · exact .inl (.inl rfl)
    · exact .inl (.inr h)
    · exact .inr (.inr h)
  · rintro ((rfl | h) | (rfl | h))
    · exact .inl (.inl rfl)
    · exact .inl (.inr h)
    · exact .inl (.inl rfl)
    · exact .inr h

/-- No canonical path overlaps the empty one. -/
theorem ne_empty_of_overlap (hother : Canonical other) (h : overlap path other = true) :
    path ≠ "" := by
  rintro rfl
  obtain ⟨hne, hparts⟩ := hother
  rw [overlap, Bool.or_eq_true, Bool.or_eq_true, beq_iff_eq] at h
  rcases h with (h | h) | h
  · exact hne h.symm
  · obtain ⟨more, hmore, heq⟩ := (isBelow_iff hne).1 h
    exact hmore (List.append_eq_nil_iff.1 heq.symm).2
  · rw [isBelow, List.isPrefixOf_iff_prefix] at h
    obtain ⟨rest, hrest⟩ := h
    rw [parts_of_ne hne, ← hrest] at hparts
    exact hparts (by simp [List.splitOn_cons_eq_if_modifyHead])

end Parts

section Joining

variable {path key : String}

theorem within_join (path key : String) : Within (join path key) path := by
  by_cases hne : path = ""
  · subst hne
    exact List.nil_prefix
  · rw [join, if_neg (by simpa using hne), Within, parts_append_dot hne]
    exact List.prefix_append _ _

theorem parts_join (h : Plain key) : parts (join path key) = parts path ++ [key.toList] := by
  by_cases hne : path = ""
  · subst hne
    exact parts_of_plain h
  · rw [join, if_neg (by simpa using hne), parts_append_dot hne, List.splitOn_eq_singleton h.2]

theorem join_ne_empty (path : String) (h : Plain key) : join path key ≠ "" := by
  intro hempty
  have hparts : parts (join path key) = parts path ++ [key.toList] := parts_join h
  rw [hempty] at hparts
  exact absurd hparts.symm (by simp [parts])

end Joining

section Segments

variable {path above key : String}

theorem segments_eq (path : String) :
    segments path = ((parts path).filter (· ≠ [])).map String.ofList := by
  by_cases hne : path = ""
  · subst hne
    rfl
  · rw [segments, parts, if_neg hne]

theorem plain_of_mem_segments {segment : String} (h : segment ∈ segments path) :
    Plain segment := by
  rw [segments_eq, List.mem_map] at h
  obtain ⟨part, hpart, rfl⟩ := h
  obtain ⟨hmem, hne⟩ := List.mem_filter.1 hpart
  by_cases hpath : path = ""
  · subst hpath
    exact absurd hmem List.not_mem_nil
  · rw [parts_of_ne hpath] at hmem
    refine ⟨fun hempty => ?_, by simpa using not_mem_of_mem_splitOn hmem⟩
    rw [← String.toList_inj, String.toList_ofList] at hempty
    exact absurd hempty (by simpa using hne)

theorem parts_eq_of_canonical (h : Canonical path) :
    parts path = (segments path).map String.toList := by
  have hfilter : (parts path).filter (· ≠ []) = parts path := by
    rw [List.filter_eq_self]
    intro part hpart
    have hne : part ≠ [] := by
      rintro rfl
      exact h.2 hpart
    simpa using hne
  rw [segments_eq, hfilter, List.map_map]
  simp [Function.comp_def]

theorem segments_ne_nil (h : Canonical path) : segments path ≠ [] := by
  intro hnil
  have hparts := parts_eq_of_canonical h
  rw [hnil] at hparts
  exact parts_ne_nil h.1 hparts

theorem segments_join (h : Plain key) : segments (join path key) = segments path ++ [key] := by
  have hne : key.toList ≠ [] := by simpa using h.1
  rw [segments_eq, segments_eq, parts_join h, List.filter_append, List.map_append]
  simp [hne]

theorem canonical_join (hpath : Canonical path) (h : Plain key) : Canonical (join path key) := by
  refine ⟨join_ne_empty path h, fun hnil => ?_⟩
  rw [parts_join h, List.mem_append, List.mem_singleton] at hnil
  rcases hnil with hnil | hnil
  · exact hpath.2 hnil
  · exact h.1 (String.toList_eq_nil_iff.1 hnil.symm)

/-- What stands above a joined path and lacks its last part stands above the rest of it. -/
theorem within_of_within_join (h : Plain key) (hwithin : Within (join path key) above)
    (hnot : key.toList ∉ parts above) : Within path above := by
  rw [Within, parts_join h] at hwithin
  rcases List.prefix_concat_iff.1 hwithin with heq | hprefix
  · rw [heq] at hnot
    exact absurd (List.mem_append_right _ List.mem_cons_self) hnot
  · exact hprefix

/-- What stands above a canonical path is canonical. -/
theorem canonical_of_within (h : Canonical path) (hne : above ≠ "")
    (hwithin : Within path above) : Canonical above :=
  ⟨hne, fun hmem => h.2 (hwithin.subset hmem)⟩

/-- The segments of a path continue those of the paths above it. -/
theorem segments_of_within (hwithin : Within path above) :
    ∃ rest, segments path = segments above ++ rest := by
  obtain ⟨more, hmore⟩ := hwithin
  rw [segments_eq, segments_eq, ← hmore, List.filter_append, List.map_append]
  exact ⟨_, rfl⟩

end Segments

section Spelling

/-- A path of given segments. -/
def dotted (path : String) (segments : List String) : String :=
  segments.foldl join path

theorem parts_dotted {segments : List String} (path : String)
    (hplain : ∀ segment ∈ segments, Plain segment) :
    parts (dotted path segments) = parts path ++ segments.map String.toList := by
  induction segments generalizing path with
  | nil => exact (List.append_nil _).symm
  | cons segment segments ih =>
      obtain ⟨hsegment, hplain⟩ := List.forall_mem_cons.1 hplain
      rw [dotted, List.foldl_cons, ← dotted, ih (join path segment) hplain, parts_join hsegment,
        List.append_assoc]
      rfl

theorem segments_eq_of_parts_eq {path : String} {names : List String}
    (hplain : ∀ name ∈ names, Plain name) (h : parts path = names.map String.toList) :
    segments path = names := by
  have hfilter : (names.map String.toList).filter (· ≠ []) = names.map String.toList := by
    rw [List.filter_eq_self]
    intro part hpart
    obtain ⟨name, hname, rfl⟩ := List.mem_map.1 hpart
    simpa using (hplain name hname).1
  rw [segments_eq, h, hfilter, List.map_map]
  simp [Function.comp_def]

/-- The first segments of a canonical path are those of a path above it. -/
theorem exists_above {q : String} {front rest : List String} (hq : Canonical q)
    (hsegments : segments q = front ++ rest) (hne : front ≠ []) :
    ∃ path, Canonical path ∧ Within q path ∧ segments path = front := by
  have hplain : ∀ segment ∈ front, Plain segment := fun segment hsegment =>
    plain_of_mem_segments (hsegments ▸ List.mem_append_left rest hsegment)
  have hparts : parts (dotted "" front) = front.map String.toList := parts_dotted "" hplain
  have hwithin : Within q (dotted "" front) := by
    rw [Within, hparts, parts_eq_of_canonical hq, hsegments, List.map_append]
    exact List.prefix_append _ _
  have hempty : dotted "" front ≠ "" := by
    intro hempty
    rw [hempty] at hparts
    exact hne (List.map_eq_nil_iff.1 hparts.symm)
  exact ⟨_, canonical_of_within hq hempty hwithin, hwithin,
    segments_eq_of_parts_eq hplain hparts⟩

end Spelling

end Waymark.Store
