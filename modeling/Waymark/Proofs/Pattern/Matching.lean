import Waymark.Proofs.Pattern.Language
import Waymark.Proofs.Pattern.Parsing
/-!
Which paths a route pattern matches.

A pattern without custom expressions that is anchored at both ends matches the paths that its
segments stand for, with one delimiter more at the end unless it is strict.
-/

namespace Waymark.Pattern

variable {options : Options} {pattern : List Char} {segments : List Segment} {matcher : Matcher}

theorem compile_one_eq_ok_iff :
    Matcher.compile options (.one pattern) = .ok matcher ↔
      ∃ segments, parse pattern options = .ok segments ∧
        ∃ regex, Regex.compile? (withCase options (expression segments options)) = some regex ∧
          matcher = ⟨regex, Segment.keys segments⟩ := by
  rw [Matcher.compile, bind_eq_ok_iff]
  simp only [Matcher.ofExpression?]
  constructor
  · rintro ⟨segments, hparse, h⟩
    split at h
    · next regex hregex => exact ⟨segments, hparse, regex, hregex, (Except.ok.inj h).symm⟩
    · exact absurd h (by simp)
  · rintro ⟨segments, hparse, regex, hregex, rfl⟩
    exact ⟨segments, hparse, by rw [hregex]⟩

theorem isSome_matchPath (matcher : Matcher) (path : String) :
    (matcher.matchPath path).isSome = (matcher.regex.find? path.toList.toArray).isSome := by
  simp [Matcher.matchPath]

/-- Only a group without any text that has a quantifier keeps a parsed pattern from compiling. -/
theorem compile_one_eq_ok (hwhole : options.Whole) (hcustom : HasNoCustom pattern)
    (hparse : parse pattern options = .ok segments)
    (hsolid : ∀ segment ∈ segments, segment.Solid) :
    ∃ matcher, Matcher.compile options (.one pattern) = .ok matcher := by
  obtain ⟨names, hregex⟩ := compile?_expression hwhole (pattern_eq_of_hasNoCustom hcustom hparse)
    hsolid
  exact ⟨_, compile_one_eq_ok_iff.2 ⟨segments, hparse, _, hregex, rfl⟩⟩

/-- A pattern without custom expressions matches a path if its segments stand for all of the path,
or for all but a delimiter at the end where the pattern is not strict. -/
theorem matchPath_isSome_iff (hstart : options.atStart = true) (hend : options.atEnd = true)
    (hends : options.endsWith = []) (hcustom : HasNoCustom pattern)
    (hcompile : Matcher.compile options (.one pattern) = .ok matcher) :
    ∃ segments, parse pattern options = .ok segments ∧ ∀ path : String,
      (matcher.matchPath path).isSome ↔
        ∃ r d, path.toList = r ++ d ∧ Segment.Generates options segments r ∧ options.Ends d := by
  obtain ⟨segments, hparse, regex, hregex, rfl⟩ := compile_one_eq_ok_iff.1 hcompile
  refine ⟨segments, hparse, fun path => ?_⟩
  rw [isSome_matchPath]
  exact isSome_find?_iff ⟨hstart, hend, hends⟩ (pattern_eq_of_hasNoCustom hcustom hparse) hregex
    path.toList

/-- A parameter and then one that may be repeated, with a slash before each value. -/
def slashNames : List Char :=
  ['/', ':', 'a', '/', ':', 'b', '*']

/-- The segments of `slashNames`. -/
def slashSegments : List Segment :=
  [.key ⟨.named ['a'], ['/'], [], Options.standard.defaultPattern, none⟩,
    .key ⟨.named ['b'], ['/'], [], Options.standard.defaultPattern, some .zeroOrMore⟩]

theorem hasNoCustom_slashNames : HasNoCustom slashNames :=
  hasNoCustom_of_customs_eq (by decide +kernel)

theorem parse_slashNames : parse slashNames .standard = .ok slashSegments :=
  eq_ok_of_toOption (by decide +kernel)

/-- The two parameters take three values, and another slash may follow. They do not take less than
one value. -/
theorem matchPath_slashNames :
    ∃ matcher, Matcher.compile .standard (.one slashNames) = .ok matcher ∧
      (matcher.matchPath "/x/y/zz/").isSome ∧ ¬(matcher.matchPath "/").isSome := by
  have hwhole : Options.Whole .standard := ⟨rfl, rfl, rfl⟩
  obtain ⟨matcher, hmatcher⟩ := compile_one_eq_ok hwhole hasNoCustom_slashNames parse_slashNames
    (by simp [slashSegments, Segment.Solid])
  obtain ⟨segments, hsegments, hmatches⟩ :=
    matchPath_isSome_iff rfl rfl rfl hasNoCustom_slashNames hmatcher
  rw [parse_slashNames] at hsegments
  obtain rfl := Except.ok.inj hsegments
  refine ⟨matcher, hmatcher, (hmatches "/x/y/zz/").2 ?_, fun hmatch => ?_⟩
  · have hfills : ∀ key : Key, key.before = ['/'] → key.after = [] →
        ∀ value ∈ [['x'], ['y'], ['z', 'z']], key.Fills .standard ('/' :: value) := by
      intro key hbefore hafter value hvalue
      have hisValue : Options.standard.IsValue value := by
        have hall : ∀ value ∈ [['x'], ['y'], ['z', 'z']],
            value ≠ [] ∧ value.all (!Options.standard.separates ·) = true := by decide
        exact isValue_of_all (hall value hvalue).1 (hall value hvalue).2
      refine ⟨['/'], value, [], by simp, ?_, hisValue, ?_⟩
      · rw [hbefore]
        exact spells_self _ _
      · rw [hafter]
        exact trivial
    refine ⟨"/x/y/zz".toList, ['/'], by decide, ?_, .inr ⟨rfl, '/', rfl, by decide⟩⟩
    refine ⟨['/', 'x'], "/y/zz".toList, by decide, ⟨[['/', 'x']], rfl, ?_, rfl⟩,
      "/y/zz".toList, [], by simp, ⟨[['/', 'y'], ['/', 'z', 'z']], trivial, ?_, by decide⟩, rfl⟩
    · exact List.forall_mem_singleton.2 (hfills _ rfl rfl ['x'] (by decide))
    · exact List.forall_mem_cons.2 ⟨hfills _ rfl rfl ['y'] (by decide),
        List.forall_mem_singleton.2 (hfills _ rfl rfl ['z', 'z'] (by decide))⟩
  · obtain ⟨r, d, htext, ⟨front, rest, rfl, ⟨parts, hcount, hparts, rfl⟩, -⟩, -⟩ :=
      (hmatches "/").1 hmatch
    obtain ⟨part, rfl⟩ := List.length_eq_one_iff.1 hcount
    obtain ⟨before, value, after, rfl, hbefore, ⟨hne, -⟩, -⟩ :=
      hparts part (List.mem_singleton_self part)
    -- The slash before the value and the value itself are longer than the path.
    have hlength := congrArg List.length htext
    have hvalue := List.length_pos_iff.2 hne
    simp only [String.reduceToList, List.length_append, List.flatten_cons, hbefore.length_eq,
      List.length_cons, List.length_nil] at hlength
    omega

end Waymark.Pattern
