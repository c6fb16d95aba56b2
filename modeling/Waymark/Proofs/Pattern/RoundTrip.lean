import Waymark.Proofs.Pattern.Building
import Waymark.Proofs.Pattern.Gathering
import Waymark.Proofs.Pattern.Matching
/-!
Matching what was built.

Where every parameter ends at a delimiter, a path that was built of values is matched as a whole, and
the match holds the same values (`matchPath_build`).
-/

namespace Waymark.Pattern

open Regex (Expr State)
open Regex.Expr (RunsAll runsAll_append runsAll_singleton runs_row)

variable {options : Options} {segments : List Segment} {params : Params}

section Values

theorem splitOn_singleton (d : Char) (text : List Char) : splitOn [d] text = text.splitOn d := by
  induction text with
  | nil => simp [splitOn]
  | cons c rest ih =>
      rw [splitOn, List.splitOn_cons_eq_if_modifyHead, ih]
      by_cases hc : c = d
      · simp [hc, ih]
      · cases hsplit : rest.splitOn d with
        | nil => exact absurd hsplit (List.splitOn_ne_nil d rest)
        | cons part parts => simp [hc, Ne.symm hc]

/-- A parameter with a quantifier has a delimiter before each value. -/
theorem Delimited.before_eq {key : Key} (hdelimited : Delimited options segments)
    (hkey : .key key ∈ segments) :
    key.quantifier = none ∨ ∃ d ∈ options.delimiter, key.before = [d] := by
  induction segments with
  | nil => exact absurd hkey List.not_mem_nil
  | cons segment segments ih =>
      rcases List.mem_cons.1 hkey with rfl | hlater
      · cases segments with
        | nil => exact hdelimited.1
        | cons next rest => exact .inl hdelimited.1.1
      · cases segment with
        | literal | group => exact ih hdelimited hlater
        | key parameter => exact ih hdelimited.2 hlater

/-- The values that a path was built of are told apart again. -/
theorem Key.map_value_recovered {key : Key} {value : Option ParamValue} (hafter : key.after = [])
    (hbefore : key.quantifier = none ∨ ∃ d ∈ options.delimiter, key.before = [d])
    (htakes : key.Takes options value) : (key.recovered value).map key.value = value := by
  rcases takes_cases htakes with ⟨rfl, -⟩ | ⟨text, rfl, hrepeats, -⟩ | ⟨texts, rfl, hrepeats, hne,
    hvalues⟩
  · rfl
  · simp [recovered, Key.value, hrepeats]
  · rcases hbefore with hquantifier | ⟨d, hd, hbefore⟩
    · rw [repeats, hquantifier] at hrepeats
      exact absurd hrepeats (by simp)
    · have hfree : ∀ text ∈ texts.map String.toList, d ∉ text := by
        intro text htext hmem
        obtain ⟨written, hwritten, rfl⟩ := List.mem_map.1 htext
        have hseparates := (hvalues written hwritten).2 d hmem
        rw [separates_of_mem hd] at hseparates
        exact absurd hseparates (by simp)
      have hsplit := List.splitOn_intercalate d hfree (by simpa using hne)
      simp only [recovered, Option.map_some, Key.value, hrepeats, hafter, hbefore, List.nil_append,
        splitOn_singleton, hsplit]
      simp [List.map_map, Function.comp_def]

end Values

section Found

variable {text : Array Char}

theorem groups_endItems (options : Options) : options.endItems.flatMap Expr.groups = [] := by
  unfold Options.endItems
  split <;> rfl

theorem matchPath_eq_some {matcher : Matcher} {path : List Char} {found : Regex.Match}
    (hfound : matcher.regex.find? path.toArray = some found) :
    matcher.matchPath (String.ofList path) =
      some ⟨String.ofList (Regex.slice path.toArray found.first found.last),
        Unicode.Utf8.size (path.take found.first), matcher.paramsOf path.toArray found⟩ := by
  rw [Matcher.matchPath, String.toList_ofList, hfound, Option.map_some]

/-- What a search for a whole pattern finds: the whole path, and the groups of its segments. -/
theorem found_of_whole {regex : Regex} {found : Regex.Match}
    (hexpr : regex.expr = Regex.row (wholeItems options segments))
    (hfound : regex.find? text = some found) :
    found.first = 0 ∧ found.last = text.size ∧
      ∃ m, RunsAll text (Segment.allItems options 0 segments) (.start 0) m ∧
        options.Ends (text.toList.drop m.position) ∧
        ∀ group, found.group? text group = groupText text m group := by
  obtain ⟨-, hlast, hrun⟩ := Regex.find?_eq_some hfound
  rw [hexpr, runs_row] at hrun
  have hfirst := (runsAll_wholeItems.1 ⟨_, hrun⟩).1
  rw [hfirst] at hrun
  obtain ⟨m, hm, hend⟩ := runsAll_append.1 hrun
  obtain ⟨l, hstart, hm⟩ := runsAll_append.1 hm
  obtain ⟨-, rfl⟩ := runsAll_singleton.1 hstart
  obtain ⟨d, hd, hbetween⟩ := runsAll_endItems.1 ⟨_, hend⟩
  refine ⟨hfirst, ?_, m, hm, ?_, fun group => ?_⟩
  · obtain ⟨l, -, hl⟩ := runsAll_append.1 hend
    obtain ⟨hholds, heq⟩ := runsAll_singleton.1 hl
    rw [hlast, heq]
    simpa [Regex.Anchor.holds] using hholds
  · rw [hbetween.drop, ← Array.length_toList, List.drop_length, List.append_nil]
    exact hd
  · rw [Regex.Match.group?, groupText,
      Expr.span?_eq_of_runsAll hend (by simp [groups_endItems])]

end Found

section Matching

variable {pattern : List Char}

/-- Without braces there is no text after a value, and no segment but literals and parameters. -/
theorem unbraced_of_hasNoBraces (hbraces : HasNoBraces pattern)
    (hparse : parse pattern options = .ok segments) : ∀ segment ∈ segments, segment.Unbraced := by
  obtain ⟨lexemes, hlexemes, hfrom⟩ := from_of_mem_parse hparse
  intro segment hsegment
  have hsegment := hfrom segment hsegment
  cases hsegment with
  | literal => trivial
  | key hafter => exact hafter
  | bracedKey h | group h => exact absurd h (hbraces lexemes hlexemes)

theorem solid_of_unbraced {segment : Segment} (h : segment.Unbraced) : segment.Solid := by
  cases segment with
  | literal | key => trivial
  | group => exact absurd h id

/-- A path that was built is matched as a whole, and every parameter has the value that it was built
of. -/
theorem matchPath_build (hstart : options.atStart = true) (hend : options.atEnd = true)
    (hends : options.endsWith = []) (hcustom : HasNoCustom pattern)
    (hbraces : HasNoBraces pattern) (hparse : parse pattern options = .ok segments)
    (hdistinct : ((Segment.keys segments).map (·.name.text)).Nodup)
    (hdelimited : Delimited options segments) (hsuits : Suits options segments params) :
    ∃ builder matcher path found, PathBuilder.compile options pattern = .ok builder ∧
      Matcher.compile options (.one pattern) = .ok matcher ∧ builder.build params = .ok path ∧
      matcher.matchPath path = some found ∧ found.index = 0 ∧ found.path = path ∧
      ∀ key ∈ Segment.keys segments,
        Dict.get? found.params key.name.text = some (params.value? key.name.text) := by
  have hwhole : options.Whole := ⟨hstart, hend, hends⟩
  have hdefaults := pattern_eq_of_hasNoCustom hcustom hparse
  have hunbraced := unbraced_of_hasNoBraces hbraces hparse
  obtain ⟨builder, hbuilder, hbuild⟩ := build_eq_ok hparse hdefaults hsuits
  obtain ⟨names, hregex⟩ := compile?_expression hwhole hdefaults
    fun segment hsegment => solid_of_unbraced (hunbraced segment hsegment)
  have hmatcher := compile_one_eq_ok_iff.2 ⟨segments, hparse, _, hregex, rfl⟩
  have hsome := (isSome_find?_iff hwhole hdefaults hregex (builtPath params segments)).2
    ⟨_, [], (List.append_nil _).symm, generates_builtPath hsuits, .inl rfl⟩
  obtain ⟨found, hfound⟩ := Option.isSome_iff_exists.1 hsome
  obtain ⟨hfirst, hlast, m, hm, hrest, hgroups⟩ := found_of_whole rfl hfound
  refine ⟨builder, _, _, _, hbuilder, hmatcher, hbuild, matchPath_eq_some hfound, ?_, ?_,
    fun key hkey => ?_⟩
  · rw [hfirst]
    rfl
  · rw [hfirst, hlast]
    simp [Regex.slice]
  · obtain ⟨number, hnumber⟩ := List.getElem?_of_mem hkey
    have hmem := mem_keys_iff.1 hkey
    have hcaptured := groupText_of_built hdelimited hunbraced hsuits hm (fun _ _ => rfl) rfl hrest
      hnumber
    rw [Matcher.get?_paramsOf hdistinct hnumber, hgroups, ← Nat.zero_add number, hcaptured,
      Key.map_value_recovered (hunbraced _ hmem) (hdelimited.before_eq hmem) (hsuits key hkey)]

theorem hasNoBraces_slashNames : HasNoBraces slashNames := by
  have hplain : (tokenize slashNames).toOption.all (·.all (·.token ≠ .openBrace)) = true := by
    decide +kernel
  rintro lexemes hlexemes ⟨lexeme, hmem, hbrace⟩
  rw [hlexemes] at hplain
  have hother := List.all_eq_true.1 hplain lexeme hmem
  exact of_decide_eq_true hother hbrace

/-- One value of the first name and two of the second one are put after slashes and found there
again. -/
theorem matchPath_build_slashNames :
    ∃ builder matcher path found, PathBuilder.compile .standard slashNames = .ok builder ∧
      Matcher.compile .standard (.one slashNames) = .ok matcher ∧
      builder.build [("a", some (.single "x")), ("b", some (.repeated ["y", "zz"]))] = .ok path ∧
      matcher.matchPath path = some found ∧ found.index = 0 ∧ found.path = path ∧
      Dict.get? found.params "a" = some (some (.single "x")) ∧
      Dict.get? found.params "b" = some (some (.repeated ["y", "zz"])) := by
  have hsuits : Suits .standard slashSegments
      [("a", some (.single "x")), ("b", some (.repeated ["y", "zz"]))] := by
    refine List.forall_mem_cons.2 ⟨?_, List.forall_mem_singleton.2 ?_⟩
    · exact isValue_of_all (by decide) (by decide)
    · refine ⟨by decide, fun text htext => ?_⟩
      have hvalues : ∀ text ∈ ["y", "zz"],
          text.toList ≠ [] ∧ text.toList.all (!Options.standard.separates ·) = true := by decide
      exact isValue_of_all (hvalues text htext).1 (hvalues text htext).2
  have hslash : ∃ d ∈ Options.standard.delimiter, ['/'] = [d] := ⟨'/', by decide, rfl⟩
  have hdelimited : Delimited .standard slashSegments :=
    ⟨⟨rfl, '/', by decide, rfl⟩, .inr hslash, trivial⟩
  obtain ⟨builder, matcher, path, found, hbuilder, hmatcher, hbuild, hfound, hindex, hpath,
    hvalues⟩ := matchPath_build rfl rfl rfl hasNoCustom_slashNames hasNoBraces_slashNames
      parse_slashNames (by decide) hdelimited hsuits
  obtain ⟨hfirst, hsecond⟩ := List.forall_mem_cons.1 hvalues
  exact ⟨builder, matcher, path, found, hbuilder, hmatcher, hbuild, hfound, hindex, hpath, hfirst,
    hsecond _ List.mem_cons_self⟩

end Matching

end Waymark.Pattern
