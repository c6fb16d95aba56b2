import Waymark.Proofs.Pattern.Alternatives
import Waymark.Proofs.Regex.Choosing
/-!
What several patterns accept.

Patterns in a list are compiled to one expression. Where their custom expressions are groups of their
own that do not refer back, it accepts no path that none of the patterns accepts on its own, whether
matches begin with the path or not (`exists_one_of_alternatives`). Only a list without patterns accepts
every path (`matchPath_no_alternatives`).
-/

namespace Waymark.Pattern

open Regex (AddsItems Makes)
open Regex.Token (Portable)

variable {options : Options} {segments : List Segment} {parsed : List (List Segment)}
  {value : Key → List Regex.Token}

/-- An expression that the tokens of some segments make. They are compiled to it if no repetition in it
requires more than it allows. -/
structure MakesOne (options : Options) (value : Key → List Regex.Token) (segments : List Segment)
    (regex : Regex) : Prop where
  makes : Makes options.flags (expressionTokens value segments options) regex
  compiles : regex.expr.loopsAreOrdered = true →
    Regex.compile? (withCase options (expression segments options)) = some regex

/-- Tokens of a pattern that are read on their own make an expression. -/
theorem exists_makesOne
    (hvalues : ∀ key ∈ Segment.keys segments, key.Embeds (value key) ∧ Portable (value key))
    {after : Regex.Assembly} (hafter : (Regex.Assembly.alone options.flags).addAll?
      (expressionTokens value segments options) = some after) :
    ∃ regex, MakesOne options value segments regex := by
  have hportable := portable_expressionTokens options fun key hkey => (hvalues key hkey).2
  have hpiece := piece_whole options fun key hkey => (hvalues key hkey).1.readsValue
  obtain ⟨next, hnext⟩ : ∃ next,
      options.opened.addAll? (expressionTokens value segments options) = some next :=
    Regex.Assembly.exists_addAll?_of_alone hportable.balanced hportable.plain rfl
      (hollow_opened options) hafter
  obtain ⟨after', hafter', hshifted⟩ := Regex.Assembly.addAll?_alone hportable.balanced
    hportable.plain (hollow_opened options) hnext
  obtain rfl := Option.some.inj (hafter.symm.trans hafter')
  have hexpr : after.inner.expr = next.inner.expr := by
    have hwhole : next.inner.expr = after.inner.expr.shift 0 := hshifted.expr_eq
    rw [hwhole, Regex.Expr.shift_zero]
  have hcount : next.groupCount =
      (expressionTokens value segments options).countP Regex.Token.captures := by
    rw [Regex.Assembly.groupCount_of_addAll? hnext]
    exact Nat.zero_add _
  refine ⟨⟨withCase options (expression segments options), next.inner.expr,
    Regex.lastOfName next.names.reverse⟩, ⟨hportable, addsItems_expressionTokens options hvalues,
    ⟨after, hafter, hexpr⟩, ?_⟩, ?_⟩
  · rw [Regex.groupCount, Regex.length_lastOfName, List.length_reverse, ← hcount]
    rfl
  · intro hordered
    have hfinish := Regex.Assembly.finish?_of_balanced hportable.balanced hportable.plain rfl rfl hnext
    simp only [Regex.compile?, ofChars?_withCase options hpiece, addAll?_caseTokens, hnext, hfinish,
      Option.bind_eq_bind, Option.bind_some, hordered, Bool.or_true, ↓reduceIte]
    rfl

/-- Tokens of patterns that are read in a list make an expression each. -/
theorem exists_makesOne_of_mem {whole : Regex}
    (hvalues : ∀ key ∈ parsed.flatMap Segment.keys, key.Embeds (value key) ∧ Portable (value key))
    (h : Regex.compile? (withCase options
      (Pattern.alternatives (parsed.map fun segments => expression segments options))) =
        some whole) :
    ∀ segments ∈ parsed, ∃ regex, MakesOne options value segments regex := by
  have heach : ∀ segments ∈ parsed, ∀ key ∈ Segment.keys segments,
      key.Embeds (value key) ∧ Portable (value key) :=
    fun segments hsegments key hkey => hvalues key (List.mem_flatMap.2 ⟨segments, hsegments, hkey⟩)
  have hpiece := piece_alternatives fun segments hsegments => piece_whole options
    fun key hkey => (heach segments hsegments key hkey).1.readsValue
  obtain ⟨next, hnext, -⟩ := read_of_compile? hpiece h
  -- Within the group around the list the rows are read one after another.
  rw [alternativesTokens, grouped, List.cons_append, Regex.Assembly.addAll?_cons] at hnext
  obtain ⟨entered, hentered, hnext⟩ := Option.bind_eq_some_iff.1 hnext
  rw [Regex.Assembly.addAll?_append] at hnext
  obtain ⟨inside, hinside, -⟩ := Option.bind_eq_some_iff.1 hnext
  obtain ⟨-, hstart⟩ := Regex.Assembly.add?_opening hentered
  have hrows : ∀ row ∈ parsed.map fun segments => expressionTokens value segments options,
      Portable row ∧ AddsItems row := by
    intro row hrow
    obtain ⟨segments, hsegments, rfl⟩ := List.mem_map.1 hrow
    have hkeys := heach segments hsegments
    exact ⟨portable_expressionTokens options fun key hkey => (hkeys key hkey).2,
      addsItems_expressionTokens options hkeys⟩
  have hflags : entered.inner.flags = options.flags := by
    rw [hstart]
    rfl
  have hitems : entered.inner.items = [] := by
    rw [hstart]
    rfl
  have halone := Regex.exists_alone_of_intercalate hrows hflags hitems hinside
  intro segments hsegments
  obtain ⟨after, hafter⟩ := halone _ (List.mem_map_of_mem hsegments)
  exact exists_makesOne (heach segments hsegments) hafter

/-- Patterns that are compiled together accept no path that none of them accepts on its own. -/
theorem exists_one_of_alternatives {patterns : List (List Char)} {matcher : Matcher} {path : String}
    (hne : patterns ≠ []) (hself : ∀ pattern ∈ patterns, HasSelfContained pattern)
    (hplain : ∀ pattern ∈ patterns, HasNoBackref pattern)
    (hcompile : Matcher.compile options (.alternatives patterns) = .ok matcher)
    (hordered : matcher.regex.expr.loopsAreOrdered = true)
    (hmatch : (matcher.matchPath path).isSome) :
    ∃ pattern ∈ patterns, ∃ single, Matcher.compile options (.one pattern) = .ok single ∧
      (single.matchPath path).isSome := by
  obtain ⟨parsed, hparsed, whole, hwhole, rfl⟩ := Matcher.compile_alternatives_eq_ok hcompile
  have hparsedNe : parsed ≠ [] := by
    rintro rfl
    obtain ⟨pattern, others, rfl⟩ := List.exists_cons_of_ne_nil hne
    obtain ⟨_, _, -, -, heq⟩ := mapM_cons_eq_ok_iff.1 hparsed
    exact absurd heq.symm (List.cons_ne_nil _ _)
  obtain ⟨value, hvalues⟩ := exists_portable_values hself hplain hparsed
  have hnonempty : Nonempty Regex := ⟨whole⟩
  obtain ⟨made, hmade⟩ := exists_values (exists_makesOne_of_mem hvalues hwhole)
  have hmakes : List.Forall₂ (Makes options.flags)
      (parsed.map fun segments => expressionTokens value segments options) (parsed.map made) := by
    rw [List.forall₂_map_left_iff, List.forall₂_map_right_iff, List.forall₂_same]
    exact fun segments hsegments => (hmade segments hsegments).makes
  have hexpr := expr_of_alternatives hparsedNe hvalues hmakes hwhole
  have hbackref : ∀ regex ∈ parsed.map made, regex.expr.hasBackref = false :=
    List.forall_mem_map.2 fun segments hsegments => (hmade segments hsegments).makes.numbered.plain
  rw [isSome_matchPath] at hmatch
  obtain ⟨regex, hregex, hfound⟩ :=
    Regex.exists_find?_of_branches (by simpa using hparsedNe) hbackref hexpr hmatch
  have hregexOrdered : regex.expr.loopsAreOrdered = true := by
    obtain ⟨offset, hbranch⟩ := Regex.exists_shift_mem_branches hregex 0
    rw [hexpr] at hordered
    rw [← Regex.Expr.loopsAreOrdered_shift offset]
    exact Regex.Expr.loopsAreOrdered_of_ofAlternatives hordered _ hbranch
  obtain ⟨segments, hsegments, rfl⟩ := List.mem_map.1 hregex
  obtain ⟨pattern, hpattern, hparse⟩ := exists_of_mem_mapM hparsed hsegments
  have hcompiles := (hmade segments hsegments).compiles hregexOrdered
  refine ⟨pattern, hpattern, ⟨made segments, Segment.keys segments⟩,
    compile_one_eq_ok_iff.2 ⟨segments, hparse, made segments, hcompiles, rfl⟩, ?_⟩
  rw [isSome_matchPath]
  exact hfound

/-- A list without patterns accepts every path. -/
theorem matchPath_no_alternatives {matcher : Matcher}
    (hcompile : Matcher.compile options (.alternatives []) = .ok matcher) (path : String) :
    (matcher.matchPath path).isSome := by
  obtain ⟨parsed, hparsed, whole, hwhole, rfl⟩ := Matcher.compile_alternatives_eq_ok hcompile
  obtain rfl : [] = parsed := Except.ok.inj hparsed
  have hempty : ∀ sensitive : Bool, (Regex.compile? (withCase { options with sensitive }
      (Pattern.alternatives []))).map Regex.expr = some .empty := by
    intro sensitive
    cases sensitive <;> rfl
  have hexpr : whole.expr = .empty := by
    have hread := hempty options.sensitive
    rw [List.map_nil] at hwhole
    rw [hwhole] at hread
    exact Option.some.inj hread
  have hplain : whole.expr.isInvolved = false := by
    rw [hexpr]
    rfl
  rw [isSome_matchPath, Regex.find?_isSome_iff hplain]
  refine ⟨0, Nat.zero_le _, .start 0, ?_⟩
  rw [hexpr]
  rfl

end Waymark.Pattern
