import Waymark.Proofs.Pattern.Agreement
import Waymark.Proofs.Regex.Joining
/-!
Several patterns, of which a path has to match one.

Patterns that match from the beginning of a path are compiled side by side, with one numbering of
their groups. Where their custom expressions are groups of their own that do not refer back, a search
for all of them that does not give up comes to what a search for the first of them that matches comes
to, and its parameters have the same values; those of the others have none (`matchPath_alternatives`).
-/

namespace Waymark.Pattern

open Regex (AddsItems Expr Makes row_singleton)
open Regex.Expr (runsAll_append runsAll_singleton runs_row)
open Regex.Token (Portable)

/-- A custom expression does not ask for the text of a group. -/
def Unreferring (text : List Char) : Prop :=
  ∀ tokens, Regex.Token.ofChars? (captured text) = some tokens →
    ∀ token ∈ tokens, token.refersBack = false

/-- No custom expression of a pattern asks for the text of a group. -/
def HasNoBackref (pattern : List Char) : Prop :=
  ∀ lexemes, tokenize pattern = .ok lexemes → ∀ text, HasCustom lexemes text → Unreferring text

section Porting

variable {value : Key → List Regex.Token}

theorem portable_spelled (text : List Char) : Portable (spelled text) := by
  induction text with
  | nil => exact .nil
  | cons c text ih => exact (Portable.single rfl rfl).append ih

theorem portable_quantifier (quantifier : Option Quantifier) :
    Portable (Quantifier.tokens quantifier) := by
  cases quantifier with
  | none => exact .nil
  | some => exact .single rfl rfl

theorem Key.portable_insideTokens {key : Key} (h : Portable (value key)) :
    Portable (key.insideTokens (value key)) := by
  unfold insideTokens
  split
  · split
    · exact (h.enclosed _).append (portable_quantifier key.quantifier)
    · have hfurther := ((portable_spelled key.after).append (portable_spelled key.before)).append
        (h.enclosed (.plain []))
      exact (h.enclosed _).append ((hfurther.enclosed _).append (.single rfl rfl))
  · exact h

theorem Key.portable_tokens {key : Key} (h : Portable (value key)) :
    Portable (key.tokens (value key)) := by
  have hinside := portable_insideTokens h
  have hframed : Portable (key.framedTokens (value key)) := by
    unfold framedTokens
    split
    · exact hinside.enclosed _
    · exact (((portable_spelled key.before).append (hinside.enclosed _)).append
        (portable_spelled key.after)).enclosed _
  exact hframed.append (portable_quantifier key.outer)

theorem portable_segments {segments : List Segment}
    (h : ∀ key ∈ Segment.keys segments, Portable (value key)) :
    Portable (segments.flatMap (Segment.tokens value)) := by
  induction segments with
  | nil => exact .nil
  | cons segment segments ih =>
      rw [List.flatMap_cons]
      cases segment with
      | literal text => exact (portable_spelled text).append (ih h)
      | group before after quantifier =>
          exact ((((portable_spelled before).append (portable_spelled after)).enclosed _).append
            (portable_quantifier quantifier)).append (ih h)
      | key parameter =>
          obtain ⟨hparameter, hrest⟩ := List.forall_mem_cons.1 h
          exact (Key.portable_tokens hparameter).append (ih hrest)

theorem portable_optional {condition : Bool} {tokens : List Regex.Token} (h : Portable tokens) :
    Portable (if condition then tokens else []) := by
  cases condition with
  | true => exact h
  | false => exact .nil

theorem portable_tailTokens (segments : List Segment) (options : Options) :
    Portable (tailTokens segments options) := by
  have hset : ∀ chars, Portable [.set chars] := fun _ => .single rfl rfl
  have hbar : Portable [.bar] := .single rfl rfl
  have hfinish : Portable [.finish] := .single rfl rfl
  have hoptional : Portable [Quantifier.optional.token] := .single rfl rfl
  have hterminator : Portable options.terminatorTokens := by
    unfold Options.terminatorTokens
    split
    · exact hfinish
    · exact (hset _).append (hbar.append hfinish)
  unfold tailTokens
  split
  · refine (portable_optional ((hset _).append hoptional)).append ?_
    split
    · exact hfinish
    · exact hterminator.enclosed _
  · refine (portable_optional
      ((((hset _).append (hterminator.enclosed _)).enclosed _).append hoptional)).append ?_
    split
    · exact .nil
    · exact ((portable_optional ((hset _).append hbar)).append hterminator).enclosed _

theorem portable_expressionTokens {segments : List Segment} (options : Options)
    (h : ∀ key ∈ Segment.keys segments, Portable (value key)) :
    Portable (expressionTokens value segments options) :=
  ((portable_optional (.single rfl rfl)).append (portable_segments h)).append
    (portable_tailTokens segments options)

end Porting

variable {options : Options} {segments : List Segment} {value : Key → List Regex.Token}
  {regex : Regex}

/-- The expression of each value can be read elsewhere, where custom expressions are groups of their
own that do not refer back. -/
theorem exists_portable {pattern : List Char} (hself : HasSelfContained pattern)
    (hplain : HasNoBackref pattern) (h : parse pattern options = .ok segments) :
    ∀ key ∈ Segment.keys segments, ∃ tokens, key.Embeds tokens ∧ Portable tokens := by
  intro key hkey
  obtain ⟨tokens, hembeds, htokens⟩ := exists_embeds_of_parse hself h
    (by simp [Options.defaultTokens, Regex.Token.refersBack]) hplain key hkey
  exact ⟨tokens, hembeds, hembeds.balanced, htokens⟩

theorem addsItems_expressionTokens (options : Options)
    (hvalues : ∀ key ∈ Segment.keys segments, key.Embeds (value key) ∧ Portable (value key)) :
    AddsItems (expressionTokens value segments options) :=
  (grows_expressionTokens options (fun key hkey => (hvalues key hkey).1.balanced)
    fun key hkey => (hvalues key hkey).1.captureless).mono fun _ _ _ => trivial

/-- The tokens of a pattern make its expression. -/
theorem makes_of_compile?
    (hvalues : ∀ key ∈ Segment.keys segments, key.Embeds (value key) ∧ Portable (value key))
    (h : Regex.compile? (withCase options (expression segments options)) = some regex) :
    Makes options.flags (expressionTokens value segments options) regex := by
  have hpiece := piece_whole options fun key hkey => (hvalues key hkey).1.readsValue
  have hportable := portable_expressionTokens options fun key hkey => (hvalues key hkey).2
  have htokens := ofChars?_withCase options hpiece
  refine ⟨hportable, addsItems_expressionTokens options hvalues, ?_, ?_⟩
  · obtain ⟨next, hnext, hexpr⟩ := read_of_compile? hpiece h
    obtain ⟨after, hafter, hshifted⟩ := Regex.Assembly.addAll?_alone hportable.balanced
      hportable.plain (hollow_opened options) hnext
    have hwhole : next.inner.expr = after.inner.expr.shift 0 := hshifted.expr_eq
    exact ⟨after, hafter, by rw [hexpr, hwhole, Expr.shift_zero]⟩
  · rw [Regex.groupCount_of_compile? htokens h, countP_caseTokens]

/-- The expression of a pattern that matches from the beginning of a path. -/
theorem leading_of_compile? (hstart : options.atStart = true)
    (hvalues : ∀ key ∈ Segment.keys segments, key.Embeds (value key) ∧ Portable (value key))
    (h : Regex.compile? (withCase options (expression segments options)) = some regex) :
    regex.expr.Leading := by
  have hpiece := piece_whole options fun key hkey => (hvalues key hkey).1.readsValue
  have hsegments : AddsItems (segments.flatMap (Segment.tokens value)) :=
    (grows_segments (fun key hkey => (hvalues key hkey).1.balanced)
      fun key hkey => (hvalues key hkey).1.captureless).mono fun _ _ _ => trivial
  have hlays := ((lays_start options).append (hsegments.lays options.flags)).append
    ((addsItems_tail segments options).lays options.flags)
  obtain ⟨_, hexpr, _, _, rfl, ⟨_, _, rfl, ⟨_, rfl, rfl⟩, -⟩, -⟩ :=
    expr_of_lays hpiece (by unfold expressionTokens; rw [if_pos hstart]; exact hlays) h
  refine ⟨(makes_of_compile? hvalues h).numbered.plain, fun text position => ?_⟩
  rw [List.eq_nil_iff_forall_not_mem]
  intro t ht
  have hruns := Expr.runs_of_mem_outcomes ht
  rw [hexpr, List.append_assoc, runs_row] at hruns
  obtain ⟨_, hanchor, -⟩ := runsAll_append.1 hruns
  obtain ⟨hholds, -⟩ := runsAll_singleton.1 hanchor
  exact absurd hholds (by simp [Regex.Anchor.holds, Regex.State.start])

section Compiling

variable {patterns : List (List Char)} {parsed : List (List Segment)} {singles : List Matcher}

/-- Patterns and what each of them is compiled to on its own. -/
def CompileAlone (options : Options) (patterns : List (List Char)) (singles : List Matcher) : Prop :=
  List.Forall₂ (fun pattern single => Matcher.compile options (.one pattern) = .ok single) patterns
    singles

/-- Some segments and what their expression is compiled to. -/
def Compiles (options : Options) (segments : List Segment) (single : Matcher) : Prop :=
  Regex.compile? (withCase options (expression segments options)) = some single.regex ∧
    single.keys = Segment.keys segments

/-- Patterns that are compiled one by one have been parsed. -/
theorem forall₂_compiles
    (halone : CompileAlone options patterns singles)
    (hparsed : (patterns.mapM fun pattern => parse pattern options) = .ok parsed) :
    List.Forall₂ (Compiles options) parsed singles := by
  induction halone generalizing parsed with
  | nil =>
      obtain rfl := Except.ok.inj hparsed
      exact .nil
  | cons hsingle _ ih =>
      obtain ⟨segments, others, hsegments, hothers, rfl⟩ := mapM_cons_eq_ok_iff.1 hparsed
      obtain ⟨segments', hparse, regex, hregex, rfl⟩ := compile_one_eq_ok_iff.1 hsingle
      obtain rfl := Except.ok.inj (hsegments.symm.trans hparse)
      exact .cons ⟨hregex, rfl⟩ (ih hothers)

/-- A matcher that can be one of several: its expression matches from the beginning of a path only, and
has one group for each parameter. -/
structure Matcher.Joinable (single : Matcher) : Prop where
  leading : single.regex.expr.Leading
  numbered : single.regex.expr.Numbered single.regex.groupCount
  count : single.regex.groupCount = single.keys.length

theorem joinable_of_compiles (hstart : options.atStart = true)
    (hvalues : ∀ key ∈ Segment.keys segments, key.Embeds (value key) ∧ Portable (value key))
    {single : Matcher} (h : Compiles options segments single) : single.Joinable := by
  have hmakes := makes_of_compile? hvalues h.1
  refine ⟨leading_of_compile? hstart hvalues h.1, hmakes.numbered, ?_⟩
  rw [← hmakes.count, h.2]
  exact countP_expressionTokens options fun key hkey => (hvalues key hkey).1.captureless

theorem forall₂_makes
    (hvalues : ∀ key ∈ parsed.flatMap Segment.keys, key.Embeds (value key) ∧ Portable (value key))
    (hsingles : List.Forall₂ (Compiles options) parsed singles) :
    List.Forall₂ (Makes options.flags)
      (parsed.map fun segments => expressionTokens value segments options)
      (singles.map Matcher.regex) := by
  induction hsingles with
  | nil => exact .nil
  | cons hsingle _ ih =>
      rw [List.flatMap_cons] at hvalues
      obtain ⟨hfirst, hrest⟩ := List.forall_mem_append.1 hvalues
      exact .cons (makes_of_compile? hfirst hsingle.1) (ih hrest)

theorem joinable_of_mem (hstart : options.atStart = true)
    (hvalues : ∀ key ∈ parsed.flatMap Segment.keys, key.Embeds (value key) ∧ Portable (value key))
    (hsingles : List.Forall₂ (Compiles options) parsed singles) :
    ∀ single ∈ singles, single.Joinable := by
  induction hsingles with
  | nil => exact fun _ h => absurd h List.not_mem_nil
  | cons hsingle _ ih =>
      rw [List.flatMap_cons] at hvalues
      obtain ⟨hfirst, hrest⟩ := List.forall_mem_append.1 hvalues
      exact List.forall_mem_cons.2 ⟨joinable_of_compiles hstart hfirst hsingle, ih hrest⟩

theorem flatMap_keys (hsingles : List.Forall₂ (Compiles options) parsed singles) :
    parsed.flatMap Segment.keys = singles.flatMap Matcher.keys := by
  induction hsingles with
  | nil => rfl
  | cons hsingle _ ih => rw [List.flatMap_cons, List.flatMap_cons, hsingle.2, ih]

theorem groupsOf_map_regex {front : List Matcher} (h : ∀ single ∈ front, single.Joinable) :
    Regex.groupsOf (front.map Matcher.regex) = (front.flatMap Matcher.keys).length := by
  rw [Regex.groupsOf, List.map_map, List.length_flatMap]
  exact congrArg List.sum (List.map_congr_left fun single hsingle => (h single hsingle).count)

/-- What can be read elsewhere is chosen for the values of all patterns. -/
theorem exists_portable_values (hself : ∀ pattern ∈ patterns, HasSelfContained pattern)
    (hplain : ∀ pattern ∈ patterns, HasNoBackref pattern)
    (hparsed : (patterns.mapM fun pattern => parse pattern options) = .ok parsed) :
    ∃ value : Key → List Regex.Token, ∀ key ∈ parsed.flatMap Segment.keys,
      key.Embeds (value key) ∧ Portable (value key) := by
  have hencloses : ∀ key ∈ parsed.flatMap Segment.keys,
      ∃ tokens, key.Embeds tokens ∧ Portable tokens := by
    intro key hkey
    obtain ⟨segments, hsegments, hkey⟩ := List.mem_flatMap.1 hkey
    obtain ⟨pattern, hpattern, hparse⟩ := exists_of_mem_mapM hparsed hsegments
    exact exists_portable (hself pattern hpattern) (hplain pattern hpattern) hparse key hkey
  exact exists_values hencloses

/-- The tokens of alternatives make their expressions side by side. -/
theorem expr_of_alternatives {whole : Regex} (hne : parsed ≠ [])
    (hvalues : ∀ key ∈ parsed.flatMap Segment.keys, key.Embeds (value key) ∧ Portable (value key))
    {regexes : List Regex} (hmakes : List.Forall₂ (Makes options.flags)
      (parsed.map fun segments => expressionTokens value segments options) regexes)
    (h : Regex.compile? (withCase options
      (Pattern.alternatives (parsed.map fun segments => expression segments options))) =
        some whole) :
    whole.expr = .ofAlternatives (Regex.branches 0 regexes) := by
  have hpiece := piece_alternatives fun segments hsegments => piece_whole options
    fun key hkey => (hvalues key (List.mem_flatMap.2 ⟨segments, hsegments, hkey⟩)).1.readsValue
  obtain ⟨next, hnext, hexpr⟩ := read_of_compile? hpiece h
  have hinside : ∀ entered inside : Regex.Assembly,
      options.opened.add? (.opening (.plain [])) = some entered →
        entered.addAll? (List.intercalate [.bar]
          (parsed.map fun segments => expressionTokens value segments options)) = some inside →
        inside.pending = entered.pending ∧ inside.inner.expr =
          .ofAlternatives (Regex.branches 0 regexes) := by
    intro entered inside hentered hinside
    obtain ⟨_, hstart⟩ := Regex.Assembly.add?_opening hentered
    have hcount : entered.groupCount = 0 := Regex.Assembly.groupCount_of_add? hentered
    obtain ⟨hpending, hbranches⟩ := Regex.expr_of_intercalate (by simpa using hne) hmakes
      (by rw [hstart]; rfl) (by rw [hstart]; rfl) hinside
    rw [hstart, hcount] at hbranches
    exact ⟨hpending, hbranches⟩
  obtain ⟨entered, inside, item, hentered, hread, hitem, _, hinner⟩ :=
    Regex.Assembly.of_addAll?_group
      (fun entered inside hentered hread => (hinside entered inside hentered hread).1) hnext
  obtain rfl := Option.some.inj hitem
  have hrow : next.inner.expr = Regex.row [inside.inner.expr] := expr_of_opened hinner
  rw [hexpr, hrow, (hinside entered inside hentered hread).2, row_singleton]

/-- Patterns that are compiled together are joined from what they are compiled to one by one. -/
theorem joined_of_compile {matcher : Matcher} (hstart : options.atStart = true)
    (hne : patterns ≠ []) (hself : ∀ pattern ∈ patterns, HasSelfContained pattern)
    (hplain : ∀ pattern ∈ patterns, HasNoBackref pattern)
    (halone : CompileAlone options patterns singles)
    (hcompile : Matcher.compile options (.alternatives patterns) = .ok matcher) :
    matcher.regex.Joined (singles.map Matcher.regex) ∧
      matcher.keys = singles.flatMap Matcher.keys ∧ ∀ single ∈ singles, single.Joinable := by
  obtain ⟨parsed, hparsed, whole, hwhole, rfl⟩ := Matcher.compile_alternatives_eq_ok hcompile
  have hsingles := forall₂_compiles halone hparsed
  obtain ⟨value, hvalues⟩ := exists_portable_values hself hplain hparsed
  have hjoinable := joinable_of_mem hstart hvalues hsingles
  have hsinglesNe : singles ≠ [] := by
    rintro rfl
    exact hne (List.forall₂_nil_right_iff.1 halone)
  have hparsedNe : parsed ≠ [] := by
    rintro rfl
    exact hsinglesNe (List.forall₂_nil_left_iff.1 hsingles)
  refine ⟨⟨by simpa using hsinglesNe, List.forall_mem_map.2 fun single hsingle => ?_,
    expr_of_alternatives hparsedNe hvalues (forall₂_makes hvalues hsingles) hwhole⟩, flatMap_keys hsingles, hjoinable⟩
  exact (hjoinable single hsingle).leading

end Compiling

section Fixed

theorem unreferring_of_all {text : List Char}
    (h : (Regex.Token.ofChars? (captured text)).all (·.all fun token => !token.refersBack) = true) :
    Unreferring text := by
  intro tokens htokens token htoken
  rw [htokens] at h
  simpa using List.all_eq_true.1 h token htoken

/-- Some letters and a name. -/
def lettersAndName : List Char :=
  "/:b(x+)/:a".toList

theorem customs_lettersAndName :
    (tokenize lettersAndName).toOption.map customs = some ["x+".toList] := by
  decide +kernel

theorem hasSelfContained_lettersAndName : HasSelfContained lettersAndName := by
  have hself : SelfContained "x+".toList :=
    ⟨[.set (.single 'x'), .quantifier 1 none false false], .of_follow? (by decide), rfl⟩
  exact forall_custom customs_lettersAndName (List.forall_mem_singleton.2 hself)

theorem hasNoBackref_lettersAndName : HasNoBackref lettersAndName := by
  have hplain : Unreferring "x+".toList := unreferring_of_all (by decide)
  exact forall_custom customs_lettersAndName (List.forall_mem_singleton.2 hplain)

/-- A name after a slash is no custom expression. -/
theorem hasNoCustom_slashName : HasNoCustom ['/', ':', 'a'] :=
  hasNoCustom_of_customs_eq (by decide +kernel)

/-- Every custom expression of a pattern is an expression on its own. -/
def HasStandalone (pattern : List Char) : Prop :=
  ∀ lexemes, tokenize pattern = .ok lexemes → ∀ text, HasCustom lexemes text →
    (Regex.compile? text).isSome = true

/-- Patterns that are compiled on their own, whose custom expressions are expressions on their own and
do not refer back. -/
structure Separate (options : Options) (patterns : List (List Char)) (singles : List Matcher) :
    Prop where
  alone : CompileAlone options patterns singles
  customs : ∀ pattern ∈ patterns, HasStandalone pattern ∧ HasNoBackref pattern

/-- The second of two patterns is found on its own, but neither is found together. -/
def Unreached (options : Options) (first second : List Char) (path : String) : Prop :=
  ∃ one other matcher own, Separate options [first, second] [one, other] ∧
    Matcher.compile options (.alternatives [first, second]) = .ok matcher ∧
    other.matchPath path = some own ∧ matcher.matchPath path = none

/-- The first of two patterns is found on its own, but together another match is. -/
def Overtaken (options : Options) (first second : List Char) (path : String) : Prop :=
  ∃ one other matcher own found, Separate options [first, second] [one, other] ∧
    Matcher.compile options (.alternatives [first, second]) = .ok matcher ∧
    one.matchPath path = some own ∧ matcher.matchPath path = some found ∧ found.index ≠ own.index

/-- A pattern is found on its own, but is not accepted as one of several. -/
def Refused (options : Options) (pattern : List Char) (path : String) : Prop :=
  ∃ single own, Separate options [pattern] [single] ∧ single.matchPath path = some own ∧
    ∀ matcher, Matcher.compile options (.alternatives [pattern]) ≠ .ok matcher

theorem customs_of_all {pattern : List Char}
    (h : ((tokenize pattern).toOption.map customs).any (·.all fun text =>
      (Regex.compile? text).isSome &&
        (Regex.Token.ofChars? (captured text)).all (·.all fun token => !token.refersBack)) = true) :
    HasStandalone pattern ∧ HasNoBackref pattern := by
  obtain ⟨texts, htexts, hall⟩ := (Option.any_eq_true _ _).1 h
  have heach := fun text htext => Bool.and_eq_true_iff.1 (List.all_eq_true.1 hall text htext)
  exact ⟨forall_custom htexts fun text htext => (heach text htext).1,
    forall_custom htexts fun text htext => unreferring_of_all (heach text htext).2⟩

/-- Letters in one of two ways that are the same, and another letter. -/
def doubled : List Char :=
  "((?:a|a)*b)".toList

/-- Just the letters. -/
def lone : List Char :=
  "(a+)".toList

theorem hasSelfContained_doubled : HasSelfContained doubled := by
  have hself : SelfContained "(?:a|a)*b".toList :=
    ⟨[.opening (.plain []), .set (.single 'a'), .bar, .set (.single 'a'), .closing,
      .quantifier 0 none false false, .set (.single 'b')], .of_follow? (by decide), rfl⟩
  exact forall_custom (by decide +kernel) (List.forall_mem_singleton.2 hself)

theorem hasSelfContained_lone : HasSelfContained lone := by
  have hself : SelfContained "a+".toList :=
    ⟨[.set (.single 'a'), .quantifier 1 none false false], .of_follow? (by decide), rfl⟩
  exact forall_custom (by decide +kernel) (List.forall_mem_singleton.2 hself)

/-- A group from the beginning of the path on, after which the path may go on with a delimiter. -/
def leadingExpr (index : Nat) (body : Expr) : Expr :=
  .seq
    (.seq (.seq (.anchor .textStart) (.group index body))
      (.loop (.seq (.set (classSet false Options.leading.delimiter) true)
        (.ahead false (.anchor .textEnd))) 0 (some 1) true))
    (.ahead false (.alt (.set (classSet false Options.leading.delimiter) true) (.anchor .textEnd)))

/-- A pattern that matches is not come to where the one before it uses up all tries. -/
theorem unreached_lone :
    Unreached .leading doubled lone (String.ofList (List.replicate 32 'a')) := by
  obtain ⟨first, hfirst, -⟩ : ∃ single, Matcher.compile .leading (.one doubled) = .ok single ∧
      true = true :=
    exists_ok_of_any (by decide +kernel)
  obtain ⟨second, hsecond, hown⟩ : ∃ single, Matcher.compile .leading (.one lone) = .ok single ∧
      (single.matchPath (String.ofList (List.replicate 32 'a'))).isSome = true :=
    exists_ok_of_any (by decide +kernel)
  obtain ⟨matcher, hmatcher, hexpr⟩ : ∃ matcher,
      Matcher.compile .leading (.alternatives [doubled, lone]) = .ok matcher ∧
        decide (matcher.regex.expr = .alt (leadingExpr 1 doubledExpr)
          (leadingExpr 2 (.loop (.set (.single 'a') true) 1 none true))) = true :=
    exists_ok_of_any (by decide +kernel)
  obtain ⟨own, hown⟩ := Option.isSome_iff_exists.1 hown
  have hseparate : Separate .leading [doubled, lone] [first, second] := by
    refine ⟨.cons hfirst (.cons hsecond .nil), List.forall_mem_cons.2 ⟨?_, ?_⟩⟩
    · exact customs_of_all (by decide +kernel)
    · exact List.forall_mem_singleton.2 (customs_of_all (by decide +kernel))
  have hpatience : matcher.regex.expr.isWithinPatience (List.replicate 32 'a').toArray = false := by
    rw [of_decide_eq_true hexpr]
    refine isWithinPatience_of_exhausted rfl fun full next => ?_
    have hbeginning : (leadingExpr 1 doubledExpr).attempt (List.replicate 32 'a').toArray full
        (.start 0) Expr.patience next = .exhausted :=
      attempt_beginning (attempt_doubledExpr (by decide) full) _ _ next
    rw [Expr.attempt, hbeginning]
    rfl
  refine ⟨first, second, matcher, own, hseparate, hmatcher, hown, ?_⟩
  rw [Matcher.matchPath, String.toList_ofList, Regex.find?, hpatience]
  rfl

/-- What follows a switch for comments: they begin with a sharp and hide what closes the group. Only
to the tokens of the pattern are the custom expressions groups of their own. -/
def leaking : List Char :=
  "(a(?x)#b)\n(#[(?:(?:\n))|(?:[)]])".toList

/-- The comments cut an expression in two. The second half is found on its own further on in a path, at
the beginning of which the second pattern matches. -/
theorem overtaken_leaking : Overtaken .standard leaking ['/', ':', 'a'] "/a)]" := by
  obtain ⟨first, hfirst, hown⟩ : ∃ single, Matcher.compile .standard (.one leaking) = .ok single ∧
      decide (single.matchPath "/a)]" = some ⟨")]", 2, [("0", none), ("1", none)]⟩) = true :=
    exists_ok_of_any (by decide +kernel)
  obtain ⟨second, hsecond, -⟩ : ∃ single, Matcher.compile .standard (.one ['/', ':', 'a']) =
      .ok single ∧ true = true :=
    exists_ok_of_any (by decide +kernel)
  obtain ⟨matcher, hmatcher, hfound⟩ : ∃ matcher,
      Matcher.compile .standard (.alternatives [leaking, ['/', ':', 'a']]) = .ok matcher ∧
        decide (matcher.matchPath "/a)]" =
          some ⟨"/a)]", 0, [("0", none), ("1", none), ("a", some (.single "a)]"))]⟩) = true :=
    exists_ok_of_any (by decide +kernel)
  have hseparate : Separate .standard [leaking, ['/', ':', 'a']] [first, second] := by
    refine ⟨.cons hfirst (.cons hsecond .nil), List.forall_mem_cons.2 ⟨?_, ?_⟩⟩
    · exact customs_of_all (by decide +kernel)
    · exact List.forall_mem_singleton.2 (customs_of_all (by decide +kernel))
  exact ⟨first, second, matcher, _, _, hseparate, hmatcher, of_decide_eq_true hown,
    of_decide_eq_true hfound, by decide⟩

/-- A letter in as many groups as an expression may have in one another. -/
def nested : List Char :=
  captured ((List.replicate 62 ['(', '?', ':']).flatten ++ ['a'] ++ List.replicate 62 ')')

theorem hasSelfContained_nested : HasSelfContained nested := by
  have hbalanced : Regex.Token.level? 0 (List.replicate 62 (Regex.Token.opening (.plain [])) ++
      [.set (.single 'a')] ++ List.replicate 62 .closing) = some 0 := by
    decide +kernel
  have hself : SelfContained
      ((List.replicate 62 ['(', '?', ':']).flatten ++ ['a'] ++ List.replicate 62 ')') := by
    refine ⟨_, .of_follow? ?_, hbalanced⟩
    decide +kernel
  exact forall_custom (by decide +kernel) (List.forall_mem_singleton.2 hself)

/-- Among several there is a group more around it. -/
theorem refused_nested : Refused .standard nested "a" := by
  obtain ⟨single, hsingle, hown⟩ : ∃ single, Matcher.compile .standard (.one nested) = .ok single ∧
      (single.matchPath "a").isSome = true :=
    exists_ok_of_any (by decide +kernel)
  obtain ⟨own, hown⟩ := Option.isSome_iff_exists.1 hown
  refine ⟨single, own, ⟨.cons hsingle .nil, ?_⟩, hown, ?_⟩
  · exact List.forall_mem_singleton.2 (customs_of_all (by decide +kernel))
  · intro matcher hmatcher
    have hrefused : (Matcher.compile .standard (.alternatives [nested])).toOption.isNone = true := by
      decide +kernel
    rw [hmatcher] at hrefused
    exact absurd hrefused (by simp [Except.toOption])

end Fixed

end Waymark.Pattern
