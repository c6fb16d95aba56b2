import Waymark.Proofs.Pattern.Alternatives
import Waymark.Proofs.Pattern.Splitting
import Waymark.Proofs.Regex.Spans
/-!
The values of a parameter that may be repeated.

The expression of a pattern finds the values of such a parameter one after the other, with the text
after and before each between them, and its group captures them all. Afterwards the captured text is
split where this separator stands as it is written. So the values come apart as they were matched if
every separator has the letter case of the pattern and none begins before the end of a value
(`Matcher.lists_iff_exact`); otherwise two values or more are taken for one
(`Matcher.lumped_worded`), or they come apart elsewhere.
-/

namespace Waymark.Pattern

open Regex (Becomes Expr)
open Regex.Expr (After Speaks)
open Regex.Token (Portable)

/-- What stands between two values of a parameter. -/
def Key.separator (key : Key) : List Char :=
  key.after ++ key.before

/-- The expression of one value, read on its own. -/
def Key.valueExpr? (options : Options) (key : Key) : Option Expr := do
  let tokens ← Regex.Token.ofChars? (withCase options (enclose key.pattern))
  let assembly ← Regex.Assembly.start.addAll? tokens
  assembly.finish?

/-- A text is from its beginning to its end a match of the expression of one value. -/
def Key.Accepts (options : Options) (key : Key) (text : List Char) : Prop :=
  ∃ expr, key.valueExpr? options = some expr ∧
    ∃ t ∈ expr.outcomes text.toArray expr.hasBackref (.start 0), t.position = text.length

/-- A text contains a written one in some letter case. -/
def Mentions (written text : List Char) : Prop :=
  ∃ front part back, text = front ++ part ++ back ∧
    List.Forall₂ (fun d c => Unicode.sameButCase c d = true) written part

namespace Repetitions

/-- Values that the expression of a parameter accepts, with its separator between them. -/
structure Of (options : Options) (key : Key) (repetitions : Repetitions) : Prop where
  values : ∀ value ∈ repetitions.values, key.Accepts options value
  separators : ∀ between ∈ repetitions.separators, options.Spells key.separator between

/-- The separators stand there as they are written, and none begins before the end of a value. -/
structure Exact (separator : List Char) (repetitions : Repetitions) : Prop where
  separators : ∀ between ∈ repetitions.separators, between = separator
  values : ∀ value ∈ repetitions.values.dropLast, ¬ Overlaps separator value

end Repetitions

section Captured

variable {options : Options} {segments : List Segment} {value : Key → List Regex.Token}
  {regex : Regex} {language : List Char → Prop} {number : Nat} {key : Key}

/-- The tokens of a pattern have been read, and the group of each parameter stands among them. -/
theorem exists_read_whole (hvalues : ∀ key ∈ Segment.keys segments, key.Embeds (value key))
    (hregex : Regex.compile? (withCase options (expression segments options)) = some regex)
    (hkey : (Segment.keys segments)[number]? = some key) :
    ∃ next, options.opened.addAll? (expressionTokens value segments options) = some next ∧
      regex.expr = next.inner.expr ∧
      Regex.StandsSteady (expressionTokens value segments options) number
        (capturing (key.insideTokens (value key))) := by
  have hpiece := piece_whole options fun key hkey => (hvalues key hkey).readsValue
  obtain ⟨next, hnext, hexpr⟩ := read_of_compile? hpiece hregex
  refine ⟨next, hnext, hexpr, stands_expressionTokens options ?_ ?_ hkey⟩
  · exact fun key hkey => (hvalues key hkey).balanced
  · exact fun key hkey => (hvalues key hkey).captureless

/-- The group of a parameter that may be repeated captures values in the language of its expression. -/
theorem insideOf_of_group (hvalues : ∀ key ∈ Segment.keys segments, key.Embeds (value key))
    (hregex : Regex.compile? (withCase options (expression segments options)) = some regex)
    (hkey : (Segment.keys segments)[number]? = some key) (hportable : Portable (value key))
    (hspeaks : Becomes options.flags (value key) fun body => body.Speaks language)
    {path : Array Char} {found : Regex.Match} (hfound : regex.find? path = some found)
    {text : List Char} (hgroup : found.group? path (number + 1) = some text) :
    key.InsideOf options language text := by
  have hembeds := hvalues key (List.mem_of_getElem? hkey)
  obtain ⟨next, hnext, hexpr, hstands⟩ := exists_read_whole hvalues hregex hkey
  have hinside := Key.portable_insideTokens hportable
  have hgroupless := Regex.becomes_groupless options.flags hinside.balanced hinside.plain
    (Key.countP_insideTokens hembeds.captureless)
  have hholds : next.inner.expr.Holds (number + 1) fun body =>
      body.Speaks (key.InsideOf options language) := by
    refine Regex.Assembly.holds_of_addAll? hstands
      ((Key.becomes_insideTokens hspeaks).and hgroupless) rfl ?_ hnext
    refine ⟨⟨fun item hitem => ?_, fun _ h => absurd h List.not_mem_nil⟩,
      fun _ h => absurd h List.not_mem_nil⟩
    rw [hollow_opened options item hitem]
    exact fun _ h => absurd h id
  obtain ⟨⟨p, q⟩, hspan, rfl⟩ := Option.map_eq_some_iff.1 hgroup
  obtain ⟨-, -, hruns⟩ := Regex.find?_eq_some hfound
  rw [hexpr] at hruns
  exact Expr.speaks_of_captured hholds hruns hspan

/-- Where the expression of a pattern has been read, that of a value is read on its own as well. -/
theorem exists_read_grouped (hvalues : ∀ key ∈ Segment.keys segments, key.Embeds (value key))
    (hregex : Regex.compile? (withCase options (expression segments options)) = some regex)
    (hkey : (Segment.keys segments)[number]? = some key) (hrepeats : key.repeats = true)
    (hportable : Portable (value key)) :
    ∃ next, options.opened.addAll? (grouped (value key)) = some next := by
  obtain ⟨next, hnext, -, hstands⟩ := exists_read_whole hvalues hregex hkey
  obtain ⟨entered, read, hstart, hread⟩ :=
    Regex.Assembly.exists_inside_of_addAll? hstands hnext
  -- The first value comes first in the group.
  obtain ⟨others, hothers⟩ :
      ∃ others, key.insideTokens (value key) = grouped (value key) ++ others := by
    unfold Key.insideTokens
    rw [if_pos hrepeats]
    split <;> exact ⟨_, rfl⟩
  rw [hothers, Regex.Assembly.addAll?_append] at hread
  obtain ⟨after, hafter, -⟩ := Option.bind_eq_some_iff.1 hread
  have hgrouped : Portable (grouped (value key)) := hportable.enclosed (.plain [])
  obtain ⟨alone, halone, -⟩ := Regex.Assembly.exists_alone hgrouped.balanced hgrouped.plain hstart
    hafter
  exact Regex.Assembly.exists_addAll?_of_alone hgrouped.balanced hgrouped.plain rfl
    (hollow_opened options) halone

/-- What a value accepts on its own is the language of its expression. -/
theorem Key.accepts_iff {tokens : List Regex.Token} (hembeds : key.Embeds tokens)
    (hportable : Portable tokens)
    (hspeaks : Becomes options.flags tokens fun body => body.Speaks language)
    {next : Regex.Assembly} (hnext : options.opened.addAll? (grouped tokens) = some next)
    {text : List Char} : key.Accepts options text ↔ language text := by
  have hgrouped : Portable (grouped tokens) := hportable.enclosed (.plain [])
  have hread : key.valueExpr? options = some next.inner.expr := by
    simp only [valueExpr?, ofChars?_withCase options hembeds.enclosed.piece, addAll?_caseTokens,
      hnext, Option.bind_eq_bind, Option.bind_some]
    exact Regex.Assembly.finish?_of_balanced hgrouped.balanced hgrouped.plain rfl rfl hnext
  have hexpr : next.inner.expr.Speaks language := by
    obtain ⟨_, -, hinner, item, rfl, hitem⟩ := hspeaks.grouped options.opened next rfl hnext
    rw [expr_of_opened hinner, Regex.row_singleton]
    exact hitem
  have hcertain := Expr.isCertain_of_isInvolved hexpr.uninvolved
  have hruns : key.Accepts options text ↔
      ∃ t, next.inner.expr.Runs text.toArray (.start 0) t ∧ t.position = text.length := by
    rw [Accepts, hread]
    constructor
    · rintro ⟨expr, heq, t, ht, hend⟩
      obtain rfl := Option.some.inj heq
      exact ⟨t, Expr.runs_of_mem_outcomes ht, hend⟩
    · rintro ⟨t, ht, hend⟩
      refine ⟨_, rfl, ?_⟩
      rw [Expr.hasBackref_of_isCertain hcertain, ← hend]
      exact Expr.covers_outcomes hcertain (.start 0) (Nat.zero_le _) _ ht.moves
  have hsize : text.length = text.toArray.size := by simp
  rw [hruns, hsize, hexpr.denotes text.toArray (.start 0)]
  constructor
  · rintro ⟨w, hw, hbetween⟩
    obtain rfl : text = w := by simpa using Regex.between_size.1 hbetween
    exact hw
  · exact fun h => ⟨text, h, Regex.between_size.2 (by simp)⟩

/-- Texts that each consist of two can be taken apart. -/
theorem exists_pairs {first second : List Char → Prop} {parts : List (List Char)}
    (h : ∀ part ∈ parts, After first second part) :
    ∃ pairs : List (List Char × List Char), (pairs.map fun pair => pair.1 ++ pair.2) = parts ∧
      ∀ pair ∈ pairs, first pair.1 ∧ second pair.2 := by
  induction parts with
  | nil => exact ⟨[], rfl, fun _ hpair => absurd hpair List.not_mem_nil⟩
  | cons part parts ih =>
      obtain ⟨⟨front, back, rfl, hfront, hback⟩, hothers⟩ := List.forall_mem_cons.1 h
      obtain ⟨pairs, rfl, hpairs⟩ := ih hothers
      exact ⟨(front, back) :: pairs, rfl, List.forall_mem_cons.2 ⟨⟨hfront, hback⟩, hpairs⟩⟩

/-- What the group of a parameter with a separator captures is a row of values. -/
theorem Key.exists_repetitions (hrepeats : key.repeats = true) (hseparator : key.separator ≠ [])
    {text : List Char} (h : key.InsideOf options language text) :
    ∃ repetitions : Repetitions, repetitions.text = text ∧
      (∀ value ∈ repetitions.values, language value) ∧
      ∀ between ∈ repetitions.separators, options.Spells key.separator between := by
  have hbare : ¬ key.isBare = true := by
    intro hbare
    simp only [isBare, Bool.and_eq_true, List.isEmpty_iff] at hbare
    exact hseparator (by rw [separator, hbare.1, hbare.2, List.append_nil])
  rw [InsideOf, if_pos hrepeats, if_neg hbare] at h
  obtain ⟨first, _, rfl, hfirst, parts, -, hparts, rfl⟩ := h
  obtain ⟨further, rfl, hfurther⟩ := exists_pairs hparts
  refine ⟨⟨first, further⟩, rfl, List.forall_mem_cons.2 ⟨hfirst, fun value hvalue => ?_⟩,
    fun between hbetween => ?_⟩
  · obtain ⟨pair, hpair, rfl⟩ := List.mem_map.1 hvalue
    exact (hfurther pair hpair).2
  · obtain ⟨pair, hpair, rfl⟩ := List.mem_map.1 hbetween
    exact spells_append.2 (hfurther pair hpair).1

end Captured

section Listing

variable {options : Options} {key : Key} {written text : List Char}

/-- A text contains what is written in it. -/
theorem mentions_of_contained (h : written <:+: text) : Mentions written text := by
  obtain ⟨front, back, rfl⟩ := h
  exact ⟨front, written, back, rfl, List.forall₂_same.2 fun c _ => Unicode.sameButCase_self c⟩

theorem Key.value_eq (hrepeats : key.repeats = true) (hseparator : key.separator ≠ []) :
    key.value text = .repeated ((splitOn key.separator text).map String.ofList) := by
  rw [value, if_pos hrepeats]
  exact if_neg fun hempty => hseparator (List.isEmpty_iff.1 hempty)

namespace Repetitions

variable {repetitions : Repetitions}

/-- The list of a parameter is the row of values that was captured if the row is exact. -/
theorem Of.value_eq_iff (h : repetitions.Of options key) (hrepeats : key.repeats = true)
    (hseparator : key.separator ≠ [])
    (hfree : ∀ value, key.Accepts options value → ¬ Mentions key.separator value) :
    key.value repetitions.text = .repeated (repetitions.values.map String.ofList) ↔
      repetitions.Exact key.separator := by
  have hinjective : Function.Injective (List.map String.ofList) :=
    List.map_injective_iff.2 fun _ _ => String.ofList_inj.1
  have hsplit := splitOn_text_iff hseparator repetitions
    (fun between hbetween => (h.separators between hbetween).length_eq)
    (fun value hvalue hinside => hfree value (h.values value hvalue) (mentions_of_contained hinside))
  rw [Key.value_eq hrepeats hseparator, ParamValue.repeated.injEq, hinjective.eq_iff, hsplit]
  exact ⟨fun ⟨hseparators, hvalues⟩ => ⟨hseparators, hvalues⟩,
    fun ⟨hseparators, hvalues⟩ => ⟨hseparators, hvalues⟩⟩

/-- A row is exact if its separator is a single character that no other one is taken for. -/
theorem Of.exact (h : repetitions.Of options key) {d : Char} (hseparator : key.separator = [d])
    (hcase : ∀ c, options.alike d c = true → c = d) : repetitions.Exact key.separator := by
  refine ⟨fun between hbetween => ?_, fun value _ => ?_⟩
  · have hspells := h.separators between hbetween
    rw [hseparator] at hspells ⊢
    obtain ⟨c, rfl⟩ := List.length_eq_one_iff.1 hspells.length_eq
    rw [hcase c hspells.1]
  · rintro ⟨front, back, -, hback, hlength, -⟩
    rw [hseparator, List.length_singleton, Nat.lt_one_iff, List.length_eq_zero_iff] at hlength
    exact hback hlength

end Repetitions

end Listing

namespace Matcher

variable {options : Options} {pattern : List Char} {matcher : Matcher} {number : Nat} {key : Key}

/-- The text that a parameter with a separator captures is a row of values that its expression accepts
on their own, with the separator between them; and the parameter has these values in the match if the
row is exact, and only then. -/
theorem lists_iff_exact (hself : HasSelfContained pattern)
    (hcompile : compile options (.one pattern) = .ok matcher)
    (hkey : matcher.keys[number]? = some key) (hrepeats : key.repeats = true)
    (hseparator : key.separator ≠ []) (hregular : Regular key.pattern)
    (hfree : ∀ value, key.Accepts options value → ¬ Mentions key.separator value)
    {path : String} {found : Regex.Match}
    (hfound : matcher.regex.find? path.toList.toArray = some found) {text : List Char}
    (hgroup : found.group? path.toList.toArray (number + 1) = some text)
    (hlast : ∀ (later : Nat) (other : Key), matcher.keys[later]? = some other → number < later →
      other.name.text = key.name.text → found.group? path.toList.toArray (later + 1) = none) :
    ∃ result values, matcher.matchPath path = some result ∧
      Dict.get? result.params key.name.text = some (some (.repeated values)) ∧
      (∃ repetitions : Repetitions, repetitions.text = text ∧ repetitions.Of options key) ∧
      ∀ repetitions : Repetitions, repetitions.text = text → repetitions.Of options key →
        (values = repetitions.values.map String.ofList ↔ repetitions.Exact key.separator) := by
  have hparams := get?_paramsOf_of_last hkey hgroup hlast
  rw [Key.value_eq hrepeats hseparator] at hparams
  obtain ⟨result, hresult, hresultParams⟩ := exists_matchPath hfound
  obtain ⟨segments, hparse, regex, hregex, rfl⟩ := compile_one_eq_ok_iff.1 hcompile
  obtain ⟨value, hvalues⟩ := exists_values fun key hkey => by
    obtain ⟨tokens, hembeds, -⟩ := exists_embeds_of_parse hself hparse (fun _ _ => trivial)
      (fun _ _ _ _ _ _ _ _ => trivial) key hkey
    exact ⟨tokens, hembeds⟩
  have hembeds := hvalues key (List.mem_of_getElem? hkey)
  have htokens : ∀ token ∈ value key, token.isRegular = true := fun token htoken =>
    hregular _ hembeds.captured.piece.ofChars? token (by simp [capturing, htoken])
  have hportable : Portable (value key) :=
    ⟨hembeds.balanced, fun token htoken => Regex.refersBack_of_isRegular (htokens token htoken)⟩
  obtain ⟨language, hspeaks⟩ := exists_language options hembeds htokens
  obtain ⟨next, hnext⟩ := exists_read_grouped hvalues hregex hkey hrepeats hportable
  have haccepts : ∀ value, key.Accepts options value ↔ language value :=
    fun value => Key.accepts_iff hembeds hportable hspeaks hnext
  obtain ⟨repetitions, htext, hlanguage, hseparators⟩ := Key.exists_repetitions hrepeats hseparator
    (insideOf_of_group hvalues hregex hkey hportable hspeaks hfound hgroup)
  refine ⟨result, _, hresult, by rw [hresultParams, hparams], ⟨repetitions, htext, ?_, hseparators⟩,
    ?_⟩
  · exact fun value hvalue => (haccepts value).2 (hlanguage value hvalue)
  · rintro repetitions rfl hof
    have hiff := hof.value_eq_iff hrepeats hseparator hfree
    rwa [Key.value_eq hrepeats hseparator, ParamValue.repeated.injEq] at hiff

/-- A digit. -/
def digit : List Char :=
  ['[', '0', '-', '9', ']']

/-- Digits with a word after each of them. -/
def worded : List Char :=
  ['\x7b', ':', 'w'] ++ captured digit ++ ['a', 'n', 'd', '\x7d', '+']

/-- The parameter of the digits. -/
def wordedKey : Key :=
  ⟨.named ['w'], [], ['a', 'n', 'd'], digit, some .oneOrMore⟩

theorem selfContained_digit : SelfContained digit :=
  ⟨[.set (.bracket false (.union .empty (.range '0' '9')))], .of_follow? (by decide), rfl⟩

theorem regular_digit : Regular digit :=
  regular_of_all (by decide)

theorem hasSelfContained_worded : HasSelfContained worded :=
  forall_custom (by decide +kernel) (List.forall_mem_singleton.2 selfContained_digit)

theorem parse_worded : parse worded .standard = .ok [.key wordedKey] :=
  eq_ok_of_toOption (by decide +kernel)

theorem valueExpr?_worded : wordedKey.valueExpr? .standard =
    some (.set (.bracket false (.union .empty (.range '0' '9'))) true) := by
  decide

theorem length_of_accepts_digit {value : List Char} (h : wordedKey.Accepts .standard value) :
    value.length = 1 := by
  obtain ⟨expr, hexpr, t, ht, hend⟩ := h
  obtain rfl := Option.some.inj (valueExpr?_worded.symm.trans hexpr)
  obtain ⟨-, rfl⟩ := Expr.runs_of_mem_outcomes ht
  exact hend.symm

/-- A digit is too short for the word. -/
theorem not_mentions_of_accepts_digit {value : List Char}
    (h : wordedKey.Accepts .standard value) : ¬ Mentions wordedKey.separator value := by
  rintro ⟨front, part, back, rfl, hpart⟩
  have hlength := length_of_accepts_digit h
  have hpart : 3 = part.length := hpart.length_eq
  simp only [List.length_append] at hlength
  omega

theorem accepts_one_or_two {c : Char} (h : c = '1' ∨ c = '2') :
    wordedKey.Accepts .standard [c] := by
  refine ⟨_, valueExpr?_worded, ?_⟩
  rcases h with rfl | rfl <;> decide

/-- What the group of the digits captures of a path. -/
theorem exists_found_worded {path : String} {text : List Char}
    (h : ((Regex.compile? (withCase .standard (expression [.key wordedKey] .standard))).bind
      fun regex => (regex.find? path.toList.toArray).bind
        fun found => found.group? path.toList.toArray 1) = some text) :
    ∃ matcher found, compile .standard (.one worded) = .ok matcher ∧ matcher.keys = [wordedKey] ∧
      matcher.regex.find? path.toList.toArray = some found ∧
      found.group? path.toList.toArray 1 = some text := by
  obtain ⟨regex, hregex, h⟩ := Option.bind_eq_some_iff.1 h
  obtain ⟨found, hfound, hgroup⟩ := Option.bind_eq_some_iff.1 h
  exact ⟨⟨regex, [wordedKey]⟩, found, compile_one_eq_ok_iff.2 ⟨_, parse_worded, regex, hregex, rfl⟩,
    rfl, hfound, hgroup⟩

/-- Words as they are written tell the digits apart. -/
theorem lists_worded :
    HasSelfContained worded ∧ wordedKey.repeats = true ∧ wordedKey.separator ≠ [] ∧
      Regular wordedKey.pattern ∧
      (∀ value, wordedKey.Accepts .standard value → ¬ Mentions wordedKey.separator value) ∧
      ∃ matcher found result, compile .standard (.one worded) = .ok matcher ∧
        matcher.keys = [wordedKey] ∧
        matcher.regex.find? "1and2and".toList.toArray = some found ∧
        found.group? "1and2and".toList.toArray 1 = some "1and2".toList ∧
        matcher.matchPath "1and2and" = some result ∧
        Dict.get? result.params "w" = some (some (.repeated ["1", "2"])) := by
  refine ⟨hasSelfContained_worded, rfl, by decide, regular_digit,
    fun _ => not_mentions_of_accepts_digit, ?_⟩
  obtain ⟨matcher, found, hcompile, hkeys, hfound, hgroup⟩ :=
    @exists_found_worded "1and2and" "1and2".toList (by decide)
  have hlast : ∀ (later : Nat) (other : Key), matcher.keys[later]? = some other → 0 < later →
      other.name.text = wordedKey.name.text →
        found.group? "1and2and".toList.toArray (later + 1) = none := by
    intro later other hother hlater
    rw [hkeys, List.getElem?_eq_none (Nat.succ_le_of_lt hlater)] at hother
    exact absurd hother (by simp)
  obtain ⟨result, values, hresult, hparams, -, hiff⟩ := lists_iff_exact hasSelfContained_worded
    hcompile (by rw [hkeys]; rfl) rfl (by decide) regular_digit
    (fun _ => not_mentions_of_accepts_digit) hfound hgroup hlast
  have hof : Repetitions.Of .standard wordedKey ⟨['1'], [(['a', 'n', 'd'], ['2'])]⟩ := by
    refine ⟨List.forall_mem_cons.2 ⟨accepts_one_or_two (.inl rfl),
      List.forall_mem_singleton.2 (accepts_one_or_two (.inr rfl))⟩, List.forall_mem_singleton.2 ?_⟩
    exact spells_self .standard wordedKey.separator
  have hexact : Repetitions.Exact wordedKey.separator ⟨['1'], [(['a', 'n', 'd'], ['2'])]⟩ := by
    refine ⟨List.forall_mem_singleton.2 rfl, List.forall_mem_singleton.2 ?_⟩
    exact (unbroken_iff_not_overlaps (by decide)).1
      (unbroken_cons_iff.2 ⟨by decide, unbroken_nil _⟩)
  obtain rfl := (hiff _ rfl hof).2 hexact
  exact ⟨matcher, found, result, hcompile, hkeys, hfound, hgroup, hresult, hparams⟩

/-- A word in capitals is passed over by the expression, but it does not tell the digits apart: they
are listed as one value, which the expression of a value does not accept. -/
theorem lumped_worded :
    wordedKey.separator ≠ [] ∧
      (∀ value, wordedKey.Accepts .standard value → ¬ Mentions wordedKey.separator value) ∧
      ¬ wordedKey.Accepts .standard "1AND2".toList ∧
      ∃ matcher result, compile .standard (.one worded) = .ok matcher ∧
        matcher.keys = [wordedKey] ∧ matcher.matchPath "1AND2and" = some result ∧
        Dict.get? result.params "w" = some (some (.repeated ["1AND2"])) := by
  refine ⟨by decide, fun _ => not_mentions_of_accepts_digit, fun h => ?_, ?_⟩
  · exact absurd (length_of_accepts_digit h) (by decide)
  · obtain ⟨matcher, found, hcompile, hkeys, hfound, hgroup⟩ :=
      @exists_found_worded "1AND2and" "1AND2".toList (by decide)
    have hkey : matcher.keys[0]? = some wordedKey := by rw [hkeys]; rfl
    have hparams : Dict.get? (matcher.paramsOf "1AND2and".toList.toArray found) "w" =
        some ((found.group? "1AND2and".toList.toArray 1).map wordedKey.value) :=
      get?_paramsOf (by rw [hkeys]; simp) hkey
    have hvalue : wordedKey.value "1AND2".toList = .repeated ["1AND2"] := by
      rw [Key.value_eq rfl (by decide), splitOn_eq_singleton (by decide)]
      rfl
    obtain ⟨result, hresult, hresultParams⟩ := exists_matchPath hfound
    rw [hgroup, Option.map_some, hvalue, ← hresultParams] at hparams
    exact ⟨matcher, result, hcompile, hkeys, hresult, hparams⟩

end Matcher

end Waymark.Pattern
