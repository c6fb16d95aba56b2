import Waymark.Proofs.Pattern.Custom
import Waymark.Proofs.Pattern.Gathering
import Waymark.Proofs.Pattern.Matching
import Waymark.Proofs.Pattern.Placement
/-!
The groups of a route pattern and its parameters.

Where every custom expression is a group of its own, the expression of a pattern has one group that
captures for each parameter, in their order, and a parameter that cannot be absent has a value in
every match (`Matcher.captures_of_compile`). Where a custom expression opens a class that another
closes, two parameters are left with one group (`Matcher.groupCount_sharedClass`).
-/

namespace Waymark.Pattern

open Regex (Expr Grows)
open Regex.Token (Balanced Captureless Stands captures)

/-- The patterns of a pathway. -/
def Pathway.patterns : Pathway → List (List Char)
  | .one pattern => [pattern]
  | .alternatives patterns => patterns

/-- Every custom expression of a pattern is a group of its own. -/
def HasSelfContained (pattern : List Char) : Prop :=
  ∀ lexemes, tokenize pattern = .ok lexemes → ∀ text, HasCustom lexemes text → SelfContained text

section Compiling

variable {options : Options} {pattern : List Char} {segments : List Segment}

/-- What is read of the value of a parameter closes the groups that it opens, and no group in it
captures. -/
structure Key.Encloses (key : Key) (tokens : List Regex.Token) : Prop where
  reads : key.ReadsValue tokens
  balanced : Balanced tokens
  captureless : Captureless tokens

theorem stated_of_mem_keys (h : parse pattern options = .ok segments) :
    ∃ lexemes, tokenize pattern = .ok lexemes ∧
      ∀ key ∈ Segment.keys segments, Segment.Stated options lexemes key.pattern := by
  obtain ⟨lexemes, hlexemes, hfrom⟩ := from_of_mem_parse h
  refine ⟨lexemes, hlexemes, fun key hkey => ?_⟩
  obtain ⟨segment, hsegment, heq⟩ := List.mem_filterMap.1 hkey
  have hsegment := hfrom segment hsegment
  cases hsegment with
  | literal | group => exact absurd heq (by simp)
  | key _ hstated | bracedKey _ hstated =>
      obtain rfl := Option.some.inj heq
      exact hstated

/-- The expression of each parameter is read as tokens wherever it stands. They have what the tokens of
the default and those of the custom expressions have. -/
theorem exists_embeds_of_parse {P : Regex.Token → Prop} (hself : HasSelfContained pattern)
    (h : parse pattern options = .ok segments) (hdefault : ∀ token ∈ options.defaultTokens, P token)
    (hcustoms : ∀ lexemes, tokenize pattern = .ok lexemes → ∀ text, HasCustom lexemes text →
      ∀ tokens, Regex.Token.ofChars? (captured text) = some tokens → ∀ token ∈ tokens, P token) :
    ∀ key ∈ Segment.keys segments, ∃ tokens, key.Embeds tokens ∧ ∀ token ∈ tokens, P token := by
  obtain ⟨lexemes, hlexemes, hstated⟩ := stated_of_mem_keys h
  intro key hkey
  rcases hstated key hkey with hpattern | hcustom
  · exact ⟨options.defaultTokens, embeds_defaultPattern hpattern, hdefault⟩
  · obtain ⟨tokens, hembeds⟩ := exists_embeds (hself lexemes hlexemes _ hcustom)
      (spliceable_of_hasCustom hlexemes hcustom)
    have htokens := hcustoms lexemes hlexemes _ hcustom _ hembeds.captured.piece.ofChars?
    exact ⟨tokens, hembeds, fun token htoken => htokens token (by simp [capturing, htoken])⟩

theorem exists_encloses (hself : HasSelfContained pattern)
    (h : parse pattern options = .ok segments) :
    ∀ key ∈ Segment.keys segments, ∃ tokens, key.Encloses tokens := by
  intro key hkey
  obtain ⟨tokens, htokens, -⟩ := exists_embeds_of_parse hself h (fun _ _ => trivial)
    (fun _ _ _ _ _ _ _ _ => trivial) key hkey
  exact ⟨tokens, htokens.readsValue, htokens.balanced, htokens.captureless⟩

/-- What there is for each of some items can be chosen for all. -/
theorem exists_values {ι α : Type} [Nonempty α] {items : List ι} {Suits : ι → α → Prop}
    (h : ∀ item ∈ items, ∃ value, Suits item value) :
    ∃ value : ι → α, ∀ item ∈ items, Suits item (value item) := by
  have htotal : ∀ item, ∃ value, item ∈ items → Suits item value := by
    intro item
    by_cases hitem : item ∈ items
    · obtain ⟨value, hvalue⟩ := h item hitem
      exact ⟨value, fun _ => hvalue⟩
    · exact ⟨Classical.ofNonempty, fun hmem => absurd hmem hitem⟩
  exact Classical.skolem.1 htotal

/-- An expression that has the groups of parameters in their order captures them. -/
theorem captures_of_piece {keys : List Key} {value : Key → List Regex.Token} {text : List Char}
    {tokens : List Regex.Token} {regex : Regex} (hvalues : ∀ key ∈ keys, key.Encloses (value key))
    (hpiece : Regex.Token.Piece text tokens) (hcount : tokens.countP captures = keys.length)
    (hstands : ∀ (number : Nat) (key : Key), keys[number]? = some key →
      Stands tokens number (capturing (key.insideTokens (value key))))
    (h : Regex.compile? (withCase options text) = some regex) :
    regex.groupCount = keys.length ∧
      ∀ (number : Nat) (key : Key), keys[number]? = some key →
        regex.Captures (number + 1) key.inside := by
  have htokens := ofChars?_withCase options hpiece
  refine ⟨?_, fun number key hkey => ?_⟩
  · rw [Regex.groupCount_of_compile? htokens h, countP_caseTokens, hcount]
  · obtain ⟨hreads, hbalanced, _⟩ := hvalues key (List.mem_of_getElem? hkey)
    exact Regex.captures_of_stands h htokens (stands_caseTokens options (hstands number key hkey))
      (Key.balanced_insideTokens hbalanced) (Key.item_captured hreads).piece.ofChars?

theorem Matcher.compile_alternatives_eq_ok {patterns : List (List Char)} {matcher : Matcher}
    (h : compile options (.alternatives patterns) = .ok matcher) :
    ∃ parsed, (patterns.mapM fun pattern => parse pattern options) = .ok parsed ∧
      ∃ regex, Regex.compile? (withCase options
        (Pattern.alternatives (parsed.map fun segments => expression segments options))) =
          some regex ∧ matcher = ⟨regex, parsed.flatMap Segment.keys⟩ := by
  rw [compile, bind_eq_ok_iff] at h
  obtain ⟨parsed, hparsed, h⟩ := h
  refine ⟨parsed, hparsed, ?_⟩
  unfold ofExpression? at h
  split at h
  · next regex hregex => exact ⟨regex, hregex, (Except.ok.inj h).symm⟩
  · exact absurd h (by simp)

end Compiling

/-- Items that have been put after the switch for case are a row. -/
theorem expr_of_opened {options : Options} {next : Regex.Assembly} {items : List Expr}
    (hinner : next.inner = { options.opened.inner with
      items := items.reverse ++ options.opened.inner.items }) :
    next.inner.expr = Regex.row items := by
  rw [hinner, Regex.Open.expr, Regex.Open.branch, Regex.row]
  unfold Options.opened
  cases options.sensitive <;> simp [Expr.ofAlternatives]

/-- An expression is read behind the switch for case. -/
theorem read_of_compile? {options : Options} {text : List Char} {tokens : List Regex.Token}
    {regex : Regex} (hpiece : Regex.Token.Piece text tokens)
    (h : Regex.compile? (withCase options text) = some regex) :
    ∃ next, options.opened.addAll? tokens = some next ∧ regex.expr = next.inner.expr := by
  obtain ⟨_, assembly, htokens, hassembly, hexpr, _⟩ := Regex.compile?_eq_some h
  obtain rfl := Option.some.inj ((ofChars?_withCase options hpiece).symm.trans htokens)
  rw [addAll?_caseTokens] at hassembly
  simp only [Regex.Assembly.finish?, Option.ite_none_right_eq_some, Option.some.injEq] at hexpr
  exact ⟨assembly, hassembly, hexpr.2.symm⟩

/-- An expression whose tokens add items is their row. -/
theorem expr_of_compile? {options : Options} {text : List Char} {tokens : List Regex.Token}
    {known : Nat → List Expr → Prop} {regex : Regex} (hpiece : Regex.Token.Piece text tokens)
    (hgrows : Grows tokens known) (h : Regex.compile? (withCase options text) = some regex) :
    ∃ items, regex.expr = Regex.row items ∧ known 0 items := by
  obtain ⟨next, hnext, hexpr⟩ := read_of_compile? hpiece h
  obtain ⟨items, _, hinner, hknown⟩ := hgrows _ _ hnext
  exact ⟨items, hexpr.trans (expr_of_opened hinner), hknown⟩

namespace Matcher

variable {options : Options} {matcher : Matcher}

/-- A parameter whose group is required has a value in every match. -/
theorem hasValue_of_requires {number : Nat} {key : Key} (hkey : matcher.keys[number]? = some key)
    (hrequires : matcher.regex.expr.Requires (number + 1)) {path : String} {found : PathMatch}
    (h : matcher.matchPath path = some found) : found.params.HasValue key.name.text := by
  obtain ⟨result, hresult, rfl⟩ := Option.map_eq_some_iff.1 h
  obtain ⟨_, _, hruns⟩ := Regex.find?_eq_some hresult
  have hspan := hrequires _ _ _ hruns
  refine hasValue_paramsOf hkey ?_
  rw [Regex.Match.group?, Option.isSome_map]
  exact hspan

/-- A parameter of one pattern that cannot be absent has a value in every match. -/
theorem hasValue_of_mem {segments : List Segment} {value : Key → List Regex.Token} {regex : Regex}
    (hvalues : ∀ key ∈ Segment.keys segments, key.Encloses (value key))
    (hregex : Regex.compile? (withCase options (expression segments options)) = some regex)
    {key : Key} (hkey : key ∈ Segment.keys segments) (hpresent : key.mayBeAbsent = false)
    {path : String} {found : PathMatch}
    (h : matchPath ⟨regex, Segment.keys segments⟩ path = some found) :
    found.params.HasValue key.name.text := by
  have hgrows := grows_expressionTokens options (fun key hkey => (hvalues key hkey).balanced)
    fun key hkey => (hvalues key hkey).captureless
  obtain ⟨items, hexpr, hrequires⟩ := expr_of_compile?
    (piece_whole options fun key hkey => (hvalues key hkey).reads) hgrows hregex
  obtain ⟨number, hnumber⟩ := List.mem_iff_getElem?.1 hkey
  obtain ⟨item, hitem, hgroup⟩ := hrequires number key hnumber hpresent
  rw [Nat.zero_add] at hgroup
  refine hasValue_of_requires hnumber ?_ h
  rw [hexpr]
  exact Expr.requires_row hitem hgroup

/-- The groups of one pattern are those of its parameters. -/
theorem captures_one {segments : List Segment} {value : Key → List Regex.Token} {regex : Regex}
    (hvalues : ∀ key ∈ Segment.keys segments, key.Encloses (value key))
    (hregex : Regex.compile? (withCase options (expression segments options)) = some regex) :
    regex.groupCount = (Segment.keys segments).length ∧
      ∀ (number : Nat) (key : Key), (Segment.keys segments)[number]? = some key →
        regex.Captures (number + 1) key.inside := by
  have hcaptureless := fun key hkey => (hvalues key hkey).captureless
  have hbalanced := fun key hkey => (hvalues key hkey).balanced
  have hpiece := piece_whole options fun key hkey => (hvalues key hkey).reads
  exact captures_of_piece hvalues hpiece (countP_expressionTokens options hcaptureless)
    (fun _ _ hkey => (stands_expressionTokens options hbalanced hcaptureless hkey).stands) hregex

/-- The groups of several patterns are those of their parameters, one pattern after the other. -/
theorem captures_several {parsed : List (List Segment)} {value : Key → List Regex.Token}
    {regex : Regex} (hvalues : ∀ key ∈ parsed.flatMap Segment.keys, key.Encloses (value key))
    (hregex : Regex.compile? (withCase options
      (Pattern.alternatives (parsed.map fun segments => expression segments options))) =
        some regex) :
    regex.groupCount = (parsed.flatMap Segment.keys).length ∧
      ∀ (number : Nat) (key : Key), (parsed.flatMap Segment.keys)[number]? = some key →
        regex.Captures (number + 1) key.inside := by
  have hmem : ∀ segments ∈ parsed, ∀ key ∈ Segment.keys segments,
      key ∈ parsed.flatMap Segment.keys :=
    fun segments hsegments key hkey => List.mem_flatMap.2 ⟨segments, hsegments, hkey⟩
  have hcaptureless := fun key hkey => (hvalues key hkey).captureless
  have hbalanced := fun key hkey => (hvalues key hkey).balanced
  have hpiece := piece_alternatives fun segments hsegments => piece_whole options
    fun key hkey => (hvalues key (hmem segments hsegments key hkey)).reads
  refine captures_of_piece hvalues hpiece ?_ (fun _ _ => stands_alternatives options hbalanced hcaptureless) hregex
  rw [countP_alternativesTokens, List.countP_flatten, List.map_map, List.length_flatMap]
  refine congrArg List.sum (List.map_congr_left fun segments hsegments => ?_)
  exact countP_expressionTokens options fun key hkey =>
    hcaptureless key (hmem segments hsegments key hkey)

/-- Where every custom expression is a group of its own, the expression of a pattern has one group
for each parameter, which captures what the parameter stands for; and in a match of one pattern a
parameter that cannot be absent has a value. -/
theorem captures_of_compile {pathway : Pathway}
    (hself : ∀ pattern ∈ pathway.patterns, HasSelfContained pattern)
    (h : compile options pathway = .ok matcher) :
    matcher.regex.groupCount = matcher.keys.length ∧
      (∀ (number : Nat) (key : Key), matcher.keys[number]? = some key →
        matcher.regex.Captures (number + 1) key.inside) ∧
      ∀ pattern, pathway = .one pattern → ∀ (path : String) (found : PathMatch),
        matcher.matchPath path = some found → ∀ key ∈ matcher.keys,
          key.quantifier = none ∨ key.quantifier = some .oneOrMore →
            found.params.HasValue key.name.text := by
  cases pathway with
  | one pattern =>
      obtain ⟨segments, hparse, regex, hregex, rfl⟩ := compile_one_eq_ok_iff.1 h
      obtain ⟨value, hvalues⟩ := exists_values (exists_encloses
        (hself pattern (List.mem_singleton_self pattern)) hparse)
      obtain ⟨hcount, hcaptures⟩ := captures_one hvalues hregex
      refine ⟨hcount, hcaptures, fun _ _ path found hfound key hkey hquantifier => ?_⟩
      refine hasValue_of_mem hvalues hregex hkey ?_ hfound
      rcases hquantifier with hquantifier | hquantifier <;> rw [Key.mayBeAbsent, hquantifier] <;> rfl
  | alternatives patterns =>
      obtain ⟨parsed, hparsed, regex, hregex, rfl⟩ := compile_alternatives_eq_ok h
      have hencloses : ∀ key ∈ parsed.flatMap Segment.keys, ∃ tokens, key.Encloses tokens := by
        intro key hkey
        obtain ⟨segments, hsegments, hkey⟩ := List.mem_flatMap.1 hkey
        obtain ⟨pattern, hpattern, hparse⟩ := exists_of_mem_mapM hparsed hsegments
        exact exists_encloses (hself pattern hpattern) hparse key hkey
      obtain ⟨value, hvalues⟩ := exists_values hencloses
      obtain ⟨hcount, hcaptures⟩ := captures_several hvalues hregex
      exact ⟨hcount, hcaptures, fun _ heq => absurd heq (by simp)⟩

/-- Anything but closing parentheses. -/
def unclosing : List Char :=
  ['[', '^', '\\', ')', ']', '+']

/-- The parenthesis in the class is escaped, so the tokens of the pattern pass over it too. -/
theorem selfContained_unclosing : SelfContained unclosing :=
  ⟨[.set (.bracket true (.union .empty (.range ')' ')'))), .quantifier 1 none false false],
    .of_follow? (by decide), rfl⟩

theorem hasSelfContained_unclosing : HasSelfContained (captured unclosing) :=
  forall_custom (by decide +kernel) (List.forall_mem_singleton.2 selfContained_unclosing)

/-- A custom expression with a parenthesis in a class has one group, and a value in every match. -/
theorem captures_unclosing :
    (∀ pattern ∈ (Pathway.one (captured unclosing)).patterns, HasSelfContained pattern) ∧
      ∃ matcher, compile .standard (.one (captured unclosing)) = .ok matcher ∧
        matcher.regex.groupCount = 1 ∧ matcher.regex.Captures 1 unclosing ∧
        ∃ found, matcher.matchPath "a(b" = some found ∧ found.params.HasValue "0" := by
  have hself : ∀ pattern ∈ (Pathway.one (captured unclosing)).patterns,
      HasSelfContained pattern := by
    intro pattern hpattern
    rw [List.mem_singleton.1 hpattern]
    exact hasSelfContained_unclosing
  have hfinds : ((Regex.compile? (withCase .standard
      (expression [.key ⟨.position 0, [], [], unclosing, none⟩] .standard))).bind fun regex =>
        regex.find? "a(b".toList.toArray).isSome = true := by decide
  obtain ⟨result, hresult⟩ := Option.isSome_iff_exists.1 hfinds
  obtain ⟨regex, hregex, hresult⟩ := Option.bind_eq_some_iff.1 hresult
  have hcompile := compile_one_eq_ok_iff.2 ⟨_, parse_captured _ rfl, regex, hregex, rfl⟩
  obtain ⟨hcount, hcaptures, hvalues⟩ := captures_of_compile hself hcompile
  have hmatches := isSome_matchPath
    ⟨regex, Segment.keys [.key ⟨.position 0, [], [], unclosing, none⟩]⟩ "a(b"
  rw [hresult] at hmatches
  obtain ⟨found, hfound⟩ := Option.isSome_iff_exists.1 hmatches
  exact ⟨hself, _, hcompile, hcount, hcaptures 0 _ rfl, found, hfound,
    hvalues _ rfl "a(b" found hfound _ List.mem_cons_self (.inl rfl)⟩

/-- Two custom expressions that open and close one class are one group, though there are two
parameters. -/
theorem groupCount_sharedClass :
    ∃ matcher, compile .standard (.one ['(', 'a', '[', ')', '(', 'b', ']', ')']) = .ok matcher ∧
      matcher.keys.length = 2 ∧ matcher.regex.groupCount = 1 := by
  have htokens : tokenize ['(', 'a', '[', ')', '(', 'b', ']', ')'] =
      .ok [⟨.pattern ['a', '['], 0⟩, ⟨.pattern ['b', ']'], 4⟩, ⟨.finish, 8⟩] := by
    refine tokenizeFrom_custom rfl (tokenizeFrom_custom rfl ?_)
    rw [tokenizeFrom]
    rfl
  have hparse : parse ['(', 'a', '[', ')', '(', 'b', ']', ')'] .standard =
      .ok [.key ⟨.position 0, [], [], ['a', '['], none⟩,
        .key ⟨.position 1, [], [], ['b', ']'], none⟩] := by
    rw [parse, htokens]
    change Segment.ofLexemes .standard _ [] 0 = _
    rw [ofLexemes_custom _ _ _ _ rfl, ofLexemes_custom _ _ _ _ rfl, ofLexemes_finish]
    rfl
  have hregex : (Regex.compile? (withCase .standard
      (expression [.key ⟨.position 0, [], [], ['a', '['], none⟩,
        .key ⟨.position 1, [], [], ['b', ']'], none⟩] .standard))).map Regex.groupCount =
          some 1 := by decide
  obtain ⟨regex, hregex, hcount⟩ := Option.map_eq_some_iff.1 hregex
  exact ⟨_, compile_one_eq_ok_iff.2 ⟨_, hparse, regex, hregex, rfl⟩, rfl, hcount⟩

end Matcher

end Waymark.Pattern
