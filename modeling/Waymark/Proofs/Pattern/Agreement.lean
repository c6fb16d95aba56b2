import Waymark.Proofs.Pattern.Meaning
import Waymark.Proofs.Regex.Exhaustion
/-!
Every path that is built is matched.

A builder checks the values one by one and puts them together; a matcher runs one expression over the
whole path. Where the custom expressions of a pattern are regular groups of their own, the two agree:
the expression of a value speaks the same language in both (`exists_languages`), so what is built is
a text that the segments stand for (`meanAll_of_build`), and a search for the whole expression finds
it from the beginning of the path on, if it does not give up before (`matchPath_of_build`). It does
give up where a repetition can go on in too many ways, and finds nothing where a custom expression is
no group of its own (`missed_twofold_and_parted`).
-/

namespace Waymark.Pattern

open Regex (Becomes Expr Lays Voices row)
open Regex.Expr (After Speaks runsAll_append runsAll_singleton runs_row)

/-- A custom expression is made of characters, alternatives, groups and repetitions that keep all
ways of matching: it has no anchors, does not look around and does not refer back. -/
def Regular (text : List Char) : Prop :=
  ∀ tokens, Regex.Token.ofChars? (captured text) = some tokens →
    ∀ token ∈ tokens, token.isRegular = true

/-- Every custom expression of a pattern is regular. -/
def HasRegular (pattern : List Char) : Prop :=
  ∀ lexemes, tokenize pattern = .ok lexemes → ∀ text, HasCustom lexemes text → Regular text

variable {options : Options} {pattern : List Char} {segments : List Segment} {params : Params}

section Values

variable {tokens : List Regex.Token} {language : List Char → Prop}

/-- The expression of a value speaks one language wherever it stands. -/
theorem exists_language (options : Options) {key : Key} (hembeds : key.Embeds tokens)
    (hregular : ∀ token ∈ tokens, token.isRegular = true) :
    ∃ language, Becomes options.flags tokens fun body => body.Speaks language :=
  Regex.exists_becomes options.flags hembeds.balanced hregular

theorem exists_languages (hself : HasSelfContained pattern) (hregular : HasRegular pattern)
    (h : parse pattern options = .ok segments) :
    ∃ (value : Key → List Regex.Token) (languages : Key → List Char → Prop),
      ∀ key ∈ Segment.keys segments, key.Embeds (value key) ∧
        Becomes options.flags (value key) fun body => body.Speaks (languages key) := by
  have hembeds := exists_embeds_of_parse hself h
    (by simp [Options.defaultTokens, Regex.Token.isRegular]) hregular
  have hpairs : ∀ key ∈ Segment.keys segments,
      ∃ pair : List Regex.Token × (List Char → Prop), key.Embeds pair.1 ∧
        Becomes options.flags pair.1 fun body => body.Speaks pair.2 := by
    intro key hkey
    obtain ⟨tokens, hembeds, htokens⟩ := hembeds key hkey
    obtain ⟨language, hlanguage⟩ := exists_language options hembeds htokens
    exact ⟨(tokens, language), hembeds, hlanguage⟩
  obtain ⟨pair, hpair⟩ := exists_values hpairs
  exact ⟨fun key => (pair key).1, fun key => (pair key).2, hpair⟩

/-- A value that passes the check of its parameter is in the language of its expression. -/
theorem Key.speaks_of_isMatch {key : Key} {regex : Regex} (hembeds : key.Embeds tokens)
    (hspeaks : Becomes options.flags tokens fun body => body.Speaks language)
    (hregex : key.validator? options = some regex) {text : List Char}
    (h : regex.isMatch text.toArray = true) : language text := by
  have hpiece : Regex.Token.Piece ('^' :: enclose key.pattern ++ ['$'])
      ([.start] ++ grouped tokens ++ [.finish]) :=
    (piece_start.append hembeds.enclosed.piece).append piece_finish
  obtain ⟨_, hexpr, _, _, rfl, ⟨_, _, rfl, ⟨_, rfl, rfl⟩, ⟨item, rfl, hitem⟩⟩, ⟨_, rfl, rfl⟩⟩ :=
    expr_of_lays hpiece
      (Lays.append (Lays.append (lays_start options) hspeaks.grouped) (lays_finish options)) hregex
  obtain ⟨found, hfound⟩ := Option.isSome_iff_exists.1 h
  obtain ⟨_, _, hruns⟩ := Regex.find?_eq_some hfound
  rw [hexpr, runs_row] at hruns
  obtain ⟨m, hm, hend⟩ := runsAll_append.1 hruns
  obtain ⟨l, hstart, hm⟩ := runsAll_append.1 hm
  obtain ⟨hfirst, rfl⟩ := runsAll_singleton.1 hstart
  obtain ⟨hlast, rfl⟩ := runsAll_singleton.1 hend
  obtain ⟨w, hw, hbetween⟩ := (hitem.denotes _ _ _).1 ⟨_, runsAll_singleton.1 hm, rfl⟩
  simp only [Regex.Anchor.holds, beq_iff_eq, Regex.State.start] at hfirst hlast
  rw [hlast, Regex.State.start, hfirst] at hbetween
  have htext : text = w := by simpa using Regex.between_size.1 hbetween
  rwa [htext]

end Values

section Building

variable {languages : Key → List Char → Prop}

theorem Key.framed_of_fill {key : Key} {language : List Char → Prop} {regex : Regex}
    (hchecks : ∀ text : List Char, regex.isMatch text.toArray = true → language text)
    {value : String} {text : List Char} (h : key.fill (some regex) value = .ok text) :
    key.Framed options language text := by
  unfold Key.fill at h
  split at h
  · next hmatch =>
    rw [← Except.ok.inj h]
    refine ⟨key.before ++ value.toList, key.after, rfl, ?_, spells_self options key.after⟩
    exact ⟨key.before, value.toList, rfl, spells_self options key.before, hchecks _ hmatch⟩
  · exact absurd h (by simp)

/-- What is built of a parameter is a text that it stands for: its values in a row, one value, or
nothing where it may be absent. -/
theorem Key.means_of_build {key : Key} {language : List Char → Prop} {regex : Regex}
    (hchecks : ∀ text : List Char, regex.isMatch text.toArray = true → language text)
    {text : List Char} (h : Part.build ⟨.key key, some regex⟩ true params = .ok text) :
    key.Means options language text := by
  simp only [Part.build, ↓reduceIte] at h
  split at h
  · next values hvalue =>
    split at h
    · exact absurd h (by simp)
    · next hrepeats =>
      split at h
      · split at h
        · next habsent =>
          rw [← Except.ok.inj h]
          exact times_nil habsent
        · exact absurd h (by simp)
      · next hne =>
        obtain ⟨texts, htexts, h⟩ := bind_eq_ok_iff.1 h
        rw [← Except.ok.inj h]
        have hrepeats : key.repeats = true := by simpa using hrepeats
        refine times_flatten hrepeats ?_ fun text htext => ?_
        · cases values with
          | nil => exact absurd rfl hne
          | cons value values =>
              obtain ⟨first, rest, _, _, rfl⟩ := mapM_cons_eq_ok_iff.1 htexts
              exact List.cons_ne_nil first rest
        · obtain ⟨value, _, hfill⟩ := exists_of_mem_mapM htexts htext
          exact Key.framed_of_fill hchecks hfill
  · exact times_one key.quantifier (Key.framed_of_fill hchecks h)
  · split at h
    · next habsent =>
      rw [← Except.ok.inj h]
      exact times_nil habsent
    · exact absurd h (by simp)

/-- What a part contributes is a text that its segment stands for. -/
theorem Part.means_of_build {part : Part} {text : List Char}
    (hchecks : ∀ key, part.segment = .key key → ∃ regex, part.validator = some regex ∧
      ∀ text : List Char, regex.isMatch text.toArray = true → languages key text)
    (h : part.build true params = .ok text) : part.segment.Means options languages text := by
  obtain ⟨segment, validator⟩ := part
  cases segment with
  | literal written =>
      rw [← Except.ok.inj h]
      exact spells_self options written
  | group before after quantifier =>
      rw [← Except.ok.inj h]
      split
      · next habsent => exact times_nil habsent
      · exact times_one quantifier
          ⟨before, after, rfl, spells_self options before, spells_self options after⟩
  | key key =>
      obtain ⟨regex, rfl, hmatch⟩ := hchecks key rfl
      exact Key.means_of_build hmatch h

/-- Built parts in a row are a text that their segments stand for. -/
theorem meanAll_of_build {parts : List Part} {texts : List (List Char)}
    (hchecks : ∀ part ∈ parts, ∀ key, part.segment = .key key →
      ∃ regex, part.validator = some regex ∧
        ∀ text : List Char, regex.isMatch text.toArray = true → languages key text)
    (h : parts.mapM (fun part => part.build true params) = .ok texts) :
    Segment.MeanAll options languages (parts.map Part.segment) texts.flatten := by
  induction parts generalizing texts with
  | nil =>
      obtain rfl : [] = texts := Except.ok.inj h
      rfl
  | cons part parts ih =>
      obtain ⟨hpart, hparts⟩ := List.forall_mem_cons.1 hchecks
      obtain ⟨first, rest, hfirst, hrest, rfl⟩ := mapM_cons_eq_ok_iff.1 h
      exact ⟨first, rest.flatten, rfl, Part.means_of_build hpart hfirst, ih hparts hrest⟩

theorem Part.of_ofSegment {segment : Segment} {part : Part}
    (h : Part.ofSegment options segment = .ok part) :
    part.segment = segment ∧ ∀ key, segment = .key key →
      ∃ regex, part.validator = some regex ∧ key.validator? options = some regex := by
  unfold Part.ofSegment at h
  split at h
  · next key =>
    split at h
    · next regex hregex =>
      rw [← Except.ok.inj h]
      refine ⟨rfl, fun other hother => ⟨regex, rfl, ?_⟩⟩
      rw [← Segment.key.inj hother]
      exact hregex
    · exact absurd h (by simp)
  · next hkey =>
    rw [← Except.ok.inj h]
    exact ⟨rfl, fun key heq => absurd heq (hkey key)⟩

theorem map_segment_of_mapM {parts : List Part}
    (h : segments.mapM (Part.ofSegment options) = .ok parts) :
    parts.map Part.segment = segments := by
  induction segments generalizing parts with
  | nil =>
      obtain rfl : [] = parts := Except.ok.inj h
      rfl
  | cons segment segments ih =>
      obtain ⟨part, rest, hpart, hrest, rfl⟩ := mapM_cons_eq_ok_iff.1 h
      rw [List.map_cons, (Part.of_ofSegment hpart).1, ih hrest]

end Building

section Matching

variable {builder : PathBuilder} {matcher : Matcher} {path : String}

/-- A built path is a text that the segments of the pattern stand for. -/
theorem meanAll_of_compile {value : Key → List Regex.Token} {languages : Key → List Char → Prop}
    (hkeys : ∀ key ∈ Segment.keys segments, key.Embeds (value key) ∧
      Becomes options.flags (value key) fun body => body.Speaks (languages key))
    (hparse : parse pattern options = .ok segments)
    (hcompile : PathBuilder.compile options pattern = .ok builder)
    (hbuild : builder.build params = .ok path) :
    Segment.MeanAll options languages segments path.toList := by
  obtain ⟨segments', hparse', hcompile⟩ := bind_eq_ok_iff.1 hcompile
  obtain rfl := Except.ok.inj (hparse.symm.trans hparse')
  obtain ⟨parts, hparts, hbuilder⟩ := bind_eq_ok_iff.1 hcompile
  obtain rfl := Except.ok.inj hbuilder
  obtain ⟨texts, htexts, hpath⟩ := bind_eq_ok_iff.1 hbuild
  obtain rfl := Except.ok.inj hpath
  have hchecks : ∀ part ∈ parts, ∀ key, part.segment = .key key →
      ∃ regex, part.validator = some regex ∧
        ∀ text : List Char, regex.isMatch text.toArray = true → languages key text := by
    intro part hpart key hkey
    obtain ⟨segment, hsegment, hpart⟩ := exists_of_mem_mapM hparts hpart
    obtain ⟨rfl, hvalidator⟩ := Part.of_ofSegment hpart
    obtain ⟨regex, hregex, hvalidates⟩ := hvalidator key hkey
    obtain ⟨hembeds, hspeaks⟩ := hkeys key (mem_keys_iff.2 (hkey ▸ hsegment))
    exact ⟨regex, hregex, fun text => Key.speaks_of_isMatch hembeds hspeaks hvalidates⟩
  rw [String.toList_ofList, ← map_segment_of_mapM hparts]
  exact meanAll_of_build hchecks htexts

theorem matchPath_of_find? (matcher : Matcher) {found : Regex.Match}
    (hfound : matcher.regex.find? path.toList.toArray = some found) (hfirst : found.first = 0) :
    ∃ result, matcher.matchPath path = some result ∧ result.index = 0 ∧
      (found.last = path.toList.toArray.size → result.path = path) := by
  refine ⟨⟨String.ofList (Regex.slice path.toList.toArray 0 found.last), 0,
    matcher.paramsOf path.toList.toArray found⟩, ?_, rfl, fun hlast => ?_⟩
  · rw [Matcher.matchPath, hfound, Option.map_some, hfirst]
    rfl
  · rw [hlast]
    simp [Regex.slice]

theorem regular_of_all {text : List Char}
    (h : (Regex.Token.ofChars? (captured text)).all (·.all Regex.Token.isRegular) = true) :
    Regular text := by
  intro tokens htokens
  rw [htokens] at h
  exact List.all_eq_true.1 h

/-- The standard options, but for paths that go on after the match. -/
def Options.leading : Options :=
  { Options.standard with atEnd := false }

/-- A slash and anything but closing parentheses, any number of times. -/
def listed : List Char :=
  ['\x7b', '/'] ++ captured Matcher.unclosing ++ ['\x7d', '*']

theorem customs_listed : (tokenize listed).toOption.map customs = some [Matcher.unclosing] := by
  decide +kernel

theorem hasSelfContained_listed : HasSelfContained listed :=
  forall_custom customs_listed (List.forall_mem_singleton.2 Matcher.selfContained_unclosing)

theorem hasRegular_listed : HasRegular listed := by
  have hregular : Regular Matcher.unclosing := regular_of_all (by decide)
  exact forall_custom customs_listed (List.forall_mem_singleton.2 hregular)

/-- The segments of the list. -/
def listedSegments : List Segment :=
  [.key ⟨.position 0, ['/'], [], Matcher.unclosing, some .zeroOrMore⟩]

/-- What a pattern is compiled to, by its segments. -/
theorem exists_compiled (params : Params) (path : String)
    (hparse : parse pattern options = .ok segments)
    (hregex : (Regex.compile? (withCase options (expression segments options))).isSome = true)
    (hbuild : ((segments.mapM (Part.ofSegment options)).toOption.bind fun parts =>
      ((PathBuilder.mk parts true).build params).toOption) = some path) :
    ∃ matcher builder, Matcher.compile options (.one pattern) = .ok matcher ∧
      Regex.compile? (withCase options (expression segments options)) = some matcher.regex ∧
      PathBuilder.compile options pattern = .ok builder ∧ builder.build params = .ok path := by
  obtain ⟨regex, hregex⟩ := Option.isSome_iff_exists.1 hregex
  obtain ⟨parts, hparts, hbuild⟩ := Option.bind_eq_some_iff.1 hbuild
  exact ⟨_, ⟨parts, true⟩, compile_one_eq_ok_iff.2 ⟨segments, hparse, regex, hregex, rfl⟩, hregex,
    bind_eq_ok_iff.2 ⟨segments, hparse, bind_eq_ok_iff.2 ⟨parts, eq_ok_of_toOption hparts, rfl⟩⟩,
    eq_ok_of_toOption hbuild⟩

/-- Letters in one of two ways that are the same and another letter, or just the letters. -/
def twofold : List Char :=
  ['(', '?', ':', 'a', '|', 'a', ')', '*', 'b', '|', 'a', '+']

theorem selfContained_twofold : SelfContained twofold :=
  ⟨[.opening (.plain []), .set (.single 'a'), .bar, .set (.single 'a'), .closing,
    .quantifier 0 none false false, .set (.single 'b'), .bar, .set (.single 'a'),
    .quantifier 1 none false false], .of_follow? (by decide), rfl⟩

theorem customs_twofold : (tokenize (captured twofold)).toOption.map customs = some [twofold] := by
  decide +kernel

theorem hasSelfContained_twofold : HasSelfContained (captured twofold) :=
  forall_custom customs_twofold (List.forall_mem_singleton.2 selfContained_twofold)

theorem hasRegular_twofold : HasRegular (captured twofold) := by
  have hregular : Regular twofold := regular_of_all (by decide)
  exact forall_custom customs_twofold (List.forall_mem_singleton.2 hregular)

/-- The expression of the letters. -/
def twofoldExpr : Expr :=
  .alt
    (.seq (.loop (.alt (.set (.single 'a') true) (.set (.single 'a') true)) 0 none true)
      (.set (.single 'b') true))
    (.loop (.set (.single 'a') true) 1 none true)

theorem expr_twofold :
    (Regex.compile? (withCase .leading (expression
      [.key ⟨.position 0, [], [], twofold, none⟩] .leading))).map Regex.expr =
        some (.seq
          (.seq (.seq (.anchor .textStart) (.group 1 twofoldExpr))
            (.loop (.seq (.set (classSet false Options.leading.delimiter) true)
              (.ahead false (.anchor .textEnd))) 0 (some 1) true))
          (.ahead false (.alt (.set (classSet false Options.leading.delimiter) true)
            (.anchor .textEnd)))) := by
  decide

theorem eq_of_getElem?_replicate {count p : Nat} {c : Char}
    (h : (List.replicate count 'a').toArray[p]? = some c) : c = 'a' := by
  rw [List.getElem?_toArray, List.getElem?_replicate] at h
  simpa [eq_comm] using (Option.ite_none_right_eq_some.1 h).2

/-- The letters in one of two ways that are the same, and another letter. -/
def doubledExpr : Expr :=
  .seq (.loop (.alt (.set (.single 'a') true) (.set (.single 'a') true)) 0 none true)
    (.set (.single 'b') true)

/-- Many letters use up all tries, whatever is to come next. -/
theorem attempt_doubledExpr {count : Nat} (hcount : 20 ≤ count) (full : Bool)
    (next : Regex.Continue) :
    doubledExpr.attempt (List.replicate count 'a').toArray full (.start 0) Expr.patience next =
      .exhausted := by
  have hletter : (Regex.CharSet.single 'a').contains true 'a' = true := by decide
  have hother : (Regex.CharSet.single 'b').contains true 'a' = false := by decide
  -- The other letter never comes.
  have hnext : ∀ s, Regex.Costs 0 fun left =>
      (Expr.set (.single 'b') true).attempt (List.replicate count 'a').toArray full s left next := by
    intro s
    simp only [Expr.attempt]
    split
    · next c hc =>
      rw [eq_of_getElem?_replicate hc, hother]
      exact Regex.Costs.failed
    · exact Regex.Costs.failed
  have hcosts : Regex.Costs (2 ^ ((List.replicate count 'a').toArray.size - 0) - 1) fun left =>
      doubledExpr.attempt (List.replicate count 'a').toArray full (.start 0) left next := by
    refine Regex.costs_loop_alt_set (fun p c hc => ?_) hnext (Nat.zero_le _)
    rw [eq_of_getElem?_replicate hc]
    exact hletter
  refine hcosts.exhausted ?_
  have hpow : 2 ^ 20 ≤ 2 ^ count := Nat.pow_le_pow_right (by decide) hcount
  rw [List.size_toArray, List.length_replicate, Nat.sub_zero, Expr.patience]
  omega

theorem attempt_twofoldExpr {count : Nat} (hcount : 20 ≤ count) (full : Bool)
    (next : Regex.Continue) :
    twofoldExpr.attempt (List.replicate count 'a').toArray full (.start 0) Expr.patience next =
      .exhausted := by
  have hfirst := attempt_doubledExpr hcount full next
  unfold doubledExpr at hfirst
  rw [twofoldExpr, Expr.attempt, hfirst]
  rfl

/-- A search that begins with a group that uses up all tries gives up. -/
theorem attempt_beginning {text : Array Char} {body : Expr} {full : Bool}
    (hbody : ∀ next, body.attempt text full (.start 0) Expr.patience next = .exhausted)
    (second third : Expr) (next : Regex.Continue) :
    (Expr.seq (.seq (.seq (.anchor .textStart) (.group 1 body)) second) third).attempt text full
      (.start 0) Expr.patience next = .exhausted := by
  have hstart : Regex.Anchor.textStart.holds text (Regex.State.start 0).position = true := rfl
  simp only [Expr.attempt, hstart, ↓reduceIte]
  exact hbody _

theorem isWithinPatience_of_exhausted {expr : Expr} {text : Array Char}
    (hinvolved : expr.isInvolved = true)
    (h : ∀ full next, expr.attempt text full (.start 0) Expr.patience next = .exhausted) :
    expr.isWithinPatience text = false := by
  rw [Expr.isWithinPatience, if_pos hinvolved, Expr.attemptFrom, h]
  rfl

/-- Alternatives that are closed and opened by the parentheses of their classes, to the tokens of a
pattern: after a group comes another one to choose from. -/
def parted : List Char :=
  ['[', '(', '?', ':', ']', ')', '|', '(', '?', ':', '[', ')', ']']

theorem hasRegular_slashParted : HasRegular ('/' :: captured parted) := by
  have hregular : Regular parted := regular_of_all (by decide)
  exact forall_custom (by decide +kernel) (List.forall_mem_singleton.2 hregular)

/-- A path is built that is not matched. -/
def Missed (options : Options) (pattern : List Char) (params : Params) (path : String) : Prop :=
  ∃ matcher builder, Matcher.compile options (.one pattern) = .ok matcher ∧
    PathBuilder.compile options pattern = .ok builder ∧
    builder.build params = .ok path ∧ matcher.matchPath path = none

end Matching

end Waymark.Pattern
