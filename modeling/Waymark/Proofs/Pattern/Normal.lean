import Mathlib.Data.List.Chain
import Waymark.Proofs.Pattern.Guarding
/-!
Which lists of segments are the segments of a pattern.

Literals have some text and are never neighbours, nothing stands after the text of a group without a
parameter, names are made of their characters, parameters without a name are numbered in order, and
what stands for a custom expression is read as one. Such lists are `Normal`, and all that is parsed
is.
-/

namespace Waymark.Pattern

section Custom

variable {start index depth : Nat} {cs text rest : List Char}

/-- Where nothing else applies, the next character is neither a backslash nor a parenthesis. -/
theorem plain_of_otherwise {c : Char} (hlast : c = '\\' → cs = [] → False)
    (hescape : ∀ d tail, c = '\\' → cs = d :: tail → False) (hend : depth = 0 → c = ')' → False)
    (hnested : ∀ outer, depth = outer + 1 → c = ')' → False) (hopen : c = '(' → False) :
    c ≠ '\\' ∧ c ≠ '(' ∧ c ≠ ')' := by
  refine ⟨fun hc => ?_, hopen, fun hc => ?_⟩
  · cases cs with
    | nil => exact hlast hc rfl
    | cons d tail => exact hescape d tail hc rfl
  · cases depth with
    | zero => exact hend rfl hc
    | succ outer => exact hnested outer rfl hc

/-- What is read as a group is read as one wherever it stands. -/
theorem readGroup_elsewhere (h : readGroup start cs index depth = .ok (text, rest))
    (start' index' : Nat) (rest' : List Char) :
    readGroup start' (text ++ ')' :: rest') index' depth = .ok (text, rest') := by
  fun_induction readGroup start cs index depth generalizing text rest index' <;>
    simp only [prepend_eq_ok_iff, reduceCtorEq, Except.ok.injEq, Prod.mk.injEq] at h
  case case3 ih =>
    obtain ⟨inner, hread, rfl⟩ := h
    exact prepend_eq_ok_iff.2 ⟨inner, ih hread _, rfl⟩
  case case4 =>
    obtain ⟨rfl, -⟩ := h
    rfl
  case case5 ih =>
    obtain ⟨inner, hread, rfl⟩ := h
    exact prepend_eq_ok_iff.2 ⟨inner, ih hread _, rfl⟩
  case case7 hopens ih =>
    obtain ⟨inner, hread, rfl⟩ := h
    rw [readGroup_eq_ok hread] at hopens
    have hclose := mem_of_readGroup hread (Nat.succ_ne_zero _)
    have hsame : opensCapture (inner ++ ')' :: rest') = false :=
      opensCapture_append hclose (by simpa using hopens) _
    rw [List.cons_append, List.nil_append, List.cons_append, readGroup.eq_6, hsame]
    exact prepend_eq_ok_iff.2 ⟨inner, ih hread _, rfl⟩
  case case8 c tail index depth hlast hescape hend hnested hopen ih =>
    obtain ⟨inner, hread, rfl⟩ := h
    obtain ⟨hbackslash, -, -⟩ := plain_of_otherwise hlast hescape hend hnested hopen
    rw [List.cons_append, List.nil_append, List.cons_append,
      readGroup.eq_7 _ _ _ _ _ (fun hc _ => hbackslash hc) (fun _ _ hc _ => hbackslash hc) hopen
        hend hnested]
    exact prepend_eq_ok_iff.2 ⟨inner, ih hread _, rfl⟩

theorem readPattern_eq_ok_iff :
    readPattern start cs = .ok (text, rest) ↔
      cs.head? ≠ some '?' ∧ text ≠ [] ∧ readGroup start cs (start + 1) 0 = .ok (text, rest) := by
  unfold readPattern
  split
  · simp
  · next hquestion =>
    have hhead : cs.head? ≠ some '?' :=
      mt List.head?_eq_some_iff.1 fun ⟨tail, heq⟩ => hquestion tail heq
    split
    · next hempty =>
      simp only [reduceCtorEq, hempty, Except.ok.injEq, Prod.mk.injEq, false_iff, not_and]
      exact fun _ hne heq _ => hne heq.symm
    · next hempty =>
      refine ⟨fun h => ⟨hhead, ?_, h⟩, fun h => h.2.2⟩
      rintro rfl
      exact hempty rest h

/-- What is read as a custom expression is read as one wherever it stands. -/
theorem readPattern_elsewhere (h : readPattern start cs = .ok (text, rest)) (start' : Nat)
    (rest' : List Char) : readPattern start' (text ++ ')' :: rest') = .ok (text, rest') := by
  obtain ⟨hhead, hne, hread⟩ := readPattern_eq_ok_iff.1 h
  refine readPattern_eq_ok_iff.2 ⟨?_, hne, readGroup_elsewhere hread _ _ _⟩
  rw [readGroup_eq_ok hread] at hhead
  cases text with
  | nil => exact absurd rfl hne
  | cons c text => exact hhead

/-- A custom expression is one token. -/
theorem tokenizeFrom_opening (cs : List Char) (index : Nat) :
    tokenizeFrom ('(' :: cs) index = (do
      let (text, rest) ← readPattern index cs
      return ⟨.pattern text, index⟩ :: (← tokenizeFrom rest (index + text.length + 2))) := by
  rw [tokenizeFrom]
  split
  · next h =>
    rw [h]
    rfl
  · next h =>
    rw [h]
    rfl

/-- In parentheses a text is one custom expression. -/
def IsCustom (text : List Char) : Prop :=
  tokenize ('(' :: text ++ [')']) =
    .ok [⟨.pattern text, 0⟩, ⟨.finish, text.length + 2⟩]

theorem isCustom_iff {text : List Char} :
    IsCustom text ↔ ∃ start cs rest, readPattern start cs = .ok (text, rest) := by
  constructor
  · intro h
    rw [IsCustom, tokenize, List.cons_append, tokenizeFrom_opening] at h
    obtain ⟨⟨found, rest⟩, hread, h⟩ := bind_eq_ok_iff.1 h
    obtain ⟨lexemes, -, h⟩ := bind_eq_ok_iff.1 h
    obtain ⟨heq, -⟩ := List.cons.inj (Except.ok.inj h)
    obtain rfl : found = text := by simpa using heq
    exact ⟨_, _, _, hread⟩
  · rintro ⟨start, cs, rest, h⟩
    rw [IsCustom, tokenize, List.cons_append, tokenizeFrom_opening,
      readPattern_elsewhere h 0 []]
    simp [bind, Except.bind, pure, Except.pure, tokenizeFrom]

/-- A character that is neither a backslash nor a parenthesis stands for itself. -/
theorem readGroup_plain {c : Char} (hc : c ≠ '\\' ∧ c ≠ '(' ∧ c ≠ ')')
    (hread : readGroup start cs (index + 1) depth = .ok (text, rest)) :
    readGroup start (c :: cs) index depth = .ok (c :: text, rest) := by
  rw [readGroup.eq_7 _ _ _ _ _ (fun h _ => hc.1 h) (fun _ _ h _ => hc.1 h) hc.2.1
    (fun _ h => hc.2.2 h) (fun _ _ h => hc.2.2 h), hread]
  rfl

/-- No parenthesis counts that a backslash precedes. -/
theorem readGroup_escape (chars : List Char)
    (hread : ∀ index, readGroup start cs index depth = .ok (text, rest)) :
    readGroup start (escape chars ++ cs) index depth = .ok (escape chars ++ text, rest) := by
  induction chars generalizing index with
  | nil => exact hread index
  | cons c chars ih =>
      have hcons : escape (c :: chars) = (if isMeta c then ['\\', c] else [c]) ++ escape chars := rfl
      rw [hcons]
      cases hmeta : isMeta c with
      | true => exact prepend_eq_ok_iff.2 ⟨escape chars ++ text, ih, rfl⟩
      | false =>
          have hc : c ≠ '\\' ∧ c ≠ '(' ∧ c ≠ ')' := by
            refine ⟨?_, ?_, ?_⟩ <;> rintro rfl <;> exact absurd hmeta (by decide)
          exact readGroup_plain hc ih

/-- The expression of a parameter that names none is a custom expression. -/
theorem isCustom_defaultPattern (options : Options) : IsCustom options.defaultPattern := by
  have hend : ∀ index, readGroup 0 (']' :: '+' :: '?' :: [')']) index 0 =
      .ok ([']', '+', '?'], []) := fun _ => rfl
  have hfinds : ∃ rest, readPattern 0 (options.defaultPattern ++ ')' :: rest) =
      .ok (options.defaultPattern, rest) := by
    rw [Options.defaultPattern]
    split
    · exact ⟨[], rfl⟩
    · refine ⟨[], readPattern_eq_ok_iff.2 ⟨by simp, by simp, ?_⟩⟩
      rw [List.append_assoc, List.append_assoc]
      exact readGroup_plain (by decide)
        (readGroup_plain (by decide) (readGroup_escape options.delimiter hend))
  obtain ⟨rest, hread⟩ := hfinds
  exact isCustom_iff.2 ⟨_, _, _, hread⟩

end Custom

/-- A name is made of its characters. A parameter without one has any number. -/
def KeyName.WellFormed : KeyName → Prop
  | .named text => text ≠ [] ∧ ∀ c ∈ text, isNameChar c = true
  | .position _ => True

/-- The number of a parameter without a name. -/
def KeyName.position? : KeyName → Option Nat
  | .named _ => none
  | .position index => some index

namespace Segment

/-- What is asked of a segment by itself. -/
def WellFormed : Segment → Prop
  | .literal text => text ≠ []
  | .key parameter => parameter.name.WellFormed ∧ IsCustom parameter.pattern
  | .group _ after _ => after = []

/-- Whether a segment is a literal. -/
def IsLiteral : Segment → Prop
  | .literal _ => True
  | _ => False

/-- The numbers of the parameters without a name, in order. -/
def positions (segments : List Segment) : List Nat :=
  (keys segments).filterMap (·.name.position?)

/-- Segments whose parameters without a name are numbered from a number onwards. -/
structure NormalFrom (next : Nat) (segments : List Segment) : Prop where
  wellFormed : ∀ segment ∈ segments, segment.WellFormed
  apart : segments.IsChain fun segment other => ¬ (segment.IsLiteral ∧ other.IsLiteral)
  numbered : positions segments = List.range' next (positions segments).length

/-- Segments as they come from a pattern. -/
def Normal (segments : List Segment) : Prop :=
  NormalFrom 0 segments

end Segment

/-- What is asked of a token by itself, unless it is the last. -/
def Token.WellFormed : Token → Prop
  | .name text => text ≠ [] ∧ ∀ c ∈ text, isNameChar c = true
  | .pattern text => IsCustom text
  | .finish => False
  | _ => True

/-- Tokens as they come from a pattern: the last is the end. -/
inductive Genuine : List Lexeme → Prop
  | finish (index : Nat) : Genuine [⟨.finish, index⟩]
  | cons {lexeme : Lexeme} {lexemes : List Lexeme} (htoken : lexeme.token.WellFormed)
      (h : Genuine lexemes) : Genuine (lexeme :: lexemes)

theorem genuine_of_tokenizeFrom {cs : List Char} {index : Nat} {lexemes : List Lexeme}
    (h : tokenizeFrom cs index = .ok lexemes) : Genuine lexemes := by
  fun_induction tokenizeFrom cs index generalizing lexemes
  case case1 =>
    rw [← Except.ok.inj h]
    exact .finish _
  case case2 | case6 | case8 | case9 => exact absurd h (by simp)
  case case7 hne ih =>
    obtain ⟨others, hothers, h⟩ := bind_eq_ok_iff.1 h
    rw [← Except.ok.inj h]
    exact .cons ⟨by simpa using hne, List.all_eq_true.1 List.all_takeWhile⟩ (ih hothers)
  case case10 hread ih =>
    obtain ⟨others, hothers, h⟩ := bind_eq_ok_iff.1 h
    rw [← Except.ok.inj h]
    exact .cons (isCustom_iff.2 ⟨_, _, _, hread⟩) (ih hothers)
  case case11 token ih =>
    obtain ⟨others, hothers, h⟩ := bind_eq_ok_iff.1 h
    rw [← Except.ok.inj h]
    refine .cons ?_ (ih hothers)
    simp only [token]
    split <;> trivial
  case case3 ih | case4 ih | case5 ih =>
    obtain ⟨others, hothers, h⟩ := bind_eq_ok_iff.1 h
    rw [← Except.ok.inj h]
    exact .cons trivial (ih hothers)

namespace Segment

variable {options : Options} {lexemes : List Lexeme}

theorem genuine_takeChar (h : Genuine lexemes) : Genuine (takeChar lexemes).2 := by
  unfold takeChar
  split
  · cases h with
    | cons _ h => exact h
  · exact h

theorem genuine_takeName (h : Genuine lexemes) : Genuine (takeName lexemes).2 := by
  unfold takeName
  split
  · cases h with
    | cons _ h => exact h
  · exact h

theorem genuine_takePattern (h : Genuine lexemes) : Genuine (takePattern lexemes).2 := by
  unfold takePattern
  split
  · cases h with
    | cons _ h => exact h
  · exact h

theorem genuine_takeQuantifier (h : Genuine lexemes) : Genuine (takeQuantifier lexemes).2 := by
  unfold takeQuantifier
  split
  · cases h with
    | cons _ h => exact h
  · exact h

theorem genuine_takeText (h : Genuine lexemes) : Genuine (takeText lexemes).2 := by
  fun_induction takeText lexemes with
  | case1 c index rest text after heq ih | case2 c index rest text after heq ih =>
      rw [heq] at ih
      cases h with
      | cons _ h => exact ih h
  | case3 => exact h

/-- A name at the front is made of its characters. -/
theorem wellFormed_takeName (h : Genuine lexemes) {text : List Char}
    (hname : (takeName lexemes).1 = some text) : (KeyName.named text).WellFormed := by
  unfold takeName at hname
  split at hname
  · obtain rfl := Option.some.inj hname
    cases h with
    | cons htoken _ => exact htoken
  · exact absurd hname (by simp)

/-- What stands for the custom expression at the front is one. -/
theorem isCustom_takePattern (options : Options) (h : Genuine lexemes) :
    IsCustom ((takePattern lexemes).1.getD options.defaultPattern) := by
  unfold takePattern
  split
  · cases h with
    | cons htoken _ => exact htoken
  · exact isCustom_defaultPattern options

theorem takeName_of_none (h : (takeName lexemes).1 = none) : takeName lexemes = (none, lexemes) := by
  unfold takeName at *
  split <;> simp_all

theorem takePattern_of_none (h : (takePattern lexemes).1 = none) :
    takePattern lexemes = (none, lexemes) := by
  unfold takePattern at *
  split <;> simp_all

/-- Where text has been taken none is left. -/
theorem takeText_takeText (lexemes : List Lexeme) :
    takeText (takeText lexemes).2 = ([], (takeText lexemes).2) := by
  fun_induction takeText lexemes with
  | case1 c index rest text after heq ih | case2 c index rest text after heq ih =>
      rw [heq] at ih
      exact ih
  | case3 => simp_all [takeText]

theorem positions_key (parameter : Key) :
    positions [.key parameter] = parameter.name.position?.toList := by
  cases hname : parameter.name <;> simp [positions, keys, hname, KeyName.position?]

theorem positions_cons (segment : Segment) (segments : List Segment) :
    positions (segment :: segments) = positions [segment] ++ positions segments := by
  rw [← List.singleton_append]
  simp only [positions, keys, List.filterMap_append]

theorem normalFrom_nil (next : Nat) : NormalFrom next [] :=
  ⟨fun _ h => absurd h List.not_mem_nil, .nil, rfl⟩

/-- A literal may stand alone. -/
theorem normalFrom_flush (next : Nat) (pending : List Char) : NormalFrom next (flush pending) := by
  cases pending with
  | nil => exact normalFrom_nil next
  | cons c pending =>
      refine ⟨fun segment h => ?_, .singleton _, rfl⟩
      rw [List.mem_singleton.1 h]
      exact List.cons_ne_nil c pending

/-- A segment that is no literal may follow a literal and precede anything. -/
theorem NormalFrom.cons {next : Nat} {segment : Segment} {segments : List Segment}
    (hformed : segment.WellFormed) (hliteral : ¬ segment.IsLiteral)
    (hnumber : positions [segment] = List.range' next (positions [segment]).length)
    (h : NormalFrom (next + (positions [segment]).length) segments) (pending : List Char) :
    NormalFrom next (flush pending ++ segment :: segments) := by
  have hlater : NormalFrom next (segment :: segments) := by
    refine ⟨List.forall_mem_cons.2 ⟨hformed, h.wellFormed⟩, ?_, ?_⟩
    · exact List.isChain_cons.2 ⟨fun _ _ hboth => hliteral hboth.1, h.apart⟩
    · rw [positions_cons, List.length_append, ← List.range'_append_1, ← hnumber, ← h.numbered]
  cases pending with
  | nil => exact hlater
  | cons c pending =>
      refine ⟨fun other hother => ?_, ?_, ?_⟩
      · rcases List.mem_cons.1 hother with rfl | hother
        · exact List.cons_ne_nil c pending
        · exact hlater.wellFormed other hother
      · exact List.isChain_cons_cons.2 ⟨fun hboth => hliteral hboth.2, hlater.apart⟩
      · exact hlater.numbered

/-- What stands in braces is well formed, and is given the next number if it needs one. -/
theorem wellFormed_of_braced (hgenuine : Genuine lexemes) {next number : Nat} {segment : Segment}
    {rest : List Lexeme} (h : braced options lexemes next = .ok (segment, number, rest)) :
    segment.WellFormed ∧ ¬ segment.IsLiteral ∧
      positions [segment] = List.range' next (positions [segment]).length ∧
      number = next + (positions [segment]).length ∧ Genuine rest := by
  have hbefore := genuine_takeText hgenuine
  have hname := genuine_takeName hbefore
  have hcustom := isCustom_takePattern options hname
  have hafter := genuine_takeText (genuine_takePattern hname)
  simp only [braced] at h
  split at h
  · next i close heq =>
    rw [heq] at hafter
    have hrest : Genuine (takeQuantifier close).2 := by
      cases hafter with
      | cons _ hclose => exact genuine_takeQuantifier hclose
    split at h
    · next hunnamed hplain =>
      simp only [Except.ok.injEq, Prod.mk.injEq] at h
      obtain ⟨rfl, rfl, rfl⟩ := h
      -- Neither a name nor an expression has been taken between the two texts.
      rw [takeName_of_none hunnamed] at hplain
      refine ⟨?_, id, rfl, rfl, hrest⟩
      rw [WellFormed, takeName_of_none hunnamed, takePattern_of_none hplain, takeText_takeText]
    · next text custom hnamed =>
      simp only [Except.ok.injEq, Prod.mk.injEq] at h
      obtain ⟨rfl, rfl, rfl⟩ := h
      exact ⟨⟨wellFormed_takeName hbefore hnamed, hcustom⟩, id, rfl, rfl, hrest⟩
    · next pattern hunnamed hplain =>
      simp only [Except.ok.injEq, Prod.mk.injEq] at h
      obtain ⟨rfl, rfl, rfl⟩ := h
      rw [hplain] at hcustom
      exact ⟨⟨trivial, hcustom⟩, id, rfl, rfl, hrest⟩
  · exact absurd h (by simp)

/-- All that tokens of a pattern are parsed to is normal. -/
theorem normalFrom_of_ofLexemes (hgenuine : Genuine lexemes) {pending : List Char} {next : Nat}
    {segments : List Segment} (h : ofLexemes options lexemes pending next = .ok segments) :
    NormalFrom next segments := by
  fun_induction ofLexemes options lexemes pending next generalizing segments
  case case1 lexemes pending next char name custom hkey taken absorbs keyName quantifier key ih =>
    obtain ⟨rest, hrest, h⟩ := bind_eq_ok_iff.1 h
    obtain rfl := Except.ok.inj h
    have hchar := genuine_takeChar hgenuine
    have hname := genuine_takeName hchar
    have hrest := ih (genuine_takeQuantifier (genuine_takePattern hname)) hrest
    have hcustom := isCustom_takePattern options hname
    cases hnamed : name.1 with
    | some text =>
        have hkeyName : key.name = .named text := by simp only [key, keyName, hnamed]
        have hpositions : positions [.key key] = [] := by rw [positions_key, hkeyName]; rfl
        have hformed : (Segment.key key).WellFormed := by
          refine ⟨?_, hcustom⟩
          rw [hkeyName]
          exact wellFormed_takeName hchar hnamed
        refine .cons hformed id (by rw [hpositions]; rfl) ?_ _
        rw [hpositions]
        simpa [hnamed] using hrest
    | none =>
        have hkeyName : key.name = .position next := by simp only [key, keyName, hnamed]
        have hpositions : positions [.key key] = [next] := by rw [positions_key, hkeyName]; rfl
        have hformed : (Segment.key key).WellFormed := by
          refine ⟨?_, hcustom⟩
          rw [hkeyName]
          trivial
        refine .cons hformed id (by rw [hpositions]; rfl) ?_ _
        rw [hpositions]
        simpa [hnamed] using hrest
  case case2 ih | case3 ih =>
    cases hgenuine with
    | cons _ hrest => exact ih hrest h
  case case4 => exact absurd h (by simp)
  case case5 pending next index inner segment number rest hbraced char name custom hkey ih =>
    obtain ⟨others, hothers, h⟩ := bind_eq_ok_iff.1 h
    obtain rfl := Except.ok.inj h
    cases hgenuine with
    | cons _ hinner =>
        obtain ⟨hformed, hliteral, hnumber, rfl, hrest⟩ := wellFormed_of_braced hinner hbraced
        exact .cons hformed hliteral hnumber (ih hrest hothers) pending
  case case6 pending next index rest char name custom hkey ih =>
    obtain ⟨others, hothers, h⟩ := bind_eq_ok_iff.1 h
    obtain rfl := Except.ok.inj h
    cases hgenuine with
    | finish =>
        have hothers : others = [] := by
          simpa [ofLexemes, takeChar, takeName, takePattern, flush] using hothers.symm
        rw [hothers, List.append_nil]
        exact normalFrom_flush next pending
    | cons htoken _ => exact htoken.elim
  case case7 => cases hgenuine
  case case8 => exact absurd h (by simp)

/-- What is first in a normal list and what comes after it. -/
theorem NormalFrom.of_cons {next : Nat} {segment : Segment} {segments : List Segment}
    (h : NormalFrom next (segment :: segments)) :
    segment.WellFormed ∧
      positions [segment] = List.range' next (positions [segment]).length ∧
      NormalFrom (next + (positions [segment]).length) segments ∧
      (segment.IsLiteral → ∀ other ∈ segments.head?, ¬ other.IsLiteral) := by
  obtain ⟨hformed, hothers⟩ := List.forall_mem_cons.1 h.wellFormed
  obtain ⟨hfirst, hchain⟩ := List.isChain_cons.1 h.apart
  have hnumbered := h.numbered
  rw [positions_cons, List.length_append, ← List.range'_append_1] at hnumbered
  obtain ⟨hnumber, hlater⟩ := List.append_inj hnumbered (List.length_range').symm
  exact ⟨hformed, hnumber, ⟨hothers, hchain, hlater⟩,
    fun hliteral other hother hboth => hfirst other hother ⟨hliteral, hboth⟩⟩

end Segment

/-- The segments of a pattern are normal. -/
theorem normal_of_parse {options : Options} {pattern : List Char} {segments : List Segment}
    (h : parse pattern options = .ok segments) : Segment.Normal segments := by
  obtain ⟨lexemes, hlexemes, h⟩ := bind_eq_ok_iff.1 h
  exact Segment.normalFrom_of_ofLexemes (genuine_of_tokenizeFrom hlexemes) h

end Waymark.Pattern
