import Waymark.Proofs.Pattern.Lexing
/-!
Segments written as a pattern.

In writing, every character of a text has a backslash before it, and every parameter and every group
stands in braces, so that nothing runs into what comes next. What is written is parsed to the
segments again (`normal_and_parse_printAll`).
-/

namespace Waymark.Pattern

/-- Text with a backslash before each character. -/
def escaped (text : List Char) : List Char :=
  text.flatMap fun c => ['\\', c]

/-- A name as it is written, if there is one. -/
def KeyName.print : KeyName → List Char
  | .named text => ':' :: text
  | .position _ => []

namespace Segment

/-- A segment as it is written. -/
def print : Segment → List Char
  | .literal text => escaped text
  | .key parameter =>
      '\x7b' :: escaped parameter.before ++ parameter.name.print ++ '(' :: parameter.pattern ++
        ')' :: escaped parameter.after ++ '\x7d' :: Quantifier.text parameter.quantifier
  | .group before _ quantifier => '\x7b' :: escaped before ++ '\x7d' :: Quantifier.text quantifier

/-- Segments as a pattern. -/
def printAll (segments : List Segment) : List Char :=
  segments.flatMap print

end Segment

section Tokens

/-- The tokens of a name, if there is one. -/
def KeyName.written : KeyName → List Token
  | .named text => [.name text]
  | .position _ => []

/-- The tokens of what is written for a segment. -/
def Segment.written : Segment → List Token
  | .literal text => text.map .escaped
  | .key parameter =>
      .openBrace :: (parameter.before.map .escaped ++ (parameter.name.written ++
        .pattern parameter.pattern :: (parameter.after.map .escaped ++
          .closeBrace :: (parameter.quantifier.map .modifier).toList)))
  | .group before _ quantifier =>
      .openBrace :: (before.map .escaped ++ .closeBrace :: (quantifier.map .modifier).toList)

theorem flatMap_write_escaped (text : List Char) :
    (text.map .escaped).flatMap Token.write = escaped text := by
  rw [List.flatMap_map]
  rfl

theorem flatMap_write_quantifier (quantifier : Option Quantifier) :
    (quantifier.map .modifier).toList.flatMap Token.write = Quantifier.text quantifier := by
  cases quantifier <;> rfl

theorem flatMap_write_name (name : KeyName) : name.written.flatMap Token.write = name.print := by
  cases name <;> simp [KeyName.written, KeyName.print, Token.write]

theorem Segment.flatMap_write (segment : Segment) :
    segment.written.flatMap Token.write = segment.print := by
  cases segment with
  | literal text => exact flatMap_write_escaped text
  | key parameter =>
      simp only [written, print, List.flatMap_cons, List.flatMap_append, flatMap_write_escaped,
        flatMap_write_quantifier, flatMap_write_name, Token.write]
      simp
  | group before after quantifier =>
      simp only [written, print, List.flatMap_cons, List.flatMap_append, flatMap_write_escaped,
        flatMap_write_quantifier, Token.write]
      simp

/-- Tokens that are read again as they are written: a name is followed by an expression. -/
inductive Readable : List Token → Prop
  | nil : Readable []
  | escaped {c : Char} {tokens : List Token} (h : Readable tokens) : Readable (.escaped c :: tokens)
  | modifier {quantifier : Quantifier} {tokens : List Token} (h : Readable tokens) :
      Readable (.modifier quantifier :: tokens)
  | openBrace {tokens : List Token} (h : Readable tokens) : Readable (.openBrace :: tokens)
  | closeBrace {tokens : List Token} (h : Readable tokens) : Readable (.closeBrace :: tokens)
  | pattern {text : List Char} {tokens : List Token} (hcustom : IsCustom text)
      (h : Readable tokens) : Readable (.pattern text :: tokens)
  | name {text pattern : List Char} {tokens : List Token} (hname : (KeyName.named text).WellFormed)
      (h : Readable (.pattern pattern :: tokens)) :
      Readable (.name text :: .pattern pattern :: tokens)

variable {tokens others : List Token}

theorem Readable.append (h : Readable tokens) (hothers : Readable others) :
    Readable (tokens ++ others) := by
  induction h with
  | nil => exact hothers
  | escaped _ ih => exact .escaped ih
  | modifier _ ih => exact .modifier ih
  | openBrace _ ih => exact .openBrace ih
  | closeBrace _ ih => exact .closeBrace ih
  | pattern hcustom _ ih => exact .pattern hcustom ih
  | name hname _ ih => exact .name hname ih

theorem readable_escaped (text : List Char) : Readable (text.map .escaped) := by
  induction text with
  | nil => exact .nil
  | cons c text ih => exact .escaped ih

theorem readable_quantifier (quantifier : Option Quantifier) :
    Readable (quantifier.map .modifier).toList := by
  cases quantifier with
  | none => exact .nil
  | some quantifier => exact .modifier .nil

/-- The tokens of a well formed segment are read again. -/
theorem Segment.WellFormed.readable {segment : Segment} (h : segment.WellFormed) :
    Readable segment.written := by
  cases segment with
  | literal text => exact readable_escaped text
  | key parameter =>
      obtain ⟨hname, hcustom⟩ := h
      have hlast : Readable (.pattern parameter.pattern :: (parameter.after.map .escaped ++
          .closeBrace :: (parameter.quantifier.map .modifier).toList)) :=
        .pattern hcustom ((readable_escaped _).append (.closeBrace (readable_quantifier _)))
      refine .openBrace ((readable_escaped _).append ?_)
      cases hnamed : parameter.name with
      | named text =>
          rw [hnamed] at hname
          exact .name hname hlast
      | position index => exact hlast
  | group before after quantifier =>
      exact .openBrace ((readable_escaped _).append (.closeBrace (readable_quantifier _)))

theorem Readable.separable (h : Readable tokens) : Separable tokens := by
  induction h with
  | nil => exact separable_nil
  | @escaped c _ _ ih =>
      have htoken : (Token.escaped c).Writable := trivial
      exact ih.cons htoken fun _ _ => .of_not_name (by simp) _
  | @modifier quantifier _ _ ih =>
      have htoken : (Token.modifier quantifier).Writable := trivial
      exact ih.cons htoken fun _ _ => .of_not_name (by simp) _
  | openBrace _ ih =>
      have htoken : Token.openBrace.Writable := trivial
      exact ih.cons htoken fun _ _ => .of_not_name (by simp) _
  | closeBrace _ ih =>
      have htoken : Token.closeBrace.Writable := trivial
      exact ih.cons htoken fun _ _ => .of_not_name (by simp) _
  | @pattern text _ hcustom _ ih =>
      have htoken : (Token.pattern text).Writable := isCustom_iff_wellNested.1 hcustom
      exact ih.cons htoken fun _ _ => .of_not_name (by simp) _
  | @name text pattern _ hname _ ih =>
      have htoken : (Token.name text).Writable := hname
      refine ih.cons htoken fun next hnext => ?_
      obtain rfl := Option.some.inj hnext
      intro _ _ _ heq
      exact nomatch heq

/-- Readable tokens are the tokens of what is written for them. -/
theorem Readable.tokenizeFrom_write (h : Readable tokens) (index : Nat) :
    tokenizeFrom (tokens.flatMap Token.write) index = .ok (lexemesFrom index tokens) :=
  h.separable.tokenizeFrom_write index

end Tokens

section Parsing

namespace Segment

variable {options : Options} {tokens : List Token} {next : Nat}

/-- Tokens that begin with neither text nor a quantifier. -/
def Starts (tokens : List Token) : Prop :=
  ∀ token ∈ tokens.head?, (∃ text, token = .name text ∨ token = .pattern text) ∨
    token = .openBrace ∨ token = .closeBrace

theorem takeText_of_starts (h : Starts tokens) (index : Nat) :
    takeText (lexemesFrom index tokens) = ([], lexemesFrom index tokens) := by
  cases tokens with
  | nil => rfl
  | cons token tokens =>
      rcases h token rfl with ⟨text, rfl | rfl⟩ | rfl | rfl <;> rfl

/-- Escaped text is taken as a whole. -/
theorem takeText_escaped (h : Starts tokens) (text : List Char) (index : Nat) :
    ∃ later, takeText (lexemesFrom index (text.map .escaped ++ tokens)) =
      (text, lexemesFrom later tokens) := by
  induction text generalizing index with
  | nil => exact ⟨index, takeText_of_starts h index⟩
  | cons c text ih =>
      obtain ⟨later, htext⟩ := ih (index + (Token.escaped c).write.length)
      refine ⟨later, ?_⟩
      rw [List.map_cons, List.cons_append, lexemesFrom, takeText, htext]

/-- No quantifier stands at the front. -/
def Unquantified (tokens : List Token) : Prop :=
  ∀ quantifier, tokens.head? ≠ some (.modifier quantifier)

theorem takeQuantifier_written (h : Unquantified tokens) (quantifier : Option Quantifier)
    (index : Nat) :
    ∃ later, takeQuantifier (lexemesFrom index ((quantifier.map .modifier).toList ++ tokens)) =
      (quantifier, lexemesFrom later tokens) := by
  cases quantifier with
  | some quantifier => exact ⟨_, rfl⟩
  | none =>
      refine ⟨index, ?_⟩
      cases tokens with
      | nil => rfl
      | cons token tokens =>
          cases token with
          | modifier quantifier => exact absurd rfl (h quantifier)
          | _ => rfl

theorem starts_closeBrace (tokens : List Token) : Starts (.closeBrace :: tokens) := by
  intro token htoken
  obtain rfl := Option.some.inj htoken
  exact .inr (.inr rfl)

theorem starts_pattern (text : List Char) (tokens : List Token) :
    Starts (.pattern text :: tokens) := by
  intro token htoken
  obtain rfl := Option.some.inj htoken
  exact .inl ⟨text, .inr rfl⟩

theorem starts_name (text : List Char) (tokens : List Token) : Starts (.name text :: tokens) := by
  intro token htoken
  obtain rfl := Option.some.inj htoken
  exact .inl ⟨text, .inl rfl⟩

/-- What is written for a parameter is read as the parameter. -/
theorem braced_key (options : Options) {parameter : Key} (h : Unquantified tokens)
    (hnumber : ∀ number, parameter.name = .position number → number = next) (index : Nat) :
    ∃ later, braced options (lexemesFrom index (parameter.before.map .escaped ++
        (parameter.name.written ++ .pattern parameter.pattern :: (parameter.after.map .escaped ++
          .closeBrace :: ((parameter.quantifier.map .modifier).toList ++ tokens))))) next =
      .ok (.key parameter, next + (positions [.key parameter]).length,
        lexemesFrom later tokens) := by
  obtain ⟨name, before, after, pattern, quantifier⟩ := parameter
  dsimp only at hnumber ⊢
  have hafter := takeText_escaped
    (starts_closeBrace ((quantifier.map .modifier).toList ++ tokens)) after
  have hquantifier := takeQuantifier_written h quantifier
  cases name with
  | named text =>
      obtain ⟨first, hbefore⟩ := takeText_escaped (starts_name text (.pattern pattern ::
        (after.map .escaped ++ .closeBrace :: ((quantifier.map .modifier).toList ++ tokens))))
        before index
      obtain ⟨second, hafter⟩ :=
        hafter (first + (Token.name text).write.length + (Token.pattern pattern).write.length)
      obtain ⟨later, hquantifier⟩ := hquantifier (second + Token.closeBrace.write.length)
      refine ⟨later, ?_⟩
      simp only [braced, KeyName.written, List.singleton_append, hbefore, lexemesFrom, takeName,
        takePattern, hafter, hquantifier, Option.getD_some]
      rfl
  | position number =>
      obtain rfl := hnumber number rfl
      obtain ⟨first, hbefore⟩ := takeText_escaped (starts_pattern pattern
        (after.map .escaped ++ .closeBrace :: ((quantifier.map .modifier).toList ++ tokens)))
        before index
      obtain ⟨second, hafter⟩ := hafter (first + (Token.pattern pattern).write.length)
      obtain ⟨later, hquantifier⟩ := hquantifier (second + Token.closeBrace.write.length)
      refine ⟨later, ?_⟩
      simp only [braced, KeyName.written, List.nil_append, hbefore, lexemesFrom, takeName,
        takePattern, hafter, hquantifier]
      rfl

/-- What is written for a group is read as the group. -/
theorem braced_group (options : Options) (before : List Char) (quantifier : Option Quantifier)
    (h : Unquantified tokens) (index : Nat) :
    ∃ later, braced options (lexemesFrom index (before.map .escaped ++
        .closeBrace :: ((quantifier.map .modifier).toList ++ tokens))) next =
      .ok (.group before [] quantifier, next, lexemesFrom later tokens) := by
  obtain ⟨first, hbefore⟩ := takeText_escaped
    (starts_closeBrace ((quantifier.map .modifier).toList ++ tokens)) before index
  obtain ⟨later, hquantifier⟩ := takeQuantifier_written h quantifier
    (first + Token.closeBrace.write.length)
  refine ⟨later, ?_⟩
  simp only [braced, hbefore, lexemesFrom, takeName, takePattern, takeText, hquantifier]

/-- Escaped text is gathered behind what is pending. -/
theorem ofLexemes_escaped (options : Options) (tokens : List Token) (text pending : List Char)
    (next index : Nat) :
    ∃ later, ofLexemes options (lexemesFrom index (text.map .escaped ++ tokens)) pending next =
      ofLexemes options (lexemesFrom later tokens) (pending ++ text) next := by
  induction text generalizing pending index with
  | nil => exact ⟨index, by simp⟩
  | cons c text ih =>
      obtain ⟨later, htext⟩ := ih (pending ++ [c]) (index + (Token.escaped c).write.length)
      refine ⟨later, ?_⟩
      rw [List.map_cons, List.cons_append, lexemesFrom, ofLexemes]
      simp only [takeChar, takeName, takePattern, Option.isSome_none, Bool.false_eq_true, or_self,
        ↓reduceDIte]
      rw [htext, List.append_assoc, List.singleton_append]

/-- A segment in braces ends the literal that is pending. -/
theorem ofLexemes_openBrace (options : Options) {lexemes rest : List Lexeme} {segment : Segment}
    {number : Nat} (hbraced : braced options lexemes next = .ok (segment, number, rest))
    (pending : List Char) (index : Nat) :
    ofLexemes options (⟨.openBrace, index⟩ :: lexemes) pending next = (do
      return flush pending ++ segment :: (← ofLexemes options rest [] number)) := by
  rw [ofLexemes]
  simp only [takeChar, takeName, takePattern, Option.isSome_none, Bool.false_eq_true, or_self,
    ↓reduceDIte]
  split
  · next h =>
    rw [hbraced] at h
    exact absurd h (by simp)
  · next h =>
    rw [hbraced] at h
    obtain ⟨rfl, rfl, rfl⟩ : segment = _ ∧ number = _ ∧ rest = _ := by simpa using h
    rfl

theorem ofLexemes_end (options : Options) (pending : List Char) (next index : Nat) :
    ofLexemes options [⟨.finish, index⟩] pending next = .ok (flush pending) := by
  simp [ofLexemes, takeChar, takeName, takePattern, flush, bind, Except.bind, pure, Except.pure]

/-- What is written for well formed segments begins with a backslash or a brace. -/
theorem unquantified_written {segments : List Segment}
    (h : ∀ segment ∈ segments, segment.WellFormed) : Unquantified (segments.flatMap written) := by
  intro quantifier
  cases segments with
  | nil => simp
  | cons segment segments =>
      cases segment with
      | literal text =>
          obtain ⟨c, text, rfl⟩ := List.exists_cons_of_ne_nil (h _ List.mem_cons_self)
          simp [written]
      | key parameter => simp [written]
      | group before after quantifier => simp [written]

/-- By induction on the segments. What is pending becomes a literal, so no literal may follow. -/
theorem NormalFrom.ofLexemes_written {segments : List Segment} (h : NormalFrom next segments)
    (options : Options) (pending : List Char)
    (hpending : pending ≠ [] → ∀ segment ∈ segments.head?, ¬ segment.IsLiteral) (index : Nat) :
    ofLexemes options (lexemesFrom index (segments.flatMap written)) pending next =
      .ok (flush pending ++ segments) := by
  induction segments generalizing next pending index with
  | nil =>
      rw [List.append_nil]
      exact ofLexemes_end options pending next index
  | cons segment segments ih =>
      obtain ⟨hformed, hnumber, hlater, hapart⟩ := h.of_cons
      have hunquantified := unquantified_written hlater.wellFormed
      rw [List.flatMap_cons]
      cases segment with
      | literal text =>
          have hnone : pending = [] :=
            Classical.byContradiction fun hne => hpending hne _ rfl trivial
          obtain ⟨later, htext⟩ := ofLexemes_escaped options (segments.flatMap written) text pending
            next index
          have hrest : ofLexemes options (lexemesFrom later (segments.flatMap written)) text next =
              .ok (flush text ++ segments) := ih hlater text (fun _ => hapart trivial) later
          rw [written, htext, hnone, List.nil_append, hrest]
          obtain ⟨c, text, rfl⟩ := List.exists_cons_of_ne_nil hformed
          rfl
      | key parameter =>
          have hposition : ∀ number, parameter.name = .position number → number = next := by
            intro number hname
            rw [positions_key, hname] at hnumber
            exact (List.cons.inj hnumber).1
          obtain ⟨later, hbraced⟩ := braced_key options hunquantified hposition
            (index + Token.openBrace.write.length)
          rw [written]
          simp only [List.cons_append, List.append_assoc, lexemesFrom]
          rw [ofLexemes_openBrace options hbraced, ih hlater [] (fun h => absurd rfl h) later]
          rfl
      | group before after quantifier =>
          obtain rfl : after = [] := hformed
          obtain ⟨later, hbraced⟩ := braced_group options before quantifier hunquantified
            (index + Token.openBrace.write.length)
          have hrest : ofLexemes options (lexemesFrom later (segments.flatMap written)) [] next =
              .ok segments := ih hlater [] (fun h => absurd rfl h) later
          rw [written]
          simp only [List.cons_append, List.append_assoc, lexemesFrom]
          rw [ofLexemes_openBrace options hbraced, hrest]
          rfl

theorem readable_written {segments : List Segment}
    (h : ∀ segment ∈ segments, segment.WellFormed) : Readable (segments.flatMap written) := by
  induction segments with
  | nil => exact .nil
  | cons segment segments ih =>
      obtain ⟨hformed, hothers⟩ := List.forall_mem_cons.1 h
      exact hformed.readable.append (ih hothers)

theorem flatMap_write_written (segments : List Segment) :
    (segments.flatMap written).flatMap Token.write = printAll segments := by
  rw [List.flatMap_assoc]
  simp only [flatMap_write, printAll]

/-- What is written for normal segments is parsed to the segments again. -/
theorem Normal.parse_printAll {segments : List Segment} (h : Normal segments) (options : Options) :
    parse (printAll segments) options = .ok segments := by
  have hlexemes := (readable_written h.wellFormed).tokenizeFrom_write 0
  rw [flatMap_write_written] at hlexemes
  rw [parse, tokenize, hlexemes]
  exact h.ofLexemes_written options [] (fun h => absurd rfl h) 0

end Segment

/-- The segments of a pattern are normal, and normal segments are those of the pattern that is
written for them, whatever the options. -/
theorem normal_and_parse_printAll (options : Options) :
    (∀ pattern segments, parse pattern options = .ok segments → Segment.Normal segments) ∧
      ∀ segments, Segment.Normal segments →
        parse (Segment.printAll segments) options = .ok segments :=
  ⟨fun _ _ => normal_of_parse, fun _ h => h.parse_printAll options⟩

/-- A pattern with a prefix that a parameter takes over, text on both sides of a parameter and a group
that occurs any number of times. -/
theorem normal_and_parse_printAll_user :
    let pattern := "/a/:id.{-:x(a(?:b)c)_}?{//}*(b|c)".toList
    let segments : List Segment :=
      [.literal ['/', 'a'], .key ⟨.named ['i', 'd'], ['/'], [], Options.standard.defaultPattern, none⟩,
        .literal ['.'],
        .key ⟨.named ['x'], ['-'], ['_'], ['a', '(', '?', ':', 'b', ')', 'c'], some .optional⟩,
        .group ['/', '/'] [] (some .zeroOrMore),
        .key ⟨.position 0, [], [], ['b', '|', 'c'], none⟩]
    parse pattern .standard = .ok segments ∧ Segment.Normal segments ∧
      parse (Segment.printAll segments) .standard = .ok segments := by
  intro pattern segments
  obtain ⟨hnormal, hprinted⟩ := normal_and_parse_printAll .standard
  have hparse : parse pattern .standard = .ok segments := eq_ok_of_toOption (by decide +kernel)
  have hfound := hnormal pattern segments hparse
  exact ⟨hparse, hfound, hprinted segments hfound⟩

end Parsing

end Waymark.Pattern
