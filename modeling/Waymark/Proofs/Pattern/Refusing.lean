import Waymark.Proofs.Pattern.Grammar
import Waymark.Proofs.Pattern.Normal
/-!
Which tokens are refused.

Reading segments takes tokens wherever the grammar has a place for them, and stops at the first that
has none. So `parse` accepts the patterns of the grammar and no others, and an error names the first
token that no pattern could have after those before it (`accepted_and_refused`).
-/

namespace Waymark.Pattern

namespace Stage

/-- What is expected at a stage where a token cannot stand. -/
def expected : Stage → Kind
  | .opened | .named | .closing => .closeBrace
  | _ => .finish

/-- The error that tells of the first token that cannot stand where it does. -/
def refusal (stage : Stage) : List Lexeme → Option Error
  | [] => none
  | lexeme :: rest =>
      match stage.step lexeme.token with
      | some next => next.refusal rest
      | none => some (.unexpectedToken lexeme.token.kind lexeme.index stage.expected)

variable {stage next last : Stage} {lexeme : Lexeme} {lexemes rest : List Lexeme} {error : Error}

theorem refusal_cons_of_step (h : stage.step lexeme.token = some next) :
    stage.refusal (lexeme :: rest) = next.refusal rest := by
  rw [refusal, h]

theorem refusal_cons_of_none (h : stage.step lexeme.token = none) :
    stage.refusal (lexeme :: rest) =
      some (.unexpectedToken lexeme.token.kind lexeme.index stage.expected) := by
  rw [refusal, h]

/-- What is not refused is read. -/
theorem exists_run_of_refusal (h : stage.refusal lexemes = none) :
    ∃ last, stage.run (lexemes.map Lexeme.token) = some last := by
  induction lexemes generalizing stage with
  | nil => exact ⟨stage, rfl⟩
  | cons lexeme rest ih =>
      cases hstep : stage.step lexeme.token with
      | none =>
          rw [refusal_cons_of_none hstep] at h
          cases h
      | some next =>
          rw [refusal_cons_of_step hstep] at h
          obtain ⟨last, hlast⟩ := ih h
          refine ⟨last, ?_⟩
          rw [List.map_cons, run_cons, hstep]
          exact hlast

/-- What is refused is read up to a token that cannot stand where it does. -/
theorem exists_of_refusal (h : stage.refusal lexemes = some error) :
    ∃ before found after last, lexemes = before ++ found :: after ∧
      stage.run (before.map Lexeme.token) = some last ∧ last.step found.token = none ∧
      error = .unexpectedToken found.token.kind found.index last.expected := by
  induction lexemes generalizing stage with
  | nil => cases h
  | cons lexeme rest ih =>
      cases hstep : stage.step lexeme.token with
      | none =>
          rw [refusal_cons_of_none hstep] at h
          exact ⟨[], lexeme, rest, stage, rfl, rfl, hstep, (Option.some.inj h).symm⟩
      | some next =>
          rw [refusal_cons_of_step hstep] at h
          obtain ⟨before, found, after, last, rfl, hrun, hnone, herror⟩ := ih h
          refine ⟨lexeme :: before, found, after, last, rfl, ?_, hnone, herror⟩
          rw [List.map_cons, run_cons, hstep]
          exact hrun

theorem refusal_eq_none_of_run (h : stage.run (lexemes.map Lexeme.token) = some last) :
    stage.refusal lexemes = none := by
  induction lexemes generalizing stage with
  | nil => rfl
  | cons lexeme rest ih =>
      rw [List.map_cons, run_cons] at h
      obtain ⟨next, hstep, hrun⟩ := Option.bind_eq_some_iff.1 h
      rw [refusal_cons_of_step hstep]
      exact ih hrun

/-- The end is read as such, and nothing else is. -/
theorem eq_ended_of_run (hgenuine : Genuine lexemes)
    (h : stage.run (lexemes.map Lexeme.token) = some last) : last = .ended := by
  induction hgenuine generalizing stage with
  | finish index =>
      cases stage <;> cases h
      all_goals rfl
  | cons htoken hrest ih =>
      rw [List.map_cons, run_cons] at h
      obtain ⟨next, -, hrun⟩ := Option.bind_eq_some_iff.1 h
      exact ih hrun

end Stage

/-- Why something fails, if it does. -/
def failure? {α : Type} : Except Error α → Option Error
  | .ok _ => none
  | .error error => some error

theorem failure?_bind_pure {α β : Type} (step : Except Error α) (f : α → β) :
    failure? (do return f (← step)) = failure? step := by
  cases step <;> rfl

namespace Segment

variable {options : Options} {lexemes rest : List Lexeme} {stage : Stage}

open Stage (refusal)

/-- A character at the front is read outside of braces. -/
theorem refusal_takeChar (lexemes : List Lexeme) :
    Stage.outside.refusal lexemes = Stage.outside.refusal (takeChar lexemes).2 := by
  unfold takeChar
  split <;> rfl

theorem refusal_takePattern (lexemes : List Lexeme) :
    Stage.quantifiable.refusal lexemes = Stage.quantifiable.refusal (takePattern lexemes).2 := by
  unfold takePattern
  split <;> rfl

/-- After a quantifier that may follow, the reading is between items. -/
theorem refusal_takeQuantifier (lexemes : List Lexeme) :
    Stage.quantifiable.refusal lexemes = Stage.outside.refusal (takeQuantifier lexemes).2 := by
  unfold takeQuantifier
  split
  · rfl
  · next hmodifier =>
    cases lexemes with
    | nil => rfl
    | cons lexeme rest =>
        have hstep : Stage.quantifiable.step lexeme.token = Stage.outside.step lexeme.token := by
          refine Stage.step_quantifiable fun quantifier heq => ?_
          exact hmodifier quantifier lexeme.index rest (by rw [← heq])
        rw [refusal, refusal, hstep]
        rfl

theorem exists_of_takeName {text : List Char} (h : (takeName lexemes).1 = some text) :
    ∃ index, lexemes = ⟨.name text, index⟩ :: (takeName lexemes).2 := by
  unfold takeName at h ⊢
  split at h
  · next text index rest =>
    obtain rfl := Option.some.inj h
    exact ⟨index, rfl⟩
  · cases h

theorem exists_of_takePattern {text : List Char} (h : (takePattern lexemes).1 = some text) :
    ∃ index, lexemes = ⟨.pattern text, index⟩ :: (takePattern lexemes).2 := by
  unfold takePattern at h ⊢
  split at h
  · next text index rest =>
    obtain rfl := Option.some.inj h
    exact ⟨index, rfl⟩
  · cases h

/-- A name and a custom expression are read, and what may follow them is a quantifier. -/
theorem refusal_takeParameter
    (hkey : (takeName lexemes).1.isSome ∨ (takePattern (takeName lexemes).2).1.isSome) :
    Stage.outside.refusal lexemes =
      Stage.quantifiable.refusal (takePattern (takeName lexemes).2).2 := by
  cases hname : (takeName lexemes).1 with
  | some text =>
      obtain ⟨index, hlexemes⟩ := exists_of_takeName hname
      rw [← refusal_takePattern]
      conv_lhs => rw [hlexemes]
      rfl
  | none =>
      rw [takeName_of_none hname] at hkey ⊢
      dsimp only at hkey ⊢
      obtain ⟨text, hpattern⟩ := Option.isSome_iff_exists.1 (hkey.resolve_left Bool.false_ne_true)
      obtain ⟨index, hlexemes⟩ := exists_of_takePattern hpattern
      conv_lhs => rw [hlexemes]
      rfl

/-- No character is left at the front where text has been taken. -/
theorem not_isCharacter_of_takeText {lexeme : Lexeme} (h : (takeText lexemes).2 = lexeme :: rest) :
    ¬ lexeme.token.IsCharacter := by
  fun_induction takeText lexemes with
  | case1 c index rest text after heq ih | case2 c index rest text after heq ih =>
      rw [heq] at ih
      exact ih h
  | case3 lexemes hchar hescaped =>
      subst h
      intro hcharacter
      obtain ⟨token, index⟩ := lexeme
      cases token with
      | char c => exact hchar c index rest rfl
      | escaped c => exact hescaped c index rest rfl
      | _ => exact hcharacter.elim

/-- Text is read where it does not change the stage. -/
theorem refusal_takeText (hstage : ∀ token : Token, token.IsCharacter → stage.step token = some stage)
    (lexemes : List Lexeme) : stage.refusal lexemes = stage.refusal (takeText lexemes).2 := by
  fun_induction takeText lexemes with
  | case1 c index rest text after heq ih | case2 c index rest text after heq ih =>
      rw [heq] at ih
      refine Eq.trans (Stage.refusal_cons_of_step (hstage _ ?_)) ih
      trivial
  | case3 => rfl

theorem step_closing_of_isCharacter {token : Token} (h : token.IsCharacter) :
    Stage.closing.step token = some .closing := by
  cases token with
  | char | escaped => rfl
  | _ => exact h.elim

/-- Only the closing brace can stand first among lexemes. -/
def Stopped (stage : Stage) (lexemes : List Lexeme) : Prop :=
  ∀ lexeme rest, lexemes = lexeme :: rest →
    lexeme.token = .closeBrace ∨ stage.step lexeme.token = none

theorem stopped_closing (lexemes : List Lexeme) : Stopped .closing (takeText lexemes).2 := by
  intro lexeme rest heq
  have hcharacter := not_isCharacter_of_takeText heq
  cases htoken : lexeme.token with
  | char | escaped =>
      rw [htoken] at hcharacter
      exact absurd trivial hcharacter
  | closeBrace => exact .inl rfl
  | _ => exact .inr rfl

theorem stopped_named (hpattern : (takePattern lexemes).1 = none)
    (htext : (takeText lexemes).2 = lexemes) : Stopped .named lexemes := by
  intro lexeme rest heq
  have hcharacter := not_isCharacter_of_takeText (htext.trans heq)
  obtain ⟨token, index⟩ := lexeme
  cases token with
  | char | escaped => exact absurd trivial hcharacter
  | closeBrace => exact .inl rfl
  | pattern text =>
      rw [heq] at hpattern
      cases hpattern
  | _ => exact .inr rfl

theorem stopped_opened (hname : (takeName lexemes).1 = none)
    (hpattern : (takePattern lexemes).1 = none) (htext : (takeText lexemes).2 = lexemes) :
    Stopped .opened lexemes := by
  intro lexeme rest heq
  have hcharacter := not_isCharacter_of_takeText (htext.trans heq)
  obtain ⟨token, index⟩ := lexeme
  cases token with
  | char | escaped => exact absurd trivial hcharacter
  | closeBrace => exact .inl rfl
  | name text =>
      rw [heq] at hname
      cases hname
  | pattern text =>
      rw [heq] at hpattern
      cases hpattern
  | _ => exact .inr rfl

/-- A custom expression leads on to where only text may follow. -/
theorem refusal_of_takePattern {stage : Stage} {custom : List Char}
    (hstage : stage = .named ∨ stage = .opened)
    (hpattern : (takePattern lexemes).1 = some custom) :
    stage.refusal lexemes = Stage.closing.refusal (takeText (takePattern lexemes).2).2 := by
  obtain ⟨position, hrest⟩ := exists_of_takePattern hpattern
  rw [← refusal_takeText (fun _ => step_closing_of_isCharacter)]
  conv_lhs => rw [hrest]
  rcases hstage with rfl | rfl <;> rfl

/-- After a name, text leads on to where only text may follow. -/
theorem refusal_named (hpattern : (takePattern lexemes).1 = none) :
    ∃ stage : Stage, stage.IsInner ∧
      Stage.named.refusal lexemes = stage.refusal (takeText lexemes).2 ∧
      Stopped stage (takeText lexemes).2 := by
  have hclosing (rest : List Lexeme) := refusal_takeText (fun _ => step_closing_of_isCharacter) rest
  by_cases htext : (takeText lexemes).2 = lexemes
  · refine ⟨.named, .inr (.inl rfl), by rw [htext], ?_⟩
    rw [htext]
    exact stopped_named hpattern htext
  · refine ⟨.closing, .inr (.inr rfl), ?_, stopped_closing lexemes⟩
    unfold takeText at htext ⊢
    split at htext
    · next c index rest => exact hclosing rest
    · next c index rest => exact hclosing rest
    · exact absurd rfl htext

/-- What stands in braces is read up to where only the closing brace can follow. -/
theorem exists_refusal_opened (lexemes : List Lexeme) :
    ∃ stage : Stage, stage.IsInner ∧ Stage.opened.refusal lexemes =
      stage.refusal (takeText (takePattern (takeName (takeText lexemes).2).2).2).2 ∧
      Stopped stage (takeText (takePattern (takeName (takeText lexemes).2).2).2).2 := by
  rw [refusal_takeText (fun _ => Stage.step_opened_of_isCharacter)]
  have hidle := congrArg Prod.snd (takeText_takeText lexemes)
  generalize (takeText lexemes).2 = inner at hidle ⊢
  cases hname : (takeName inner).1 with
  | some text =>
      obtain ⟨index, hinner⟩ := exists_of_takeName hname
      have hnamed : Stage.opened.refusal inner = Stage.named.refusal (takeName inner).2 := by
        conv_lhs => rw [hinner]
        rfl
      rw [hnamed]
      cases hpattern : (takePattern (takeName inner).2).1 with
      | some custom =>
          exact ⟨.closing, .inr (.inr rfl), refusal_of_takePattern (.inl rfl) hpattern,
            stopped_closing _⟩
      | none =>
          rw [takePattern_of_none hpattern]
          exact refusal_named hpattern
  | none =>
      rw [takeName_of_none hname]
      cases hpattern : (takePattern inner).1 with
      | some custom =>
          exact ⟨.closing, .inr (.inr rfl), refusal_of_takePattern (.inr rfl) hpattern,
            stopped_closing _⟩
      | none =>
          rw [takePattern_of_none hpattern, hidle]
          exact ⟨.opened, .inl rfl, rfl, stopped_opened hname hpattern hidle⟩

/-- Braces that are read lead back to between the items. -/
theorem refusal_of_braced {next number : Nat} {segment : Segment}
    (h : braced options lexemes next = .ok (segment, number, rest)) :
    Stage.opened.refusal lexemes = Stage.outside.refusal rest := by
  obtain ⟨stage, hstage, hrefusal, -⟩ := exists_refusal_opened lexemes
  simp only [braced] at h
  split at h
  · next index close heq =>
    have hclose : Stage.opened.refusal lexemes = Stage.outside.refusal (takeQuantifier close).2 := by
      rw [hrefusal, heq, Stage.refusal_cons_of_step hstage.step_closeBrace, refusal_takeQuantifier]
    split at h <;>
      · simp only [Except.ok.injEq, Prod.mk.injEq] at h
        obtain ⟨-, -, rfl⟩ := h
        exact hclose
  · cases h

theorem expected_of_isInner (hstage : stage.IsInner) : stage.expected = .closeBrace := by
  rcases hstage with rfl | rfl | rfl <;> rfl

/-- Braces that are not read are refused where the closing brace is missing. -/
theorem refusal_of_braced_error (hgenuine : Genuine lexemes) {next : Nat} {error : Error}
    (h : braced options lexemes next = .error error) :
    Stage.opened.refusal lexemes = some error := by
  obtain ⟨stage, hstage, hrefusal, hstopped⟩ := exists_refusal_opened lexemes
  have hrest := genuine_takeText (genuine_takePattern (genuine_takeName (genuine_takeText hgenuine)))
  simp only [braced] at h
  split at h
  · split at h <;> cases h
  · next hclose =>
    obtain rfl := Except.error.inj h
    rw [hrefusal]
    cases hlexemes : (takeText (takePattern (takeName (takeText lexemes).2).2).2).2 with
    | nil =>
        rw [hlexemes] at hrest
        cases hrest
    | cons lexeme rest =>
        have hnone := (hstopped lexeme rest hlexemes).resolve_left fun htoken =>
          hclose lexeme.index rest (by rw [hlexemes, ← htoken])
        rw [Stage.refusal_cons_of_none hnone, expected_of_isInner hstage]
        rfl

/-- The reading of segments fails where the grammar refuses a token, and only there. -/
theorem failure?_ofLexemes (hgenuine : Genuine lexemes) (pending : List Char) (next : Nat) :
    failure? (ofLexemes options lexemes pending next) = Stage.outside.refusal lexemes := by
  fun_induction ofLexemes options lexemes pending next
  case case1 lexemes pending next char name custom hkey taken absorbs keyName quantifier key ih =>
    have hrest := genuine_takeQuantifier
      (genuine_takePattern (genuine_takeName (genuine_takeChar hgenuine)))
    have hfailure := ih hrest
    rw [failure?_bind_pure, refusal_takeChar, refusal_takeParameter hkey, refusal_takeQuantifier]
    exact hfailure
  case case2 ih | case3 ih =>
    cases hgenuine with
    | cons _ hrest => exact ih hrest
  case case4 hbraced char name custom hkey =>
    cases hgenuine with
    | cons _ hrest => exact (refusal_of_braced_error hrest hbraced).symm
  case case5 hbraced char name custom hkey ih =>
    cases hgenuine with
    | cons _ hinner =>
        obtain ⟨-, -, -, -, hrest⟩ := wellFormed_of_braced hinner hbraced
        rw [failure?_bind_pure, ih hrest]
        exact (refusal_of_braced hbraced).symm
  case case6 ih =>
    cases hgenuine with
    | finish => rw [failure?_bind_pure, ofLexemes]; rfl
    | cons htoken _ => exact htoken.elim
  case case7 => rfl
  case case8 pending next lexemes hchar hescaped hbrace hfinish hnil char name custom hkey =>
    obtain _ | ⟨⟨token, index⟩, rest⟩ := lexemes
    · exact absurd rfl hnil
    · cases token with
      | char c => exact (hchar c index rest rfl).elim
      | escaped c => exact (hescaped c index rest rfl).elim
      | openBrace => exact (hbrace index rest rfl).elim
      | finish => exact (hfinish index rest rfl).elim
      | name text => exact absurd (.inl rfl) hkey
      | pattern text => exact absurd (.inr rfl) hkey
      | modifier | closeBrace => rfl

end Segment

/-- The last brace that opens is not closed. -/
def InBraces (tokens : List Token) : Prop :=
  ∃ outer inner, tokens = outer ++ .openBrace :: inner ∧ .closeBrace ∉ inner

section Braces

variable {stage next last : Stage} {token : Token} {tokens : List Token}

theorem inBraces_cons_iff :
    InBraces (token :: tokens) ↔
      InBraces tokens ∨ (token = .openBrace ∧ .closeBrace ∉ tokens) := by
  constructor
  · rintro ⟨outer, inner, htokens, hinner⟩
    cases outer with
    | nil =>
        obtain ⟨rfl, rfl⟩ := List.cons.inj htokens
        exact .inr ⟨rfl, hinner⟩
    | cons first outer =>
        obtain ⟨-, rfl⟩ := List.cons.inj htokens
        exact .inl ⟨outer, inner, rfl, hinner⟩
  · rintro (⟨outer, inner, rfl, hinner⟩ | ⟨rfl, hinner⟩)
    · exact ⟨token :: outer, inner, rfl, hinner⟩
    · exact ⟨[], tokens, rfl, hinner⟩

/-- A step leads into braces where they are opened, and out of them where they are closed. -/
theorem Stage.isInner_of_step (h : stage.step token = some next) :
    next.IsInner ↔ token = .openBrace ∨ (stage.IsInner ∧ token ≠ .closeBrace) := by
  cases stage <;> cases token <;> cases h <;> simp [Stage.IsInner]

/-- The reading stands between braces if and only if it has come by one that is not closed. -/
theorem Stage.isInner_of_run (h : stage.run tokens = some last) :
    last.IsInner ↔ InBraces tokens ∨ (stage.IsInner ∧ .closeBrace ∉ tokens) := by
  induction tokens generalizing stage with
  | nil =>
      obtain rfl := Option.some.inj h
      simp [InBraces]
  | cons token tokens ih =>
      rw [Stage.run_cons] at h
      obtain ⟨next, hstep, hrun⟩ := Option.bind_eq_some_iff.1 h
      rw [ih hrun, Stage.isInner_of_step hstep, inBraces_cons_iff, List.mem_cons, not_or]
      tauto

theorem Stage.expected_eq (stage : Stage) :
    (stage.IsInner ∧ stage.expected = .closeBrace) ∨
      (¬ stage.IsInner ∧ stage.expected = .finish) := by
  cases stage <;> simp [Stage.IsInner, Stage.expected]

end Braces

namespace Segment

/-- How far the reading of segments has come: the tokens that are left, the characters that wait for
the end of a literal, the number of the next parameter without a name, and the segments so far. -/
structure Progress where
  lexemes : List Lexeme
  pending : List Char
  next : Nat
  found : List Segment

/-- One turn where no parameter stands: a character, braces or the end. -/
def Progress.plainTurn (options : Options) : Progress → Except Error Progress
  | ⟨⟨.char c, _⟩ :: rest, pending, next, found⟩ => .ok ⟨rest, pending ++ [c], next, found⟩
  | ⟨⟨.escaped c, _⟩ :: rest, pending, next, found⟩ => .ok ⟨rest, pending ++ [c], next, found⟩
  | ⟨⟨.openBrace, _⟩ :: rest, pending, next, found⟩ => do
      let (segment, next, rest) ← braced options rest next
      return ⟨rest, [], next, found ++ (flush pending ++ [segment])⟩
  | ⟨⟨.finish, _⟩ :: rest, pending, next, found⟩ => .ok ⟨rest, [], next, found ++ flush pending⟩
  | progress => .error (unexpected progress.lexemes .finish)

/-- One turn of the reading. A parameter is taken with the character before it. -/
def Progress.turn (options : Options) (progress : Progress) : Except Error Progress :=
  let char := takeChar progress.lexemes
  let name := takeName char.2
  let custom := takePattern name.2
  if name.1.isSome ∨ custom.1.isSome then
    let taken := char.1.toList
    let absorbs := taken.all options.prefixes.contains
    let keyName := match name.1 with
      | some text => KeyName.named text
      | none => .position progress.next
    let quantifier := takeQuantifier custom.2
    let key : Key :=
      { name := keyName
        before := if absorbs then taken else []
        after := []
        pattern := custom.1.getD options.defaultPattern
        quantifier := quantifier.1 }
    let text := if absorbs then progress.pending else progress.pending ++ taken
    .ok
      { lexemes := quantifier.2
        pending := []
        next := if name.1.isSome then progress.next else progress.next + 1
        found := progress.found ++ (flush text ++ [.key key]) }
  else progress.plainTurn options

theorem Progress.turn_eq_plainTurn {options : Options} {progress : Progress}
    (hkey : ¬ ((takeName (takeChar progress.lexemes).2).1.isSome ∨
      (takePattern (takeName (takeChar progress.lexemes).2).2).1.isSome)) :
    progress.turn options = progress.plainTurn options :=
  if_neg hkey

/-- The turns that are taken while tokens are left, and the answer that they come to. -/
inductive Ends (options : Options) : Progress → Nat → Except Error (List Segment) → Prop where
  | finished (pending : List Char) (next : Nat) (found : List Segment) :
      Ends options ⟨[], pending, next, found⟩ 0 (.ok (found ++ flush pending))
  | failed {progress : Progress} {error : Error} (hmore : progress.lexemes ≠ [])
      (hturn : progress.turn options = .error error) : Ends options progress 1 (.error error)
  | turned {progress later : Progress} {turns : Nat} {answer : Except Error (List Segment)}
      (hmore : progress.lexemes ≠ []) (hturn : progress.turn options = .ok later)
      (h : Ends options later turns answer) : Ends options progress (turns + 1) answer

variable {options : Options} {lexemes : List Lexeme}

/-- A parameter takes at least one token. -/
theorem length_takeKey_lt
    (hkey : (takeName (takeChar lexemes).2).1.isSome ∨
      (takePattern (takeName (takeChar lexemes).2).2).1.isSome) :
    (takeQuantifier (takePattern (takeName (takeChar lexemes).2).2).2).2.length <
      lexemes.length := by
  have hchar := length_takeChar_le lexemes
  have hname := length_takeName_le (takeChar lexemes).2
  have hcustom := length_takePattern_le (takeName (takeChar lexemes).2).2
  have hquantifier := length_takeQuantifier_le (takePattern (takeName (takeChar lexemes).2).2).2
  rcases hkey with h | h
  · have hlt := length_takeName_lt h
    omega
  · have hlt := length_takePattern_lt h
    omega

/-- The reading ends, after no more turns than there are tokens. -/
theorem exists_ends (lexemes : List Lexeme) (pending : List Char) (next : Nat)
    (found : List Segment) :
    ∃ turns ≤ lexemes.length, Ends options ⟨lexemes, pending, next, found⟩ turns
      ((ofLexemes options lexemes pending next).map (found ++ ·)) := by
  fun_induction ofLexemes options lexemes pending next generalizing found
  case case1 lexemes pending next char name custom hkey taken absorbs keyName quantifier key ih =>
    obtain ⟨turns, hturns, hends⟩ := ih (found ++
      (flush (if absorbs then pending else pending ++ taken) ++ [.key key]))
    have hlength : quantifier.2.length < lexemes.length := length_takeKey_lt hkey
    refine ⟨turns + 1, by omega, .turned ?_ (if_pos hkey) ?_⟩
    · rintro rfl
      exact absurd hlength (Nat.not_lt_zero _)
    · simp only [List.append_assoc, List.cons_append, List.nil_append] at hends
      rw [map_bind_pure]
      exact hends
  case case2 pending next c index rest char name custom hkey ih
      | case3 pending next c index rest char name custom hkey ih =>
    obtain ⟨turns, hturns, hends⟩ := ih found
    refine ⟨turns + 1, Nat.succ_le_succ hturns, .turned (List.cons_ne_nil _ _) ?_ hends⟩
    exact Progress.turn_eq_plainTurn hkey
  case case4 pending next index rest error hbraced char name custom hkey =>
    refine ⟨1, Nat.succ_le_succ (Nat.zero_le _), .failed (List.cons_ne_nil _ _) ?_⟩
    rw [Progress.turn_eq_plainTurn hkey, Progress.plainTurn, hbraced]
    rfl
  case case5 pending next index inner segment number rest hbraced char name custom hkey ih =>
    obtain ⟨turns, hturns, hends⟩ := ih (found ++ (flush pending ++ [segment]))
    have hlength := length_lt_of_braced hbraced
    have hturn : Progress.turn options ⟨⟨.openBrace, index⟩ :: inner, pending, next, found⟩ =
        .ok ⟨rest, [], number, found ++ (flush pending ++ [segment])⟩ := by
      rw [Progress.turn_eq_plainTurn hkey, Progress.plainTurn, hbraced]
      rfl
    refine ⟨turns + 1, ?_, .turned (List.cons_ne_nil _ _) hturn ?_⟩
    · rw [List.length_cons]
      omega
    · simp only [List.append_assoc, List.cons_append, List.nil_append] at hends
      rw [map_bind_pure]
      exact hends
  case case6 pending next index rest char name custom hkey ih =>
    obtain ⟨turns, hturns, hends⟩ := ih (found ++ flush pending)
    have hturn : Progress.turn options ⟨⟨.finish, index⟩ :: rest, pending, next, found⟩ =
        .ok ⟨rest, [], next, found ++ flush pending⟩ := Progress.turn_eq_plainTurn hkey
    refine ⟨turns + 1, Nat.succ_le_succ hturns, .turned (List.cons_ne_nil _ _) hturn ?_⟩
    simp only [List.append_assoc] at hends
    rw [map_bind_pure]
    exact hends
  case case7 => exact ⟨0, Nat.le_refl 0, .finished _ _ found⟩
  case case8 pending next lexemes hchar hescaped hbrace hfinish hnil char name custom hkey =>
    have hplain : Progress.plainTurn options ⟨lexemes, pending, next, found⟩ =
        .error (unexpected lexemes .finish) := by
      unfold Progress.plainTurn
      split <;> simp_all
    refine ⟨1, List.length_pos_iff.2 hnil, .failed hnil ?_⟩
    exact (Progress.turn_eq_plainTurn hkey).trans hplain

end Segment

section Patterns

variable {pattern : List Char} {options : Options} {lexemes : List Lexeme} {error : Error}

theorem failure?_parse (h : tokenize pattern = .ok lexemes) (options : Options) :
    failure? (parse pattern options) = Stage.outside.refusal lexemes := by
  rw [parse, h]
  exact Segment.failure?_ofLexemes (genuine_of_tokenizeFrom h) [] 0

theorem failure?_eq_none_iff {α : Type} {step : Except Error α} :
    failure? step = none ↔ ∃ value, step = .ok value := by
  cases step <;> simp [failure?]

theorem failure?_eq_some_iff {α : Type} {step : Except Error α} :
    failure? step = some error ↔ step = .error error := by
  cases step <;> simp [failure?]

/-- Tokens are not refused if and only if they are a pattern. -/
theorem refusal_eq_none_iff (hgenuine : Genuine lexemes) :
    Stage.outside.refusal lexemes = none ↔ Sentence (lexemes.map Lexeme.token) := by
  rw [sentence_iff_run]
  constructor
  · intro h
    obtain ⟨last, hrun⟩ := Stage.exists_run_of_refusal h
    rw [hrun, Stage.eq_ended_of_run hgenuine hrun]
  · exact Stage.refusal_eq_none_of_run

/-- Where tokens are refused, and what is expected there. -/
structure RefusedAt (before : List Lexeme) (found : Lexeme) (expected : Kind) : Prop where
  viable : Viable (before.map Lexeme.token)
  not_viable : ¬ Viable ((before ++ [found]).map Lexeme.token)
  braces : InBraces (before.map Lexeme.token) → expected = .closeBrace
  between : ¬ InBraces (before.map Lexeme.token) → expected = .finish

/-- What is refused is refused at the first token that no pattern could have there. -/
theorem exists_refusedAt (h : Stage.outside.refusal lexemes = some error) :
    ∃ before found after expected, lexemes = before ++ found :: after ∧
      error = .unexpectedToken found.token.kind found.index expected ∧
      RefusedAt before found expected := by
  obtain ⟨before, found, after, last, hlexemes, hrun, hnone, herror⟩ := Stage.exists_of_refusal h
  have hinner := Stage.isInner_of_run hrun
  have houtside : ¬ Stage.outside.IsInner := by simp [Stage.IsInner]
  refine ⟨before, found, after, last.expected, hlexemes, herror, ?_⟩
  constructor
  · exact viable_iff_run.2 ⟨last, hrun⟩
  · rw [viable_iff_run, List.map_append, Stage.run_append_of_run hrun]
    rintro ⟨stage, hstage⟩
    rw [List.map_singleton, Stage.run_cons, hnone] at hstage
    cases hstage
  · intro hbraces
    exact (last.expected_eq.resolve_right fun h => h.1 (hinner.2 (.inl hbraces))).2
  · intro hbraces
    refine (last.expected_eq.resolve_left fun h => ?_).2
    exact (hinner.1 h.1).elim hbraces fun hstage => houtside hstage.1

/-- The tokens of a text are parsed if and only if they are a pattern of the grammar. If they are
not, the error tells of the first of them that no pattern could have after those before it. The
reading of any tokens at all ends, after no more turns than there are tokens. -/
theorem accepted_and_refused (options : Options) :
    (∀ pattern lexemes, tokenize pattern = .ok lexemes →
      ((∃ segments, parse pattern options = .ok segments) ↔
        Sentence (lexemes.map Lexeme.token)) ∧
      ∀ error, parse pattern options = .error error →
        ∃ before found after expected, lexemes = before ++ found :: after ∧
          error = .unexpectedToken found.token.kind found.index expected ∧
          RefusedAt before found expected) ∧
    ∀ lexemes, ∃ turns ≤ lexemes.length, Segment.Ends options ⟨lexemes, [], 0, []⟩ turns
      (Segment.ofLexemes options lexemes [] 0) := by
  refine ⟨fun pattern lexemes h => ⟨?_, fun error herror => ?_⟩, fun lexemes => ?_⟩
  · rw [← failure?_eq_none_iff, failure?_parse h]
    exact refusal_eq_none_iff (genuine_of_tokenizeFrom h)
  · rw [← failure?_eq_some_iff, failure?_parse h] at herror
    exact exists_refusedAt herror
  · obtain ⟨turns, hturns, hends⟩ := @Segment.exists_ends options lexemes [] 0 []
    refine ⟨turns, hturns, ?_⟩
    have hanswer : (Segment.ofLexemes options lexemes [] 0).map ([] ++ ·) =
        Segment.ofLexemes options lexemes [] 0 := by
      cases Segment.ofLexemes options lexemes [] 0 <;> rfl
    rw [hanswer] at hends
    exact hends

/-- Braces hold one parameter: the name of a second one stands where they are to be closed. -/
theorem refused_crowdedBraces :
    let pattern := "/\x7ba:b-:c\x7d".toList
    let lexemes : List Lexeme :=
      [⟨.char '/', 0⟩, ⟨.openBrace, 1⟩, ⟨.char 'a', 2⟩, ⟨.name ['b'], 3⟩, ⟨.char '-', 5⟩,
        ⟨.name ['c'], 6⟩, ⟨.closeBrace, 8⟩, ⟨.finish, 9⟩]
    tokenize pattern = .ok lexemes ∧
      parse pattern .standard = .error (.unexpectedToken .name 6 .closeBrace) ∧
      ¬ Sentence (lexemes.map Lexeme.token) ∧
      ∃ before found after expected, lexemes = before ++ found :: after ∧
        Error.unexpectedToken .name 6 .closeBrace =
          .unexpectedToken found.token.kind found.index expected ∧
        RefusedAt before found expected := by
  intro pattern lexemes
  have htokens : tokenize pattern = .ok lexemes := eq_ok_of_toOption (by decide +kernel)
  have hparse : parse pattern .standard = .error (.unexpectedToken .name 6 .closeBrace) :=
    failure?_eq_some_iff.1 (by decide +kernel)
  obtain ⟨haccepted, hrefused⟩ := (accepted_and_refused .standard).1 pattern lexemes htokens
  refine ⟨htokens, hparse, fun hsentence => ?_, hrefused _ hparse⟩
  obtain ⟨segments, hsegments⟩ := haccepted.2 hsentence
  rw [hparse] at hsegments
  cases hsegments

end Patterns

end Waymark.Pattern
