import Waymark.Pattern.Token
/-!
The grammar of route patterns.

In tokens, a pattern is a row of items and its end (`Sentence`). Tokens are read from left to right,
and all that counts of those before is the stage that the reading has reached: tokens are a pattern
if and only if they can be read up to the end (`sentence_iff_run`), and they are the beginning of
one if and only if they can be read at all (`viable_iff_run`).
-/

namespace Waymark.Pattern

/-- A token that stands for a character. -/
def Token.IsCharacter : Token → Prop
  | .char _ | .escaped _ => True
  | _ => False

/-- The tokens of an item: a character, a parameter that may have a character before it, or braces
with text, a name, a custom expression and text. -/
inductive IsItem : List Token → Prop where
  | char (c : Char) : IsItem [.char c]
  | escaped (c : Char) : IsItem [.escaped c]
  | named (front : Option Char) (text : List Char) (custom : Option (List Char))
      (quantifier : Option Quantifier) :
      IsItem (front.toList.map .char ++ .name text ::
        (custom.toList.map .pattern ++ quantifier.toList.map .modifier))
  | unnamed (front : Option Char) (text : List Char) (quantifier : Option Quantifier) :
      IsItem (front.toList.map .char ++ .pattern text :: quantifier.toList.map .modifier)
  | braces {before after : List Token} (name custom : Option (List Char))
      (quantifier : Option Quantifier) (hbefore : ∀ token ∈ before, token.IsCharacter)
      (hafter : ∀ token ∈ after, token.IsCharacter) :
      IsItem (.openBrace :: (before ++ name.toList.map .name ++ custom.toList.map .pattern ++
        after ++ .closeBrace :: quantifier.toList.map .modifier))

/-- The tokens of a pattern: items, and the end. -/
inductive Sentence : List Token → Prop where
  | finish : Sentence [.finish]
  | item {tokens rest : List Token} (hitem : IsItem tokens) (hrest : Sentence rest) :
      Sentence (tokens ++ rest)

/-- Tokens that a pattern may begin with. -/
def Viable (tokens : List Token) : Prop :=
  ∃ rest, Sentence (tokens ++ rest)

/-- Where the reading of a pattern stands. -/
inductive Stage where
  | outside
  /-- After a parameter or braces, where a quantifier may follow. -/
  | quantifiable
  /-- In braces, before a name or a custom expression. -/
  | opened
  /-- In braces, right after the name. -/
  | named
  /-- In braces, where only text may follow. -/
  | closing
  | ended
deriving DecidableEq, Repr

namespace Stage

/-- Where the reading stands after a token, unless the token cannot stand there. -/
def step : Stage → Token → Option Stage
  | .outside, .char _ | .outside, .escaped _ => some .outside
  | .outside, .name _ | .outside, .pattern _ => some .quantifiable
  | .outside, .openBrace => some .opened
  | .outside, .finish => some .ended
  | .quantifiable, .modifier _ => some .outside
  | .quantifiable, .char _ | .quantifiable, .escaped _ => some .outside
  | .quantifiable, .name _ | .quantifiable, .pattern _ => some .quantifiable
  | .quantifiable, .openBrace => some .opened
  | .quantifiable, .finish => some .ended
  | .opened, .char _ | .opened, .escaped _ => some .opened
  | .opened, .name _ => some .named
  | .opened, .pattern _ => some .closing
  | .opened, .closeBrace => some .quantifiable
  | .named, .char _ | .named, .escaped _ | .named, .pattern _ => some .closing
  | .named, .closeBrace => some .quantifiable
  | .closing, .char _ | .closing, .escaped _ => some .closing
  | .closing, .closeBrace => some .quantifiable
  | _, _ => none

/-- Where the reading stands after tokens, unless one of them cannot stand where it does. -/
def run (stage : Stage) (tokens : List Token) : Option Stage :=
  tokens.foldlM step stage

/-- Between items. -/
def IsOuter (stage : Stage) : Prop :=
  stage = .outside ∨ stage = .quantifiable

/-- Between braces. -/
def IsInner (stage : Stage) : Prop :=
  stage = .opened ∨ stage = .named ∨ stage = .closing

variable {stage next last : Stage} {token : Token} {tokens rest : List Token}

theorem run_cons (stage : Stage) (token : Token) (tokens : List Token) :
    stage.run (token :: tokens) = (stage.step token).bind fun next => next.run tokens :=
  rfl

theorem run_append (stage : Stage) (tokens rest : List Token) :
    stage.run (tokens ++ rest) = (stage.run tokens).bind fun next => next.run rest := by
  rw [run, List.foldlM_append]
  rfl

theorem run_append_of_run (h : stage.run tokens = some next) (rest : List Token) :
    stage.run (tokens ++ rest) = next.run rest := by
  rw [run_append, h, Option.bind_some]

theorem step_opened_of_isCharacter (h : token.IsCharacter) :
    Stage.opened.step token = some .opened := by
  cases token with
  | char | escaped => rfl
  | _ => exact h.elim

/-- Text before a name leaves the reading before a name. -/
theorem run_opened_text (h : ∀ token ∈ tokens, token.IsCharacter) :
    Stage.opened.run tokens = some .opened := by
  induction tokens with
  | nil => rfl
  | cons token tokens ih =>
      obtain ⟨htoken, htokens⟩ := List.forall_mem_cons.1 h
      rw [run_cons, step_opened_of_isCharacter htoken, Option.bind_some]
      exact ih htokens

theorem IsInner.exists_step (hstage : stage.IsInner) (h : token.IsCharacter) :
    ∃ next : Stage, next.IsInner ∧ stage.step token = some next := by
  cases token with
  | char | escaped =>
      rcases hstage with rfl | rfl | rfl
      · exact ⟨.opened, .inl rfl, rfl⟩
      · exact ⟨.closing, .inr (.inr rfl), rfl⟩
      · exact ⟨.closing, .inr (.inr rfl), rfl⟩
  | _ => exact h.elim

/-- Text leads out of no braces. -/
theorem IsInner.exists_run_text (hstage : stage.IsInner)
    (h : ∀ token ∈ tokens, token.IsCharacter) :
    ∃ next : Stage, next.IsInner ∧ stage.run tokens = some next := by
  induction tokens generalizing stage with
  | nil => exact ⟨stage, hstage, rfl⟩
  | cons token tokens ih =>
      obtain ⟨htoken, htokens⟩ := List.forall_mem_cons.1 h
      obtain ⟨next, hnext, hstep⟩ := hstage.exists_step htoken
      obtain ⟨last, hlast, hrun⟩ := ih hnext htokens
      refine ⟨last, hlast, ?_⟩
      rw [run_cons, hstep, Option.bind_some, hrun]

theorem IsInner.step_closeBrace (hstage : stage.IsInner) :
    stage.step .closeBrace = some .quantifiable := by
  rcases hstage with rfl | rfl | rfl <;> rfl

/-- A quantifier that may be missing leads back to between the items. -/
theorem exists_run_quantifier (quantifier : Option Quantifier) :
    ∃ next : Stage, next.IsOuter ∧
      Stage.quantifiable.run (quantifier.toList.map .modifier) = some next := by
  cases quantifier with
  | none => exact ⟨.quantifiable, .inr rfl, rfl⟩
  | some quantifier => exact ⟨.outside, .inl rfl, rfl⟩

/-- What comes after a name or a custom expression is read to between the items. -/
theorem exists_run_parameter (custom : Option (List Char)) (quantifier : Option Quantifier) :
    ∃ next : Stage, next.IsOuter ∧ Stage.quantifiable.run
      (custom.toList.map .pattern ++ quantifier.toList.map .modifier) = some next := by
  obtain ⟨next, hnext, hrun⟩ := exists_run_quantifier quantifier
  refine ⟨next, hnext, ?_⟩
  cases custom with
  | none => exact hrun
  | some text => exact hrun

/-- A name and a custom expression that may be missing leave the reading in braces. -/
theorem exists_run_inside (name custom : Option (List Char)) :
    ∃ next : Stage, next.IsInner ∧
      Stage.opened.run (name.toList.map .name ++ custom.toList.map .pattern) = some next := by
  cases name with
  | none =>
      cases custom with
      | none => exact ⟨.opened, .inl rfl, rfl⟩
      | some text => exact ⟨.closing, .inr (.inr rfl), rfl⟩
  | some name =>
      cases custom with
      | none => exact ⟨.named, .inr (.inl rfl), rfl⟩
      | some text => exact ⟨.closing, .inr (.inr rfl), rfl⟩

/-- An item leads from between the items to between the items. -/
theorem exists_run_item (hitem : IsItem tokens) (hstage : stage.IsOuter) :
    ∃ next : Stage, next.IsOuter ∧ stage.run tokens = some next := by
  cases hitem with
  | char c | escaped c =>
      refine ⟨.outside, .inl rfl, ?_⟩
      rcases hstage with rfl | rfl <;> rfl
  | named front text custom quantifier =>
      obtain ⟨next, hnext, hrun⟩ := exists_run_parameter custom quantifier
      refine ⟨next, hnext, ?_⟩
      rcases hstage with rfl | rfl <;> cases front <;> exact hrun
  | unnamed front text quantifier =>
      obtain ⟨next, hnext, hrun⟩ := exists_run_quantifier quantifier
      refine ⟨next, hnext, ?_⟩
      rcases hstage with rfl | rfl <;> cases front <;> exact hrun
  | @braces before after name custom quantifier hbefore hafter =>
      obtain ⟨inner, hinner, hinside⟩ := exists_run_inside name custom
      obtain ⟨last, hlast, htext⟩ := hinner.exists_run_text hafter
      obtain ⟨next, hnext, hrun⟩ := exists_run_quantifier quantifier
      refine ⟨next, hnext, ?_⟩
      have hopened : stage.step .openBrace = some .opened := by rcases hstage with rfl | rfl <;> rfl
      rw [run_cons, hopened, Option.bind_some, List.append_assoc before,
        List.append_assoc before, List.append_assoc before,
        run_append_of_run (run_opened_text hbefore), List.append_assoc,
        run_append_of_run hinside, run_append_of_run htext, run_cons, hlast.step_closeBrace]
      exact hrun

/-- A pattern is read up to its end. -/
theorem run_of_sentence (h : Sentence tokens) (hstage : stage.IsOuter) :
    stage.run tokens = some .ended := by
  induction h generalizing stage with
  | finish => rcases hstage with rfl | rfl <;> rfl
  | item hitem hrest ih =>
      obtain ⟨next, hnext, hrun⟩ := exists_run_item hitem hstage
      rw [run_append_of_run hrun]
      exact ih hnext

/-- A pattern, or one after a quantifier. -/
def Quantified (tokens : List Token) : Prop :=
  ∃ (quantifier : Option Quantifier) (rest : List Token), Sentence rest ∧
    tokens = quantifier.toList.map .modifier ++ rest

/-- Text, the closing brace and what may follow it. -/
def Closed (tokens : List Token) : Prop :=
  ∃ after rest : List Token, (∀ token ∈ after, token.IsCharacter) ∧ Quantified rest ∧
    tokens = after ++ .closeBrace :: rest

/-- What completes a pattern whose reading has reached a stage. -/
def Completes : Stage → List Token → Prop
  | .outside, tokens => Sentence tokens
  | .quantifiable, tokens => Quantified tokens
  | .opened, tokens => ∃ (before : List Token) (name custom : Option (List Char))
      (rest : List Token), (∀ token ∈ before, token.IsCharacter) ∧ Closed rest ∧
      tokens = before ++ name.toList.map .name ++ custom.toList.map .pattern ++ rest
  | .named, tokens => ∃ (custom : Option (List Char)) (rest : List Token), Closed rest ∧
      tokens = custom.toList.map .pattern ++ rest
  | .closing, tokens => Closed tokens
  | .ended, tokens => tokens = []

theorem Closed.cons (h : Closed tokens) (htoken : token.IsCharacter) : Closed (token :: tokens) := by
  obtain ⟨after, rest, hafter, hrest, rfl⟩ := h
  exact ⟨token :: after, rest, List.forall_mem_cons.2 ⟨htoken, hafter⟩, hrest, rfl⟩

theorem closed_closeBrace (h : Quantified tokens) : Closed (.closeBrace :: tokens) :=
  ⟨[], tokens, List.forall_mem_nil _, h, rfl⟩

/-- A parameter and what is read after it. -/
theorem sentence_named (text : List Char) (h : Quantified tokens) :
    Sentence (.name text :: tokens) := by
  obtain ⟨quantifier, rest, hrest, rfl⟩ := h
  exact .item (.named none text none quantifier) hrest

theorem sentence_unnamed (text : List Char) (h : Quantified tokens) :
    Sentence (.pattern text :: tokens) := by
  obtain ⟨quantifier, rest, hrest, rfl⟩ := h
  exact .item (.unnamed none text quantifier) hrest

/-- Braces and what is read after them. -/
theorem sentence_openBrace (h : Completes .opened tokens) : Sentence (.openBrace :: tokens) := by
  obtain ⟨before, name, custom, rest, hbefore, hclosed, rfl⟩ := h
  obtain ⟨after, rest, hafter, ⟨quantifier, rest, hrest, rfl⟩, rfl⟩ := hclosed
  have hbraces := Sentence.item (.braces name custom quantifier hbefore hafter) hrest
  simpa using hbraces

theorem Quantified.of_sentence (h : Sentence tokens) : Quantified tokens :=
  ⟨none, tokens, h, rfl⟩

theorem completes_opened_of_closed (h : Closed tokens) : Completes .opened tokens :=
  ⟨[], none, none, tokens, List.forall_mem_nil _, h, rfl⟩

theorem completes_outside_cons (hstep : Stage.outside.step token = some next)
    (h : next.Completes tokens) : Sentence (token :: tokens) := by
  cases token with
  | char c =>
      obtain rfl := Option.some.inj hstep
      exact .item (.char c) h
  | escaped c =>
      obtain rfl := Option.some.inj hstep
      exact .item (.escaped c) h
  | name text =>
      obtain rfl := Option.some.inj hstep
      exact sentence_named text h
  | pattern text =>
      obtain rfl := Option.some.inj hstep
      exact sentence_unnamed text h
  | openBrace =>
      obtain rfl := Option.some.inj hstep
      exact sentence_openBrace h
  | finish =>
      obtain rfl := Option.some.inj hstep
      obtain rfl : tokens = [] := h
      exact .finish
  | modifier | closeBrace => cases hstep

theorem completes_opened_cons (hstep : Stage.opened.step token = some next)
    (h : next.Completes tokens) : Completes .opened (token :: tokens) := by
  cases token with
  | char | escaped =>
      obtain rfl := Option.some.inj hstep
      obtain ⟨before, name, custom, rest, hbefore, hrest, rfl⟩ := h
      refine ⟨_ :: before, name, custom, rest, List.forall_mem_cons.2 ⟨?_, hbefore⟩, hrest, rfl⟩
      trivial
  | name text =>
      obtain rfl := Option.some.inj hstep
      obtain ⟨custom, rest, hrest, rfl⟩ := h
      exact ⟨[], some text, custom, rest, List.forall_mem_nil _, hrest, rfl⟩
  | pattern text =>
      obtain rfl := Option.some.inj hstep
      exact ⟨[], none, some text, tokens, List.forall_mem_nil _, h, rfl⟩
  | closeBrace =>
      obtain rfl := Option.some.inj hstep
      exact completes_opened_of_closed (closed_closeBrace h)
  | modifier | openBrace | finish => cases hstep

theorem completes_named_cons (hstep : Stage.named.step token = some next)
    (h : next.Completes tokens) : Completes .named (token :: tokens) := by
  cases token with
  | char | escaped =>
      obtain rfl := Option.some.inj hstep
      refine ⟨none, _, Closed.cons h ?_, rfl⟩
      trivial
  | pattern text =>
      obtain rfl := Option.some.inj hstep
      exact ⟨some text, tokens, h, rfl⟩
  | closeBrace =>
      obtain rfl := Option.some.inj hstep
      exact ⟨none, _, closed_closeBrace h, rfl⟩
  | modifier | openBrace | name | finish => cases hstep

theorem completes_closing_cons (hstep : Stage.closing.step token = some next)
    (h : next.Completes tokens) : Closed (token :: tokens) := by
  cases token with
  | char | escaped =>
      obtain rfl := Option.some.inj hstep
      exact Closed.cons h trivial
  | closeBrace =>
      obtain rfl := Option.some.inj hstep
      exact closed_closeBrace h
  | modifier | openBrace | name | pattern | finish => cases hstep

/-- Where a quantifier is no way on, it makes no difference that one might have followed. -/
theorem step_quantifiable (h : ∀ quantifier, token ≠ .modifier quantifier) :
    Stage.quantifiable.step token = Stage.outside.step token := by
  cases token with
  | modifier quantifier => exact absurd rfl (h quantifier)
  | _ => rfl

theorem completes_quantifiable_cons (hstep : Stage.quantifiable.step token = some next)
    (h : next.Completes tokens) : Quantified (token :: tokens) := by
  by_cases hmodifier : ∃ quantifier, token = .modifier quantifier
  · obtain ⟨quantifier, rfl⟩ := hmodifier
    obtain rfl := Option.some.inj hstep
    exact ⟨some quantifier, tokens, h, rfl⟩
  · rw [step_quantifiable fun quantifier heq => hmodifier ⟨quantifier, heq⟩] at hstep
    exact .of_sentence (completes_outside_cons hstep h)

/-- What is read up to the end completes a pattern. -/
theorem completes_of_run (h : stage.run tokens = some .ended) : stage.Completes tokens := by
  induction tokens generalizing stage with
  | nil =>
      obtain rfl := Option.some.inj h
      rfl
  | cons token tokens ih =>
      rw [run_cons] at h
      obtain ⟨next, hstep, hrun⟩ := Option.bind_eq_some_iff.1 h
      cases stage with
      | outside => exact completes_outside_cons hstep (ih hrun)
      | quantifiable => exact completes_quantifiable_cons hstep (ih hrun)
      | opened => exact completes_opened_cons hstep (ih hrun)
      | named => exact completes_named_cons hstep (ih hrun)
      | closing => exact completes_closing_cons hstep (ih hrun)
      | ended => cases hstep

/-- There is a way on to the end from every stage. -/
theorem exists_run_ended (stage : Stage) : ∃ tokens, stage.run tokens = some .ended := by
  cases stage with
  | outside | quantifiable => exact ⟨[.finish], rfl⟩
  | opened | named | closing => exact ⟨[.closeBrace, .finish], rfl⟩
  | ended => exact ⟨[], rfl⟩

end Stage

section Sentences

variable {tokens : List Token}

/-- Tokens are a pattern if and only if they are read up to the end. -/
theorem sentence_iff_run : Sentence tokens ↔ Stage.outside.run tokens = some .ended :=
  ⟨fun h => Stage.run_of_sentence h (.inl rfl), Stage.completes_of_run⟩

/-- Tokens are the beginning of a pattern if and only if they are read. -/
theorem viable_iff_run : Viable tokens ↔ ∃ stage, Stage.outside.run tokens = some stage := by
  constructor
  · rintro ⟨rest, hrest⟩
    rw [sentence_iff_run, Stage.run_append] at hrest
    obtain ⟨stage, hstage, -⟩ := Option.bind_eq_some_iff.1 hrest
    exact ⟨stage, hstage⟩
  · rintro ⟨stage, hstage⟩
    obtain ⟨rest, hrest⟩ := stage.exists_run_ended
    refine ⟨rest, sentence_iff_run.2 ?_⟩
    rw [Stage.run_append_of_run hstage, hrest]

end Sentences

end Waymark.Pattern
