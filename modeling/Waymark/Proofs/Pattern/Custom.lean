import Waymark.Proofs.Pattern.Guarding
import Waymark.Proofs.Pattern.Tokens
/-!
Custom expressions that are groups of their own.

The tokens of a route pattern count the parentheses of a custom expression wherever they stand, its
readers only those outside classes and comments. An expression is `SelfContained` if they agree on
where it ends: in parentheses it is one group, which the last parenthesis closes and no earlier one.
Such an expression is read alike in the groups that a parameter puts it in (`exists_embeds`),
and no group in it captures.
-/

namespace Waymark.Pattern

open Regex.Token (Anything Balanced Captureless Ends Fresh Item Place Reads Walk)

/-- In parentheses an expression is one group, closed by the last parenthesis. -/
def SelfContained (text : List Char) : Prop :=
  ∃ tokens, Walk .start (captured text) (capturing tokens) [] ∧ Balanced tokens

/-- What may stand for the custom expression of a parameter: it is not empty, does not begin with a
question mark, and its parentheses open no group that captures. -/
structure Spliceable (text : List Char) : Prop where
  ne_nil : text ≠ []
  no_question : text.head? ≠ some '?'
  guarded : Guarded text

theorem spliceable_of_readPattern {start : Nat} {cs text rest : List Char}
    (h : readPattern start cs = .ok (text, rest)) : Spliceable text := by
  have hcs := readPattern_eq_ok h
  unfold readPattern at h
  split at h
  · exact absurd h (by simp)
  · next hquestion =>
    split at h
    · exact absurd h (by simp)
    · next hempty =>
      refine ⟨?_, ?_, guarded_of_readGroup h⟩
      · rintro rfl
        exact hempty rest h
      · intro hhead
        obtain ⟨tail, rfl⟩ := List.head?_eq_some_iff.1 hhead
        exact hquestion (tail ++ ')' :: rest) hcs

theorem hasCustom_cons {lexeme : Lexeme} {lexemes : List Lexeme} {text : List Char}
    (h : HasCustom (lexeme :: lexemes) text) :
    lexeme.token = .pattern text ∨ HasCustom lexemes text := by
  obtain ⟨other, hmem, hother⟩ := h
  rcases List.mem_cons.1 hmem with rfl | hmem
  · exact .inl hother
  · exact .inr ⟨other, hmem, hother⟩

/-- Every custom expression among the tokens of a pattern has been read as one. -/
theorem spliceable_of_hasCustom {cs : List Char} {index : Nat} {lexemes : List Lexeme}
    (h : tokenizeFrom cs index = .ok lexemes) {text : List Char}
    (hcustom : HasCustom lexemes text) : Spliceable text := by
  fun_induction tokenizeFrom cs index generalizing lexemes
  case case1 =>
    rw [← Except.ok.inj h] at hcustom
    obtain ⟨lexeme, hmem, hlexeme⟩ := hcustom
    rw [List.mem_singleton.1 hmem] at hlexeme
    exact absurd hlexeme (by simp)
  case case2 | case6 | case8 | case9 => exact absurd h (by simp)
  case case10 hread ih =>
    obtain ⟨others, hothers, h⟩ := bind_eq_ok_iff.1 h
    rw [← Except.ok.inj h] at hcustom
    rcases hasCustom_cons hcustom with heq | hcustom
    · obtain rfl := Token.pattern.inj heq
      exact spliceable_of_readPattern hread
    · exact ih hothers hcustom
  case case11 c rest _ _ _ _ _ _ token ih =>
    obtain ⟨others, hothers, h⟩ := bind_eq_ok_iff.1 h
    rw [← Except.ok.inj h] at hcustom
    refine ih hothers ((hasCustom_cons hcustom).resolve_left ?_)
    simp only [token]
    split <;> simp
  case case3 ih | case4 ih | case5 ih | case7 ih =>
    obtain ⟨others, hothers, h⟩ := bind_eq_ok_iff.1 h
    rw [← Except.ok.inj h] at hcustom
    exact ih hothers ((hasCustom_cons hcustom).resolve_left (by simp))

/-- A custom expression is one token. -/
theorem tokenizeFrom_custom {index : Nat} {cs text rest : List Char} {lexemes : List Lexeme}
    (hread : readPattern index cs = .ok (text, rest))
    (hrest : tokenizeFrom rest (index + text.length + 2) = .ok lexemes) :
    tokenizeFrom ('(' :: cs) index = .ok (⟨.pattern text, index⟩ :: lexemes) := by
  rw [tokenizeFrom]
  split
  · next h =>
    rw [hread] at h
    exact absurd h (by simp)
  · next h =>
    rw [hread] at h
    obtain ⟨rfl, rfl⟩ := Prod.mk.inj (Except.ok.inj h)
    rw [hrest]
    rfl

/-- A custom expression without a name is a parameter of its own. -/
theorem ofLexemes_custom (options : Options) (text : List Char) (index next : Nat)
    {rest : List Lexeme} (hrest : Segment.takeQuantifier rest = (none, rest)) :
    Segment.ofLexemes options (⟨.pattern text, index⟩ :: rest) [] next =
      (do
        let segments ← Segment.ofLexemes options rest [] (next + 1)
        return .key ⟨.position next, [], [], text, none⟩ :: segments) := by
  conv => lhs; unfold Segment.ofLexemes
  simp only [Segment.takeChar, Segment.takeName, Segment.takePattern, hrest, Option.isSome_some,
    Option.isSome_none, Bool.false_eq_true, or_true, ↓reduceDIte, ↓reduceIte]
  rfl

theorem ofLexemes_finish (options : Options) (index next : Nat) :
    Segment.ofLexemes options [⟨.finish, index⟩] [] next = .ok [] := by
  simp [Segment.ofLexemes, Segment.takeChar, Segment.takeName, Segment.takePattern,
    Segment.flush]

section Alone

variable {text : List Char}

/-- A custom expression at the end of a pattern. -/
theorem tokenizeFrom_captured {index : Nat}
    (hread : readPattern index (text ++ [')']) = .ok (text, [])) :
    tokenizeFrom (captured text) index =
      .ok [⟨.pattern text, index⟩, ⟨.finish, index + text.length + 2⟩] := by
  refine tokenizeFrom_custom hread ?_
  rw [tokenizeFrom]

/-- A custom expression that is all of a pattern is its one parameter. -/
theorem parse_captured (options : Options)
    (hread : readPattern 0 (text ++ [')']) = .ok (text, [])) :
    parse (captured text) options = .ok [.key ⟨.position 0, [], [], text, none⟩] := by
  rw [parse, tokenize, tokenizeFrom_captured hread]
  change Segment.ofLexemes options _ [] 0 = _
  rw [ofLexemes_custom _ _ _ _ rfl, ofLexemes_finish]
  rfl

end Alone

section Splicing

variable {text : List Char} {tokens : List Regex.Token}

/-- A parenthesis opens a group that captures and has no name unless a question mark follows. -/
theorem eq_of_openingToken? {verbose : Bool} {cs rest : List Char}
    (h : Regex.Token.openingToken? verbose cs = some (.opening (.capture none), rest)) :
    rest = cs ∧ cs.head? ≠ some '?' := by
  unfold Regex.Token.openingToken? at h
  split at h
  case h_7 =>
    split at h
    · split at h
      · exact absurd h (by simp)
      · exact absurd h (by simp)
    · exact absurd h (by simp)
  case h_9 => exact absurd (captures_of_readSwitches h) (by simp [Regex.Token.captures])
  case h_10 hquestion =>
    refine ⟨(Prod.mk.inj (Option.some.inj h)).2.symm, fun hhead => ?_⟩
    obtain ⟨tail, rfl⟩ := List.head?_eq_some_iff.1 hhead
    exact hquestion tail rfl
  all_goals exact absurd h (by simp)

/-- What a walk passes over before its first token does not matter to it. -/
theorem walk_iff_of_pass? {place : Place} {cs passed rest : List Char} (hne : tokens ≠ [])
    (hverbose : place.flags.verbose = false)
    (hpass : Regex.Token.pass? false .between cs = some passed) :
    Walk place cs tokens rest ↔ Walk place passed tokens rest := by
  rw [← hverbose] at hpass
  have hsolid := Regex.Token.solid_of_pass? hpass
  constructor
  · intro h
    cases h with
    | nil => exact absurd rfl hne
    | cons hpassed hnext hwalk =>
        obtain rfl := Option.some.inj (hpass.symm.trans hpassed)
        exact .cons hsolid hnext hwalk
  · intro h
    cases h with
    | nil => exact absurd rfl hne
    | cons hpassed hnext hwalk =>
        obtain rfl := Option.some.inj (hsolid.symm.trans hpassed)
        exact .cons hpass hnext hwalk

/-- A custom expression is read as given tokens up to the parenthesis that closes the group it
stands in, whatever follows. -/
structure SplicedAs (text : List Char) (tokens : List Regex.Token) : Prop where
  balanced : Balanced tokens
  captureless : Captureless tokens
  opens : ∀ rest : List Char, ∃ passed,
    Regex.Token.pass? false .between (text ++ ')' :: rest) = some passed ∧ passed.head? ≠ some '?'
  walk : ∀ (place : Place) (rest : List Char), place.flags.verbose = false →
    place.afterItem = false → Walk place (text ++ ')' :: rest) (tokens ++ [.closing]) rest

/-- What is read of a custom expression after its opening parenthesis. -/
theorem walk_of_captured (h : Spliceable text)
    (hwalk : Walk .start (captured text) (capturing tokens) []) :
    Walk ⟨false, .none, [.none]⟩ (text ++ [')']) (tokens ++ [.closing]) [] ∧
      ∃ body, Regex.Token.pass? false .between (text ++ [')']) = some body ∧ Ends body ∧
        body.head? ≠ some '?' := by
  have hsource : Regex.Token.pass? false .between ('(' :: (text ++ [')'])) =
      some ('(' :: (text ++ [')'])) := by
    refine Regex.Token.pass?_open fun hhead => h.no_question ?_
    obtain ⟨c, tail, rfl⟩ := List.exists_cons_of_ne_nil h.ne_nil
    exact hhead
  cases hwalk with
  | @cons _ _ _ next _ _ _ hpass hnext hinside =>
      obtain rfl := Option.some.inj (hsource.symm.trans hpass)
      obtain ⟨inner, passed, heq, hgap, hopening⟩ := exists_of_captures hnext rfl
      obtain rfl := (List.cons.inj heq).2
      obtain ⟨rfl, hquestion⟩ := eq_of_openingToken? hopening
      obtain ⟨body, rfl, hbody⟩ := Walk.exists_ends hinside
      rw [List.append_nil] at hgap hinside hquestion
      exact ⟨(walk_iff_of_pass? (by simp) rfl hgap).2 hinside, body, hgap, hbody, hquestion⟩

/-- A custom expression that is a group of its own is read alike in every group. -/
theorem exists_splicedAs (hself : SelfContained text) (h : Spliceable text) :
    ∃ tokens, SplicedAs text tokens := by
  obtain ⟨tokens, hwalk, hbalanced⟩ := hself
  obtain ⟨hopened, body, hgap, hbody, hquestion⟩ := walk_of_captured h hwalk
  rw [← List.append_nil (text ++ [')'])] at hopened hgap
  rw [← List.append_nil body] at hgap
  have hreads : ∀ (place : Place) (rest : List Char), place.flags.verbose = false →
      place.afterItem = false → Walk place (text ++ ')' :: rest) (tokens ++ [.closing]) rest := by
    intro place rest hverbose hitem
    have halike : Regex.Token.Alike 0 ⟨false, .none, [.none]⟩ place :=
      ⟨hitem.symm, hverbose.symm, [], [], [.none], place.outer, rfl, rfl, rfl, rfl⟩
    rw [List.append_cons]
    exact hopened.replace halike (Option.isSome_iff_exists.2 ⟨0, hbalanced⟩) rest
  have hcaptureless : Captureless (tokens ++ [.closing]) :=
    h.guarded.captureless (List.cons_ne_nil 'a' []) (hreads ⟨false, .none, []⟩ ['a'] rfl rfl)
  refine ⟨tokens, hbalanced, ?_, fun rest => ⟨body ++ rest, ?_, ?_⟩, hreads⟩
  · exact fun token htoken => hcaptureless token (List.mem_append_left _ htoken)
  · rw [List.append_cons]
    exact Regex.Token.pass?_replace hgap hbody rest
  · obtain ⟨c, tail, rfl⟩ := List.exists_cons_of_ne_nil hbody.ne_nil
    exact hquestion

/-- A text whose walks go over all of it is read as their tokens. -/
theorem reads_of_walk {place : Place}
    (h : ∀ rest : List Char, Walk place (text ++ rest) tokens rest) :
    Reads Anything place text tokens where
  length_le := by
    have hle := (h []).length_add_le
    rwa [List.append_nil, List.length_nil, Nat.add_zero] at hle
  walk rest _ := h rest

namespace SplicedAs

theorem item_captured (h : SplicedAs text tokens) (hsplice : Spliceable text) :
    Item (captured text) (capturing tokens) := by
  have hquestion : (text ++ [')']).head? ≠ some '?' := by
    obtain ⟨c, tail, rfl⟩ := List.exists_cons_of_ne_nil hsplice.ne_nil
    exact hsplice.no_question
  refine ⟨Regex.Token.firm_open (by simp) hquestion, fun place hplain => ?_,
    Regex.Token.afterAll_group h.balanced _⟩
  refine reads_of_walk fun rest => ?_
  obtain ⟨passed, hpass, hpassed⟩ := h.opens rest
  have hverbose : (place.after (.opening (.capture none))).flags.verbose = false := hplain.1
  have hinside := h.walk _ rest hverbose rfl
  rw [walk_iff_of_pass? (by simp) hverbose hpass] at hinside
  have hfront := Regex.Token.pass?_open (show (text ++ ')' :: rest).head? ≠ some '?' by
    obtain ⟨c, tail, rfl⟩ := List.exists_cons_of_ne_nil hsplice.ne_nil
    exact hsplice.no_question)
  rw [← hplain.1] at hfront
  rw [captured, List.append_assoc]
  exact .cons hfront (Regex.Token.next?_capture hplain.1 hpass hpassed) hinside

theorem item_enclosed (h : SplicedAs text tokens) : Item (enclose text) (grouped tokens) := by
  refine ⟨Regex.Token.firm_open_question (by decide) _, fun place hplain => ?_,
    Regex.Token.afterAll_group h.balanced _⟩
  refine reads_of_walk fun rest => ?_
  have hopening := (Regex.Token.reads_open hplain.1).walk (text ++ ')' :: rest) trivial
  have hinside := h.walk (place.after (.opening (.plain []))) rest hplain.1 rfl
  rw [enclose, List.append_assoc, List.append_assoc]
  exact hopening.append hinside

end SplicedAs

/-- The expression of a value is read as given tokens in a group that captures and in one that does
not; they close the groups that they open, none of which captures. -/
structure Key.Embeds (key : Key) (tokens : List Regex.Token) : Prop where
  captured : Item (captured key.pattern) (capturing tokens)
  enclosed : Item (enclose key.pattern) (grouped tokens)
  balanced : Balanced tokens
  captureless : Captureless tokens

theorem Key.Embeds.readsValue {key : Key} (h : key.Embeds tokens) : key.ReadsValue tokens := by
  unfold Key.ReadsValue
  split
  · exact h.enclosed
  · exact h.captured

theorem embeds_defaultPattern {key : Key} {options : Options}
    (h : key.pattern = options.defaultPattern) : key.Embeds options.defaultTokens := by
  have hpiece := piece_defaultPattern options
  refine ⟨?_, ?_, rfl, ?_⟩
  · rw [h]
    refine hpiece.captured ?_
    unfold Options.defaultPattern
    split <;> simp
  · rw [h]
    exact hpiece.enclosed
  · simp [Captureless, Options.defaultTokens, Regex.Token.captures]

/-- A custom expression that is a group of its own is read as such wherever it stands. -/
theorem exists_embeds {key : Key} (hself : SelfContained key.pattern)
    (hsplice : Spliceable key.pattern) : ∃ tokens, key.Embeds tokens := by
  obtain ⟨tokens, htokens⟩ := exists_splicedAs hself hsplice
  exact ⟨tokens, htokens.item_captured hsplice, htokens.item_enclosed, htokens.balanced,
    htokens.captureless⟩

end Splicing

end Waymark.Pattern
