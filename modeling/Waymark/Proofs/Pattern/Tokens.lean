import Waymark.Proofs.Pattern.Spelling
/-!
The tokens of the expression of a route pattern.

The expression of a parameter has one group that captures. What stands inside it is `Key.inside`;
around it come the text before and after the values and, if the parameter may be absent, a question
mark. The tokens of the whole are put together in the same way from those of the expressions of the
parameters, which are given.
-/

namespace Waymark.Pattern

open Regex.Token (Item Piece Reads Fresh firm_cons)

/-- The tokens of a group that captures nothing. -/
def grouped (tokens : List Regex.Token) : List Regex.Token :=
  .opening (.plain []) :: tokens ++ [.closing]

/-- The tokens of a group that captures. -/
def capturing (tokens : List Regex.Token) : List Regex.Token :=
  .opening (.capture none) :: tokens ++ [.closing]

/-- The tokens of a condition on what follows. -/
def lookingAhead (tokens : List Regex.Token) : List Regex.Token :=
  .opening (.ahead false) :: tokens ++ [.closing]

namespace Quantifier

/-- How often at least. -/
def least : Quantifier → Nat
  | .optional | .zeroOrMore => 0
  | .oneOrMore => 1

/-- How often at most, if there is a bound. -/
def most : Quantifier → Option Nat
  | .optional => some 1
  | .zeroOrMore | .oneOrMore => none

/-- The token of a quantifier. -/
def token (quantifier : Quantifier) : Regex.Token :=
  .quantifier quantifier.least quantifier.most false false

/-- The tokens of a quantifier or its absence. -/
def tokens : Option Quantifier → List Regex.Token
  | none => []
  | some quantifier => [quantifier.token]

end Quantifier

/-- An item and the quantifier of a pattern, if there is one. -/
theorem piece_quantified {text : List Char} {tokens : List Regex.Token} (h : Item text tokens)
    (quantifier : Option Quantifier) :
    Piece (text ++ Quantifier.text quantifier) (tokens ++ Quantifier.tokens quantifier) := by
  cases quantifier with
  | none =>
      simp only [Quantifier.text, Quantifier.tokens, List.append_nil]
      exact h.piece
  | some quantifier =>
      refine h.quantified fun place hplain hitem => ?_
      refine Regex.Token.reads_quantifier hplain.1 hitem ?_
      cases quantifier <;> simp [Quantifier.char, Quantifier.least, Quantifier.most]

namespace Key

/-- Whether no text stands around the values. -/
def isBare (key : Key) : Bool :=
  key.before.isEmpty && key.after.isEmpty

/-- What the group of a parameter captures, as text. -/
def inside (key : Key) : List Char :=
  if key.repeats then
    if key.isBare then enclose key.pattern ++ Quantifier.text key.quantifier
    else
      enclose key.pattern ++
        (enclose (escape key.after ++ escape key.before ++ enclose key.pattern) ++ ['*'])
  else key.pattern

/-- The quantifier after the group of a parameter and the text around it. -/
def outer (key : Key) : Option Quantifier :=
  if key.repeats && key.isBare then none
  else if key.mayBeAbsent then some .optional
  else none

/-- The group of a parameter with the text around it. -/
def framed (key : Key) : List Char :=
  if key.isBare then captured key.inside
  else enclose (escape key.before ++ captured key.inside ++ escape key.after)

theorem expression_eq (key : Key) : key.expression = key.framed ++ Quantifier.text key.outer := by
  obtain ⟨name, before, after, pattern, quantifier⟩ := key
  unfold expression framed inside outer isBare repeats mayBeAbsent
  cases before <;> cases after <;> rcases quantifier with _ | _ | _ | _ <;>
    simp [Quantifier.text, Quantifier.char, Quantifier.repeats, Quantifier.mayBeAbsent]

/-- What the group of a parameter captures, as tokens. -/
def insideTokens (key : Key) (value : List Regex.Token) : List Regex.Token :=
  if key.repeats then
    if key.isBare then grouped value ++ Quantifier.tokens key.quantifier
    else
      grouped value ++
        (grouped (spelled key.after ++ spelled key.before ++ grouped value) ++
          [Quantifier.zeroOrMore.token])
  else value

/-- The tokens of the group of a parameter with the text around it. -/
def framedTokens (key : Key) (value : List Regex.Token) : List Regex.Token :=
  if key.isBare then capturing (key.insideTokens value)
  else
    grouped (spelled key.before ++ capturing (key.insideTokens value) ++ spelled key.after)

/-- The tokens of a parameter, given those of the expression of a value. -/
def tokens (key : Key) (value : List Regex.Token) : List Regex.Token :=
  key.framedTokens value ++ Quantifier.tokens key.outer

/-- The expression of a value is read as given tokens in the group that the parameter puts it in,
and its parentheses are their own. -/
def ReadsValue (key : Key) (value : List Regex.Token) : Prop :=
  if key.repeats then Item (enclose key.pattern) (grouped value)
  else Item (captured key.pattern) (capturing value)

theorem item_captured {key : Key} {value : List Regex.Token} (h : key.ReadsValue value) :
    Item (captured key.inside) (capturing (key.insideTokens value)) := by
  unfold ReadsValue at h
  unfold inside insideTokens
  split at h
  · next hrepeats =>
    rw [if_pos hrepeats, if_pos hrepeats]
    split
    · exact (piece_quantified h key.quantifier).captured (by simp [enclose])
    · have hfurther := ((piece_escape key.after).append (piece_escape key.before)).append h.piece
      have hloop := piece_quantified hfurther.enclosed (some .zeroOrMore)
      exact (h.piece.append hloop).captured (by simp [enclose])
  · next hrepeats =>
    rw [if_neg hrepeats, if_neg hrepeats]
    exact h

theorem item_framed {key : Key} {value : List Regex.Token} (h : key.ReadsValue value) :
    Item key.framed (key.framedTokens value) := by
  have hcaptured := item_captured h
  unfold framed framedTokens
  split
  · exact hcaptured
  · exact (((piece_escape key.before).append hcaptured.piece).append
      (piece_escape key.after)).enclosed

theorem piece_expression {key : Key} {value : List Regex.Token} (h : key.ReadsValue value) :
    Piece key.expression (key.tokens value) := by
  rw [expression_eq]
  exact piece_quantified (item_framed h) key.outer

/-- A value that is not otherwise described. -/
theorem readsValue_defaultPattern {key : Key} {options : Options}
    (h : key.pattern = options.defaultPattern) : key.ReadsValue options.defaultTokens := by
  have hpiece := piece_defaultPattern options
  unfold ReadsValue
  rw [h]
  split
  · exact hpiece.enclosed
  · refine hpiece.captured ?_
    unfold Options.defaultPattern
    split <;> simp

end Key

section Whole

variable (value : Key → List Regex.Token)

/-- The tokens of a segment, given those of the expressions of values. -/
def Segment.tokens : Segment → List Regex.Token
  | .literal text => spelled text
  | .key parameter => parameter.tokens (value parameter)
  | .group before after quantifier =>
      grouped (spelled before ++ spelled after) ++ Quantifier.tokens quantifier

/-- The tokens of what may end a match. -/
def Options.terminatorTokens (options : Options) : List Regex.Token :=
  if options.endsWith.isEmpty then [.finish]
  else [.set (classSet false options.endsWith)] ++ [.bar, .finish]

/-- The tokens of the end of an expression. -/
def tailTokens (segments : List Segment) (options : Options) : List Regex.Token :=
  let delimited := !options.delimiter.isEmpty
  let delimiter := [.set (classSet false options.delimiter)]
  if options.atEnd then
    (if delimited && !options.strict then delimiter ++ [Quantifier.optional.token] else []) ++
      (if options.endsWith.isEmpty then [.finish] else lookingAhead options.terminatorTokens)
  else
    (if delimited && !options.strict then
      grouped (delimiter ++ lookingAhead options.terminatorTokens) ++ [Quantifier.optional.token]
      else []) ++
      (if endsDelimited segments options then []
        else
          lookingAhead ((if delimited then delimiter ++ [.bar] else []) ++ options.terminatorTokens))

/-- The tokens of the expression of segments. -/
def expressionTokens (segments : List Segment) (options : Options) : List Regex.Token :=
  (if options.atStart then [.start] else []) ++ segments.flatMap (Segment.tokens value) ++
    tailTokens segments options

/-- The tokens of alternatives. -/
def alternativesTokens (branches : List (List Regex.Token)) : List Regex.Token :=
  grouped (List.intercalate [.bar] branches)

/-- The tokens of an expression with the switch for case. -/
def caseTokens (options : Options) (tokens : List Regex.Token) : List Regex.Token :=
  if options.sensitive then tokens else .switches [(.caseless, true)] :: tokens

variable {value}

theorem item_sign {c : Char} {token : Regex.Token} (hc : c ≠ '(' ∧ c ≠ '?' ∧ c ≠ '+')
    (hsign : (c, token) ∈ [(')', .closing), ('|', .bar), ('^', .start), ('$', .finish)])
    (hends : token = .start ∨ token = .finish) : Item [c] [token] := by
  refine Item.single (firm_cons hc []) (fun place hplain => ?_) fun place => ?_
  · exact Regex.Token.reads_sign hplain.1 hsign
  · rcases hends with rfl | rfl <;> rfl

theorem piece_start : Piece ['^'] [.start] :=
  (item_sign (by decide) (by simp) (.inl rfl)).piece

theorem piece_finish : Piece ['$'] [.finish] :=
  (item_sign (by decide) (by simp) (.inr rfl)).piece

theorem piece_bar : Piece ['|'] [.bar] where
  leads := (firm_cons (by decide) []).leads
  reads place hplain := (Regex.Token.reads_sign hplain.1 (by simp)).weaken fun _ _ => trivial
  settles place := ⟨false, rfl⟩

theorem piece_segment {segment : Segment}
    (h : ∀ key, segment = .key key → key.ReadsValue (value key)) :
    Piece segment.expression (segment.tokens value) := by
  cases segment with
  | literal text => exact piece_escape text
  | key key => exact Key.piece_expression (h key rfl)
  | group before after quantifier =>
      exact piece_quantified ((piece_escape before).append (piece_escape after)).enclosed quantifier

theorem piece_terminator (options : Options) :
    Piece options.terminator options.terminatorTokens := by
  unfold Options.terminator Options.terminatorTokens
  split
  · exact piece_finish
  · next hne =>
    exact (item_classOf (by simpa using hne)).piece.append (piece_bar.append piece_finish)

theorem piece_optional {condition : Bool} {text : List Char} {tokens : List Regex.Token}
    (h : condition = true → Piece text tokens) :
    Piece (if condition then text else []) (if condition then tokens else []) := by
  cases condition with
  | true => exact h rfl
  | false => exact Piece.nil

theorem piece_tail (segments : List Segment) (options : Options) :
    Piece (tailExpression segments options) (tailTokens segments options) := by
  have hterminator := piece_terminator options
  have hdelimiter : (!options.delimiter.isEmpty) = true →
      Item (classOf options.delimiter) [.set (classSet false options.delimiter)] :=
    fun h => item_classOf (by simpa using h)
  unfold tailExpression tailTokens
  split
  · refine (piece_optional fun h => ?_).append ?_
    · exact piece_quantified (hdelimiter (Bool.and_eq_true_iff.1 h).1) (some .optional)
    · split
      · exact piece_finish
      · exact hterminator.lookedAhead.piece
  · refine (piece_optional fun h => ?_).append ?_
    · have hclass := hdelimiter (Bool.and_eq_true_iff.1 h).1
      exact piece_quantified (hclass.piece.append hterminator.lookedAhead.piece).enclosed
        (some .optional)
    · split
      · exact Piece.nil
      · have hfront := piece_optional fun h => (hdelimiter h).piece.append piece_bar
        exact (hfront.append hterminator).lookedAhead.piece

/-- The expression of segments is read as its tokens. -/
theorem piece_whole {segments : List Segment} (options : Options)
    (h : ∀ key ∈ Segment.keys segments, key.ReadsValue (value key)) :
    Piece (expression segments options) (expressionTokens value segments options) := by
  refine ((piece_optional fun _ => piece_start).append ?_).append (piece_tail segments options)
  refine Piece.flatMap fun segment hsegment => piece_segment fun key hkey => h key ?_
  rw [Segment.keys, List.mem_filterMap]
  exact ⟨segment, hsegment, by rw [hkey]⟩

theorem piece_intercalate {α : Type} {items : List α} {text : α → List Char}
    {tokens : α → List Regex.Token} (h : ∀ item ∈ items, Piece (text item) (tokens item)) :
    Piece (List.intercalate ['|'] (items.map text))
      (List.intercalate [.bar] (items.map tokens)) := by
  induction items with
  | nil => exact Piece.nil
  | cons item items ih =>
      have hitem := h item List.mem_cons_self
      cases items with
      | nil => simpa using hitem
      | cons other items =>
          have hrest := ih fun item hitem => h item (List.mem_cons_of_mem _ hitem)
          simp only [List.map_cons, List.intercalate_cons_cons] at hrest ⊢
          exact (hitem.append piece_bar).append hrest

theorem piece_alternatives {α : Type} {items : List α} {text : α → List Char}
    {tokens : α → List Regex.Token} (h : ∀ item ∈ items, Piece (text item) (tokens item)) :
    Piece (alternatives (items.map text)) (alternativesTokens (items.map tokens)) :=
  (piece_intercalate h).enclosed.piece

/-- An expression and its switch for case are read as their tokens. -/
theorem ofChars?_withCase (options : Options) {text : List Char} {tokens : List Regex.Token}
    (h : Piece text tokens) :
    Regex.Token.ofChars? (withCase options text) = some (caseTokens options tokens) := by
  unfold withCase caseTokens
  split
  · exact h.ofChars?
  · exact h.ofChars?_caseless

end Whole

end Waymark.Pattern
