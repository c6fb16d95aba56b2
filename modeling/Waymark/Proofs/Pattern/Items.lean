import Waymark.Pattern.Matcher
import Waymark.Proofs.Pattern.Tokens
import Waymark.Proofs.Regex.Assembling
/-!
The expression of a route pattern whose parameters name no expression of their own.

Reading the generated text gives a row of items: one for each character of a literal, and one for
each parameter and each group. `compile?_expression` says so for a pattern that is anchored at both
ends of the path.
-/

namespace Waymark.Pattern

open Regex (Adds Expr row)

/-- The switches that are on in the expression of a pattern. -/
def Options.flags (options : Options) : Regex.Flags :=
  Regex.Flags.none.set .caseless (!options.sensitive)

/-- The items of text that stands for itself. -/
def Options.textItems (options : Options) (text : List Char) : List Expr :=
  text.map fun c => .set (.single c) (!options.sensitive)

/-- The item of a value: characters that are no delimiters, as few as possible. -/
def Options.valueItem (options : Options) : Expr :=
  .loop (.set options.valueSet (!options.sensitive)) 1 none false

/-- An item with a quantifier, if there is one. -/
def quantifiedItem (quantifier : Option Quantifier) (item : Expr) : Expr :=
  match quantifier with
  | none => item
  | some quantifier => .loop item quantifier.least quantifier.most true

namespace Key

/-- The items that the group of a parameter captures. -/
def insideItems (options : Options) (key : Key) : List Expr :=
  if key.repeats then
    if key.isBare then [quantifiedItem key.quantifier options.valueItem]
    else
      [options.valueItem,
        quantifiedItem (some .zeroOrMore)
          (row (options.textItems key.after ++ options.textItems key.before ++
            [options.valueItem]))]
  else [options.valueItem]

/-- The item of the group of a parameter, given the number of groups before it. -/
def groupItem (options : Options) (key : Key) (index : Nat) : Expr :=
  .group (index + 1) (row (key.insideItems options))

/-- The item of a parameter but for the last quantifier. -/
def framedItem (options : Options) (key : Key) (index : Nat) : Expr :=
  if key.isBare then key.groupItem options index
  else
    row (options.textItems key.before ++ [key.groupItem options index] ++
      options.textItems key.after)

/-- The item of a parameter. -/
def item (options : Options) (key : Key) (index : Nat) : Expr :=
  quantifiedItem key.outer (key.framedItem options index)

end Key

namespace Segment

/-- The items of a segment, given the number of groups before it. -/
def items (options : Options) (index : Nat) : Segment → List Expr
  | .literal text => options.textItems text
  | .key parameter => [parameter.item options index]
  | .group before after quantifier =>
      [quantifiedItem quantifier (row (options.textItems before ++ options.textItems after))]

/-- The number of groups that a segment has. -/
def groups : Segment → Nat
  | .key _ => 1
  | _ => 0

/-- A segment that the quantifier after it, if there is one, may follow. -/
def Solid : Segment → Prop
  | .group before after (some _) => before ++ after ≠ []
  | _ => True

/-- The items of segments, given the number of groups before them. -/
def allItems (options : Options) : Nat → List Segment → List Expr
  | _, [] => []
  | index, segment :: segments =>
      segment.items options index ++ allItems options (index + segment.groups) segments

/-- The number of groups that segments have. -/
def allGroups : List Segment → Nat
  | [] => 0
  | segment :: segments => segment.groups + allGroups segments

end Segment

section Adding

variable {options : Options} {depth : Nat}

theorem adds_spelled (options : Options) (depth : Nat) (text : List Char) :
    Adds depth options.flags (spelled text) (fun _ => options.textItems text) 0 := by
  have hsets := Adds.sets depth options.flags (text.map Regex.CharSet.single)
  simp only [List.map_map] at hsets
  rw [spelled, ← List.map_eq_flatMap]
  exact hsets

theorem adds_value (options : Options) (depth : Nat) :
    Adds depth options.flags options.defaultTokens (fun _ => [options.valueItem]) 0 :=
  (Adds.set depth options.flags options.valueSet).quantified (fun _ => rfl) 1 none true

theorem adds_quantified {tokens : List Regex.Token} {item : Nat → Expr} {groups : Nat}
    (h : Adds depth options.flags tokens (fun index => [item index]) groups)
    (quantifier : Option Quantifier)
    (hrepeatable : quantifier = none ∨ ∀ index, (item index).repeatable = true) :
    Adds depth options.flags (tokens ++ Quantifier.tokens quantifier)
      (fun index => [quantifiedItem quantifier (item index)]) groups := by
  cases quantifier with
  | none =>
      rw [Quantifier.tokens, List.append_nil]
      exact h
  | some quantifier =>
      exact h.quantified (hrepeatable.resolve_left (by simp)) quantifier.least quantifier.most false

namespace Key

theorem adds_inside (options : Options) (key : Key) :
    Adds 2 options.flags (key.insideTokens options.defaultTokens)
      (fun _ => key.insideItems options) 0 := by
  have hvalue : ∀ depth, Adds (depth + 1) options.flags (grouped options.defaultTokens)
      (fun _ => [options.valueItem]) 0 :=
    fun depth => (adds_value options depth).grouped
  unfold insideTokens insideItems
  split
  · split
    · exact (adds_quantified (hvalue 0) key.quantifier (.inr fun _ => rfl)).deepen (by decide)
    · have hfurther := ((adds_spelled options 1 key.after).append
        (adds_spelled options 1 key.before)).append (hvalue 0)
      have hrepeatable : (row (options.textItems key.after ++ options.textItems key.before ++
          [options.valueItem])).repeatable = true :=
        Expr.repeatable_row (List.mem_append_right _ List.mem_cons_self) rfl
      exact (hvalue 1).append
        (adds_quantified hfurther.grouped (some .zeroOrMore) (.inr fun _ => hrepeatable))
  · exact adds_value options 2

theorem repeatable_framedItem (options : Options) (key : Key) (index : Nat) :
    (key.framedItem options index).repeatable = true := by
  unfold framedItem
  split
  · rfl
  · exact Expr.repeatable_row
      (List.mem_append_left _ (List.mem_append_right _ List.mem_cons_self)) rfl

theorem adds_tokens (options : Options) (key : Key) :
    Adds 4 options.flags (key.tokens options.defaultTokens)
      (fun index => [key.item options index]) 1 := by
  have hgroup : Adds 3 options.flags (capturing (key.insideTokens options.defaultTokens))
      (fun index => [key.groupItem options index]) 1 :=
    (adds_inside options key).capturing
  have hframed : Adds 4 options.flags (key.framedTokens options.defaultTokens)
      (fun index => [key.framedItem options index]) 1 := by
    unfold framedTokens framedItem
    split
    · exact hgroup.deepen (by decide)
    · exact (((adds_spelled options 3 key.before).append hgroup).append
        (adds_spelled options 3 key.after)).grouped
  exact adds_quantified hframed key.outer (.inr (repeatable_framedItem options key))

end Key

namespace Segment

theorem repeatable_textRow {before after : List Char} (hne : before ++ after ≠ []) :
    (row (options.textItems before ++ options.textItems after)).repeatable = true := by
  obtain ⟨c, rest, htext⟩ := List.exists_cons_of_ne_nil hne
  have hitems : options.textItems before ++ options.textItems after =
      options.textItems (c :: rest) := by
    rw [← htext]
    exact List.map_append.symm
  rw [hitems]
  exact Expr.repeatable_row List.mem_cons_self rfl

theorem adds_tokens {segment : Segment} (hsolid : segment.Solid) :
    Adds 4 options.flags (segment.tokens fun _ => options.defaultTokens)
      (fun index => segment.items options index) segment.groups := by
  cases segment with
  | literal text => exact adds_spelled options 4 text
  | key parameter => exact parameter.adds_tokens options
  | group before after quantifier =>
      have hrow := ((adds_spelled options 3 before).append (adds_spelled options 3 after)).grouped
      refine adds_quantified hrow quantifier ?_
      cases quantifier with
      | none => exact .inl rfl
      | some quantifier => exact .inr fun _ => repeatable_textRow hsolid

/-- An empty group cannot be repeated. -/
theorem addAll?_eq_none {segment : Segment} (hsolid : ¬ segment.Solid)
    {assembly : Regex.Assembly} (hflags : assembly.inner.flags = options.flags)
    (hdepth : assembly.pending.length + 4 < Regex.Assembly.tooDeep) :
    assembly.addAll? (segment.tokens fun _ => options.defaultTokens) = none := by
  cases segment with
  | literal | key => exact absurd trivial hsolid
  | group before after quantifier =>
      cases quantifier with
      | none => exact absurd trivial hsolid
      | some quantifier =>
          obtain ⟨rfl, rfl⟩ : before = [] ∧ after = [] := by simpa [Solid] using hsolid
          have hrow : Adds 4 options.flags (grouped (spelled [] ++ spelled []))
              (fun _ => [row (options.textItems [] ++ options.textItems [])]) 0 :=
            ((adds_spelled options 3 []).append (adds_spelled options 3 [])).grouped
          rw [tokens, Regex.Assembly.addAll?_append, hrow assembly hflags hdepth, Option.bind_some]
          rfl

theorem adds_all {segments : List Segment} (hsolid : ∀ segment ∈ segments, segment.Solid) :
    Adds 4 options.flags (segments.flatMap (Segment.tokens fun _ => options.defaultTokens))
      (fun index => allItems options index segments) (allGroups segments) := by
  induction segments with
  | nil => exact Adds.nil 4 options.flags
  | cons segment segments ih =>
      have hfirst : Adds 4 options.flags (segment.tokens fun _ => options.defaultTokens)
          (fun index => segment.items options index) segment.groups :=
        adds_tokens (hsolid segment List.mem_cons_self)
      have hrest := ih fun other hother => hsolid other (List.mem_cons_of_mem segment hother)
      exact hfirst.append hrest

/-- Segments that can be read are solid. -/
theorem solid_of_addAll? {segments : List Segment} {assembly assembly' : Regex.Assembly}
    (hflags : assembly.inner.flags = options.flags)
    (hdepth : assembly.pending.length + 4 < Regex.Assembly.tooDeep)
    (h : assembly.addAll? (segments.flatMap (Segment.tokens fun _ => options.defaultTokens)) =
      some assembly') : ∀ segment ∈ segments, segment.Solid := by
  induction segments generalizing assembly with
  | nil => exact fun _ hmem => absurd hmem List.not_mem_nil
  | cons segment segments ih =>
      rw [List.flatMap_cons, Regex.Assembly.addAll?_append] at h
      by_cases hsolid : segment.Solid
      · rw [adds_tokens hsolid assembly hflags hdepth, Option.bind_some] at h
        intro other hother
        rcases List.mem_cons.1 hother with rfl | hother
        · exact hsolid
        · exact ih (by exact hflags) (by exact hdepth) h other hother
      · rw [addAll?_eq_none hsolid hflags hdepth] at h
        exact absurd h (by simp)

end Segment

end Adding

section Whole

variable {options : Options} {segments : List Segment}

/-- The items after the segments of a pattern that ends where the path ends. -/
def Options.endItems (options : Options) : List Expr :=
  (if !options.delimiter.isEmpty && !options.strict then
    [quantifiedItem (some .optional)
      (.set (classSet false options.delimiter) (!options.sensitive))] else []) ++
    [.anchor .textEnd]

/-- The items of a pattern that is anchored at both ends of the path. -/
def wholeItems (options : Options) (segments : List Segment) : List Expr :=
  [.anchor .textStart] ++ Segment.allItems options 0 segments ++ options.endItems

/-- A match is the whole path, and nothing else may end it. -/
structure Options.Whole (options : Options) : Prop where
  atStart : options.atStart = true
  atEnd : options.atEnd = true
  endsWith : options.endsWith = []

theorem expressionTokens_of_whole (hwhole : options.Whole) (value : Key → List Regex.Token) :
    expressionTokens value segments options =
      [.start] ++ segments.flatMap (Segment.tokens value) ++
        ((if !options.delimiter.isEmpty && !options.strict then
          [.set (classSet false options.delimiter)] ++ Quantifier.tokens (some .optional) else []) ++
          [.finish]) := by
  simp [expressionTokens, tailTokens, hwhole.atStart, hwhole.atEnd, hwhole.endsWith,
    Quantifier.tokens]

theorem adds_start (options : Options) (depth : Nat) :
    Adds depth options.flags [.start] (fun _ => [.anchor .textStart]) 0 := by
  intro assembly hflags _
  rw [Regex.Assembly.addAll?_singleton, Regex.Assembly.add?, hflags]
  rfl

theorem adds_finish (options : Options) (depth : Nat) :
    Adds depth options.flags [.finish] (fun _ => [.anchor .textEnd]) 0 := by
  intro assembly hflags _
  rw [Regex.Assembly.addAll?_singleton, Regex.Assembly.add?, hflags]
  rfl

theorem adds_end (options : Options) :
    Adds 4 options.flags
      ((if !options.delimiter.isEmpty && !options.strict then
        [.set (classSet false options.delimiter)] ++ Quantifier.tokens (some .optional) else []) ++
        [.finish])
      (fun _ => options.endItems) 0 := by
  unfold Options.endItems
  cases !options.delimiter.isEmpty && !options.strict with
  | true =>
      have hclass := Adds.set 4 options.flags (classSet false options.delimiter)
      exact (adds_quantified hclass (some .optional) (.inr fun _ => rfl)).append
        (adds_finish options 4)
  | false => exact adds_finish options 4

theorem adds_expression (hwhole : options.Whole) (hsolid : ∀ segment ∈ segments, segment.Solid) :
    Adds 4 options.flags (expressionTokens (fun _ => options.defaultTokens) segments options)
      (fun index => [.anchor .textStart] ++ Segment.allItems options index segments ++
        options.endItems) (Segment.allGroups segments) := by
  rw [expressionTokens_of_whole hwhole]
  have h := ((adds_start options 4).append (Segment.adds_all hsolid)).append (adds_end options)
  simpa using h

/-- Before the first segment, with the switch for case read. -/
def Options.opened (options : Options) : Regex.Assembly :=
  ⟨[], ⟨[], if options.sensitive then [] else [.empty], options.flags⟩, [], false⟩

theorem shallow_opened (options : Options) :
    options.opened.pending.length + 4 < Regex.Assembly.tooDeep := by
  simp [Options.opened, Regex.Assembly.tooDeep]

theorem hollow_opened (options : Options) : ∀ item ∈ options.opened.inner.items, item = .empty := by
  unfold Options.opened
  cases options.sensitive <;> simp

theorem addAll?_caseTokens {tokens : List Regex.Token} :
    Regex.Assembly.start.addAll? (caseTokens options tokens) = options.opened.addAll? tokens := by
  unfold caseTokens Options.opened Options.flags
  cases options.sensitive with
  | true => rfl
  | false => rfl

/-- Once the last segment has been read, the expression is a row. -/
theorem finish?_opened (items : List Expr) (groups : Nat) :
    (options.opened.extend items groups).finish? = some (row items) := by
  unfold Options.opened
  cases options.sensitive <;> simp [Regex.Assembly.finish?, Regex.Assembly.extend, Regex.Open.expr,
    Regex.Open.branch, Expr.ofAlternatives, row]

theorem plain_quantifiedItem {item : Expr} (h : item.Plain) (quantifier : Option Quantifier) :
    (quantifiedItem quantifier item).Plain := by
  rcases quantifier with _ | _ | _ | _
  · exact h
  all_goals exact ⟨h.1, by simp [quantifiedItem, Expr.loopsAreOrdered, h.2, Quantifier.most,
    Quantifier.least]⟩

theorem plain_textItems {text : List Char} : ∀ item ∈ options.textItems text, item.Plain := by
  intro item hitem
  obtain ⟨c, _, rfl⟩ := List.mem_map.1 hitem
  exact ⟨rfl, rfl⟩

theorem Key.plain_item (options : Options) (key : Key) (index : Nat) :
    (key.item options index).Plain := by
  have hvalue : options.valueItem.Plain := ⟨rfl, rfl⟩
  have hfurther : (row (options.textItems key.after ++ options.textItems key.before ++
      [options.valueItem])).Plain := by
    refine Expr.plain_row fun item hitem => ?_
    rcases List.mem_append.1 hitem with hitem | hitem
    · rcases List.mem_append.1 hitem with hitem | hitem
      · exact plain_textItems item hitem
      · exact plain_textItems item hitem
    · rw [List.mem_singleton.1 hitem]
      exact hvalue
  have hgroup : (key.groupItem options index).Plain := by
    refine Expr.plain_row fun item hitem => ?_
    unfold insideItems at hitem
    split at hitem
    · split at hitem
      · rw [List.mem_singleton.1 hitem]
        exact plain_quantifiedItem hvalue key.quantifier
      · rcases List.mem_cons.1 hitem with rfl | hitem
        · exact hvalue
        · rw [List.mem_singleton.1 hitem]
          exact plain_quantifiedItem hfurther (some .zeroOrMore)
    · rw [List.mem_singleton.1 hitem]
      exact hvalue
  refine plain_quantifiedItem ?_ key.outer
  unfold framedItem
  split
  · exact hgroup
  · refine Expr.plain_row fun item hitem => ?_
    rcases List.mem_append.1 hitem with hitem | hitem
    · rcases List.mem_append.1 hitem with hitem | hitem
      · exact plain_textItems item hitem
      · rw [List.mem_singleton.1 hitem]
        exact hgroup
    · exact plain_textItems item hitem

theorem Segment.plain_items (options : Options) (segment : Segment) (index : Nat) :
    ∀ item ∈ segment.items options index, item.Plain := by
  intro item hitem
  cases segment with
  | literal text => exact plain_textItems item hitem
  | key parameter =>
      rw [List.mem_singleton.1 hitem]
      exact parameter.plain_item options index
  | group before after quantifier =>
      rw [List.mem_singleton.1 hitem]
      refine plain_quantifiedItem (Expr.plain_row fun item hitem => ?_) quantifier
      rcases List.mem_append.1 hitem with hitem | hitem
      · exact plain_textItems item hitem
      · exact plain_textItems item hitem

theorem Segment.plain_allItems (options : Options) (segments : List Segment) (index : Nat) :
    ∀ item ∈ allItems options index segments, item.Plain := by
  induction segments generalizing index with
  | nil => exact fun _ hitem => absurd hitem List.not_mem_nil
  | cons segment segments ih =>
      intro item hitem
      rcases List.mem_append.1 hitem with hitem | hitem
      · exact segment.plain_items options index item hitem
      · exact ih (index + segment.groups) item hitem

theorem plain_wholeItems (options : Options) (segments : List Segment) :
    ∀ item ∈ wholeItems options segments, item.Plain := by
  intro item hitem
  rcases List.mem_append.1 hitem with hitem | hitem
  · rcases List.mem_append.1 hitem with hitem | hitem
    · rw [List.mem_singleton.1 hitem]
      exact ⟨rfl, rfl⟩
    · exact Segment.plain_allItems options segments 0 item hitem
  · unfold Options.endItems at hitem
    rcases List.mem_append.1 hitem with hitem | hitem
    · split at hitem
      · rw [List.mem_singleton.1 hitem]
        exact plain_quantifiedItem ⟨rfl, rfl⟩ (some .optional)
      · exact absurd hitem List.not_mem_nil
    · rw [List.mem_singleton.1 hitem]
      exact ⟨rfl, rfl⟩

/-- Every parameter has the expression that stands for a value where none is given. -/
def Defaults (options : Options) (segments : List Segment) : Prop :=
  ∀ key ∈ Segment.keys segments, key.pattern = options.defaultPattern

theorem piece_of_defaults (hdefaults : Defaults options segments) :
    Regex.Token.Piece (expression segments options)
      (expressionTokens (fun _ => options.defaultTokens) segments options) :=
  piece_whole options fun key hkey => Key.readsValue_defaultPattern (hdefaults key hkey)

/-- An expression that adds items, behind the switch for case, is a row of them. -/
theorem compile?_of_adds {text : List Char} {tokens : List Regex.Token} {items : Nat → List Expr}
    {groups : Nat} (hpiece : Regex.Token.Piece text tokens)
    (hadds : Adds 4 options.flags tokens items groups) (hplain : ∀ item ∈ items 0, item.Plain) :
    ∃ names, Regex.compile? (withCase options text) =
      some ⟨withCase options text, row (items 0), names⟩ := by
  have hadded := hadds options.opened rfl (shallow_opened options)
  obtain ⟨-, hordered⟩ := Expr.plain_row hplain
  refine ⟨Regex.lastOfName (options.opened.extend (items 0) groups).names.reverse, ?_⟩
  rw [show options.opened.groupCount = 0 from rfl] at hadded
  simp only [Regex.compile?, ofChars?_withCase options hpiece, Option.bind_eq_bind,
    Option.bind_some, addAll?_caseTokens, hadded, finish?_opened]
  have hordered' : ((row (items 0)).isInvolved || (row (items 0)).loopsAreOrdered) = true := by
    rw [hordered, Bool.or_true]
  exact if_pos hordered'

/-- The generated expression is a row of items. -/
theorem compile?_expression (hwhole : options.Whole) (hdefaults : Defaults options segments)
    (hsolid : ∀ segment ∈ segments, segment.Solid) :
    ∃ names, Regex.compile? (withCase options (expression segments options)) =
      some ⟨withCase options (expression segments options), row (wholeItems options segments),
        names⟩ :=
  compile?_of_adds (piece_of_defaults hdefaults) (adds_expression hwhole hsolid)
    (plain_wholeItems options segments)

/-- Only a group without any text cannot have a quantifier. -/
theorem solid_of_compile? (hwhole : options.Whole) (hdefaults : Defaults options segments)
    {regex : Regex}
    (h : Regex.compile? (withCase options (expression segments options)) = some regex) :
    ∀ segment ∈ segments, segment.Solid := by
  have hpiece := piece_of_defaults hdefaults
  simp only [Regex.compile?, ofChars?_withCase options hpiece, Option.bind_eq_bind,
    Option.bind_some, addAll?_caseTokens, expressionTokens_of_whole hwhole] at h
  obtain ⟨assembly, hassembly, -⟩ := Option.bind_eq_some_iff.1 h
  rw [List.append_assoc, Regex.Assembly.addAll?_append,
    adds_start options 4 options.opened rfl (shallow_opened options), Option.bind_some,
    Regex.Assembly.addAll?_append] at hassembly
  obtain ⟨middle, hmiddle, -⟩ := Option.bind_eq_some_iff.1 hassembly
  exact Segment.solid_of_addAll? (by rfl) (by exact shallow_opened options) hmiddle

end Whole

end Waymark.Pattern
