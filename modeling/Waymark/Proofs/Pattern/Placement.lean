import Waymark.Proofs.Pattern.Tokens
import Waymark.Proofs.Regex.Groups
/-!
Where the groups of parameters stand.

The expression of a pattern is put together from the expressions of its parameters. Each parameter
opens one group that captures, which stands after those of the parameters before it
(`stands_expressionTokens`, `stands_alternatives`), and nothing else opens one
(`countP_expressionTokens`). A parameter that cannot be absent requires its group
(`grows_expressionTokens`).
-/

namespace Waymark.Pattern

open Regex (AddsItems AddsOne Expr Grows StandsSteady)
open Regex.Token (Balanced Captureless Stands captures)

section Counting

variable {value : Key → List Regex.Token}

theorem countP_spelled (text : List Char) : (spelled text).countP captures = 0 := by
  refine List.countP_eq_zero.2 fun token htoken => ?_
  obtain ⟨c, _, hc⟩ := List.mem_flatMap.1 htoken
  rw [List.mem_singleton.1 hc]
  simp [captures]

theorem countP_grouped (tokens : List Regex.Token) :
    (grouped tokens).countP captures = tokens.countP captures := by
  simp [grouped, captures]

theorem countP_lookingAhead (tokens : List Regex.Token) :
    (lookingAhead tokens).countP captures = tokens.countP captures := by
  simp [lookingAhead, captures]

theorem countP_capturing (tokens : List Regex.Token) :
    (capturing tokens).countP captures = tokens.countP captures + 1 := by
  rw [capturing, List.cons_append, List.countP_cons_of_pos rfl, List.countP_append]
  simp [captures]

theorem countP_quantifier (quantifier : Option Quantifier) :
    (Quantifier.tokens quantifier).countP captures = 0 := by
  cases quantifier <;> simp [Quantifier.tokens, Quantifier.token, captures]

/-- What the group of a parameter captures has no groups. -/
theorem Key.countP_insideTokens {key : Key} (h : Captureless (value key)) :
    (key.insideTokens (value key)).countP captures = 0 := by
  unfold insideTokens
  split
  · split
    · simp [countP_grouped, countP_quantifier, h.countP_eq_zero]
    · simp [countP_grouped, countP_spelled, h.countP_eq_zero, Quantifier.token, captures]
  · exact h.countP_eq_zero

/-- A parameter has one group. -/
theorem Key.countP_tokens {key : Key} (h : Captureless (value key)) :
    (key.tokens (value key)).countP captures = 1 := by
  have hinside := countP_insideTokens h
  rw [tokens, List.countP_append, countP_quantifier]
  unfold framedTokens
  split
  · rw [countP_capturing, hinside]
  · simp [countP_grouped, countP_spelled, countP_capturing, hinside]

theorem countP_terminatorTokens (options : Options) :
    options.terminatorTokens.countP captures = 0 := by
  unfold Options.terminatorTokens
  split <;> simp [captures]

theorem countP_optional {condition : Bool} {tokens : List Regex.Token}
    (h : tokens.countP captures = 0) :
    (if condition then tokens else []).countP captures = 0 := by
  cases condition with
  | true => exact h
  | false => rfl

theorem countP_tailTokens (segments : List Segment) (options : Options) :
    (tailTokens segments options).countP captures = 0 := by
  have hterminator := countP_terminatorTokens options
  have hset : captures (.set (classSet false options.delimiter)) = false := rfl
  have hoptional : captures Quantifier.optional.token = false := rfl
  have hfinish : captures .finish = false := rfl
  have hbar : captures .bar = false := rfl
  unfold tailTokens
  split
  · rw [List.countP_append, countP_optional (by simp [hset, hoptional])]
    split <;> simp [countP_lookingAhead, hterminator, hfinish]
  · rw [List.countP_append,
      countP_optional (by simp [countP_grouped, countP_lookingAhead, hterminator, hset, hoptional])]
    split
    · rfl
    · rw [countP_lookingAhead, List.countP_append, hterminator,
        countP_optional (by simp [hset, hbar])]

/-- The segments have a group for each parameter. -/
theorem countP_segments {segments : List Segment}
    (h : ∀ key ∈ Segment.keys segments, Captureless (value key)) :
    (segments.flatMap (Segment.tokens value)).countP captures = (Segment.keys segments).length := by
  induction segments with
  | nil => rfl
  | cons segment segments ih =>
      rw [List.flatMap_cons, List.countP_append]
      cases segment with
      | literal text =>
          rw [Segment.tokens, countP_spelled, Nat.zero_add]
          exact ih h
      | group before after quantifier =>
          rw [Segment.tokens, List.countP_append, countP_grouped, List.countP_append,
            countP_spelled, countP_spelled, countP_quantifier, Nat.zero_add]
          exact ih h
      | key parameter =>
          obtain ⟨hparameter, hrest⟩ := List.forall_mem_cons.1 h
          rw [Segment.tokens, Key.countP_tokens hparameter, ih hrest, Nat.add_comm]
          rfl

/-- The expression of segments has a group for each parameter. -/
theorem countP_expressionTokens {segments : List Segment} (options : Options)
    (h : ∀ key ∈ Segment.keys segments, Captureless (value key)) :
    (expressionTokens value segments options).countP captures = (Segment.keys segments).length := by
  rw [expressionTokens, List.countP_append, List.countP_append, countP_segments h,
    countP_tailTokens, countP_optional (by simp [captures]), Nat.zero_add, Nat.add_zero]

theorem countP_alternativesTokens (branches : List (List Regex.Token)) :
    (alternativesTokens branches).countP captures = branches.flatten.countP captures := by
  rw [alternativesTokens, countP_grouped]
  induction branches with
  | nil => rfl
  | cons branch branches ih =>
      cases branches with
      | nil => simp
      | cons other branches =>
          rw [List.intercalate_cons_cons, List.countP_append, List.countP_append, ih,
            List.flatten_cons, List.countP_append]
          simp [captures]

theorem countP_caseTokens (options : Options) (tokens : List Regex.Token) :
    (caseTokens options tokens).countP captures = tokens.countP captures := by
  unfold caseTokens
  split
  · rfl
  · exact List.countP_cons_of_neg (by simp [captures])

end Counting

section Requiring

variable {value : Key → List Regex.Token}

theorem balanced_spelled (text : List Char) : Balanced (spelled text) := by
  induction text with
  | nil => rfl
  | cons c text ih => exact ih

theorem balanced_quantifier (quantifier : Option Quantifier) :
    Balanced (Quantifier.tokens quantifier) := by
  cases quantifier <;> rfl

theorem Key.balanced_insideTokens {key : Key} (h : Balanced (value key)) :
    Balanced (key.insideTokens (value key)) := by
  unfold insideTokens
  split
  · split
    · exact (h.enclosed _).append (balanced_quantifier key.quantifier)
    · have hfurther := ((balanced_spelled key.after).append (balanced_spelled key.before)).append
        (h.enclosed (.plain []))
      exact (h.enclosed _).append
        ((hfurther.enclosed _).append (balanced_quantifier (some .zeroOrMore)))
  · exact h

theorem Options.balanced_terminatorTokens (options : Options) :
    Balanced options.terminatorTokens := by
  unfold Options.terminatorTokens
  split <;> rfl

theorem addsOne_set (chars : Regex.CharSet) : AddsOne [.set chars] fun _ _ => True :=
  Regex.addsOne_push fun _ => ⟨_, rfl⟩

/-- Text that stands for itself adds items. -/
theorem addsItems_spelled (text : List Char) : AddsItems (spelled text) := by
  induction text with
  | nil => exact Regex.addsItems_nil
  | cons c text ih => exact (addsOne_set (.single c)).addsItems.append ih

theorem Key.addsOne_framedTokens {key : Key} (h : Balanced (value key)) :
    AddsOne (key.framedTokens (value key)) fun index item => item.Requires (index + 1) := by
  have hgroup : AddsOne (capturing (key.insideTokens (value key)))
      fun index item => item.Requires (index + 1) := by
    refine (Regex.addsOne_capturing none (balanced_insideTokens h)).mono ?_
    rintro index item ⟨body, rfl⟩
    exact Expr.requires_group (index + 1) body
  unfold framedTokens
  split
  · exact hgroup
  · have hrow := (Grows.append (addsItems_spelled key.before) hgroup.grows).append
      (addsItems_spelled key.after)
    refine (Regex.addsOne_grouped hrow).mono ?_
    rintro index _ ⟨items, rfl, front, back, rfl, ⟨before, group, rfl, -, item, hitem, h⟩, -⟩
    rw [countP_spelled, Nat.add_zero] at h
    exact Expr.requires_row (List.mem_append_left _ (List.mem_append_right _ hitem)) h

theorem Key.mayBeAbsent_of_outer {key : Key} {quantifier : Quantifier}
    (h : key.outer = some quantifier) : key.mayBeAbsent = true := by
  unfold outer at h
  split at h
  · exact absurd h (by simp)
  · split at h
    · next habsent => exact habsent
    · exact absurd h (by simp)

/-- A parameter that cannot be absent requires its group. -/
theorem Key.grows_tokens {key : Key} (h : Balanced (value key)) :
    Grows (key.tokens (value key)) fun index items =>
      key.mayBeAbsent = false → ∃ item ∈ items, item.Requires (index + 1) := by
  have hframed := addsOne_framedTokens h
  unfold tokens
  cases houter : key.outer with
  | none =>
      rw [Quantifier.tokens, List.append_nil]
      exact hframed.grows.mono fun _ _ hitem _ => hitem
  | some quantifier =>
      have habsent := mayBeAbsent_of_outer houter
      refine (hframed.quantified _ _ _ _).grows.mono fun _ _ _ hpresent => ?_
      rw [habsent] at hpresent
      exact absurd hpresent (by simp)

/-- Each parameter of segments that cannot be absent requires the group of its number. -/
def RequiresKeys (segments : List Segment) (index : Nat) (items : List Expr) : Prop :=
  ∀ (number : Nat) (key : Key), (Segment.keys segments)[number]? = some key →
    key.mayBeAbsent = false → ∃ item ∈ items, item.Requires (index + number + 1)

theorem RequiresKeys.mono {segments : List Segment} {index : Nat} {items others : List Expr}
    (h : RequiresKeys segments index items) (hsubset : items ⊆ others) :
    RequiresKeys segments index others := by
  intro number key hkey hpresent
  obtain ⟨item, hitem, hrequires⟩ := h number key hkey hpresent
  exact ⟨item, hsubset hitem, hrequires⟩

theorem addsItems_group (before after : List Char) (quantifier : Option Quantifier) :
    AddsItems (grouped (spelled before ++ spelled after) ++ Quantifier.tokens quantifier) := by
  have hgroup := Regex.addsOne_group (.plain [])
    ((balanced_spelled before).append (balanced_spelled after))
  cases quantifier with
  | none =>
      rw [Quantifier.tokens, List.append_nil]
      exact hgroup.addsItems
  | some quantifier => exact (hgroup.quantified _ _ _ _).addsItems

theorem grows_segments {segments : List Segment}
    (hbalanced : ∀ key ∈ Segment.keys segments, Balanced (value key))
    (hcaptureless : ∀ key ∈ Segment.keys segments, Captureless (value key)) :
    Grows (segments.flatMap (Segment.tokens value)) (RequiresKeys segments) := by
  induction segments with
  | nil =>
      refine Grows.nil.mono fun _ _ _ number key hkey => ?_
      exact absurd hkey (by simp [Segment.keys])
  | cons segment segments ih =>
      rw [List.flatMap_cons]
      cases segment with
      | literal text =>
          refine (Grows.append (addsItems_spelled text) (ih hbalanced hcaptureless)).mono ?_
          rintro index _ ⟨front, back, rfl, -, h⟩
          rw [countP_spelled, Nat.add_zero] at h
          exact h.mono (List.subset_append_right front back)
      | group before after quantifier =>
          refine (Grows.append (addsItems_group before after quantifier)
            (ih hbalanced hcaptureless)).mono ?_
          rintro index _ ⟨front, back, rfl, -, h⟩
          rw [List.countP_append, countP_grouped, List.countP_append, countP_spelled,
            countP_spelled, countP_quantifier] at h
          exact h.mono (List.subset_append_right front back)
      | key parameter =>
          -- The first parameter has one group, so the numbers of the others go up by one.
          obtain ⟨hparameter, hrest⟩ := List.forall_mem_cons.1 hbalanced
          obtain ⟨hfree, hfreeRest⟩ := List.forall_mem_cons.1 hcaptureless
          refine ((Key.grows_tokens hparameter).append (ih hrest hfreeRest)).mono ?_
          rintro index _ ⟨front, back, rfl, hfirst, h⟩ number key hkey hpresent
          rw [Key.countP_tokens hfree] at h
          cases number with
          | zero =>
              obtain rfl := Option.some.inj hkey
              obtain ⟨item, hitem, hrequires⟩ := hfirst hpresent
              exact ⟨item, List.mem_append_left _ hitem, hrequires⟩
          | succ number =>
              obtain ⟨item, hitem, hrequires⟩ := h number key hkey hpresent
              rw [Nat.add_assoc index 1 number, Nat.add_comm 1 number] at hrequires
              exact ⟨item, List.mem_append_right _ hitem, hrequires⟩

theorem addsItems_optional {condition : Bool} {tokens : List Regex.Token} (h : AddsItems tokens) :
    AddsItems (if condition then tokens else []) := by
  cases condition with
  | true => exact h
  | false => exact Regex.addsItems_nil

theorem balanced_optional {condition : Bool} {tokens : List Regex.Token} (h : Balanced tokens) :
    Balanced (if condition then tokens else []) := by
  cases condition with
  | true => exact h
  | false => rfl

theorem addsItems_tail (segments : List Segment) (options : Options) :
    AddsItems (tailTokens segments options) := by
  have hterminator := options.balanced_terminatorTokens
  have hdelimiter := addsOne_set (classSet false options.delimiter)
  have hset : ∀ tokens, Balanced tokens →
      Balanced ([.set (classSet false options.delimiter)] ++ tokens) := fun _ h => h
  have hfinish : AddsOne [.finish] fun _ _ => True := Regex.addsOne_push fun _ => ⟨_, rfl⟩
  unfold tailTokens
  split
  · refine (addsItems_optional (hdelimiter.quantified _ _ _ _).addsItems).append ?_
    split
    · exact hfinish.addsItems
    · exact (Regex.addsOne_group _ hterminator).addsItems
  · have hgroup := Regex.addsOne_group (.plain []) (hset _ (hterminator.enclosed (.ahead false)))
    refine (addsItems_optional (hgroup.quantified _ _ _ _).addsItems).append ?_
    split
    · exact Regex.addsItems_nil
    · exact (Regex.addsOne_group _
        ((balanced_optional (hset [.bar] rfl)).append hterminator)).addsItems

/-- The expression of segments requires the groups of parameters that cannot be absent. -/
theorem grows_expressionTokens {segments : List Segment} (options : Options)
    (hbalanced : ∀ key ∈ Segment.keys segments, Balanced (value key))
    (hcaptureless : ∀ key ∈ Segment.keys segments, Captureless (value key)) :
    Grows (expressionTokens value segments options) (RequiresKeys segments) := by
  have hstart : AddsOne [.start] fun _ _ => True := Regex.addsOne_push fun _ => ⟨_, rfl⟩
  have hsegments := grows_segments hbalanced hcaptureless
  refine ((Grows.append (addsItems_optional hstart.addsItems) hsegments).append
    (addsItems_tail segments options)).mono ?_
  rintro index _ ⟨_, back, rfl, ⟨front, middle, rfl, -, h⟩, -⟩
  rw [countP_optional (by simp [captures]), Nat.add_zero] at h
  refine h.mono fun item hitem => ?_
  exact List.mem_append_left _ (List.mem_append_right _ hitem)

end Requiring

section Standing

variable {value : Key → List Regex.Token}

/-- The group of a parameter is the first that its tokens open. -/
theorem Key.stands_tokens (key : Key) (tokens : List Regex.Token) :
    StandsSteady (key.tokens tokens) 0 (capturing (key.insideTokens tokens)) := by
  have hgroup := StandsSteady.self (capturing (key.insideTokens tokens))
  refine StandsSteady.append_right ?_ _
  unfold framedTokens
  split
  · exact hgroup
  · have hframed := ((hgroup.append_left (addsItems_spelled key.before).steady).append_right
      (spelled key.after)).grouped
    rwa [countP_spelled] at hframed

/-- The group of a parameter stands after those of the parameters before it. -/
theorem stands_segments {segments : List Segment}
    (hbalanced : ∀ key ∈ Segment.keys segments, Balanced (value key))
    (hcaptureless : ∀ key ∈ Segment.keys segments, Captureless (value key)) {number : Nat}
    {key : Key} (hkey : (Segment.keys segments)[number]? = some key) :
    StandsSteady (segments.flatMap (Segment.tokens value)) number
      (capturing (key.insideTokens (value key))) := by
  induction segments generalizing number with
  | nil => exact absurd hkey (by simp [Segment.keys])
  | cons segment segments ih =>
      rw [List.flatMap_cons]
      cases segment with
      | literal text =>
          have hrest := (ih hbalanced hcaptureless hkey).append_left (addsItems_spelled text).steady
          rwa [countP_spelled, Nat.zero_add] at hrest
      | group before after quantifier =>
          have hrest := (ih hbalanced hcaptureless hkey).append_left
            (addsItems_group before after quantifier).steady
          rwa [List.countP_append, countP_grouped, List.countP_append, countP_spelled,
            countP_spelled, countP_quantifier, Nat.zero_add] at hrest
      | key parameter =>
          obtain ⟨hparameter, hrest⟩ := List.forall_mem_cons.1 hbalanced
          obtain ⟨hfree, hfreeRest⟩ := List.forall_mem_cons.1 hcaptureless
          cases number with
          | zero =>
              obtain rfl := Option.some.inj hkey
              exact (Key.stands_tokens parameter (value parameter)).append_right _
          | succ number =>
              have hnext := (ih hrest hfreeRest hkey).append_left (Key.grows_tokens hparameter).steady
              rwa [Key.countP_tokens hfree, Nat.add_comm] at hnext

theorem stands_expressionTokens {segments : List Segment} (options : Options)
    (hbalanced : ∀ key ∈ Segment.keys segments, Balanced (value key))
    (hcaptureless : ∀ key ∈ Segment.keys segments, Captureless (value key)) {number : Nat}
    {key : Key} (hkey : (Segment.keys segments)[number]? = some key) :
    StandsSteady (expressionTokens value segments options) number
      (capturing (key.insideTokens (value key))) := by
  have hstart : AddsOne [.start] fun _ _ => True := Regex.addsOne_push fun _ => ⟨_, rfl⟩
  have hbeginning : AddsItems (if options.atStart then [.start] else []) :=
    addsItems_optional hstart.addsItems
  have hsegments := ((stands_segments hbalanced hcaptureless hkey).append_left
    hbeginning.steady).append_right (tailTokens segments options)
  rwa [countP_optional (by simp [captures]), Nat.zero_add] at hsegments

/-- The group of a parameter of one of several patterns stands after those of the parameters of the
patterns before it. -/
theorem stands_alternatives {parsed : List (List Segment)} (options : Options)
    (hbalanced : ∀ key ∈ parsed.flatMap Segment.keys, Balanced (value key))
    (hcaptureless : ∀ key ∈ parsed.flatMap Segment.keys, Captureless (value key)) {number : Nat}
    {key : Key} (hkey : (parsed.flatMap Segment.keys)[number]? = some key) :
    Stands (alternativesTokens (parsed.map fun segments => expressionTokens value segments options))
      number (capturing (key.insideTokens (value key))) := by
  refine Stands.grouped ?_ []
  induction parsed generalizing number with
  | nil => exact absurd hkey (by simp)
  | cons segments parsed ih =>
      rw [List.flatMap_cons] at hbalanced hcaptureless hkey
      obtain ⟨hfirst, hrest⟩ := List.forall_mem_append.1 hbalanced
      obtain ⟨hfree, hfreeRest⟩ := List.forall_mem_append.1 hcaptureless
      rcases Nat.lt_or_ge number (Segment.keys segments).length with hlt | hge
      · rw [List.getElem?_append_left hlt] at hkey
        have hstands := (stands_expressionTokens options hfirst hfree hkey).stands
        cases parsed with
        | nil => simpa using hstands
        | cons other parsed =>
            rw [List.map_cons, List.map_cons, List.intercalate_cons_cons, List.append_assoc]
            exact hstands.append_right _
      · rw [List.getElem?_append_right hge] at hkey
        have hstands := ih hrest hfreeRest hkey
        cases parsed with
        | nil => exact absurd hkey (by simp)
        | cons other parsed =>
            have hcount : (expressionTokens value segments options ++
                [Regex.Token.bar]).countP captures = (Segment.keys segments).length := by
              rw [List.countP_append, countP_expressionTokens options hfree]
              rfl
            have hlater := hstands.append_left (expressionTokens value segments options ++ [.bar])
            rw [hcount, Nat.add_sub_cancel' hge] at hlater
            rw [List.map_cons, List.map_cons, List.intercalate_cons_cons]
            exact hlater

theorem stands_caseTokens {tokens group : List Regex.Token} {number : Nat} (options : Options)
    (h : Stands tokens number group) : Stands (caseTokens options tokens) number group := by
  unfold caseTokens
  split
  · exact h
  · have hswitched := h.append_left [.switches [(.caseless, true)]]
    rwa [show [Regex.Token.switches [(.caseless, true)]].countP captures = 0 from rfl,
      Nat.zero_add] at hswitched

end Standing

end Waymark.Pattern
