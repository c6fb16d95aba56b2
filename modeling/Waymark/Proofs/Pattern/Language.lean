import Waymark.Proofs.Pattern.Items
import Waymark.Proofs.Regex.Language
import Waymark.Proofs.Unicode.CaseFolding
/-!
The paths that the segments of a route pattern stand for.

A literal stands for its text, a group for the text in its braces as often as its quantifier allows,
and a parameter for as many values, each between the text before and after it. A value is any text
without a delimiter, but not the empty one. The items of the generated expression denote just these
paths (`Segment.denoteAll_allItems`).
-/

namespace Waymark.Pattern

open Regex (Between Expr row)
open Regex.Expr (After Denotes DenoteAll Repeated)

/-- Whether a character of a path is a character of a pattern, or one in another case where letters
match in any case. -/
def Options.alike (options : Options) (written c : Char) : Bool :=
  if options.sensitive then c == written else Unicode.sameButCase c written

/-- Whether a character separates segments. -/
def Options.separates (options : Options) (c : Char) : Bool :=
  options.delimiter.any (options.alike · c)

/-- Whether a text is a text of a pattern, character by character. -/
def Options.Spells (options : Options) : List Char → List Char → Prop
  | [], [] => True
  | written :: rest, c :: text => options.alike written c = true ∧ options.Spells rest text
  | _, _ => False

/-- Whether a text can be one value of a parameter. -/
def Options.IsValue (options : Options) (text : List Char) : Prop :=
  text ≠ [] ∧ ∀ c ∈ text, options.separates c = false

/-- How many times a quantifier allows. -/
def Quantifier.Allows : Option Quantifier → Nat → Prop
  | none, count => count = 1
  | some .optional, count => count ≤ 1
  | some .zeroOrMore, _ => True
  | some .oneOrMore, count => 1 ≤ count

/-- Texts of one kind in a row, as many as a quantifier allows. -/
def Times (quantifier : Option Quantifier) (once : List Char → Prop) (text : List Char) : Prop :=
  ∃ parts : List (List Char), Quantifier.Allows quantifier parts.length ∧
    (∀ part ∈ parts, once part) ∧ text = parts.flatten

/-- A value of a parameter with the text before and after it. -/
def Key.Fills (options : Options) (key : Key) (text : List Char) : Prop :=
  ∃ before value after, text = before ++ value ++ after ∧ options.Spells key.before before ∧
    options.IsValue value ∧ options.Spells key.after after

/-- The texts that a segment stands for. -/
def Segment.Yields (options : Options) : Segment → List Char → Prop
  | .literal written, text => options.Spells written text
  | .key parameter, text => Times parameter.quantifier (parameter.Fills options) text
  | .group before after quantifier, text =>
      Times quantifier (options.Spells (before ++ after)) text

/-- The texts that segments stand for, one after the other. -/
def Segment.Generates (options : Options) : List Segment → List Char → Prop
  | [], text => text = []
  | segment :: segments, text =>
      ∃ front rest, text = front ++ rest ∧ segment.Yields options front ∧
        Generates options segments rest

section Characters

variable {options : Options}

theorem alike_self (options : Options) (c : Char) : options.alike c c = true := by
  unfold Options.alike
  split
  · exact beq_self_eq_true c
  · exact Unicode.sameButCase_self c

theorem isValue_of_all {text : List Char} (hne : text ≠ [])
    (hall : text.all (!options.separates ·) = true) : options.IsValue text := by
  refine ⟨hne, fun c hc => ?_⟩
  simpa using List.all_eq_true.1 hall c hc

theorem spells_self (options : Options) (text : List Char) : options.Spells text text := by
  induction text with
  | nil => exact trivial
  | cons c text ih => exact ⟨alike_self options c, ih⟩

theorem Options.Spells.length_eq {written text : List Char} (h : options.Spells written text) :
    text.length = written.length := by
  induction written generalizing text with
  | nil =>
      cases text with
      | nil => rfl
      | cons => exact absurd h id
  | cons d written ih =>
      cases text with
      | nil => exact absurd h id
      | cons c text => exact congrArg Nat.succ (ih h.2)

theorem separates_of_mem {c : Char} (h : c ∈ options.delimiter) : options.separates c = true :=
  List.any_eq_true.2 ⟨c, h, alike_self options c⟩

theorem contains_range_self (caseless : Bool) (written c : Char) :
    (Regex.CharSet.range written written).contains caseless c = (c == written) := by
  rw [Bool.eq_iff_iff]
  simp only [Regex.CharSet.contains, Bool.and_eq_true, decide_eq_true_eq, beq_iff_eq]
  constructor
  · exact fun h => Char.le_antisymm h.2 h.1
  · rintro rfl
    exact ⟨Char.le_refl c, Char.le_refl c⟩

/-- A character in some case is one of several characters if it is alike to one of them. -/
theorem inSomeCase_contains (options : Options) (chars : List Char) (c : Char) :
    Regex.CharSet.inSomeCase (!options.sensitive) chars.contains c =
      chars.any (options.alike · c) := by
  rw [Bool.eq_iff_iff]
  unfold Options.alike Regex.CharSet.inSomeCase Unicode.sameButCase
  cases options.sensitive with
  | true =>
      simp only [Bool.not_true, Bool.false_eq_true, ↓reduceIte, List.contains_iff_mem,
        List.any_eq_true, beq_iff_eq]
      constructor
      · exact fun h => ⟨c, h, rfl⟩
      · rintro ⟨written, h, rfl⟩
        exact h
  | false =>
      simp only [Bool.not_false, ↓reduceIte, Bool.false_eq_true, List.contains_iff_mem,
        List.any_eq_true]
      constructor
      · rintro ⟨variant, hvariant, hmem⟩
        exact ⟨variant, hmem, hvariant⟩
      · rintro ⟨written, hmem, hvariant⟩
        exact ⟨written, hvariant, hmem⟩

theorem contains_single (options : Options) (written c : Char) :
    (Regex.CharSet.single written).contains (!options.sensitive) c = options.alike written c := by
  have hset : (Regex.CharSet.range written written).contains (!options.sensitive) =
      [written].contains := by
    funext c
    rw [contains_range_self, List.contains_cons, List.contains_nil, Bool.or_false]
  rw [Regex.CharSet.single, Regex.CharSet.contains, hset, inSomeCase_contains]
  simp

theorem contains_foldl_union (caseless : Bool) (chars : List Char) (done : Regex.CharSet)
    (c : Char) :
    (chars.foldl (fun set c => .union set (.range c c)) done).contains caseless c =
      (done.contains caseless c || chars.contains c) := by
  induction chars generalizing done with
  | nil => simp
  | cons d chars ih =>
      rw [List.foldl_cons, ih, Regex.CharSet.contains, contains_range_self, List.contains_cons,
        Bool.or_assoc]

theorem contains_classSet (options : Options) (negated : Bool) (chars : List Char) (c : Char) :
    (classSet negated chars).contains (!options.sensitive) c =
      (chars.any (options.alike · c) != negated) := by
  have hset : (chars.foldl (fun set c => .union set (.range c c)) Regex.CharSet.empty).contains
      (!options.sensitive) = chars.contains := by
    funext c
    rw [contains_foldl_union, Regex.CharSet.contains, Bool.false_or]
  rw [classSet, Regex.CharSet.contains, hset, inSomeCase_contains]

theorem contains_valueSet (options : Options) (c : Char) :
    options.valueSet.contains (!options.sensitive) c = !options.separates c := by
  unfold Options.valueSet Options.separates
  split
  · next hempty =>
    have hset : (Regex.CharSet.union (.union .empty .blank) (.complement .blank)).contains
        (!options.sensitive) = fun _ => true := by
      funext c
      simp [Regex.CharSet.contains]
    rw [List.isEmpty_iff.1 hempty, Regex.CharSet.contains, hset]
    unfold Regex.CharSet.inSomeCase
    split
    · have hany : ((Unicode.caseVariants c).any fun _ => true) = true :=
        List.any_eq_true.2 ⟨c, Unicode.mem_caseVariants_self c, rfl⟩
      rw [hany]
      rfl
    · rfl
  · rw [contains_classSet, Bool.bne_true]

end Characters

section Denotations

variable {options : Options}

theorem spells_append {first second text : List Char} :
    options.Spells (first ++ second) text ↔ After (options.Spells first) (options.Spells second) text := by
  induction first generalizing text with
  | nil =>
      constructor
      · exact fun h => ⟨[], text, rfl, trivial, h⟩
      · rintro ⟨u, v, rfl, hu, hv⟩
        cases u with
        | nil => exact hv
        | cons c u => exact absurd hu id
  | cons written first ih =>
      cases text with
      | nil =>
          constructor
          · exact fun h => absurd h id
          · rintro ⟨u, v, huv, hu, hv⟩
            obtain ⟨rfl, rfl⟩ := List.append_eq_nil_iff.1 huv.symm
            exact absurd hu id
      | cons c text =>
          constructor
          · rintro ⟨hc, h⟩
            obtain ⟨u, v, rfl, hu, hv⟩ := ih.1 h
            exact ⟨c :: u, v, rfl, ⟨hc, hu⟩, hv⟩
          · rintro ⟨u, v, huv, hu, hv⟩
            cases u with
            | nil => exact absurd hu id
            | cons d u =>
                obtain ⟨rfl, rfl⟩ := List.cons.inj huv
                exact ⟨hu.1, ih.2 ⟨u, v, rfl, hu.2, hv⟩⟩

theorem denoteAll_textItems (options : Options) (text : List Char) :
    DenoteAll (options.textItems text) (options.Spells text) := by
  induction text with
  | nil =>
      refine Regex.Expr.denoteAll_nil.congr fun w => ?_
      cases w with
      | nil => exact ⟨fun _ => trivial, fun _ => rfl⟩
      | cons c w => exact ⟨fun h => absurd h (by simp), fun h => absurd h id⟩
  | cons written text ih =>
      have hset := Regex.Expr.denotes_set (.single written) (!options.sensitive)
      refine (hset.all.append ih).congr fun w => ?_
      constructor
      · rintro ⟨_, v, rfl, ⟨c, rfl, hc⟩, hv⟩
        rw [contains_single] at hc
        exact ⟨hc, hv⟩
      · intro h
        cases w with
        | nil => exact absurd h id
        | cons c w =>
            refine ⟨[c], w, rfl, ⟨c, rfl, ?_⟩, h.2⟩
            rw [contains_single]
            exact h.1

theorem Quantifier.eq_cases (quantifier : Option Quantifier) :
    quantifier = none ∨ quantifier = some .optional ∨ quantifier = some .zeroOrMore ∨
      quantifier = some .oneOrMore := by
  rcases quantifier with _ | _ | _ | _ <;> simp

theorem admits_iff (quantifier : Quantifier) (count : Nat) :
    Regex.Admits quantifier.least quantifier.most count ↔
      Quantifier.Allows (some quantifier) count := by
  cases quantifier <;>
    simp [Regex.Admits, Quantifier.least, Quantifier.most, Quantifier.Allows]

theorem times_none {once : List Char → Prop} {text : List Char} :
    Times none once text ↔ once text := by
  constructor
  · rintro ⟨parts, hcount, hparts, rfl⟩
    obtain ⟨part, rfl⟩ := List.length_eq_one_iff.1 hcount
    rw [List.flatten_singleton]
    exact hparts part List.mem_cons_self
  · intro h
    refine ⟨[text], rfl, fun part hpart => ?_, List.flatten_singleton.symm⟩
    rw [List.mem_singleton.1 hpart]
    exact h

theorem Times.congr {quantifier : Option Quantifier} {once once' : List Char → Prop}
    (h : ∀ text, once text ↔ once' text) (text : List Char) :
    Times quantifier once text ↔ Times quantifier once' text := by
  simp only [Times, h]

/-- At most once what comes at least once is any number of times. -/
theorem times_optional {once : List Char → Prop} {text : List Char} :
    Times (some .optional) (Times (some .oneOrMore) once) text ↔
      Times (some .zeroOrMore) once text := by
  constructor
  · rintro ⟨parts, hcount, hparts, rfl⟩
    cases parts with
    | nil => exact ⟨[], trivial, fun _ hpart => absurd hpart List.not_mem_nil, rfl⟩
    | cons part parts =>
        obtain rfl : parts = [] := List.length_eq_zero_iff.1 (Nat.le_zero.1 (Nat.le_of_succ_le_succ hcount))
        obtain ⟨inner, -, hinner, rfl⟩ := hparts part List.mem_cons_self
        exact ⟨inner, trivial, hinner, List.flatten_singleton⟩
  · rintro ⟨parts, -, hparts, rfl⟩
    cases parts with
    | nil => exact ⟨[], Nat.zero_le 1, fun _ hpart => absurd hpart List.not_mem_nil, rfl⟩
    | cons part parts =>
        refine ⟨[(part :: parts).flatten], Nat.le_refl 1, fun other hother => ?_,
          List.flatten_singleton.symm⟩
        rw [List.mem_singleton.1 hother]
        exact ⟨part :: parts, Nat.succ_le_succ (Nat.zero_le _), hparts, rfl⟩

theorem denotes_quantifiedItem {item : Expr} {language : List Char → Prop}
    (h : item.Denotes language) (quantifier : Option Quantifier) :
    (quantifiedItem quantifier item).Denotes (Times quantifier language) := by
  cases quantifier with
  | none => exact h.congr fun w => times_none.symm
  | some quantifier =>
      refine (h.loop quantifier.least quantifier.most true).congr fun w => ?_
      simp only [Repeated, Times, admits_iff]

theorem denotes_valueItem (options : Options) :
    options.valueItem.Denotes options.IsValue := by
  refine ((Regex.Expr.denotes_set _ _).loop 1 none false).congr fun w => ?_
  constructor
  · rintro ⟨parts, hcount, hparts, rfl⟩
    refine ⟨fun hnil => ?_, fun c hc => ?_⟩
    · obtain ⟨part, hpart⟩ := List.exists_mem_of_length_pos hcount
      obtain ⟨c, rfl, -⟩ := hparts part hpart
      have hempty := List.flatten_eq_nil_iff.1 hnil _ hpart
      exact absurd hempty (by simp)
    · obtain ⟨part, hpart, hc⟩ := List.mem_flatten.1 hc
      obtain ⟨d, rfl, hd⟩ := hparts part hpart
      rw [contains_valueSet, Bool.not_eq_true'] at hd
      rw [List.mem_singleton.1 hc]
      exact hd
  · rintro ⟨hne, hvalue⟩
    refine ⟨w.map ([·]), ?_, fun part hpart => ?_, ?_⟩
    · rw [Regex.Admits, List.length_map]
      exact List.length_pos_iff.2 hne
    · obtain ⟨c, hc, rfl⟩ := List.mem_map.1 hpart
      refine ⟨c, rfl, ?_⟩
      rw [contains_valueSet, hvalue c hc]
      rfl
    · rw [← List.flatMap_def, List.flatMap_singleton']

section Regrouping

variable {first value last : List Char → Prop}

/-- What stands between two values can be counted to the one before it or the one after. -/
theorem times_of_separated {parts : List (List Char)}
    (hparts : ∀ part ∈ parts, After (After last first) value part) {u v w : List Char}
    (hu : first u) (hv : value v) (hw : last w) :
    Times (some .oneOrMore) (After (After first value) last) (u ++ (v ++ parts.flatten) ++ w) := by
  induction parts generalizing u v with
  | nil =>
      refine ⟨[u ++ v ++ w], Nat.le_refl 1, fun part hpart => ?_, by simp⟩
      rw [List.mem_singleton.1 hpart]
      exact ⟨u ++ v, w, rfl, ⟨u, v, rfl, hu, hv⟩, hw⟩
  | cons part parts ih =>
      obtain ⟨hpart, hothers⟩ := List.forall_mem_cons.1 hparts
      obtain ⟨_, v', rfl, ⟨w', u', rfl, hw', hu'⟩, hv'⟩ := hpart
      obtain ⟨rest, hcount, hrest, hflatten⟩ := ih hothers hu' hv'
      refine ⟨(u ++ v ++ w') :: rest, Nat.succ_le_succ (Nat.zero_le _),
        List.forall_mem_cons.2 ⟨⟨u ++ v, w', rfl, ⟨u, v, rfl, hu, hv⟩, hw'⟩, hrest⟩, ?_⟩
      rw [List.flatten_cons, List.flatten_cons, ← hflatten]
      simp

theorem separated_of_times {parts : List (List Char)} (hne : parts ≠ [])
    (hparts : ∀ part ∈ parts, After (After first value) last part) :
    After (After first (After value (Times (some .zeroOrMore) (After (After last first) value))))
      last parts.flatten := by
  induction parts with
  | nil => exact absurd rfl hne
  | cons part parts ih =>
      obtain ⟨hpart, hothers⟩ := List.forall_mem_cons.1 hparts
      obtain ⟨_, w, rfl, ⟨u, v, rfl, hu, hv⟩, hw⟩ := hpart
      by_cases hrest : parts = []
      · subst hrest
        refine ⟨u ++ v, w, by simp, ⟨u, v, rfl, hu, v, [], by simp, hv, [], trivial, ?_, rfl⟩, hw⟩
        exact fun _ hpart => absurd hpart List.not_mem_nil
      · obtain ⟨_, w', hflatten, ⟨u', _, rfl, hu', v', _, rfl, hv', further, -, hfurther, rfl⟩, hw'⟩ :=
          ih hrest hothers
        refine ⟨u ++ (v ++ ((w ++ u' ++ v') :: further).flatten), w', ?_,
          ⟨u, _, rfl, hu, v, _, rfl, hv, (w ++ u' ++ v') :: further, trivial, ?_, rfl⟩, hw'⟩
        · rw [List.flatten_cons, List.flatten_cons, hflatten]
          simp
        · exact List.forall_mem_cons.2 ⟨⟨w ++ u', v', rfl, ⟨w, u', rfl, hw, hu'⟩, hv'⟩, hfurther⟩

theorem times_iff_separated {text : List Char} :
    After (After first (After value (Times (some .zeroOrMore) (After (After last first) value))))
        last text ↔
      Times (some .oneOrMore) (After (After first value) last) text := by
  constructor
  · rintro ⟨_, w, rfl, ⟨u, _, rfl, hu, v, _, rfl, hv, parts, -, hparts, rfl⟩, hw⟩
    exact times_of_separated hparts hu hv hw
  · rintro ⟨parts, hcount, hparts, rfl⟩
    exact separated_of_times (List.length_pos_iff.1 hcount) hparts

end Regrouping

end Denotations

namespace Key

variable {options : Options} {key : Key}

/-- The texts that the group of a parameter captures. -/
def Inside (options : Options) (key : Key) : List Char → Prop :=
  if key.repeats then
    if key.isBare then Times key.quantifier options.IsValue
    else
      After options.IsValue (Times (some .zeroOrMore)
        (After (After (options.Spells key.after) (options.Spells key.before)) options.IsValue))
  else options.IsValue

theorem denotes_inside (options : Options) (key : Key) :
    (row (key.insideItems options)).Denotes (key.Inside options) := by
  have hvalue := denotes_valueItem options
  unfold insideItems Inside
  split
  · split
    · exact (denotes_quantifiedItem hvalue key.quantifier).all.row
    · have hfurther := (((denoteAll_textItems options key.after).append
        (denoteAll_textItems options key.before)).append hvalue.all).row
      exact (hvalue.all.append (denotes_quantifiedItem hfurther (some .zeroOrMore)).all).row
  · exact hvalue.all.row

theorem fills_iff {text : List Char} :
    key.Fills options text ↔
      After (After (options.Spells key.before) options.IsValue) (options.Spells key.after) text := by
  constructor
  · rintro ⟨u, v, w, rfl, hu, hv, hw⟩
    exact ⟨u ++ v, w, rfl, ⟨u, v, rfl, hu, hv⟩, hw⟩
  · rintro ⟨_, w, rfl, ⟨u, v, rfl, hu, hv⟩, hw⟩
    exact ⟨u, v, w, rfl, hu, hv, hw⟩

/-- The texts that the group of a parameter captures, given those that one value may be. -/
def InsideOf (options : Options) (value : List Char → Prop) (key : Key) : List Char → Prop :=
  if key.repeats then
    if key.isBare then Times key.quantifier value
    else
      After value (Times (some .zeroOrMore)
        (After (After (options.Spells key.after) (options.Spells key.before)) value))
  else value

/-- A text of some kind between the text before and after each value. -/
def Framed (options : Options) (inner : List Char → Prop) (key : Key) : List Char → Prop :=
  After (After (options.Spells key.before) inner) (options.Spells key.after)

/-- The texts that a parameter stands for, given those that one value may be: as many values as its
quantifier allows, each with the text around it. -/
def Means (options : Options) (value : List Char → Prop) (key : Key) : List Char → Prop :=
  Times key.quantifier (key.Framed options value)

variable {value : List Char → Prop}

/-- Without text around it, a value is all of what fills a parameter. -/
theorem framed_iff_of_isBare (hbare : key.isBare = true) {text : List Char} :
    key.Framed options value text ↔ value text := by
  simp only [isBare, Bool.and_eq_true, List.isEmpty_iff] at hbare
  rw [Framed, hbare.1, hbare.2]
  constructor
  · rintro ⟨_, w, rfl, ⟨u, v, rfl, hu, hv⟩, hw⟩
    cases u with
    | cons => exact absurd hu id
    | nil =>
        cases w with
        | cons => exact absurd hw id
        | nil => simpa using hv
  · exact fun h => ⟨text, [], by simp, ⟨[], text, rfl, trivial, h⟩, trivial⟩

/-- The text around the group of a parameter and the last quantifier make of what the group captures
what the parameter stands for. -/
theorem times_outer_iff (options : Options) (value : List Char → Prop) (key : Key)
    (text : List Char) :
    Times key.outer
        (if key.isBare then key.InsideOf options value
          else key.Framed options (key.InsideOf options value)) text ↔
      key.Means options value text := by
  unfold Means
  by_cases hbare : key.isBare = true
  · rw [Times.congr (fun _ => framed_iff_of_isBare hbare)]
    simp only [hbare, ↓reduceIte, InsideOf, outer, repeats, mayBeAbsent]
    rcases Quantifier.eq_cases key.quantifier with h | h | h | h <;>
      simp [h, Quantifier.repeats, Quantifier.mayBeAbsent, times_none]
  · simp only [hbare, Framed, InsideOf, outer, repeats, mayBeAbsent]
    rcases Quantifier.eq_cases key.quantifier with h | h | h | h <;>
      simp [h, Quantifier.repeats, Quantifier.mayBeAbsent, times_none, times_iff_separated]
    rw [Times.congr fun _ => times_iff_separated]
    exact times_optional

/-- The item of a parameter denotes as many values as its quantifier allows, each with the text
around it. -/
theorem denotes_item (options : Options) (key : Key) (index : Nat) :
    (key.item options index).Denotes (Times key.quantifier (key.Fills options)) := by
  have hgroup : (key.groupItem options index).Denotes (key.Inside options) :=
    (denotes_inside options key).group (index + 1)
  have hbefore := denoteAll_textItems options key.before
  have hafter := denoteAll_textItems options key.after
  have hframed : (key.framedItem options index).Denotes
      (if key.isBare then key.Inside options
        else After (After (options.Spells key.before) (key.Inside options))
          (options.Spells key.after)) := by
    unfold framedItem
    split
    · exact hgroup
    · exact ((hbefore.append hgroup.all).append hafter).row
  refine (denotes_quantifiedItem hframed key.outer).congr fun w => ?_
  rw [Times.congr fun _ => fills_iff]
  exact times_outer_iff options options.IsValue key w

end Key

namespace Segment

variable {options : Options}

theorem denoteAll_items (options : Options) (segment : Segment) (index : Nat) :
    DenoteAll (segment.items options index) (segment.Yields options) := by
  cases segment with
  | literal text => exact denoteAll_textItems options text
  | key parameter => exact (parameter.denotes_item options index).all
  | group before after quantifier =>
      have htext := (denoteAll_textItems options before).append (denoteAll_textItems options after)
      refine (denotes_quantifiedItem htext.row quantifier).all.congr fun w => ?_
      exact Times.congr (fun _ => spells_append.symm) w

/-- The items of segments denote the texts that the segments stand for. -/
theorem denoteAll_allItems (options : Options) (segments : List Segment) (index : Nat) :
    DenoteAll (allItems options index segments) (Generates options segments) := by
  induction segments generalizing index with
  | nil => exact Regex.Expr.denoteAll_nil
  | cons segment segments ih =>
      exact (segment.denoteAll_items options index).append (ih (index + segment.groups))

end Segment

section Whole

variable {options : Options} {segments : List Segment}

/-- What may follow the segments up to the end of the path: nothing, or one delimiter unless the
pattern is strict. -/
def Options.Ends (options : Options) (text : List Char) : Prop :=
  text = [] ∨ options.strict = false ∧ ∃ c, text = [c] ∧ options.separates c = true

theorem denoteAll_optionalDelimiter (options : Options) :
    DenoteAll
      (if !options.delimiter.isEmpty && !options.strict then
        [quantifiedItem (some .optional)
          (.set (classSet false options.delimiter) (!options.sensitive))] else [])
      options.Ends := by
  have hseparates : ∀ c, (classSet false options.delimiter).contains (!options.sensitive) c =
      options.separates c := by
    intro c
    rw [contains_classSet, Bool.bne_false]
    rfl
  split
  · next hcondition =>
    simp only [Bool.and_eq_true, Bool.not_eq_true'] at hcondition
    have hset := Regex.Expr.denotes_set (classSet false options.delimiter) (!options.sensitive)
    refine (denotes_quantifiedItem hset (some .optional)).all.congr fun w => ?_
    constructor
    · rintro ⟨parts, hcount, hparts, rfl⟩
      cases parts with
      | nil => exact .inl rfl
      | cons part parts =>
          obtain rfl : parts = [] :=
            List.length_eq_zero_iff.1 (Nat.le_zero.1 (Nat.le_of_succ_le_succ hcount))
          obtain ⟨c, rfl, hc⟩ := hparts part List.mem_cons_self
          exact .inr ⟨hcondition.2, c, rfl, hseparates c ▸ hc⟩
    · rintro (rfl | ⟨-, c, rfl, hc⟩)
      · exact ⟨[], Nat.zero_le 1, fun _ hpart => absurd hpart List.not_mem_nil, rfl⟩
      · refine ⟨[[c]], Nat.le_refl 1, fun part hpart => ?_, rfl⟩
        exact ⟨c, List.mem_singleton.1 hpart, (hseparates c).trans hc⟩
  · next hcondition =>
    refine Regex.Expr.denoteAll_nil.congr fun w => ⟨.inl, ?_⟩
    rintro (rfl | ⟨hstrict, c, rfl, hc⟩)
    · rfl
    · exfalso
      apply hcondition
      cases hdelimiter : options.delimiter with
      | nil => simp [Options.separates, hdelimiter] at hc
      | cons d rest => simp [hstrict]

/-- After the segments, a match leaves nothing of the path. -/
theorem runsAll_endItems {text : Array Char} {s : Regex.State} :
    (∃ t, Regex.Expr.RunsAll text options.endItems s t) ↔
      ∃ d, options.Ends d ∧ Between text s.position d text.size := by
  rw [← denoteAll_optionalDelimiter options text s text.size, Options.endItems]
  constructor
  · rintro ⟨t, ht⟩
    obtain ⟨m, hm, hend⟩ := Regex.Expr.runsAll_append.1 ht
    obtain ⟨hholds, rfl⟩ := Regex.Expr.runsAll_singleton.1 hend
    exact ⟨t, hm, by simpa [Regex.Anchor.holds] using hholds⟩
  · rintro ⟨m, hm, hend⟩
    refine ⟨m, Regex.Expr.runsAll_append.2 ⟨m, hm, Regex.Expr.runsAll_singleton.2 ⟨?_, rfl⟩⟩⟩
    simpa [Regex.Anchor.holds] using hend

/-- A match of the items of a whole pattern begins where the path begins and leaves nothing. -/
theorem runsAll_wholeItems {text : Array Char} {first : Nat} :
    (∃ t, Regex.Expr.RunsAll text (wholeItems options segments) (.start first) t) ↔
      first = 0 ∧ ∃ r d, text.toList = r ++ d ∧ Segment.Generates options segments r ∧
        options.Ends d := by
  have hitems := Segment.denoteAll_allItems options segments 0 text
  constructor
  · rintro ⟨t, ht⟩
    obtain ⟨m, hm, hend⟩ := Regex.Expr.runsAll_append.1 ht
    obtain ⟨l, hstart, hm⟩ := Regex.Expr.runsAll_append.1 hm
    obtain ⟨hholds, rfl⟩ := Regex.Expr.runsAll_singleton.1 hstart
    have hfirst : first = 0 := by simpa [Regex.Anchor.holds, Regex.State.start] using hholds
    obtain ⟨r, hr, hfront⟩ := (hitems _ m.position).1 ⟨m, hm, rfl⟩
    obtain ⟨d, hd, hrest⟩ := runsAll_endItems.1 ⟨t, hend⟩
    subst hfirst
    exact ⟨rfl, r, d, Regex.between_size.1 (Regex.between_append.2 ⟨_, hfront, hrest⟩), hr, hd⟩
  · rintro ⟨rfl, r, d, htext, hr, hd⟩
    obtain ⟨p, hfront, hrest⟩ := Regex.between_append.1 (Regex.between_size.2 htext)
    obtain ⟨m, hm, rfl⟩ := (hitems (.start 0) p).2 ⟨r, hr, hfront⟩
    obtain ⟨t, ht⟩ := runsAll_endItems.2 ⟨d, hd, hrest⟩
    refine ⟨t, Regex.Expr.runsAll_append.2 ⟨m, Regex.Expr.runsAll_append.2 ⟨.start 0, ?_, hm⟩, ht⟩⟩
    exact Regex.Expr.runsAll_singleton.2 ⟨rfl, rfl⟩

/-- The generated expression matches a path if the segments stand for all of it but what may follow
them. -/
theorem isSome_find?_iff (hwhole : options.Whole) (hdefaults : Defaults options segments)
    {regex : Regex}
    (hregex : Regex.compile? (withCase options (expression segments options)) = some regex)
    (text : List Char) :
    (regex.find? text.toArray).isSome ↔
      ∃ r d, text = r ++ d ∧ Segment.Generates options segments r ∧ options.Ends d := by
  obtain ⟨names, hcompile⟩ := compile?_expression hwhole hdefaults
    (solid_of_compile? hwhole hdefaults hregex)
  obtain rfl := Option.some.inj (hregex.symm.trans hcompile)
  have hplain := (Regex.Expr.plain_row (plain_wholeItems options segments)).1
  rw [Regex.find?_isSome_iff hplain]
  constructor
  · rintro ⟨first, -, t, ht⟩
    exact (runsAll_wholeItems.1 ⟨t, Regex.Expr.runs_row.1 ht⟩).2
  · rintro ⟨r, d, htext, hr, hd⟩
    obtain ⟨t, ht⟩ := runsAll_wholeItems.2 ⟨rfl, r, d, by simpa using htext, hr, hd⟩
    exact ⟨0, Nat.zero_le _, t, Regex.Expr.runs_row.2 ht⟩

end Whole

end Waymark.Pattern
