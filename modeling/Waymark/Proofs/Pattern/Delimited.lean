import Waymark.Pattern.Builder
import Waymark.Proofs.Pattern.Captures
/-!
Patterns whose parameters end at a delimiter.

A path that is built from such a pattern can be read in one way only: a value ends where the first
delimiter stands, and only the last parameter may be absent or repeated. So the groups capture what
the path was built of (`groupText_of_built`).
-/

namespace Waymark.Pattern

open Regex (Between Expr State)
open Regex.Expr (RunsAll runsAll_append runsAll_singleton)

/-- A segment that begins with a delimiter, unless it is passed over. -/
def Segment.StartsDelimited (options : Options) : Segment → Prop
  | .literal text => ∃ d ∈ options.delimiter, text.head? = some d
  | .key parameter => ∃ d ∈ options.delimiter, parameter.before.head? = some d
  | .group .. => False

/-- Every parameter but the last segment has no quantifier and a delimiter after it; one with a
quantifier comes last and has a delimiter before each value. -/
def Delimited (options : Options) : List Segment → Prop
  | [] => True
  | .key parameter :: rest =>
      (match rest with
        | [] => parameter.quantifier = none ∨ ∃ d ∈ options.delimiter, parameter.before = [d]
        | next :: _ => parameter.quantifier = none ∧ next.StartsDelimited options) ∧
        Delimited options rest
  | _ :: rest => Delimited options rest

/-- A segment of a pattern without braces. -/
def Segment.Unbraced : Segment → Prop
  | .literal _ => True
  | .key parameter => parameter.after = []
  | .group .. => False

/-- A parameter is given a value of the kind that its quantifier asks for. -/
def Key.Takes (options : Options) (key : Key) (value : Option ParamValue) : Prop :=
  match key.quantifier, value with
  | none, some (.single text) | some .optional, some (.single text) => options.IsValue text.toList
  | some .optional, none | some .zeroOrMore, none => True
  | some .zeroOrMore, some (.repeated texts) | some .oneOrMore, some (.repeated texts) =>
      texts ≠ [] ∧ ∀ text ∈ texts, options.IsValue text.toList
  | _, _ => False

/-- What a parameter contributes to a path. -/
def Key.built (key : Key) : Option ParamValue → List Char
  | none => []
  | some (.single text) => key.before ++ text.toList ++ key.after
  | some (.repeated texts) =>
      (texts.map fun text => key.before ++ text.toList ++ key.after).flatten

/-- What a segment contributes to a path. -/
def Segment.built (params : Params) : Segment → List Char
  | .literal text => text
  | .key parameter => parameter.built (params.value? parameter.name.text)
  | .group before after quantifier =>
      if quantifier.any Quantifier.mayBeAbsent then [] else before ++ after

/-- What the group of a parameter captures of a path that was built. -/
def Key.recovered (key : Key) : Option ParamValue → Option (List Char)
  | none => none
  | some (.single text) => some text.toList
  | some (.repeated texts) =>
      some (List.intercalate (key.after ++ key.before) (texts.map String.toList))

section Uniqueness

variable {options : Options}

/-- Nothing, or text that begins with a delimiter. -/
def Options.Breaks (options : Options) (text : List Char) : Prop :=
  ∀ c ∈ text.head?, options.separates c = true

/-- A value ends where the first delimiter stands. -/
theorem eq_of_breaks {value value' rest rest' : List Char} (hvalue : options.IsValue value)
    (hvalue' : options.IsValue value') (hrest : options.Breaks rest) (hrest' : options.Breaks rest')
    (h : value ++ rest = value' ++ rest') : value = value' ∧ rest = rest' := by
  obtain ⟨-, hvalue⟩ := hvalue
  obtain ⟨-, hvalue'⟩ := hvalue'
  induction value generalizing value' with
  | nil =>
      cases value' with
      | nil => exact ⟨rfl, h⟩
      | cons c value' =>
          have hbreak := hrest c (by rw [show rest = c :: (value' ++ rest') from h]; rfl)
          rw [hvalue' c List.mem_cons_self] at hbreak
          exact absurd hbreak (by simp)
  | cons c value ih =>
      cases value' with
      | nil =>
          have hbreak := hrest' c (by rw [← show c :: (value ++ rest) = rest' from h]; rfl)
          rw [hvalue c List.mem_cons_self] at hbreak
          exact absurd hbreak (by simp)
      | cons c' value' =>
          obtain ⟨rfl, htail⟩ := List.cons.inj h
          obtain ⟨rfl, hrest⟩ := ih htail (fun d hd => hvalue d (List.mem_cons_of_mem c hd))
            fun d hd => hvalue' d (List.mem_cons_of_mem c hd)
          exact ⟨rfl, hrest⟩

theorem breaks_of_ends {text : List Char} (h : options.Ends text) : options.Breaks text := by
  rcases h with rfl | ⟨-, c, rfl, hc⟩
  · exact fun c hc => absurd hc (by simp)
  · intro d hd
    rw [← Option.some.inj hd]
    exact hc

theorem breaks_of_spells {written text rest : List Char} {d : Char} (hd : d ∈ options.delimiter)
    (hwritten : written.head? = some d) (h : options.Spells written text) :
    options.Breaks (text ++ rest) := by
  cases written with
  | nil => exact absurd hwritten (by simp)
  | cons e written =>
      obtain rfl : e = d := Option.some.inj hwritten
      cases text with
      | nil => exact absurd h id
      | cons c text =>
          intro c' hc'
          rw [← Option.some.inj hc']
          exact List.any_eq_true.2 ⟨e, hd, h.1⟩

/-- What follows a parameter begins with a delimiter, unless it is empty. -/
theorem breaks_of_generates {segments : List Segment} (hdelimited : Delimited options segments)
    (hstarts : ∀ segment ∈ segments.head?, segment.StartsDelimited options) {text rest : List Char}
    (h : Segment.Generates options segments text) (hends : options.Ends rest) :
    options.Breaks (text ++ rest) := by
  cases segments with
  | nil =>
      rw [show text = [] from h, List.nil_append]
      exact breaks_of_ends hends
  | cons segment segments =>
      obtain ⟨front, back, rfl, hfront, hback⟩ := h
      obtain hstart := hstarts segment rfl
      rw [List.append_assoc]
      cases segment with
      | literal written =>
          obtain ⟨d, hd, hhead⟩ := hstart
          exact breaks_of_spells hd hhead hfront
      | group => exact absurd hstart id
      | key parameter =>
          obtain ⟨d, hd, hhead⟩ := hstart
          obtain ⟨parts, hcount, hparts, rfl⟩ := hfront
          cases parts with
          | cons part parts =>
              obtain ⟨before, value, after, rfl, hbefore, -, -⟩ := hparts part List.mem_cons_self
              simp only [List.flatten_cons, List.append_assoc]
              exact breaks_of_spells hd hhead hbefore
          | nil =>
              -- A parameter that is passed over comes last.
              cases segments with
              | nil =>
                  rw [show back = [] from hback]
                  exact breaks_of_ends hends
              | cons next segments =>
                  rw [hdelimited.1.1] at hcount
                  exact absurd hcount (by simp [Quantifier.Allows])

/-- Text that ends within a value. -/
def Options.EndsInValue (options : Options) (text : List Char) : Prop :=
  ∃ c, text.getLast? = some c ∧ options.separates c = false

theorem endsInValue_of_isValue {text : List Char} (h : options.IsValue text) :
    options.EndsInValue text := by
  obtain ⟨hne, hvalue⟩ := h
  exact ⟨text.getLast hne, List.getLast?_eq_some_getLast hne,
    hvalue _ (List.getLast_mem hne)⟩

theorem Options.EndsInValue.append {text : List Char} (h : options.EndsInValue text)
    (front : List Char) : options.EndsInValue (front ++ text) := by
  obtain ⟨c, hlast, hc⟩ := h
  exact ⟨c, by rw [List.getLast?_append, hlast, Option.some_or], hc⟩

/-- No delimiter is left over after text that ends within a value. -/
theorem eq_of_endsInValue {text front rest : List Char} (h : options.EndsInValue text)
    (hends : options.Ends rest) (heq : text = front ++ rest) : text = front := by
  rcases hends with rfl | ⟨-, c, rfl, hc⟩
  · rw [heq, List.append_nil]
  · obtain ⟨c', hlast, hc'⟩ := h
    rw [heq, List.getLast?_append, List.getLast?_singleton, Option.some_or] at hlast
    rw [← Option.some.inj hlast, hc] at hc'
    exact absurd hc' (by simp)

theorem endsInValue_intercalate {separator : List Char} {texts : List (List Char)}
    (hne : texts ≠ []) (h : ∀ text ∈ texts, options.IsValue text) :
    options.EndsInValue (List.intercalate separator texts) := by
  induction texts with
  | nil => exact absurd rfl hne
  | cons text texts ih =>
      obtain ⟨htext, htexts⟩ := List.forall_mem_cons.1 h
      cases texts with
      | nil =>
          rw [List.intercalate_singleton]
          exact endsInValue_of_isValue htext
      | cons other texts =>
          rw [List.intercalate_cons_cons]
          exact (ih (List.cons_ne_nil _ _) htexts).append (text ++ separator)

theorem flatten_eq_append_intercalate (front : List Char) {texts : List String} (hne : texts ≠ []) :
    (texts.map fun text => front ++ text.toList).flatten =
      front ++ List.intercalate front (texts.map String.toList) := by
  induction texts with
  | nil => exact absurd rfl hne
  | cons text texts ih =>
      cases texts with
      | nil => simp
      | cons other texts =>
          rw [List.map_cons, List.flatten_cons, ih (List.cons_ne_nil _ _)]
          simp only [List.map_cons, List.intercalate_cons_cons, List.append_assoc]

namespace Key

variable {key : Key} {value : Option ParamValue}

/-- The kinds of values that a parameter may be given. -/
theorem takes_cases (h : key.Takes options value) :
    (value = none ∧ key.mayBeAbsent = true) ∨
      (∃ text, value = some (.single text) ∧ key.repeats = false ∧ options.IsValue text.toList) ∨
      ∃ texts, value = some (.repeated texts) ∧ key.repeats = true ∧ texts ≠ [] ∧
        ∀ text ∈ texts, options.IsValue text.toList := by
  unfold Takes at h
  unfold mayBeAbsent repeats
  rcases Quantifier.eq_cases key.quantifier with hquantifier | hquantifier | hquantifier |
    hquantifier <;> rcases value with _ | _ | _ <;>
    simp_all [Quantifier.repeats, Quantifier.mayBeAbsent]

/-- A parameter that is given a value contributes the text before it and what is recovered. -/
theorem built_eq (hafter : key.after = []) (htakes : key.Takes options value) {text : List Char}
    (h : key.recovered value = some text) :
    key.built value = key.before ++ text ∧ options.EndsInValue text := by
  rcases takes_cases htakes with ⟨rfl, -⟩ | ⟨single, rfl, -, hvalue⟩ | ⟨texts, rfl, -, hne, hvalues⟩
  · exact absurd h (by simp [recovered])
  · obtain rfl := Option.some.inj h
    refine ⟨?_, endsInValue_of_isValue hvalue⟩
    rw [built, hafter, List.append_nil]
  · obtain rfl := Option.some.inj h
    refine ⟨?_, endsInValue_intercalate (by simpa using hne) ?_⟩
    · simp only [built, hafter, List.append_nil, List.nil_append]
      exact flatten_eq_append_intercalate key.before hne
    · intro text htext
      obtain ⟨written, hwritten, rfl⟩ := List.mem_map.1 htext
      exact hvalues written hwritten

theorem built_none (h : key.recovered value = none) : key.built value = [] := by
  cases value with
  | none => rfl
  | some value => cases value <;> exact absurd h (by simp [recovered])

/-- A parameter without a quantifier is given one value. -/
theorem exists_isValue (hquantifier : key.quantifier = none) (htakes : key.Takes options value) :
    ∃ text, key.recovered value = some text ∧ options.IsValue text := by
  rcases takes_cases htakes with ⟨-, habsent⟩ | ⟨text, rfl, -, hvalue⟩ | ⟨-, -, hrepeats, -⟩
  · rw [mayBeAbsent, hquantifier] at habsent
    exact absurd habsent (by simp)
  · exact ⟨text.toList, rfl, hvalue⟩
  · rw [repeats, hquantifier] at hrepeats
    exact absurd hrepeats (by simp)

end Key

end Uniqueness

/-- The text of a group in a state. -/
def groupText (text : Array Char) (state : State) (group : Nat) : Option (List Char) :=
  (state.span? group).map fun span => Regex.slice text span.1 span.2

section Captures

variable {options : Options} {text : Array Char} {params : Params}

namespace Key

variable {key : Key} {value : Option ParamValue}

/-- Where a delimiter or nothing follows a parameter without a quantifier, its group captures the
value. -/
theorem groupText_of_delimited {index : Nat} {s t : State} {rest : List Char}
    (hquantifier : key.quantifier = none) (hafter : key.after = [])
    (htakes : key.Takes options value) (hrun : (key.item options index).Runs text s t)
    (htext : text.toList.drop s.position = key.built value ++ rest)
    (hrest : options.Breaks rest) (htail : options.Breaks (text.toList.drop t.position)) :
    text.toList.drop t.position = rest ∧
      groupText text t (index + 1) = key.recovered value := by
  obtain ⟨single, hrecovered, hsingle⟩ := exists_isValue hquantifier htakes
  rcases captured_of_runs hrun with ⟨habsent, -⟩ | ⟨b, w, a, p, q, hb, hw, ha, hfront, hvalue, hback,
    hspan⟩
  · rw [mayBeAbsent, hquantifier] at habsent
    exact absurd habsent (by simp)
  · have hinside : options.IsValue w := by
      rw [Inside, repeats, hquantifier] at hw
      exact hw
    rw [hafter] at ha
    obtain rfl : a = [] := List.length_eq_zero_iff.1 ha.length_eq
    obtain rfl : t.position = q := hback
    rw [(built_eq hafter htakes hrecovered).1, hfront.drop, hvalue.drop, List.append_assoc] at htext
    obtain ⟨-, htext⟩ := List.append_inj htext hb.length_eq
    obtain ⟨rfl, hdrop⟩ := eq_of_breaks hinside hsingle htail hrest htext
    refine ⟨hdrop, ?_⟩
    rw [groupText, hspan, hrecovered, Option.map_some, hvalue.slice_eq]

/-- The group of the last parameter captures what is recovered, or nothing if it was passed over. -/
theorem groupText_of_last {index : Nat} {s t : State} {d : Char} (hbefore : key.before = [d])
    (hafter : key.after = []) (htakes : key.Takes options value)
    (hrun : (key.item options index).Runs text s t) (hnone : s.span? (index + 1) = none)
    (htext : text.toList.drop s.position = key.built value)
    (hends : options.Ends (text.toList.drop t.position)) :
    groupText text t (index + 1) = key.recovered value := by
  rcases captured_of_runs hrun with ⟨-, rfl⟩ | ⟨b, w, a, p, q, hb, hw, ha, hfront, hvalue, hback,
    hspan⟩
  · -- What is left over is at most a delimiter, too short for a value with the text before it.
    rw [groupText, hnone, Option.map_none]
    cases hrecovered : key.recovered value with
    | none => rfl
    | some single =>
        obtain ⟨hbuilt, hsingle⟩ := built_eq hafter htakes hrecovered
        rw [htext, hbuilt, hbefore] at hends
        have hempty := eq_of_endsInValue (hsingle.append [d]) hends (List.nil_append _).symm
        exact absurd hempty (by simp)
  · rw [hafter] at ha
    obtain rfl : a = [] := List.length_eq_zero_iff.1 ha.length_eq
    obtain rfl : t.position = q := hback
    rw [groupText, hspan, Option.map_some, hvalue.slice_eq]
    rw [hfront.drop, hvalue.drop] at htext
    cases hrecovered : key.recovered value with
    | none =>
        rw [built_none hrecovered] at htext
        have hlength := hb.length_eq
        rw [(List.append_eq_nil_iff.1 htext).1, hbefore] at hlength
        exact absurd hlength (by simp)
    | some single =>
        obtain ⟨hbuilt, hsingle⟩ := built_eq hafter htakes hrecovered
        rw [hbuilt] at htext
        obtain ⟨-, htext⟩ := List.append_inj htext hb.length_eq
        rw [eq_of_endsInValue hsingle hends htext.symm]

end Key

/-- What segments contribute to a path. -/
def builtPath (params : Params) (segments : List Segment) : List Char :=
  segments.flatMap (Segment.built params)

theorem allows_one (quantifier : Option Quantifier) : Quantifier.Allows quantifier 1 := by
  rcases quantifier with _ | _ | _ | _ <;> simp [Quantifier.Allows]

theorem allows_zero {quantifier : Option Quantifier}
    (h : quantifier.any Quantifier.mayBeAbsent = true) : Quantifier.Allows quantifier 0 := by
  rcases quantifier with _ | _ | _ | _ <;>
    simp_all [Quantifier.Allows, Quantifier.mayBeAbsent]

theorem allows_of_repeats {quantifier : Option Quantifier}
    (h : quantifier.any Quantifier.repeats = true) {count : Nat} (hcount : 1 ≤ count) :
    Quantifier.Allows quantifier count := by
  rcases quantifier with _ | _ | _ | _ <;>
    simp_all [Quantifier.Allows, Quantifier.repeats]

/-- Nothing is what may be absent, as often as its quantifier allows. -/
theorem times_nil {quantifier : Option Quantifier} {once : List Char → Prop}
    (h : quantifier.any Quantifier.mayBeAbsent = true) : Times quantifier once [] :=
  ⟨[], allows_zero h, fun _ hpart => absurd hpart List.not_mem_nil, rfl⟩

theorem times_one (quantifier : Option Quantifier) {once : List Char → Prop} {text : List Char}
    (h : once text) : Times quantifier once text :=
  ⟨[text], allows_one quantifier, List.forall_mem_singleton.2 h, List.flatten_singleton.symm⟩

theorem times_flatten {quantifier : Option Quantifier} {once : List Char → Prop}
    (hrepeats : quantifier.any Quantifier.repeats = true) {texts : List (List Char)}
    (hne : texts ≠ []) (h : ∀ text ∈ texts, once text) : Times quantifier once texts.flatten :=
  ⟨texts, allows_of_repeats hrepeats (List.length_pos_iff.2 hne), h, rfl⟩

theorem Key.fills_self (key : Key) {value : List Char} (h : options.IsValue value) :
    key.Fills options (key.before ++ value ++ key.after) :=
  ⟨key.before, value, key.after, rfl, spells_self options key.before, h,
    spells_self options key.after⟩

theorem Key.yields_built {key : Key} {value : Option ParamValue}
    (htakes : key.Takes options value) :
    Times key.quantifier (key.Fills options) (key.built value) := by
  rcases takes_cases htakes with ⟨rfl, habsent⟩ | ⟨text, rfl, -, hvalue⟩ | ⟨texts, rfl, hrepeats,
    hne, hvalues⟩
  · exact times_nil habsent
  · exact times_one key.quantifier (key.fills_self hvalue)
  · refine times_flatten hrepeats (by simpa using hne) fun part hpart => ?_
    obtain ⟨text, htext, rfl⟩ := List.mem_map.1 hpart
    exact key.fills_self (hvalues text htext)

theorem Segment.yields_built {segment : Segment}
    (hparams : ∀ key, segment = .key key → key.Takes options (params.value? key.name.text)) :
    segment.Yields options (segment.built params) := by
  cases segment with
  | literal written => exact spells_self options written
  | key parameter => exact Key.yields_built (hparams parameter rfl)
  | group before after quantifier =>
      simp only [Segment.built]
      by_cases habsent : quantifier.any Quantifier.mayBeAbsent = true
      · rw [if_pos habsent]
        exact times_nil habsent
      · rw [if_neg habsent]
        exact times_one quantifier (spells_self options (before ++ after))

/-- Every parameter is given a value of its kind. -/
def Suits (options : Options) (segments : List Segment) (params : Params) : Prop :=
  ∀ key ∈ Segment.keys segments, key.Takes options (params.value? key.name.text)

theorem Suits.tail {segment : Segment} {segments : List Segment}
    (h : Suits options (segment :: segments) params) : Suits options segments params := by
  intro key hkey
  refine h key ?_
  obtain ⟨other, hother, heq⟩ := List.mem_filterMap.1 hkey
  exact List.mem_filterMap.2 ⟨other, List.mem_cons_of_mem segment hother, heq⟩

theorem Suits.head {parameter : Key} {segments : List Segment}
    (h : Suits options (.key parameter :: segments) params) :
    parameter.Takes options (params.value? parameter.name.text) :=
  h parameter List.mem_cons_self

/-- The path that is built is one that the segments stand for. -/
theorem generates_builtPath {segments : List Segment} (hsuits : Suits options segments params) :
    Segment.Generates options segments (builtPath params segments) := by
  induction segments with
  | nil => rfl
  | cons segment segments ih =>
      refine ⟨segment.built params, builtPath params segments, rfl, ?_, ih hsuits.tail⟩
      refine Segment.yields_built fun key hkey => ?_
      subst hkey
      exact hsuits.head

/-- A parameter that comes last captures what it was built of. -/
theorem Key.groupText_of_end {parameter : Key} (hdelimited : Delimited options [.key parameter])
    (hafter : parameter.after = []) (hsuits : Suits options [.key parameter] params) {index : Nat}
    {s t : State} (hrun : (parameter.item options index).Runs text s t)
    (hnone : s.span? (index + 1) = none)
    (htext : text.toList.drop s.position = parameter.built (params.value? parameter.name.text))
    (hends : options.Ends (text.toList.drop t.position)) :
    groupText text t (index + 1) = parameter.recovered (params.value? parameter.name.text) := by
  rcases hdelimited.1 with hquantifier | ⟨d, -, hbefore⟩
  · exact (groupText_of_delimited hquantifier hafter hsuits.head hrun
      (htext.trans (List.append_nil _).symm) (breaks_of_ends (Or.inl rfl))
      (breaks_of_ends hends)).2
  · exact groupText_of_last hbefore hafter hsuits.head hrun hnone htext hends

/-- A parameter before other segments captures what it was built of, and leaves what they were. -/
theorem Key.groupText_of_followed {parameter : Key} {next : Segment} {rest : List Segment}
    (hdelimited : Delimited options (.key parameter :: next :: rest))
    (hafter : parameter.after = [])
    (hsuits : Suits options (.key parameter :: next :: rest) params) {index : Nat} {s m t : State}
    (hrun : (parameter.item options index).Runs text s m)
    (hrest : RunsAll text (Segment.allItems options (index + 1) (next :: rest)) m t)
    (htext : text.toList.drop s.position =
      parameter.built (params.value? parameter.name.text) ++ builtPath params (next :: rest))
    (hends : options.Ends (text.toList.drop t.position)) :
    text.toList.drop m.position = builtPath params (next :: rest) ∧
      groupText text m (index + 1) = parameter.recovered (params.value? parameter.name.text) := by
  obtain ⟨hquantifier, hstarts⟩ := hdelimited.1
  have hnext : ∀ segment ∈ (next :: rest).head?, segment.StartsDelimited options := by
    intro segment hsegment
    rw [← Option.some.inj hsegment]
    exact hstarts
  obtain ⟨u, hu, hbetween⟩ :=
    (Segment.denoteAll_allItems options (next :: rest) (index + 1) text m t.position).1
      ⟨t, hrest, rfl⟩
  have htail := breaks_of_generates hdelimited.2 hnext hu hends
  rw [← hbetween.drop] at htail
  have hbuilt := breaks_of_generates hdelimited.2 hnext
    (generates_builtPath hsuits.tail) (Or.inl rfl)
  rw [List.append_nil] at hbuilt
  exact groupText_of_delimited hquantifier hafter hsuits.head hrun htext hbuilt htail

/-- Each group captures what the path was built of. -/
theorem groupText_of_built {segments : List Segment} (hdelimited : Delimited options segments)
    (hunbraced : ∀ segment ∈ segments, segment.Unbraced) (hsuits : Suits options segments params)
    {index : Nat} {s t : State}
    (hrun : RunsAll text (Segment.allItems options index segments) s t)
    (hfresh : ∀ group, index < group → s.span? group = none)
    (htext : text.toList.drop s.position = builtPath params segments)
    (hends : options.Ends (text.toList.drop t.position)) {number : Nat} {key : Key}
    (hkey : (Segment.keys segments)[number]? = some key) :
    groupText text t (index + number + 1) = key.recovered (params.value? key.name.text) := by
  induction segments generalizing index s number with
  | nil => exact absurd hkey (by simp [Segment.keys])
  | cons segment segments ih =>
      obtain ⟨m, hm, hrest⟩ := runsAll_append.1 hrun
      obtain ⟨hsegment, hothers⟩ := List.forall_mem_cons.1 hunbraced
      rw [builtPath, List.flatMap_cons, ← builtPath] at htext
      cases segment with
      | group => exact absurd hsegment id
      | literal written =>
          obtain ⟨w, hw, hbetween⟩ :=
            (denoteAll_textItems options written text s m.position).1 ⟨m, hm, rfl⟩
          rw [hbetween.drop] at htext
          obtain ⟨-, htext⟩ := List.append_inj htext hw.length_eq
          refine ih hdelimited hothers hsuits.tail hrest (fun group hgroup => ?_) htext hkey
          rw [Expr.span?_eq_of_runsAll hm (by simp [Segment.items, groups_textItems])]
          exact hfresh group hgroup
      | key parameter =>
          have hitem := runsAll_singleton.1 hm
          have hkept : ∀ group, index + 1 < group → m.span? group = s.span? group := by
            intro group hgroup
            refine Expr.span?_eq_of_runs hitem ?_
            rw [Key.groups_item, List.mem_singleton]
            omega
          have hlater : t.span? (index + 1) = m.span? (index + 1) := by
            refine Expr.span?_eq_of_runsAll hrest ?_
            rw [Segment.groups_allItems, List.mem_range'_1]
            simp only [Segment.groups]
            omega
          have hown : groupText text t (index + 1) = groupText text m (index + 1) := by
            rw [groupText, hlater, groupText]
          cases segments with
          | nil =>
              obtain rfl : t = m := hrest
              rw [builtPath, List.flatMap_nil, List.append_nil] at htext
              cases number with
              | succ number => exact absurd hkey (by simp [Segment.keys])
              | zero =>
                  obtain rfl := Option.some.inj hkey
                  exact Key.groupText_of_end hdelimited hsegment hsuits hitem
                    (hfresh _ (Nat.lt_succ_self index)) htext hends
          | cons next rest =>
              obtain ⟨hdrop, hcaptured⟩ := Key.groupText_of_followed hdelimited hsegment hsuits
                hitem hrest htext hends
              cases number with
              | zero =>
                  obtain rfl := Option.some.inj hkey
                  exact hown.trans hcaptured
              | succ number =>
                  rw [show index + (number + 1) + 1 = index + 1 + number + 1 by omega]
                  refine ih hdelimited.2 hothers hsuits.tail hrest (fun group hgroup => ?_) hdrop hkey
                  rw [Segment.groups] at hgroup
                  rw [hkept group hgroup]
                  exact hfresh group (Nat.lt_of_succ_lt hgroup)

end Captures

end Waymark.Pattern
