import Waymark.Proofs.Pattern.Building
import Waymark.Proofs.Pattern.Grouping
import Waymark.Proofs.Regex.Regular
/-!
What the expression of a route pattern matches, given what its values may be.

The tokens of a segment speak the language of the segment, whatever expressions its values have
(`voices_segments`). What ends the expression matches the empty text at the end of the path. So the
whole expression runs over every text that the segments stand for (`runs_of_compile?`).
-/

namespace Waymark.Pattern

open Regex (Becomes Expr Lays LaysOne Voices VoicesOne row)
open Regex.Expr (After RunsAll SpeakAll Speaks runsAll_append runsAll_singleton runs_row)

/-- The texts that a segment stands for, given those that the values of parameters may be. -/
def Segment.Means (options : Options) (value : Key → List Char → Prop) : Segment → List Char → Prop
  | .literal written => options.Spells written
  | .key parameter => parameter.Means options (value parameter)
  | .group before after quantifier =>
      Times quantifier (After (options.Spells before) (options.Spells after))

/-- The texts that segments stand for, one after the other. -/
def Segment.MeanAll (options : Options) (value : Key → List Char → Prop) :
    List Segment → List Char → Prop
  | [] => (· = [])
  | segment :: segments => After (segment.Means options value) (MeanAll options value segments)

section Voicing

variable {options : Options} {tokens : List Regex.Token} {language : List Char → Prop}

theorem voices_spelled (options : Options) (text : List Char) :
    Voices options.flags (spelled text) (options.Spells text) := by
  have hlays : Lays options.flags (spelled text) (· = options.textItems text) := by
    induction text with
    | nil => exact Regex.lays_nil options.flags
    | cons c text ih =>
        refine (Lays.append (Regex.laysOne_set options.flags (.single c)) ih).mono ?_
        rintro _ ⟨_, _, rfl, ⟨_, rfl, rfl⟩, rfl⟩
        rfl
  refine hlays.mono ?_
  rintro _ rfl
  exact ⟨denoteAll_textItems options text, fun item hitem => (plain_textItems item hitem).1⟩

/-- An item and the quantifier of a pattern, if there is one. -/
theorem voicesOne_quantified (h : VoicesOne options.flags tokens language)
    (quantifier : Option Quantifier) :
    VoicesOne options.flags (tokens ++ Quantifier.tokens quantifier)
      (Times quantifier language) := by
  cases quantifier with
  | none =>
      rw [Quantifier.tokens, List.append_nil]
      exact h.congr fun w => times_none.symm
  | some quantifier =>
      refine (h.quantified quantifier.least quantifier.most false).congr fun w => ?_
      simp only [Regex.Expr.Repeated, Times, admits_iff]

namespace Key

variable {key : Key} {value : List Regex.Token}

theorem becomes_insideTokens (h : Becomes options.flags value fun body => body.Speaks language) :
    Becomes options.flags (key.insideTokens value) fun body =>
      body.Speaks (key.InsideOf options language) := by
  have hgrouped : VoicesOne options.flags (grouped value) language := h.grouped
  unfold insideTokens InsideOf
  split
  · split
    · exact (voicesOne_quantified hgrouped key.quantifier).voices.becomes
    · have hfurther := ((voices_spelled options key.after).append
        (voices_spelled options key.before)).append hgrouped.voices
      have hloop := voicesOne_quantified hfurther.becomes.grouped (some .zeroOrMore)
      exact (hgrouped.voices.append hloop.voices).becomes
  · exact h

/-- A parameter stands for as many values as its quantifier allows, each with the text around it. -/
theorem voices_tokens (h : Becomes options.flags value fun body => body.Speaks language) :
    Voices options.flags (key.tokens value) (key.Means options language) := by
  have hgroup : VoicesOne options.flags (capturing (key.insideTokens value))
      (key.InsideOf options language) :=
    Regex.voicesOne_capturing (becomes_insideTokens h)
  have hframed : VoicesOne options.flags (key.framedTokens value)
      (if key.isBare then key.InsideOf options language
        else key.Framed options (key.InsideOf options language)) := by
    unfold framedTokens
    split
    · exact hgroup
    · exact (((voices_spelled options key.before).append hgroup.voices).append
        (voices_spelled options key.after)).becomes.grouped
  exact ((voicesOne_quantified hframed key.outer).congr
    (times_outer_iff options language key)).voices

end Key

variable {value : Key → List Regex.Token} {languages : Key → List Char → Prop}

theorem Segment.voices_tokens {segment : Segment}
    (h : ∀ key, segment = .key key → Becomes options.flags (value key) fun body =>
      body.Speaks (languages key)) :
    Voices options.flags (segment.tokens value) (segment.Means options languages) := by
  cases segment with
  | literal text => exact voices_spelled options text
  | key key => exact Key.voices_tokens (h key rfl)
  | group before after quantifier =>
      have htext := (voices_spelled options before).append (voices_spelled options after)
      exact (voicesOne_quantified htext.becomes.grouped quantifier).voices

/-- The tokens of segments speak the language of the segments. -/
theorem voices_segments {segments : List Segment}
    (h : ∀ key ∈ Segment.keys segments, Becomes options.flags (value key) fun body =>
      body.Speaks (languages key)) :
    Voices options.flags (segments.flatMap (Segment.tokens value))
      (Segment.MeanAll options languages segments) := by
  induction segments with
  | nil => exact Voices.nil options.flags
  | cons segment segments ih =>
      have hfirst : Voices options.flags (segment.tokens value)
          (segment.Means options languages) := by
        refine Segment.voices_tokens fun key hkey => h key (mem_keys_iff.2 ?_)
        exact hkey ▸ List.mem_cons_self
      refine hfirst.append (ih fun key hkey => h key (mem_keys_iff.2 ?_))
      exact List.mem_cons_of_mem segment (mem_keys_iff.1 hkey)

end Voicing

section Ends

/-- Items that match the empty text at the end of a text, and are certain. -/
structure Rests (items : List Expr) : Prop where
  runs : ∀ (text : Array Char) (s : Regex.State), s.position = text.size → RunsAll text items s s
  certain : ∀ item ∈ items, item.isCertain = true

theorem rests_nil : Rests [] :=
  ⟨fun _ _ _ => rfl, fun _ h => absurd h List.not_mem_nil⟩

theorem rests_singleton {item : Expr} (hcertain : item.isCertain = true)
    (h : ∀ (text : Array Char) (s : Regex.State), s.position = text.size → item.Runs text s s) :
    Rests [item] :=
  ⟨fun text s hs => runsAll_singleton.2 (h text s hs), List.forall_mem_singleton.2 hcertain⟩

theorem Rests.append {items others : List Expr} (h : Rests items) (hothers : Rests others) :
    Rests (items ++ others) := by
  refine ⟨fun text s hs => runsAll_append.2 ⟨s, h.runs text s hs, hothers.runs text s hs⟩, ?_⟩
  intro item hitem
  rcases List.mem_append.1 hitem with hitem | hitem
  · exact h.certain item hitem
  · exact hothers.certain item hitem

theorem runs_textEnd {text : Array Char} {s : Regex.State} (hs : s.position = text.size) :
    (Expr.anchor .textEnd).Runs text s s :=
  ⟨by simp [Regex.Anchor.holds, hs], rfl⟩

/-- What may be left out is left out. -/
theorem rests_optional {body : Expr} (hcertain : body.isCertain = true) (greedy : Bool) :
    Rests [.loop body 0 (some 1) greedy] :=
  rests_singleton hcertain fun _ s _ => ⟨0, ⟨Nat.le_refl 0, Nat.zero_le 1⟩, .zero s⟩

variable {options : Options} {tokens : List Regex.Token}

theorem lays_finish (options : Options) :
    LaysOne options.flags [.finish] (· = .anchor .textEnd) := by
  refine Regex.laysOne_push fun assembly hflags => ?_
  rw [Regex.Assembly.add?, hflags]
  rfl

/-- A character of one of some sets, or the end of the text. -/
def boundaryTokens (sets : List Regex.CharSet) : List Regex.Token :=
  sets.flatMap (fun chars => [.set chars, .bar]) ++ [.finish]

theorem terminatorTokens_eq (options : Options) :
    options.terminatorTokens =
      boundaryTokens (if options.endsWith.isEmpty then [] else [classSet false options.endsWith]) := by
  unfold Options.terminatorTokens boundaryTokens
  split <;> rfl

/-- Sets with a bar after each of them are alternatives. -/
theorem alternatives_of_sets {P : Expr → Prop} {sets : List Regex.CharSet}
    {assembly next : Regex.Assembly} (hitems : assembly.inner.items = [])
    (hbranches : ∀ branch ∈ assembly.inner.alternatives, P branch)
    (hsets : ∀ chars ∈ sets, P (.set chars assembly.inner.flags.caseless))
    (h : assembly.addAll? (sets.flatMap fun chars => [.set chars, .bar]) = some next) :
    next.pending = assembly.pending ∧ next.inner.flags = assembly.inner.flags ∧
      next.inner.items = [] ∧ ∀ branch ∈ next.inner.alternatives, P branch := by
  induction sets generalizing assembly with
  | nil =>
      obtain rfl := Option.some.inj h
      exact ⟨rfl, rfl, hitems, hbranches⟩
  | cons chars sets ih =>
      rw [List.flatMap_cons, Regex.Assembly.addAll?_append] at h
      obtain ⟨middle, hmiddle, h⟩ := Option.bind_eq_some_iff.1 h
      have hmiddle := Option.some.inj hmiddle
      obtain ⟨hfirst, hrest⟩ := List.forall_mem_cons.1 hsets
      have hbranch : ∀ branch ∈ middle.inner.alternatives, P branch := by
        rw [← hmiddle]
        refine List.forall_mem_cons.2 ⟨?_, hbranches⟩
        simpa [Regex.Assembly.push, Regex.Open.push, Regex.Open.branch, hitems, Expr.ofSeq]
          using hfirst
      obtain ⟨hpending, hflags, hnext⟩ :=
        ih (by rw [← hmiddle]) hbranch (by rw [← hmiddle]; exact hrest) h
      rw [← hmiddle] at hpending hflags
      exact ⟨hpending, hflags, hnext⟩

/-- What stands in a condition on what follows is one of its sets or the end of the text. -/
theorem becomes_boundaryTokens {P : Expr → Prop} (options : Options) {sets : List Regex.CharSet}
    (hsets : ∀ chars ∈ sets, P (.set chars (!options.sensitive))) :
    Becomes options.flags (boundaryTokens sets) fun body =>
      ∃ branches, body = Expr.ofAlternatives (branches ++ [.anchor .textEnd]) ∧
        ∀ branch ∈ branches, P branch := by
  intro assembly next hstart h
  rw [boundaryTokens, Regex.Assembly.addAll?_append] at h
  obtain ⟨middle, hmiddle, h⟩ := Option.bind_eq_some_iff.1 h
  obtain ⟨hpending, hflags, hitems, hbranches⟩ := alternatives_of_sets (P := P)
    (by rw [hstart]; rfl) (by rw [hstart]; simp [Regex.Open.start]) (by rw [hstart]; exact hsets)
    hmiddle
  have hmiddleFlags : middle.inner.flags = options.flags := by rw [hflags, hstart]; rfl
  obtain ⟨_, hnext, hinner, _, rfl, rfl⟩ := lays_finish options middle next hmiddleFlags h
  have hbranch : next.inner.branch = .anchor .textEnd := by
    simp [Regex.Open.branch, hinner, hitems, Expr.ofSeq]
  have halternatives : next.inner.alternatives = middle.inner.alternatives := by rw [hinner]
  rw [Regex.Open.expr, hbranch, halternatives, List.reverse_cons]
  exact ⟨hnext.trans hpending, _, rfl, fun branch hmem => hbranches branch (List.mem_reverse.1 hmem)⟩

theorem lays_lookingAhead (options : Options) (sets : List Regex.CharSet) :
    Lays options.flags (lookingAhead (boundaryTokens sets)) Rests := by
  have hbody := becomes_boundaryTokens (P := fun branch => branch.isCertain = true) options
    fun chars (_ : chars ∈ sets) => rfl
  refine Lays.mono (hbody.lookingAhead false) ?_
  rintro _ ⟨_, rfl, body, rfl, branches, rfl, hcertain⟩
  have hbranches : (Expr.ofAlternatives (branches ++ [.anchor .textEnd])).isCertain = true := by
    refine Expr.isCertain_ofAlternatives fun branch hmem => ?_
    rcases List.mem_append.1 hmem with hmem | hmem
    · exact hcertain branch hmem
    · rw [List.mem_singleton.1 hmem]
      rfl
  exact rests_singleton (by simpa [Expr.isCertain] using hbranches)
    fun text s hs => ⟨s, Expr.runs_ofAlternatives_append _ (runs_textEnd hs), rfl⟩

/-- What ends an expression. If it ends where the path ends, the search for it needs a single pass
and leaves nothing of the path. -/
structure Closing (options : Options) (items : List Expr) : Prop where
  rests : Rests items
  uninvolved : options.atEnd = true → options.endsWith = [] →
    ∀ item ∈ items, item.isInvolved = false
  last : options.atEnd = true → options.endsWith = [] →
    ∀ (text : Array Char) (s t : Regex.State), RunsAll text items s t → t.position = text.size

theorem closing_of_not {items : List Expr} (hrests : Rests items)
    (hnot : ¬ (options.atEnd = true ∧ options.endsWith = [])) : Closing options items :=
  ⟨hrests, fun hend hends => absurd ⟨hend, hends⟩ hnot,
    fun hend hends => absurd ⟨hend, hends⟩ hnot⟩

theorem closing_finish {front : List Expr} (hrests : Rests front)
    (huninvolved : ∀ item ∈ front, item.isInvolved = false) :
    Closing options (front ++ [.anchor .textEnd]) := by
  refine ⟨hrests.append (rests_singleton rfl fun _ _ => runs_textEnd), fun _ _ item hitem => ?_,
    fun _ _ text s t h => ?_⟩
  · rcases List.mem_append.1 hitem with hitem | hitem
    · exact huninvolved item hitem
    · rw [List.mem_singleton.1 hitem]
      rfl
  · obtain ⟨m, _, hm⟩ := runsAll_append.1 h
    obtain ⟨hholds, rfl⟩ := runsAll_singleton.1 hm
    simpa [Regex.Anchor.holds] using hholds

theorem lays_optional (condition : Bool) {known : List Expr → Prop}
    (h : Lays options.flags tokens known) (hnil : known []) :
    Lays options.flags (if condition then tokens else []) known := by
  cases condition with
  | true => exact h
  | false =>
      refine (Regex.lays_nil options.flags).mono ?_
      rintro _ rfl
      exact hnil

/-- A delimiter that may be left out. -/
theorem lays_delimiter (options : Options) :
    Lays options.flags ([.set (classSet false options.delimiter)] ++ [Quantifier.optional.token])
      fun items => Rests items ∧ ∀ item ∈ items, item.isInvolved = false := by
  have hset := Regex.voicesOne_set options.flags (classSet false options.delimiter)
  refine Lays.mono (LaysOne.quantified hset 0 (some 1) false) ?_
  rintro _ ⟨_, rfl, body, rfl, hbody⟩
  exact ⟨rests_optional (Expr.isCertain_of_isInvolved hbody.uninvolved) _,
    List.forall_mem_singleton.2 hbody.uninvolved⟩

/-- A delimiter that may be left out and, if it is there, stands before a boundary. -/
theorem lays_boundedDelimiter (options : Options) (sets : List Regex.CharSet) :
    Lays options.flags
      (grouped ([.set (classSet false options.delimiter)] ++ lookingAhead (boundaryTokens sets)) ++
        [Quantifier.optional.token]) Rests := by
  have hset := (Regex.voicesOne_set options.flags (classSet false options.delimiter)).voices
  have hgroup := (Lays.append hset (lays_lookingAhead options sets)).becomes.grouped
  refine Lays.mono (LaysOne.quantified hgroup 0 (some 1) false) ?_
  rintro _ ⟨_, rfl, _, rfl, items, rfl, front, back, rfl, hfront, hback⟩
  refine rests_optional (Expr.isCertain_row fun item hitem => ?_) _
  rcases List.mem_append.1 hitem with hitem | hitem
  · exact Expr.isCertain_of_isInvolved (hfront.uninvolved item hitem)
  · exact hback.certain item hitem

/-- What follows the segments where the path may go on. -/
theorem lays_boundary (segments : List Segment) (options : Options)
    (sets : List Regex.CharSet) :
    Lays options.flags
      (if endsDelimited segments options then []
        else lookingAhead ((if !options.delimiter.isEmpty then
          [.set (classSet false options.delimiter)] ++ [.bar] else []) ++ boundaryTokens sets))
      Rests := by
  split
  · refine (Regex.lays_nil options.flags).mono ?_
    rintro _ rfl
    exact rests_nil
  · split
    · exact lays_lookingAhead options (classSet false options.delimiter :: sets)
    · exact lays_lookingAhead options sets

theorem lays_tailTokens (segments : List Segment) (options : Options) :
    Lays options.flags (tailTokens segments options) (Closing options) := by
  have hterminator := terminatorTokens_eq options
  unfold tailTokens
  split
  · have hdelimiter := fun condition => lays_optional condition (lays_delimiter options)
      ⟨rests_nil, fun _ h => absurd h List.not_mem_nil⟩
    split
    · refine (Lays.append (hdelimiter _) (lays_finish options)).mono ?_
      rintro _ ⟨front, _, rfl, ⟨hrests, huninvolved⟩, _, rfl, rfl⟩
      exact closing_finish hrests huninvolved
    · next hends =>
      rw [hterminator]
      refine (Lays.append (hdelimiter _) (lays_lookingAhead options _)).mono ?_
      rintro _ ⟨front, back, rfl, ⟨hrests, _⟩, hback⟩
      exact closing_of_not (hrests.append hback) fun hboth => hends (by simp [hboth.2])
  · next hend =>
    have hnot : ¬ (options.atEnd = true ∧ options.endsWith = []) := fun hboth => hend hboth.1
    have hdelimiter := fun condition => lays_optional condition
      (lays_boundedDelimiter options (if options.endsWith.isEmpty then []
        else [classSet false options.endsWith])) rests_nil
    rw [hterminator]
    refine (Lays.append (hdelimiter _) (lays_boundary segments options _)).mono ?_
    rintro _ ⟨front, back, rfl, hfront, hback⟩
    exact closing_of_not (hfront.append hback) hnot

end Ends

section Whole

variable {options : Options} {segments : List Segment} {text : List Char} {regex : Regex}

/-- An expression whose tokens lay down items is their row. -/
theorem expr_of_lays {tokens : List Regex.Token} {known : List Expr → Prop}
    (hpiece : Regex.Token.Piece text tokens) (hlays : Lays options.flags tokens known)
    (h : Regex.compile? (withCase options text) = some regex) :
    ∃ items, regex.expr = row items ∧ known items := by
  obtain ⟨next, hnext, hexpr⟩ := read_of_compile? hpiece h
  obtain ⟨items, _, hinner, hknown⟩ := hlays options.opened next rfl hnext
  exact ⟨items, hexpr.trans (expr_of_opened hinner), hknown⟩

theorem lays_start (options : Options) :
    LaysOne options.flags [.start] (· = .anchor .textStart) := by
  refine Regex.laysOne_push fun assembly hflags => ?_
  rw [Regex.Assembly.add?, hflags]
  rfl

/-- Before the segments, there is at most the beginning of the text. -/
theorem lays_beginning (options : Options) :
    Lays options.flags (if options.atStart then [.start] else []) fun items =>
      (∀ item ∈ items, item.isInvolved = false) ∧
        ∀ text, RunsAll text items (.start 0) (.start 0) := by
  refine lays_optional options.atStart (Lays.mono (lays_start options) ?_) ?_
  · rintro _ ⟨_, rfl, rfl⟩
    exact ⟨List.forall_mem_singleton.2 rfl, fun text => runsAll_singleton.2 ⟨rfl, rfl⟩⟩
  · exact ⟨fun _ h => absurd h List.not_mem_nil, fun _ => rfl⟩

variable {value : Key → List Regex.Token} {languages : Key → List Char → Prop}

/-- The expression of segments runs over every text that they stand for. If it ends where the path
ends, the search for it needs a single pass, and leaves nothing of the path. -/
theorem runs_of_compile? (hreads : ∀ key ∈ Segment.keys segments, key.ReadsValue (value key))
    (hspeaks : ∀ key ∈ Segment.keys segments, Becomes options.flags (value key) fun body =>
      body.Speaks (languages key))
    (h : Regex.compile? (withCase options (expression segments options)) = some regex) :
    regex.expr.isCertain = true ∧
      (∀ text, Segment.MeanAll options languages segments text →
        ∃ t, regex.expr.Runs text.toArray (.start 0) t) ∧
      (options.atEnd = true → options.endsWith = [] → regex.expr.isInvolved = false ∧
        ∀ text s t, regex.expr.Runs text s t → t.position = text.size) := by
  obtain ⟨_, hexpr, _, back, rfl, ⟨front, middle, rfl, ⟨hfront, hstart⟩, hmiddle⟩, hback⟩ :=
    expr_of_lays (piece_whole options hreads)
      (Lays.append (Lays.append (lays_beginning options) (voices_segments hspeaks))
        (lays_tailTokens segments options)) h
  have hinvolved : ∀ item ∈ front ++ middle, item.isInvolved = false := by
    intro item hitem
    rcases List.mem_append.1 hitem with hitem | hitem
    · exact hfront item hitem
    · exact hmiddle.uninvolved item hitem
  rw [hexpr]
  refine ⟨Expr.isCertain_row fun item hitem => ?_, fun text htext => ?_, fun hend hends => ?_⟩
  · rcases List.mem_append.1 hitem with hitem | hitem
    · exact Expr.isCertain_of_isInvolved (hinvolved item hitem)
    · exact hback.rests.certain item hitem
  · have hbetween : Regex.Between text.toArray 0 text text.toArray.size :=
      Regex.between_size.2 (by simp)
    obtain ⟨t, ht, hposition⟩ := (hmiddle.denote text.toArray (.start 0) _).2 ⟨text, htext, hbetween⟩
    refine ⟨t, runs_row.2 (runsAll_append.2 ⟨t, ?_, hback.rests.runs _ t hposition⟩)⟩
    exact runsAll_append.2 ⟨.start 0, hstart _, ht⟩
  · refine ⟨Expr.isInvolved_row fun item hitem => ?_, fun text s t hruns => ?_⟩
    · rcases List.mem_append.1 hitem with hitem | hitem
      · exact hinvolved item hitem
      · exact hback.uninvolved hend hends item hitem
    · obtain ⟨m, _, hm⟩ := runsAll_append.1 (runs_row.1 hruns)
      exact hback.last hend hends text m t hm

end Whole

end Waymark.Pattern
