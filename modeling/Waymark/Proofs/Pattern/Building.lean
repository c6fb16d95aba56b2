import Waymark.Proofs.Except
import Waymark.Proofs.Pattern.Delimited
/-!
Building paths from patterns whose values are not otherwise described.

The expression that a value is checked with matches every value without a delimiter, so a builder
with a value of the right kind for every parameter gives a path (`build_eq_ok`).
-/

namespace Waymark.Pattern

open Regex (Expr row)
open Regex.Expr (runs_row runsAll_append runsAll_singleton)

variable {options : Options} {segments : List Segment} {params : Params}

section Checks

/-- The items that a value is checked with. -/
def Options.checkItems (options : Options) : List Expr :=
  [.anchor .textStart] ++ [options.valueItem] ++ [.anchor .textEnd]

theorem plain_checkItems (options : Options) : ∀ item ∈ options.checkItems, item.Plain := by
  intro item hitem
  simp only [Options.checkItems, List.cons_append, List.nil_append, List.mem_cons,
    List.not_mem_nil, or_false] at hitem
  rcases hitem with rfl | rfl | rfl <;> exact ⟨rfl, rfl⟩

/-- A value without a delimiter passes the check. -/
theorem exists_runs_checkItems {text : List Char} (h : options.IsValue text) :
    ∃ t, (row options.checkItems).Runs text.toArray (.start 0) t := by
  have hbetween : Regex.Between text.toArray 0 text text.toArray.size :=
    Regex.between_size.2 (by simp)
  obtain ⟨t, ht, hend⟩ := (denotes_valueItem options text.toArray (.start 0) _).2 ⟨text, h, hbetween⟩
  refine ⟨t, runs_row.2 ?_⟩
  refine runsAll_append.2 ⟨t, runsAll_append.2 ⟨.start 0, ?_, runsAll_singleton.2 ht⟩, ?_⟩
  · exact runsAll_singleton.2 ⟨rfl, rfl⟩
  · refine runsAll_singleton.2 ⟨?_, rfl⟩
    simpa [Regex.Anchor.holds] using hend

/-- The check of a parameter that is not otherwise described lets all values pass. -/
theorem Key.exists_validator? {key : Key} (hpattern : key.pattern = options.defaultPattern) :
    ∃ regex, key.validator? options = some regex ∧
      ∀ text, options.IsValue text → regex.isMatch text.toArray = true := by
  have hpiece : Regex.Token.Piece ('^' :: enclose key.pattern ++ ['$'])
      ([.start] ++ grouped options.defaultTokens ++ [.finish]) := by
    rw [hpattern]
    exact (piece_start.append (piece_defaultPattern options).enclosed.piece).append piece_finish
  have hvalue : Regex.Adds 1 options.flags (grouped options.defaultTokens)
      (fun _ => [options.valueItem]) 0 :=
    (adds_value options 0).grouped
  have hadds := (((adds_start options 1).append hvalue).append (adds_finish options 1)).deepen
    (show 1 ≤ 4 by decide)
  obtain ⟨names, hregex⟩ := compile?_of_adds hpiece hadds (plain_checkItems options)
  refine ⟨_, hregex, fun text htext => ?_⟩
  obtain ⟨t, ht⟩ := exists_runs_checkItems htext
  have hplain := (Expr.plain_row (plain_checkItems options)).1
  exact (Regex.find?_isSome_iff hplain text.toArray).2 ⟨0, Nat.zero_le _, t, ht⟩

end Checks

section Parts

/-- A part of a builder that lets all values pass. -/
def Part.Accepts (options : Options) (part : Part) : Prop :=
  ∀ regex ∈ part.validator, ∀ text, options.IsValue text → regex.isMatch text.toArray = true

theorem Key.fill_eq_ok {key : Key} {validator : Option Regex} {value : String}
    (haccepts : ∀ regex ∈ validator, ∀ text, options.IsValue text →
      regex.isMatch text.toArray = true) (hvalue : options.IsValue value.toList) :
    key.fill validator value = .ok (key.before ++ value.toList ++ key.after) := by
  rw [fill, if_pos]
  cases validator with
  | none => rfl
  | some regex => exact haccepts regex rfl _ hvalue

/-- A part contributes what its segment does. -/
theorem Part.build_eq_ok {part : Part} (haccepts : part.Accepts options) (validates : Bool)
    (hparams : ∀ key, part.segment = .key key → key.Takes options (params.value? key.name.text)) :
    part.build validates params = .ok (part.segment.built params) := by
  obtain ⟨segment, validator⟩ := part
  cases segment with
  | literal written => rfl
  | group before after quantifier => rfl
  | key key =>
      have hvalidator : ∀ regex ∈ (if validates then validator else none), ∀ text,
          options.IsValue text → regex.isMatch text.toArray = true := by
        intro regex hregex
        split at hregex
        · exact haccepts regex hregex
        · exact absurd hregex (by simp)
      have htakes := hparams key rfl
      simp only [build, Segment.built]
      rcases Key.takes_cases htakes with ⟨hvalue, habsent⟩ | ⟨text, hvalue, -, htext⟩ |
        ⟨texts, hvalue, hrepeats, hne, htexts⟩
      · rw [hvalue]
        exact if_pos habsent
      · rw [hvalue]
        exact Key.fill_eq_ok hvalidator htext
      · have hfill := mapM_eq_ok_map fun text htext =>
          @Key.fill_eq_ok _ key _ _ hvalidator (htexts text htext)
        rw [hvalue]
        simp only [hrepeats, Bool.not_true, Bool.false_eq_true, ↓reduceIte,
          List.isEmpty_iff, hne, hfill]
        rfl

/-- A segment is prepared so that it lets all values pass. -/
theorem Part.exists_ofSegment {segment : Segment}
    (hpattern : ∀ key, segment = .key key → key.pattern = options.defaultPattern) :
    ∃ part : Part, Part.ofSegment options segment = .ok part ∧ part.segment = segment ∧
      part.Accepts options := by
  cases segment with
  | literal | group => exact ⟨_, rfl, rfl, fun _ h => absurd h (by simp)⟩
  | key key =>
      obtain ⟨regex, hregex, hmatch⟩ := Key.exists_validator? (hpattern key rfl)
      refine ⟨⟨.key key, some regex⟩, by rw [ofSegment, hregex], rfl, fun _ h => ?_⟩
      rw [← Option.some.inj h]
      exact hmatch

/-- Every pattern whose values are not otherwise described can be prepared. -/
theorem exists_parts
    (hpattern : ∀ segment ∈ segments, ∀ key, segment = .key key →
      key.pattern = options.defaultPattern) :
    ∃ parts, segments.mapM (Part.ofSegment options) = .ok parts ∧
      parts.map Part.segment = segments ∧ ∀ part ∈ parts, part.Accepts options := by
  induction segments with
  | nil => exact ⟨[], rfl, rfl, fun _ h => absurd h List.not_mem_nil⟩
  | cons segment segments ih =>
      obtain ⟨hfirst, hrest⟩ := List.forall_mem_cons.1 hpattern
      obtain ⟨part, hpart, hsegment, haccepts⟩ := Part.exists_ofSegment hfirst
      obtain ⟨parts, hparts, hsegments, hall⟩ := ih hrest
      refine ⟨part :: parts, mapM_cons_eq_ok_iff.2 ⟨part, parts, hpart, hparts, rfl⟩, ?_,
        List.forall_mem_cons.2 ⟨haccepts, hall⟩⟩
      rw [List.map_cons, hsegment, hsegments]

theorem mem_keys_iff {key : Key} : key ∈ Segment.keys segments ↔ .key key ∈ segments := by
  rw [Segment.keys, List.mem_filterMap]
  constructor
  · rintro ⟨segment, hsegment, heq⟩
    cases segment with
    | literal | group => exact absurd heq (by simp)
    | key parameter =>
        rw [← Option.some.inj heq]
        exact hsegment
  · exact fun h => ⟨_, h, rfl⟩

/-- With a value of the right kind for every parameter, a path is built. -/
theorem build_eq_ok {pattern : List Char} (hparse : parse pattern options = .ok segments)
    (hdefaults : Defaults options segments) (hsuits : Suits options segments params) :
    ∃ builder, PathBuilder.compile options pattern = .ok builder ∧
      builder.build params = .ok (String.ofList (builtPath params segments)) := by
  have hpattern : ∀ segment ∈ segments, ∀ key, segment = .key key →
      key.pattern = options.defaultPattern := by
    rintro segment hsegment key rfl
    exact hdefaults key (mem_keys_iff.2 hsegment)
  obtain ⟨parts, hparts, rfl, haccepts⟩ := exists_parts hpattern
  refine ⟨⟨parts, true⟩, bind_eq_ok_iff.2 ⟨_, hparse, bind_eq_ok_iff.2 ⟨_, hparts, rfl⟩⟩, ?_⟩
  have htexts : parts.mapM (fun part => part.build true params) =
      .ok (parts.map fun part => part.segment.built params) := by
    refine mapM_eq_ok_map fun part hpart => Part.build_eq_ok (haccepts part hpart) true ?_
    intro key hkey
    exact hsuits key (mem_keys_iff.2 (hkey ▸ List.mem_map_of_mem hpart))
  refine bind_eq_ok_iff.2 ⟨_, htexts, ?_⟩
  rw [builtPath, List.flatMap_def, List.map_map]
  rfl

end Parts

end Waymark.Pattern
