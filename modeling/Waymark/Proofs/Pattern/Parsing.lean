import Waymark.Pattern.Segment
import Waymark.Proofs.Except
/-!
What the tokens of a route pattern tell about its segments.

Every segment is a literal with some text, a parameter without text after it, or comes from braces;
and the expression of a parameter is the one of the options unless the pattern has a token for it.
-/

namespace Waymark.Pattern

/-- A custom expression among tokens. -/
def HasCustom (lexemes : List Lexeme) (text : List Char) : Prop :=
  ∃ lexeme ∈ lexemes, lexeme.token = .pattern text

/-- The custom expressions among tokens, in order. -/
def customs (lexemes : List Lexeme) : List (List Char) :=
  lexemes.filterMap fun lexeme =>
    match lexeme.token with
    | .pattern text => some text
    | _ => none

theorem mem_customs_iff {lexemes : List Lexeme} {text : List Char} :
    text ∈ customs lexemes ↔ HasCustom lexemes text := by
  rw [customs, List.mem_filterMap]
  refine exists_congr fun lexeme => and_congr_right fun _ => ?_
  cases lexeme.token <;> simp

/-- What holds of the custom expressions that a pattern is read to have. -/
theorem forall_custom {P : List Char → Prop} {pattern : List Char} {texts : List (List Char)}
    (htexts : (tokenize pattern).toOption.map customs = some texts) (h : ∀ text ∈ texts, P text) :
    ∀ lexemes, tokenize pattern = .ok lexemes → ∀ text, HasCustom lexemes text → P text := by
  intro lexemes hlexemes text hcustom
  rw [hlexemes] at htexts
  obtain rfl : customs lexemes = texts := Option.some.inj htexts
  exact h text (mem_customs_iff.2 hcustom)

/-- Braces among tokens. -/
def HasBraces (lexemes : List Lexeme) : Prop :=
  ∃ lexeme ∈ lexemes, lexeme.token = .openBrace

namespace Segment

theorem takeChar_subset (lexemes : List Lexeme) : (takeChar lexemes).2 ⊆ lexemes := by
  unfold takeChar
  split
  · exact List.subset_cons_self _ _
  · exact List.Subset.refl _

theorem takeName_subset (lexemes : List Lexeme) : (takeName lexemes).2 ⊆ lexemes := by
  unfold takeName
  split
  · exact List.subset_cons_self _ _
  · exact List.Subset.refl _

theorem takePattern_subset (lexemes : List Lexeme) : (takePattern lexemes).2 ⊆ lexemes := by
  unfold takePattern
  split
  · exact List.subset_cons_self _ _
  · exact List.Subset.refl _

theorem takeQuantifier_subset (lexemes : List Lexeme) : (takeQuantifier lexemes).2 ⊆ lexemes := by
  unfold takeQuantifier
  split
  · exact List.subset_cons_self _ _
  · exact List.Subset.refl _

theorem takeText_subset (lexemes : List Lexeme) : (takeText lexemes).2 ⊆ lexemes := by
  fun_induction takeText lexemes with
  | case1 c index rest text after heq ih | case2 c index rest text after heq ih =>
      rw [heq] at ih
      exact List.subset_cons_of_subset _ ih
  | case3 => exact List.Subset.refl _

theorem hasCustom_of_takePattern {lexemes : List Lexeme} {text : List Char}
    (h : (takePattern lexemes).1 = some text) : HasCustom lexemes text := by
  unfold takePattern at h
  split at h
  · next inner index rest =>
    obtain rfl := Option.some.inj h
    exact ⟨_, List.mem_cons_self, rfl⟩
  · exact absurd h (by simp)

/-- Where the expression of a parameter comes from. -/
def Stated (options : Options) (lexemes : List Lexeme) (pattern : List Char) : Prop :=
  pattern = options.defaultPattern ∨ HasCustom lexemes pattern

/-- Where a segment comes from. -/
inductive From (options : Options) (lexemes : List Lexeme) : Segment → Prop where
  | literal {text : List Char} (hne : text ≠ []) : From options lexemes (.literal text)
  | key {parameter : Key} (hafter : parameter.after = [])
      (hstated : Stated options lexemes parameter.pattern) : From options lexemes (.key parameter)
  | bracedKey {parameter : Key} (hbraces : HasBraces lexemes)
      (hstated : Stated options lexemes parameter.pattern) : From options lexemes (.key parameter)
  | group {before after : List Char} {quantifier : Option Quantifier}
      (hbraces : HasBraces lexemes) : From options lexemes (.group before after quantifier)

variable {options : Options} {lexemes lexemes' : List Lexeme}

theorem Stated.mono {pattern : List Char} (h : Stated options lexemes pattern)
    (hsubset : lexemes ⊆ lexemes') : Stated options lexemes' pattern := by
  rcases h with h | ⟨lexeme, hmem, h⟩
  · exact .inl h
  · exact .inr ⟨lexeme, hsubset hmem, h⟩

theorem From.mono {segment : Segment} (h : From options lexemes segment)
    (hsubset : lexemes ⊆ lexemes') : From options lexemes' segment := by
  have hbraces : HasBraces lexemes → HasBraces lexemes' :=
    fun ⟨lexeme, hmem, h⟩ => ⟨lexeme, hsubset hmem, h⟩
  cases h with
  | literal hne => exact .literal hne
  | key hafter hstated => exact .key hafter (hstated.mono hsubset)
  | bracedKey h hstated => exact .bracedKey (hbraces h) (hstated.mono hsubset)
  | group h => exact .group (hbraces h)

theorem stated_getD (lexemes : List Lexeme) :
    Stated options lexemes ((takePattern lexemes).1.getD options.defaultPattern) := by
  cases h : (takePattern lexemes).1 with
  | none => exact .inl rfl
  | some text => exact .inr (hasCustom_of_takePattern h)

theorem from_flush {pending : List Char} {segment : Segment} (h : segment ∈ flush pending) :
    From options lexemes segment := by
  cases pending with
  | nil => exact absurd h List.not_mem_nil
  | cons c pending =>
      rw [List.mem_singleton.1 h]
      exact .literal (List.cons_ne_nil c pending)

/-- Braces hold a parameter or a group; nothing before them is read again. -/
theorem from_braced (index : Nat) {next number : Nat} {segment : Segment} {rest : List Lexeme}
    (h : braced options lexemes next = .ok (segment, number, rest)) :
    From options (⟨.openBrace, index⟩ :: lexemes) segment ∧ rest ⊆ lexemes := by
  have hbraces : HasBraces (⟨.openBrace, index⟩ :: lexemes) := ⟨_, List.mem_cons_self, rfl⟩
  have hname := List.Subset.trans (takeName_subset (takeText lexemes).2) (takeText_subset lexemes)
  have hstated : Stated options (⟨.openBrace, index⟩ :: lexemes)
      ((takePattern (takeName (takeText lexemes).2).2).1.getD options.defaultPattern) :=
    (stated_getD _).mono (List.subset_cons_of_subset _ hname)
  have hafter := List.Subset.trans
    (takeText_subset (takePattern (takeName (takeText lexemes).2).2).2)
    (List.Subset.trans (takePattern_subset _) hname)
  simp only [braced] at h
  split at h
  · next i close heq =>
    have hrest : (takeQuantifier close).2 ⊆ lexemes := by
      rw [heq] at hafter
      exact List.Subset.trans (takeQuantifier_subset close)
        (List.Subset.trans (List.subset_cons_self _ close) hafter)
    split at h
    · simp only [Except.ok.injEq, Prod.mk.injEq] at h
      obtain ⟨rfl, -, rfl⟩ := h
      exact ⟨.group hbraces, hrest⟩
    · simp only [Except.ok.injEq, Prod.mk.injEq] at h
      obtain ⟨rfl, -, rfl⟩ := h
      exact ⟨.bracedKey hbraces hstated, hrest⟩
    · next hcustom =>
      simp only [Except.ok.injEq, Prod.mk.injEq] at h
      obtain ⟨rfl, -, rfl⟩ := h
      rw [hcustom] at hstated
      exact ⟨.bracedKey hbraces hstated, hrest⟩
  · exact absurd h (by simp)

/-- Every segment of a pattern comes from its tokens. -/
theorem from_of_mem_ofLexemes {pending : List Char} {next : Nat} {segments : List Segment}
    (h : ofLexemes options lexemes pending next = .ok segments) :
    ∀ segment ∈ segments, From options lexemes segment := by
  fun_induction ofLexemes options lexemes pending next generalizing segments
  case case1 lexemes pending next char name custom hkey taken absorbs keyName quantifier key ih =>
    obtain ⟨rest, hrest, h⟩ := bind_eq_ok_iff.1 h
    obtain rfl := Except.ok.inj h
    have hname := List.Subset.trans (takeName_subset char.2) (takeChar_subset lexemes)
    have hsubset := List.Subset.trans (takeQuantifier_subset custom.2)
      (List.Subset.trans (takePattern_subset name.2) hname)
    intro segment hsegment
    rcases List.mem_append.1 hsegment with hsegment | hsegment
    · exact from_flush hsegment
    · rcases List.mem_cons.1 hsegment with rfl | hsegment
      · exact .key rfl ((stated_getD name.2).mono hname)
      · exact (ih hrest segment hsegment).mono hsubset
  case case2 pending next c index rest char name custom hkey ih =>
    exact fun segment hsegment => (ih h segment hsegment).mono (List.subset_cons_self _ rest)
  case case3 pending next c index rest char name custom hkey ih =>
    exact fun segment hsegment => (ih h segment hsegment).mono (List.subset_cons_self _ rest)
  case case4 => exact absurd h (by simp)
  case case5 pending next index inner segment number rest hbraced char name custom hkey ih =>
    obtain ⟨others, hothers, h⟩ := bind_eq_ok_iff.1 h
    obtain rfl := Except.ok.inj h
    obtain ⟨hfrom, hsubset⟩ := from_braced index hbraced
    intro other hother
    rcases List.mem_append.1 hother with hother | hother
    · exact from_flush hother
    · rcases List.mem_cons.1 hother with rfl | hother
      · exact hfrom
      · exact (ih hothers other hother).mono (List.subset_cons_of_subset _ hsubset)
  case case6 pending next index rest char name custom hkey ih =>
    obtain ⟨others, hothers, h⟩ := bind_eq_ok_iff.1 h
    obtain rfl := Except.ok.inj h
    intro segment hsegment
    rcases List.mem_append.1 hsegment with hsegment | hsegment
    · exact from_flush hsegment
    · exact (ih hothers segment hsegment).mono (List.subset_cons_self _ rest)
  case case7 =>
    obtain rfl := Except.ok.inj h
    exact fun segment hsegment => from_flush hsegment
  case case8 => exact absurd h (by simp)

end Segment

/-- A pattern that has no custom expression. -/
def HasNoCustom (pattern : List Char) : Prop :=
  ∀ lexemes, tokenize pattern = .ok lexemes → ∀ text, ¬ HasCustom lexemes text

/-- A pattern that has no braces. -/
def HasNoBraces (pattern : List Char) : Prop :=
  ∀ lexemes, tokenize pattern = .ok lexemes → ¬ HasBraces lexemes

theorem hasNoCustom_of_customs_eq {pattern : List Char}
    (h : (tokenize pattern).toOption.map customs = some []) : HasNoCustom pattern :=
  forall_custom h fun _ htext => absurd htext List.not_mem_nil

section Parsed

variable {options : Options} {pattern : List Char} {segments : List Segment}

theorem from_of_mem_parse (h : parse pattern options = .ok segments) :
    ∃ lexemes, tokenize pattern = .ok lexemes ∧
      ∀ segment ∈ segments, Segment.From options lexemes segment := by
  obtain ⟨lexemes, hlexemes, h⟩ := bind_eq_ok_iff.1 h
  exact ⟨lexemes, hlexemes, Segment.from_of_mem_ofLexemes h⟩

/-- Where no custom expression stands, every parameter has the one of the options. -/
theorem pattern_eq_of_hasNoCustom (hcustom : HasNoCustom pattern)
    (h : parse pattern options = .ok segments) :
    ∀ key ∈ Segment.keys segments, key.pattern = options.defaultPattern := by
  obtain ⟨lexemes, hlexemes, hfrom⟩ := from_of_mem_parse h
  intro key hkey
  obtain ⟨segment, hsegment, heq⟩ := List.mem_filterMap.1 hkey
  have hsegment := hfrom segment hsegment
  cases hsegment with
  | literal | group => exact absurd heq (by simp)
  | key hafter hstated =>
      obtain rfl := Option.some.inj heq
      exact hstated.resolve_right (hcustom lexemes hlexemes _)
  | bracedKey hbraces hstated =>
      obtain rfl := Option.some.inj heq
      exact hstated.resolve_right (hcustom lexemes hlexemes _)

end Parsed

end Waymark.Pattern
