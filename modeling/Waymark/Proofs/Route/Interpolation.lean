import Mathlib.Data.List.TakeWhile
import Waymark.Route.Template
/-!
What putting parameters into a template does.

A template is divided in exactly one way into texts and placeholders, where each placeholder is the
first one that is left and ends at its first closing brace. The result is the same row, each
placeholder with the value of its name in its place, or as it is written where there is none
(`interpolate_eq_fill`).
-/

namespace Waymark.Route

/-- Whether characters are a name that a placeholder may have. -/
def IsName (name : List Char) : Prop :=
  name ≠ [] ∧ '\x7d' ∉ name

/-- Whether characters begin with a placeholder. -/
def Opens (cs : List Char) : Prop :=
  ∃ name rest, IsName name ∧ cs = (Piece.placeholder name).write ++ rest

/-- Whether no placeholder begins in a text that other characters follow. -/
def Clear (text rest : List Char) : Prop :=
  ∀ before after, text = before ++ after → after ≠ [] → ¬Opens (after ++ rest)

/-- Texts and placeholders in turn. -/
structure Division where
  /-- Each text that a placeholder follows, with the name of the placeholder. -/
  parts : List (List Char × List Char)
  /-- The text after the last placeholder. -/
  last : List Char

namespace Division

/-- The texts of a division. -/
def texts (division : Division) : List (List Char) :=
  division.parts.map Prod.fst ++ [division.last]

/-- The names of the placeholders of a division. -/
def names (division : Division) : List (List Char) :=
  division.parts.map Prod.snd

/-- The texts of a division with something in the place of each placeholder. -/
def fill (division : Division) (inserted : List Char → List Char) : List Char :=
  division.parts.flatMap (fun part => part.1 ++ inserted part.2) ++ division.last

/-- A division with a character before its first text. -/
def push (c : Char) : Division → Division
  | ⟨[], last⟩ => ⟨[], c :: last⟩
  | ⟨(text, name) :: parts, last⟩ => ⟨(c :: text, name) :: parts, last⟩

/-- The division that the pieces of a template make. -/
def ofPieces : List Piece → Division
  | [] => ⟨[], []⟩
  | .char c :: pieces => (ofPieces pieces).push c
  | .placeholder name :: pieces =>
      ⟨([], name) :: (ofPieces pieces).parts, (ofPieces pieces).last⟩

@[simp] theorem fill_push (c : Char) (division : Division) (inserted : List Char → List Char) :
    (division.push c).fill inserted = c :: division.fill inserted := by
  rcases division with ⟨_ | ⟨⟨text, name⟩, parts⟩, last⟩ <;> simp [push, fill]

/-- Two fillings that agree on the names of a division make the same of it. -/
theorem fill_congr {division : Division} {inserted others : List Char → List Char}
    (h : ∀ name ∈ division.names, inserted name = others name) :
    division.fill inserted = division.fill others := by
  have hparts : ∀ part ∈ division.parts, part.1 ++ inserted part.2 = part.1 ++ others part.2 :=
    fun part hpart => by rw [h part.2 (List.mem_map_of_mem hpart)]
  simp only [fill, List.flatMap, List.map_congr_left hparts]

end Division

/-- How a template is divided: each placeholder is the first one in what is left. -/
inductive Divides : List Char → Division → Prop
  | last {text : List Char} (hclear : Clear text []) : Divides text ⟨[], text⟩
  | next {text name rest : List Char} {parts : List (List Char × List Char)} {last : List Char}
      (hname : IsName name) (hclear : Clear text ((Piece.placeholder name).write ++ rest))
      (hrest : Divides rest ⟨parts, last⟩) :
      Divides (text ++ ((Piece.placeholder name).write ++ rest)) ⟨(text, name) :: parts, last⟩

/-- What is put in the place of a placeholder: the value of its name, the items of a list with
slashes between them, or the placeholder as it is written. -/
def inserted (params : Pattern.Params) (name : List Char) : List Char :=
  match params.value? (String.ofList name) with
  | some (.single text) => text.toList
  | some (.repeated texts) => (String.intercalate "/" texts).toList
  | none => (Piece.placeholder name).write

section Opening

variable {cs name rest text : List Char}

theorem write_append (name rest : List Char) :
    (Piece.placeholder name).write ++ rest = '$' :: '\x7b' :: (name ++ '\x7d' :: rest) := by
  simp [Piece.write]

theorem opens_write (hname : IsName name) : Opens ((Piece.placeholder name).write ++ rest) :=
  ⟨name, rest, hname, rfl⟩

/-- The reader of a placeholder takes a name up to the first closing brace. -/
theorem Template.placeholder?_eq_some_iff :
    Template.placeholder? cs = some (name, rest) ↔
      IsName name ∧ cs = name ++ '\x7d' :: rest := by
  constructor
  · intro h
    have hcs : cs.takeWhile (· ≠ '\x7d') ++ cs.dropWhile (· ≠ '\x7d') = cs :=
      List.takeWhile_append_dropWhile
    unfold Template.placeholder? at h
    split at h
    · simp at h
    · simp at h
    · next c after hafter hne =>
      simp only [Option.some.injEq, Prod.mk.injEq] at h
      obtain ⟨rfl, rfl⟩ := h
      have hleft : cs.dropWhile (· ≠ '\x7d') ≠ [] := by rw [hafter]; simp
      have hbrace : c = '\x7d' := by
        have hhead := List.head_dropWhile_not (· ≠ '\x7d') hleft
        simp only [hafter, List.head_cons] at hhead
        simpa using hhead
      rw [hafter, hbrace] at hcs
      refine ⟨⟨hne, fun hmem => ?_⟩, hcs.symm⟩
      simpa using List.mem_takeWhile_imp hmem
  · rintro ⟨⟨hne, hfree⟩, rfl⟩
    have hall : ∀ c ∈ name, decide (c ≠ '\x7d') = true := fun c hc =>
      decide_eq_true (ne_of_mem_of_not_mem hc hfree)
    obtain ⟨c, cs, rfl⟩ := List.exists_cons_of_ne_nil hne
    simp only [Template.placeholder?, List.takeWhile_append_of_pos hall,
      List.dropWhile_append_of_pos hall]
    simp

/-- Where the reader of a placeholder finds none, none begins. -/
theorem not_opens_of_placeholder? (h : Template.placeholder? rest = none) :
    ¬Opens ('$' :: '\x7b' :: rest) := by
  rintro ⟨name, after, hname, heq⟩
  simp only [write_append, List.cons.injEq, true_and] at heq
  rw [Template.placeholder?_eq_some_iff.mpr ⟨hname, heq⟩] at h
  simp at h

/-- Of two placeholders at one place, each with what follows it, there is one. -/
theorem eq_of_write_append_eq {other others : List Char} (hname : IsName name)
    (hother : IsName other)
    (h : (Piece.placeholder name).write ++ rest = (Piece.placeholder other).write ++ others) :
    name = other ∧ rest = others := by
  simp only [write_append, List.cons.injEq, true_and] at h
  have hread : Template.placeholder? (name ++ '\x7d' :: rest) = some (name, rest) :=
    Template.placeholder?_eq_some_iff.mpr ⟨hname, rfl⟩
  rw [h, Template.placeholder?_eq_some_iff.mpr ⟨hother, rfl⟩] at hread
  simpa [eq_comm] using hread

theorem clear_nil : Clear [] rest := by
  intro before after h hne
  exact absurd (List.append_eq_nil_iff.mp h.symm).2 hne

theorem Clear.push {c : Char} (hclear : Clear text rest) (hopens : ¬Opens (c :: (text ++ rest))) :
    Clear (c :: text) rest := by
  intro before after h hne
  rcases before with _ | ⟨b, before⟩
  · obtain rfl : after = c :: text := h.symm
    exact hopens
  · exact hclear before after (List.cons.inj h).2 hne

/-- A text in which no placeholder begins does not contain one. -/
theorem Clear.not_contains (hclear : Clear text rest) (hname : IsName name) :
    ¬(Piece.placeholder name).write <:+: text := by
  rintro ⟨before, after, rfl⟩
  refine hclear before ((Piece.placeholder name).write ++ after) (by simp)
    (by simp [Piece.write]) ?_
  rw [List.append_assoc]
  exact opens_write hname

/-- The first placeholder of a template does not depend on how the template is divided. -/
theorem Clear.eq_of_append_eq {other others : List Char} (hclear : Clear text rest)
    (hclears : Clear other others) (hopens : Opens rest) (hopen : Opens others)
    (h : text ++ rest = other ++ others) : text = other ∧ rest = others := by
  rcases List.append_eq_append_iff.mp h with ⟨middle, rfl, rfl⟩ | ⟨middle, rfl, rfl⟩
  · by_cases hne : middle = []
    · simp [hne]
    · exact absurd hopens (hclears text middle rfl hne)
  · by_cases hne : middle = []
    · simp [hne]
    · exact absurd hopen (hclear other middle rfl hne)

/-- No placeholder is left after a text in which none begins. -/
theorem Clear.not_append {other : List Char} (hclear : Clear (text ++ rest) other)
    (hopens : Opens (rest ++ other)) (hne : rest ≠ []) : False :=
  hclear text rest rfl hne hopens

end Opening

namespace Divides

variable {cs : List Char} {division : Division}

/-- A character at which no placeholder begins belongs to the first text. -/
theorem push {c : Char} (h : Divides cs division) (hopens : ¬Opens (c :: cs)) :
    Divides (c :: cs) (division.push c) := by
  cases h with
  | last hclear => exact .last (hclear.push (by simpa using hopens))
  | next hname hclear hrest => exact .next hname (hclear.push hopens) hrest

/-- The placeholders of a division as they are written make the template. -/
theorem fill_write (h : Divides cs division) :
    division.fill (fun name => (Piece.placeholder name).write) = cs := by
  induction h with
  | last => rfl
  | next hname hclear hrest ih => simp_all [Division.fill]

/-- No text of a division contains a placeholder. -/
theorem not_contains (h : Divides cs division) {text name : List Char}
    (htext : text ∈ division.texts) (hname : IsName name) :
    ¬(Piece.placeholder name).write <:+: text := by
  induction h with
  | last hclear =>
    obtain rfl : text = _ := by simpa [Division.texts] using htext
    exact hclear.not_contains hname
  | next _ hclear _ ih =>
    rcases List.mem_cons.mp htext with rfl | hrest
    · exact hclear.not_contains hname
    · exact ih hrest

/-- The names of a division are names that a placeholder may have. -/
theorem isName (h : Divides cs division) {name : List Char} (hname : name ∈ division.names) :
    IsName name := by
  induction h with
  | last => simp [Division.names] at hname
  | next hhere _ _ ih =>
    rcases List.mem_cons.mp hname with rfl | hrest
    · exact hhere
    · exact ih hrest

/-- A template is divided in one way. -/
theorem unique {other : Division} (h : Divides cs division) (hother : Divides cs other) :
    division = other := by
  induction h generalizing other with
  | last hclear =>
    cases hother with
    | last => rfl
    | next hname =>
      exact (hclear.not_append (by simpa using opens_write hname) (by simp [Piece.write])).elim
  | @next text name rest parts last hname hclear hrest ih =>
    generalize hcs : text ++ ((Piece.placeholder name).write ++ rest) = cs at hother
    cases hother with
    | last hclears =>
      subst hcs
      exact (hclears.not_append (by simpa using opens_write hname) (by simp [Piece.write])).elim
    | next hname' hclear' hrest' =>
      obtain ⟨rfl, hopens⟩ :=
        hclear.eq_of_append_eq hclear' (opens_write hname) (opens_write hname') hcs
      obtain ⟨rfl, rfl⟩ := eq_of_write_append_eq hname hname' hopens
      obtain ⟨rfl, rfl⟩ := Division.mk.inj (ih hrest')
      rfl

end Divides

/-- The reader of a template divides it. -/
theorem Template.divides_pieces (cs : List Char) :
    Divides cs (.ofPieces (Template.pieces cs)) := by
  fun_induction Template.pieces cs with
  | case1 => exact .last clear_nil
  | case2 rest name after hread ih =>
    obtain ⟨hname, rfl⟩ := Template.placeholder?_eq_some_iff.mp hread
    rw [← write_append]
    exact .next hname clear_nil ih
  | case3 rest hread ih => exact ih.push (not_opens_of_placeholder? hread)
  | case4 c rest hother ih =>
    refine ih.push fun ⟨name, after, _, heq⟩ => ?_
    rw [write_append] at heq
    exact hother _ (List.cons.inj heq).1 (List.cons.inj heq).2

section Filling

variable (params : Pattern.Params)

/-- A placeholder is filled with what is put in its place. -/
theorem Piece.fill_placeholder (name : List Char) :
    (Piece.placeholder name).fill params = inserted params name := by
  cases hvalue : params.value? (String.ofList name) with
  | none => simp only [Piece.fill, inserted, hvalue]
  | some value =>
    cases value with
    | single text => simp only [Piece.fill, inserted, hvalue, paramText]
    | repeated texts =>
      simp only [Piece.fill, inserted, hvalue, paramText, String.toList_intercalate]
      rfl

/-- The pieces of a template are filled as its division is. -/
theorem Division.fill_ofPieces (pieces : List Piece) :
    (Division.ofPieces pieces).fill (inserted params) = pieces.flatMap (Piece.fill params) := by
  induction pieces with
  | nil => rfl
  | cons piece pieces ih =>
    rw [List.flatMap_cons, ← ih]
    cases piece with
    | char c => rw [Division.ofPieces, Division.fill_push]; rfl
    | placeholder name =>
      rw [Piece.fill_placeholder]
      simp [Division.ofPieces, Division.fill]

end Filling

/-- Interpolation is one pass from left to right. There is one division of the template into
placeholders, each the first one in what is left, and texts without any, and it does not depend on
the parameters. What comes out is the division with what each name stands for in the place of its
placeholder, whatever characters that has; without a value for any of the names it is the
template. -/
theorem interpolate_eq_fill (template : String) :
    ∃ division, (∀ other, Divides template.toList other ↔ other = division) ∧
      division.fill (fun name => (Piece.placeholder name).write) = template.toList ∧
      (∀ name ∈ division.names, IsName name) ∧
      (∀ text ∈ division.texts, ∀ name, IsName name → ¬(Piece.placeholder name).write <:+: text) ∧
      ∀ params : Pattern.Params,
        interpolate template params = String.ofList (division.fill (inserted params)) ∧
        ((∀ name ∈ division.names, params.value? (String.ofList name) = none) →
          interpolate template params = template) := by
  have hdivides := Template.divides_pieces template.toList
  refine ⟨_, fun other => ⟨fun h => h.unique hdivides, fun h => h ▸ hdivides⟩,
    hdivides.fill_write, fun _ => hdivides.isName, fun _ htext _ => hdivides.not_contains htext,
    fun params => ?_⟩
  refine ⟨by rw [Division.fill_ofPieces, interpolate], fun hnone => ?_⟩
  have hstays : ∀ name ∈ (Division.ofPieces (Template.pieces template.toList)).names,
      inserted params name = (Piece.placeholder name).write :=
    fun name hname => by simp only [inserted, hnone name hname]
  rw [interpolate, ← Division.fill_ofPieces, Division.fill_congr hstays, hdivides.fill_write,
    String.ofList_toList]

example : interpolate "$$\x7ba$\x7bb\x7d" [("a$\x7bb", some (.repeated ["$\x7ba\x7d", "c"]))] =
    "$$\x7ba\x7d/c" := by
  cbv

end Waymark.Route
