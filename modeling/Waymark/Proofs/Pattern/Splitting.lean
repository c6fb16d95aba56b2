import Waymark.Pattern.Matcher
/-!
Splitting a row of values at the separator between them.

A text that consists of values with something between them is split into these values if a separator
stands between them and does not begin before the end of a value (`Repetitions.splitOn_text_iff`).
Values that do not contain the separator can still end with its beginning.
-/

namespace Waymark.Pattern

/-- Values in a row: the first, and each further one with what stands before it. -/
structure Repetitions where
  first : List Char
  further : List (List Char × List Char)
deriving DecidableEq, Repr

namespace Repetitions

def values (repetitions : Repetitions) : List (List Char) :=
  repetitions.first :: repetitions.further.map Prod.snd

/-- What stands between the values. -/
def separators (repetitions : Repetitions) : List (List Char) :=
  repetitions.further.map Prod.fst

/-- The values with what stands between them, as one text. -/
def text (repetitions : Repetitions) : List Char :=
  repetitions.first ++ (repetitions.further.map fun pair => pair.1 ++ pair.2).flatten

end Repetitions

/-- A separator after a value begins within the value already, and ends after it. -/
def Overlaps (separator value : List Char) : Prop :=
  ∃ front back, value = front ++ back ∧ back ≠ [] ∧ back.length < separator.length ∧
    separator <+: back ++ separator

/-- A separator after a value does not begin before the end of the value. -/
def Unbroken (separator value : List Char) : Prop :=
  ∀ front back, value = front ++ back → back ≠ [] → ¬ separator <+: back ++ separator

section Parts

variable {separator value text : List Char} {parts : List (List Char)}

theorem unbroken_nil (separator : List Char) : Unbroken separator [] := by
  intro front back hvalue hback
  exact absurd (List.append_eq_nil_iff.1 hvalue.symm).2 hback

theorem unbroken_cons_iff {c : Char} :
    Unbroken separator (c :: value) ↔
      ¬ separator <+: c :: value ++ separator ∧ Unbroken separator value := by
  constructor
  · intro h
    refine ⟨h [] (c :: value) rfl (List.cons_ne_nil c value), fun front back hvalue hback => ?_⟩
    exact h (c :: front) back (by rw [hvalue, List.cons_append]) hback
  · rintro ⟨hfirst, hrest⟩ front back hvalue hback
    cases front with
    | nil =>
        rw [List.nil_append] at hvalue
        rwa [← hvalue]
    | cons d front => exact hrest front back (List.cons.inj hvalue).2 hback

/-- Where a value does not contain the separator, only an overlap breaks it. -/
theorem unbroken_iff_not_overlaps (hfree : ¬ separator <:+: value) :
    Unbroken separator value ↔ ¬ Overlaps separator value := by
  constructor
  · rintro h ⟨front, back, hvalue, hback, -, hstarts⟩
    exact h front back hvalue hback hstarts
  · intro h front back hvalue hback hstarts
    rcases Nat.lt_or_ge back.length separator.length with hlt | hge
    · exact h ⟨front, back, hvalue, hback, hlt, hstarts⟩
    · obtain ⟨after, hafter⟩ := List.prefix_of_prefix_length_le hstarts
        (List.prefix_append back separator) hge
      exact hfree ⟨front, after, by rw [hvalue, ← hafter, List.append_assoc]⟩

theorem splitOn_ne_nil (separator text : List Char) : splitOn separator text ≠ [] := by
  fun_induction splitOn separator text <;> simp_all

theorem splitOn_separator_append (hne : separator ≠ []) (rest : List Char) :
    splitOn separator (separator ++ rest) = [] :: splitOn separator rest := by
  obtain ⟨c, tail, rfl⟩ := List.exists_cons_of_ne_nil hne
  have hstarts : (c :: tail).isPrefixOf (c :: (tail ++ rest)) = true :=
    List.isPrefixOf_iff_prefix.2 (List.prefix_append (c :: tail) rest)
  rw [List.cons_append, splitOn, if_pos ⟨hstarts, hne⟩]
  simp

theorem splitOn_cons {c : Char} (h : ¬ separator <+: c :: text) :
    splitOn separator (c :: text) = (splitOn separator text).modifyHead (c :: ·) := by
  rw [splitOn, if_neg fun hstarts => h (List.isPrefixOf_iff_prefix.1 hstarts.1)]
  cases hsplit : splitOn separator text with
  | nil => exact absurd hsplit (splitOn_ne_nil separator text)
  | cons part parts => rfl

/-- A text before a separator is a part of its own if the separator does not begin before its end. -/
theorem splitOn_append (hne : separator ≠ []) (h : Unbroken separator value) (rest : List Char) :
    splitOn separator (value ++ (separator ++ rest)) = value :: splitOn separator rest := by
  induction value with
  | nil => exact splitOn_separator_append hne rest
  | cons c value ih =>
      obtain ⟨hfirst, hvalue⟩ := unbroken_cons_iff.1 h
      have hlater : ¬ separator <+: c :: (value ++ (separator ++ rest)) := by
        intro hstarts
        refine hfirst (List.prefix_of_prefix_length_le hstarts ⟨rest, by simp⟩ ?_)
        simp only [List.length_append]
        omega
      rw [List.cons_append, splitOn_cons hlater, ih hvalue]
      rfl

/-- What comes first of several parts stands before a separator that does not begin before its end. -/
theorem exists_of_splitOn_eq_cons (hne : separator ≠ [])
    (h : splitOn separator text = value :: parts) (hparts : parts ≠ []) :
    Unbroken separator value ∧
      ∃ rest, text = value ++ (separator ++ rest) ∧ splitOn separator rest = parts := by
  induction text generalizing value with
  | nil =>
      rw [splitOn, List.cons.injEq] at h
      exact absurd h.2.symm hparts
  | cons c text ih =>
      by_cases hstarts : separator <+: c :: text
      · obtain ⟨rest, hrest⟩ := hstarts
        rw [← hrest, splitOn_separator_append hne, List.cons.injEq] at h
        rw [← h.1]
        exact ⟨unbroken_nil separator, rest, hrest.symm, h.2⟩
      · rw [splitOn_cons hstarts] at h
        cases hsplit : splitOn separator text with
        | nil => exact absurd hsplit (splitOn_ne_nil separator text)
        | cons part others =>
            rw [hsplit, List.modifyHead_cons, List.cons.injEq] at h
            obtain ⟨rfl, rfl⟩ := h
            obtain ⟨hunbroken, rest, rfl, hrest⟩ := ih hsplit
            refine ⟨unbroken_cons_iff.2 ⟨fun hearly => hstarts ?_, hunbroken⟩, rest, rfl, hrest⟩
            exact hearly.trans ⟨rest, by simp⟩

/-- A text without the separator is one part. -/
theorem splitOn_eq_singleton (hfree : ¬ separator <:+: text) : splitOn separator text = [text] := by
  induction text with
  | nil => rw [splitOn]
  | cons c text ih =>
      rw [splitOn_cons fun hstarts => hfree hstarts.isInfix,
        ih fun hinside => hfree (hinside.trans (List.suffix_cons c text).isInfix)]
      rfl

end Parts

namespace Repetitions

variable {separator : List Char}

theorem text_cons (first separator value : List Char) (further : List (List Char × List Char)) :
    text ⟨first, (separator, value) :: further⟩ = first ++ (separator ++ text ⟨value, further⟩) := by
  simp [text]

/-- Values in a row that do not contain a separator are told apart by it if it stands between them and
does not begin before the end of a value. -/
theorem splitOn_text_iff (hne : separator ≠ []) (repetitions : Repetitions)
    (hlength : ∀ between ∈ repetitions.separators, between.length = separator.length)
    (hfree : ∀ value ∈ repetitions.values, ¬ separator <:+: value) :
    splitOn separator repetitions.text = repetitions.values ↔
      (∀ between ∈ repetitions.separators, between = separator) ∧
        ∀ value ∈ repetitions.values.dropLast, ¬ Overlaps separator value := by
  obtain ⟨first, further⟩ := repetitions
  induction further generalizing first with
  | nil =>
      have hsplit := splitOn_eq_singleton (hfree first List.mem_cons_self)
      simp [text, values, separators, hsplit]
  | cons pair further ih =>
      obtain ⟨between, value⟩ := pair
      obtain ⟨hbetween, hlengths⟩ := List.forall_mem_cons.1 hlength
      obtain ⟨hfirst, hrest⟩ := List.forall_mem_cons.1 hfree
      have hvalues : values ⟨first, (between, value) :: further⟩ =
          first :: values ⟨value, further⟩ := rfl
      have hseparators : separators ⟨first, (between, value) :: further⟩ =
          between :: separators ⟨value, further⟩ := rfl
      have hdrop : (values ⟨first, (between, value) :: further⟩).dropLast =
          first :: (values ⟨value, further⟩).dropLast := rfl
      rw [text_cons, hdrop, hseparators, hvalues, List.forall_mem_cons, List.forall_mem_cons]
      constructor
      · intro hsplit
        obtain ⟨hunbroken, rest, htext, hrestSplit⟩ :=
          exists_of_splitOn_eq_cons hne hsplit (List.cons_ne_nil _ _)
        obtain ⟨rfl, rfl⟩ := List.append_inj (List.append_cancel_left htext) hbetween
        obtain ⟨hexact, hoverlaps⟩ := (ih value hlengths hrest).1 hrestSplit
        exact ⟨⟨rfl, hexact⟩, (unbroken_iff_not_overlaps hfirst).1 hunbroken, hoverlaps⟩
      · rintro ⟨⟨rfl, hexact⟩, hoverlap, hoverlaps⟩
        rw [splitOn_append hne ((unbroken_iff_not_overlaps hfirst).2 hoverlap),
          (ih value hlengths hrest).2 ⟨hexact, hoverlaps⟩]

end Repetitions

end Waymark.Pattern
