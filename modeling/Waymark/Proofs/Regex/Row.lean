import Waymark.Proofs.Regex.Runs
/-!
Expressions in a row.

The inside of a group with one alternative is the sequence of its items; empty ones leave no trace.
A run of a row is a run of each item after the other (`runs_row`).
-/

namespace Waymark.Regex

/-- Expressions in a row, as the inside of a group with one alternative. -/
def row (items : List Expr) : Expr :=
  Expr.ofSeq (items.filter (· ≠ .empty))

theorem row_singleton (item : Expr) : row [item] = item := by
  by_cases hempty : item = .empty
  · subst hempty
    rfl
  · rw [row, List.filter_cons_of_pos (by simpa using hempty)]
    rfl

namespace Expr

/-- From one state to another by a match of each expression after the other. -/
def RunsAll (text : Array Char) : List Expr → State → State → Prop
  | [], s, t => t = s
  | item :: items, s, t => ∃ m, item.Runs text s m ∧ RunsAll text items m t

variable {text : Array Char}

theorem runsAll_singleton {item : Expr} {s t : State} :
    RunsAll text [item] s t ↔ item.Runs text s t := by
  constructor
  · rintro ⟨m, hm, rfl⟩
    exact hm
  · exact fun h => ⟨t, h, rfl⟩

theorem runsAll_append {items others : List Expr} {s t : State} :
    RunsAll text (items ++ others) s t ↔
      ∃ m, RunsAll text items s m ∧ RunsAll text others m t := by
  induction items generalizing s with
  | nil =>
      constructor
      · exact fun h => ⟨s, rfl, h⟩
      · rintro ⟨m, rfl, h⟩
        exact h
  | cons item items ih =>
      constructor
      · rintro ⟨m, hm, hrest⟩
        obtain ⟨l, hl, ht⟩ := ih.1 hrest
        exact ⟨l, ⟨m, hm, hl⟩, ht⟩
      · rintro ⟨l, ⟨m, hm, hl⟩, ht⟩
        exact ⟨m, hm, ih.2 ⟨l, hl, ht⟩⟩

theorem runs_foldl_seq {first : Expr} {rest : List Expr} {s t : State} :
    (rest.foldl .seq first).Runs text s t ↔
      ∃ m, first.Runs text s m ∧ RunsAll text rest m t := by
  induction rest generalizing first with
  | nil =>
      constructor
      · exact fun h => ⟨t, h, rfl⟩
      · rintro ⟨m, hm, rfl⟩
        exact hm
  | cons next rest ih =>
      rw [List.foldl_cons, ih]
      constructor
      · rintro ⟨l, ⟨m, hm, hl⟩, ht⟩
        exact ⟨m, hm, l, hl, ht⟩
      · rintro ⟨m, hm, l, hl, ht⟩
        exact ⟨l, ⟨m, hm, hl⟩, ht⟩

theorem runs_ofSeq {items : List Expr} {s t : State} :
    (ofSeq items).Runs text s t ↔ RunsAll text items s t := by
  cases items with
  | nil => exact Iff.rfl
  | cons first rest => exact runs_foldl_seq

theorem runsAll_filter {items : List Expr} {s t : State} :
    RunsAll text (items.filter (· ≠ .empty)) s t ↔ RunsAll text items s t := by
  induction items generalizing s with
  | nil => exact Iff.rfl
  | cons item items ih =>
      by_cases hempty : item = .empty
      · subst hempty
        rw [List.filter_cons_of_neg (by simp), ih]
        constructor
        · exact fun h => ⟨s, rfl, h⟩
        · rintro ⟨m, rfl, h⟩
          exact h
      · rw [List.filter_cons_of_pos (by simpa using hempty)]
        constructor
        · rintro ⟨m, hm, h⟩
          exact ⟨m, hm, ih.1 h⟩
        · rintro ⟨m, hm, h⟩
          exact ⟨m, hm, ih.2 h⟩

/-- A run of a row is a run of its items. -/
theorem runs_row {items : List Expr} {s t : State} :
    (row items).Runs text s t ↔ RunsAll text items s t :=
  runs_ofSeq.trans runsAll_filter

/-- The last of some alternatives is one of the ways to match. -/
theorem runs_ofAlternatives_append (others : List Expr) {last : Expr} {s t : State}
    (h : last.Runs text s t) : (ofAlternatives (others ++ [last])).Runs text s t := by
  cases others with
  | nil => exact h
  | cons first rest =>
      rw [List.cons_append, ofAlternatives, List.foldl_append]
      exact .inr h

theorem groups_foldl_seq (first : Expr) (rest : List Expr) :
    (rest.foldl .seq first).groups = first.groups ++ rest.flatMap groups := by
  induction rest generalizing first with
  | nil => simp
  | cons next rest ih => rw [List.foldl_cons, ih, groups, List.flatMap_cons, List.append_assoc]

/-- The groups of a row are those of its items, one after the other. -/
theorem groups_row (items : List Expr) : (row items).groups = items.flatMap groups := by
  have hfilter : (items.filter (· ≠ .empty)).flatMap groups = items.flatMap groups := by
    induction items with
    | nil => rfl
    | cons item items ih =>
        by_cases hempty : item = .empty
        · subst hempty
          rw [List.filter_cons_of_neg (by simp), ih, List.flatMap_cons]
          rfl
        · rw [List.filter_cons_of_pos (by simpa using hempty), List.flatMap_cons, ih,
            List.flatMap_cons]
  rw [← hfilter, row]
  cases items.filter (· ≠ .empty) with
  | nil => rfl
  | cons first rest => exact groups_foldl_seq first rest

/-- A match of a row leaves the groups alone that its items do not have. -/
theorem span?_eq_of_runsAll {items : List Expr} {s t : State} (h : RunsAll text items s t)
    {index : Nat} (hindex : index ∉ items.flatMap groups) : t.span? index = s.span? index := by
  rw [← groups_row] at hindex
  exact span?_eq_of_runs (runs_row.2 h) hindex

/-- One pass over the text is enough, and every repetition allows what it requires. -/
def Plain (expr : Expr) : Prop :=
  expr.isInvolved = false ∧ expr.loopsAreOrdered = true

theorem plain_seq {first second : Expr} (hfirst : first.Plain) (hsecond : second.Plain) :
    (Expr.seq first second).Plain :=
  ⟨by simp [isInvolved, hfirst.1, hsecond.1], by simp [loopsAreOrdered, hfirst.2, hsecond.2]⟩

/-- A sequence has what its items have, if the empty expression has it and it passes from two
expressions to the first followed by the second. -/
theorem of_ofSeq {P : Expr → Prop} (hempty : P .empty)
    (hseq : ∀ first second, P first → P second → P (.seq first second)) {items : List Expr}
    (h : ∀ item ∈ items, P item) : P (ofSeq items) := by
  cases items with
  | nil => exact hempty
  | cons first rest =>
      obtain ⟨hfirst, hrest⟩ := List.forall_mem_cons.1 h
      exact List.foldlRecOn rest .seq hfirst
        fun expr hexpr item hitem => hseq expr item hexpr (hrest item hitem)

/-- So does a row. -/
theorem of_row {P : Expr → Prop} (hempty : P .empty)
    (hseq : ∀ first second, P first → P second → P (.seq first second)) {items : List Expr}
    (h : ∀ item ∈ items, P item) : P (row items) :=
  of_ofSeq hempty hseq fun item hitem => h item (List.mem_filter.1 hitem).1

/-- Alternatives together have what each of them has, if the empty expression has it and it passes
from two expressions to both as alternatives. -/
theorem of_ofAlternatives {P : Expr → Prop} (hempty : P .empty)
    (halt : ∀ first second, P first → P second → P (.alt first second)) {branches : List Expr}
    (h : ∀ branch ∈ branches, P branch) : P (ofAlternatives branches) := by
  cases branches with
  | nil => exact hempty
  | cons first rest =>
      obtain ⟨hfirst, hrest⟩ := List.forall_mem_cons.1 h
      exact List.foldlRecOn rest .alt hfirst
        fun expr hexpr branch hbranch => halt expr branch hexpr (hrest branch hbranch)

theorem plain_row {items : List Expr} (h : ∀ item ∈ items, item.Plain) : (row items).Plain :=
  of_row ⟨rfl, rfl⟩ (fun _ _ => plain_seq) h

theorem isCertain_row {items : List Expr} (h : ∀ item ∈ items, item.isCertain = true) :
    (row items).isCertain = true := by
  refine of_row (P := fun expr => expr.isCertain = true) rfl (fun first second => ?_) h
  exact fun hfirst hsecond => by simp [isCertain, hfirst, hsecond]

theorem isCertain_ofAlternatives {branches : List Expr}
    (h : ∀ branch ∈ branches, branch.isCertain = true) :
    (ofAlternatives branches).isCertain = true := by
  refine of_ofAlternatives (P := fun expr => expr.isCertain = true) rfl (fun first second => ?_) h
  exact fun hfirst hsecond => by simp [isCertain, hfirst, hsecond]

theorem isInvolved_row {items : List Expr} (h : ∀ item ∈ items, item.isInvolved = false) :
    (row items).isInvolved = false := by
  refine of_row (P := fun expr => expr.isInvolved = false) rfl (fun first second => ?_) h
  exact fun hfirst hsecond => by simp [isInvolved, hfirst, hsecond]

theorem repeatable_foldl_seq {first : Expr} {rest : List Expr} (hne : rest ≠ []) :
    (rest.foldl .seq first).repeatable = true := by
  induction rest generalizing first with
  | nil => exact absurd rfl hne
  | cons next rest ih =>
      cases rest with
      | nil => rfl
      | cons other rest => exact ih (List.cons_ne_nil other rest)

/-- A quantifier may follow a row with an item that it may follow. -/
theorem repeatable_row {items : List Expr} {item : Expr} (hitem : item ∈ items)
    (hrepeatable : item.repeatable = true) : (row items).repeatable = true := by
  have hne : item ≠ .empty := by
    rintro rfl
    exact absurd hrepeatable (by decide)
  have hmem : item ∈ items.filter (· ≠ .empty) := List.mem_filter.2 ⟨hitem, by simpa using hne⟩
  unfold row
  cases heq : items.filter (· ≠ .empty) with
  | nil =>
      rw [heq] at hmem
      exact absurd hmem List.not_mem_nil
  | cons first rest =>
      by_cases hrest : rest = []
      · subst hrest
        rw [heq, List.mem_singleton] at hmem
        rw [← hmem]
        exact hrepeatable
      · exact repeatable_foldl_seq hrest

end Expr

end Waymark.Regex
