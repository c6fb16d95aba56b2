import Waymark.Proofs.Regex.Alternatives
/-!
Which alternative a search comes to.

Expressions that do not refer back can be put side by side wherever in a text they match. What is
found among them begins at the first position where one of them matches, and there the first that
matches is taken. A search for that one on its own comes to it as well: up to there it takes no more
tries than the search for all (`Choice.attemptFrom_ne_exhausted`). So alternatives match nowhere where
none of them does (`exists_find?_of_branches`).
-/

namespace Waymark.Regex

section Costs

variable {holds : Prop} {run other next further : Nat → Effort} {left enough : Nat}

/-- Some tries give up only where others do, if so many are allowed to both. -/
def Cheaper (run other : Nat → Effort) : Prop :=
  ∀ left, other left ≠ .exhausted → run left ≠ .exhausted

theorem Settles.ne_exhausted_of_le (h : Settles holds run) (hle : left ≤ enough)
    (hleft : run left ≠ .exhausted) : run enough ≠ .exhausted := by
  by_cases hholds : holds
  · obtain ⟨rest, hrest⟩ := h.exists_eq_found hholds hleft hle
    simp [hrest]
  · obtain ⟨cost, hfew, -, hfailed⟩ := h
    have hcost : cost ≤ left := Nat.le_of_not_lt fun hlt => hleft (hfew left hlt)
    obtain ⟨rest, rfl⟩ := Nat.exists_eq_add_of_le' (Nat.le_trans hcost hle)
    simp [hfailed hholds rest]

/-- After ways that fail, the cheaper of which has left more tries, the cheaper goes on. -/
theorem Cheaper.orElse (hcheaper : Cheaper run other) (h : Settles False run)
    (hother : Settles False other)
    (hnext : ∀ left enough, left ≤ enough → further left ≠ .exhausted → next enough ≠ .exhausted)
    (hle : left ≤ enough) (htried : (other left).orElse further ≠ .exhausted) :
    (run enough).orElse next ≠ .exhausted := by
  obtain ⟨cost, hfew, -, hfailed⟩ := h
  obtain ⟨cost', hfew', -, hfailed'⟩ := hother
  have hcost : cost ≤ cost' := by
    apply Nat.le_of_not_lt
    intro hlt
    have hall := hfailed' not_false 0
    rw [Nat.zero_add] at hall
    exact hcheaper cost' (by simp [hall]) (hfew cost' hlt)
  have hallowed : cost' ≤ left := by
    apply Nat.le_of_not_lt
    intro hlt
    rw [hfew' left hlt] at htried
    exact htried rfl
  obtain ⟨rest', rfl⟩ := Nat.exists_eq_add_of_le' hallowed
  obtain ⟨rest, rfl⟩ := Nat.exists_eq_add_of_le' (Nat.le_trans hcost (Nat.le_trans hallowed hle))
  rw [hfailed' not_false] at htried
  rw [hfailed not_false]
  cases rest' with
  | zero => exact absurd rfl htried
  | succ rest' =>
      cases rest with
      | zero => omega
      | succ rest => exact hnext rest' rest (by omega) htried

end Costs

namespace Expr

variable {text : Array Char} {expr : Expr} {position : Nat}

/-- Trying an expression from a position on. -/
def tries (text : Array Char) (expr : Expr) (position left : Nat) : Effort :=
  expr.attempt text false (.start position) left fun _ left => .found left

theorem settles_tries (hplain : expr.hasBackref = false) (hposition : position ≤ text.size) :
    Settles (∃ q, expr.Leads text position q) (expr.tries text position) := by
  have hsettles := explores_attempt hplain (.start position) _ _ hposition
    (continues_found text.size position)
  exact hsettles.congr (by simp [State.start])

theorem attemptFrom_succ (hplain : expr.hasBackref = false) (count position left : Nat) :
    expr.attemptFrom text (count + 1) position left =
      (expr.tries text position left).orElse (expr.attemptFrom text count (position + 1)) := by
  rw [attemptFrom, hplain]
  rfl

/-- Behind further groups, as many tries are made. -/
theorem attemptFrom_shift (hplain : expr.hasBackref = false) (offset count position left : Nat) :
    (expr.shift offset).attemptFrom text count position left =
      expr.attemptFrom text count position left := by
  have hshifted : (expr.shift offset).hasBackref = false := by rw [hasBackref_shift, hplain]
  induction count generalizing position left with
  | zero => rfl
  | succ count ih =>
      have hagree : expr.tries text position left = (expr.shift offset).tries text position left :=
        agree_attempt hplain offset agree_found (.start position) (.start position) left rfl
      have hrest : (expr.shift offset).attemptFrom text count (position + 1) =
          expr.attemptFrom text count (position + 1) := funext (ih (position + 1))
      rw [attemptFrom_succ hshifted, attemptFrom_succ hplain, hagree, hrest]

end Expr

/-- At the first position where any of some alternatives matches, one of them is the first to. -/
structure Choice (text : Array Char) (front : List Expr) (branch : Expr) (back : List Expr)
    (first : Nat) : Prop where
  plain : ∀ other ∈ front ++ branch :: back, other.hasBackref = false
  before : ∀ position, position < first → ∀ other ∈ front ++ branch :: back,
    ¬ ∃ q, other.Leads text position q
  others : ∀ other ∈ front, ¬ ∃ q, other.Leads text first q
  leads : ∃ q, branch.Leads text first q

namespace Choice

variable {text : Array Char} {front back : List Expr} {branch : Expr} {first position : Nat}

theorem plain_whole (h : Choice text front branch back first) :
    (Expr.ofAlternatives (front ++ branch :: back)).hasBackref = false :=
  Expr.hasBackref_ofAlternatives h.plain

theorem plain_branch (h : Choice text front branch back first) : branch.hasBackref = false :=
  h.plain branch (by simp)

/-- Up to the choice, the alternatives before it fail. -/
theorem fails_front (h : Choice text front branch back first) (hle : position ≤ first) :
    ∀ other ∈ front, ¬ ∃ q, other.Leads text position q := by
  intro other hother
  rcases Nat.lt_or_eq_of_le hle with hlt | heq
  · exact h.before position hlt other (List.mem_append_left _ hother)
  · rw [heq]
    exact h.others other hother

theorem cheaper (h : Choice text front branch back first) (hle : position ≤ first)
    (hsize : position ≤ text.size) :
    Cheaper (branch.tries text position)
      ((Expr.ofAlternatives (front ++ branch :: back)).tries text position) := by
  intro left htried
  obtain ⟨fewer, hfewer, hne⟩ := Expr.exists_tried hsize
    (fun other hother => h.plain other (List.mem_append_left _ hother)) (h.fails_front hle) htried
  exact (Expr.settles_tries h.plain_branch hsize).ne_exhausted_of_le hfewer hne

/-- No alternative matches before the choice, so neither do they together. -/
theorem fails_whole (h : Choice text front branch back first) (hlt : position < first) :
    ¬ ∃ q, (Expr.ofAlternatives (front ++ branch :: back)).Leads text position q :=
  (Expr.not_leads_ofAlternatives (by simp)).2 (h.before position hlt)

/-- A search for the choice does not give up where one for all alternatives does not. -/
theorem attemptFrom_ne_exhausted (h : Choice text front branch back first) {count left enough : Nat}
    (hle : position ≤ first) (hreach : first < position + count)
    (hsize : position + count ≤ text.size + 1) (hmore : left ≤ enough)
    (htried : (Expr.ofAlternatives (front ++ branch :: back)).attemptFrom text count position left ≠
      .exhausted) :
    branch.attemptFrom text count position enough ≠ .exhausted := by
  induction count generalizing position left enough with
  | zero => omega
  | succ count ih =>
      rw [Expr.attemptFrom_succ h.plain_whole] at htried
      rw [Expr.attemptFrom_succ h.plain_branch]
      have hwithin : position ≤ text.size := by omega
      have hcheaper := h.cheaper hle hwithin
      have hsettles := Expr.settles_tries h.plain_branch hwithin
      rcases Nat.lt_or_eq_of_le hle with hlt | rfl
      · have hfails := h.before position hlt branch (by simp)
        have hwhole := Expr.settles_tries h.plain_whole hwithin
        refine hcheaper.orElse (hsettles.congr (iff_false_intro hfails))
          (hwhole.congr (iff_false_intro (h.fails_whole hlt))) ?_ hmore htried
        intro left enough hmore htried
        exact ih hlt (by omega) (by omega) hmore htried
      · have hallowed : (Expr.ofAlternatives (front ++ branch :: back)).tries text position left ≠
            .exhausted := by
          intro hgives
          rw [hgives] at htried
          exact htried rfl
        obtain ⟨rest, hrest⟩ := hsettles.exists_eq_found h.leads (hcheaper left hallowed) hmore
        simp [hrest, Effort.orElse]

end Choice

section Searching

variable {text : Array Char} {whole regex : Regex} {regexes : List Regex}

/-- A search finds something where an expression matches, if it does not give up. -/
theorem isSome_find?_of_leads (hplain : regex.expr.hasBackref = false)
    (hpatience : regex.expr.isWithinPatience text = true) {position : Nat}
    (hposition : position ≤ text.size) (hleads : ∃ q, regex.expr.Leads text position q) :
    (regex.find? text).isSome := by
  rw [find?, if_pos hpatience, List.findSome?_isSome_iff]
  refine ⟨position, List.mem_range.2 (Nat.lt_succ_of_le hposition), ?_⟩
  rw [Expr.matchAt?, hplain, Option.isSome_map, Option.isSome_iff_ne_none, ne_eq,
    List.head?_eq_none_iff]
  exact Expr.ne_nil_iff_leads.2 hleads

/-- What a search finds begins at the first position where the expression matches. -/
theorem exists_first_of_find? {found : Match} (hplain : regex.expr.hasBackref = false)
    (h : regex.find? text = some found) :
    regex.expr.isWithinPatience text = true ∧ ∃ first, first ≤ text.size ∧
      regex.expr.outcomes text false (.start first) ≠ [] ∧
      ∀ position, position < first → regex.expr.outcomes text false (.start position) = [] := by
  rw [find?] at h
  split at h
  · next hpatience =>
    obtain ⟨earlier, first, later, hsplit, hfirst, hearlier⟩ := List.findSome?_eq_some_iff.1 h
    obtain ⟨state, hstate, -⟩ := Option.map_eq_some_iff.1 hfirst
    rw [hplain] at hstate
    have hmem : first ∈ List.range (text.size + 1) := by simp [hsplit]
    refine ⟨hpatience, first, Nat.le_of_lt_succ (List.mem_range.1 hmem), ?_, ?_⟩
    · exact List.ne_nil_of_mem (List.mem_of_head? hstate)
    · intro position hlt
      have horder : (List.range (text.size + 1)).Pairwise (· < ·) := List.pairwise_lt_range
      rw [hsplit, List.pairwise_append, List.pairwise_cons] at horder
      have hposition : position ∈ List.range (text.size + 1) :=
        List.mem_range.2 (Nat.lt_trans hlt (List.mem_range.1 hmem))
      rw [hsplit, List.mem_append, List.mem_cons] at hposition
      rcases hposition with hbefore | rfl | hafter
      · have hnone := hearlier position hbefore
        rw [Expr.matchAt?, hplain, Option.map_eq_none_iff] at hnone
        exact List.head?_eq_none_iff.1 hnone
      · exact absurd hlt (Nat.lt_irrefl _)
      · exact absurd (horder.2.1.1 position hafter) (Nat.lt_asymm hlt)
  · exact absurd h (by simp)

/-- A search that finds something among alternatives has come to a choice. -/
theorem exists_choice {alternatives : List Expr} (hne : alternatives ≠ [])
    (hplain : ∀ other ∈ alternatives, other.hasBackref = false)
    (hexpr : whole.expr = .ofAlternatives alternatives) (h : (whole.find? text).isSome) :
    whole.expr.isWithinPatience text = true ∧ ∃ front branch back first,
      alternatives = front ++ branch :: back ∧ first ≤ text.size ∧
        Choice text front branch back first := by
  have hwhole : whole.expr.hasBackref = false := by
    rw [hexpr]
    exact Expr.hasBackref_ofAlternatives hplain
  obtain ⟨found, hfound⟩ := Option.isSome_iff_exists.1 h
  obtain ⟨hpatience, first, hsize, hmatches, hearlier⟩ := exists_first_of_find? hwhole hfound
  refine ⟨hpatience, ?_⟩
  obtain ⟨state, hstate⟩ : ∃ state, (whole.expr.outcomes text false (.start first)).head? =
      some state := Option.ne_none_iff_exists'.1 (by simpa using hmatches)
  rw [hexpr, Expr.head?_outcomes_ofAlternatives hne] at hstate
  obtain ⟨front, branch, back, rfl, hbranch, hfront⟩ := List.findSome?_eq_some_iff.1 hstate
  refine ⟨front, branch, back, first, rfl, hsize, hplain, ?_, ?_, ?_⟩
  · intro position hlt other hother
    have hnil := Expr.head?_eq_none_iff_not_leads.1
      (List.head?_eq_none_iff.2 (hearlier position hlt))
    rw [hexpr] at hnil
    exact (Expr.not_leads_ofAlternatives hne).1 hnil other hother
  · intro other hother
    exact Expr.head?_eq_none_iff_not_leads.1 (hfront other hother)
  · exact Expr.ne_nil_iff_leads.1 (List.ne_nil_of_mem (List.mem_of_head? hbranch))

/-- Alternatives match nowhere where none of them does, which are put side by side behind the groups of
those before. -/
theorem exists_find?_of_branches (hne : regexes ≠ [])
    (hplain : ∀ regex ∈ regexes, regex.expr.hasBackref = false)
    (hexpr : whole.expr = .ofAlternatives (branches 0 regexes)) (h : (whole.find? text).isSome) :
    ∃ regex ∈ regexes, (regex.find? text).isSome := by
  have hbranches : ∀ other ∈ branches 0 regexes, other.hasBackref = false := by
    intro other hother
    obtain ⟨regex, hregex, offset, rfl⟩ := exists_of_mem_branches hother
    rw [Expr.hasBackref_shift, hplain regex hregex]
  obtain ⟨hpatience, front, branch, back, first, hsplit, hsize, hchoice⟩ :=
    exists_choice (branches_ne_nil hne 0) hbranches hexpr h
  obtain ⟨regex, hregex, offset, rfl⟩ :=
    exists_of_mem_branches (show branch ∈ branches 0 regexes by simp [hsplit])
  have halone := hplain regex hregex
  refine ⟨regex, hregex, isSome_find?_of_leads halone ?_ hsize ?_⟩
  · by_cases hinvolved : regex.expr.isInvolved = true
    · have hwhole : whole.expr.isInvolved = true := by
        rw [hexpr, hsplit]
        have hshifted : (regex.expr.shift offset).isInvolved = true := by
          rwa [Expr.isInvolved_shift]
        exact Expr.isInvolved_ofAlternatives (by simp) hshifted
      rw [Expr.isWithinPatience, if_pos hwhole, bne_iff_ne, hexpr, hsplit] at hpatience
      rw [Expr.isWithinPatience, if_pos hinvolved, bne_iff_ne, ← Expr.attemptFrom_shift halone offset]
      exact hchoice.attemptFrom_ne_exhausted (Nat.zero_le first) (by omega) (by omega)
        (Nat.le_refl _) hpatience
    · exact Expr.isWithinPatience_of_isInvolved (by simpa using hinvolved) text
  · obtain ⟨q, state, hstate, -⟩ := hchoice.leads
    have houtcomes := @Expr.forall₂_outcomes text _ _ (parallel_behind offset) _ halone _ _
      (behind_start offset first)
    rw [← Expr.ne_nil_iff_leads]
    intro hnil
    rw [hnil, List.forall₂_nil_left_iff] at houtcomes
    rw [houtcomes] at hstate
    exact absurd hstate List.not_mem_nil

end Searching

end Waymark.Regex
