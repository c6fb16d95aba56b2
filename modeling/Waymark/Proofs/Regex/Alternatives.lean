import Mathlib.Algebra.GroupWithZero.Nat
import Mathlib.Data.List.Induction
import Waymark.Proofs.Regex.Inheriting
import Waymark.Proofs.Regex.Trying
/-!
Expressions as alternatives.

Expressions that match from the beginning of the text only, and do not refer back, can be put side by
side, each behind the groups of those before it (`branches`). A search for the alternatives that does
not give up comes to the first of them that matches, and captures what a search for that one on its
own does (`Joined.exists_find?`): on the way there it takes no fewer tries than that search.
-/

namespace Waymark.Regex

section Preferred

variable {text : Array Char}

theorem getLast?_foldl_add {states : List State} {gathered : Gathered}
    (hne : gathered.states ≠ []) :
    (states.foldl Gathered.add gathered).states.getLast? = gathered.states.getLast? := by
  induction states generalizing gathered with
  | nil => rfl
  | cons s states ih =>
      rw [List.foldl_cons]
      by_cases hmet : gathered.seen.has s = true
      · rw [Gathered.add, if_pos hmet, ih hne]
      · rw [Gathered.add, if_neg hmet, ih (List.cons_ne_nil s _)]
        obtain ⟨other, others, heq⟩ := List.exists_cons_of_ne_nil hne
        rw [heq, List.getLast?_cons_cons]

/-- The first of some states is kept. -/
theorem head?_distinct (states : List State) : (distinct false states).head? = states.head? := by
  cases states with
  | nil => rfl
  | cons s states =>
      have hfirst : (Gathered.none false).add s =
          ⟨(Gathered.none false).seen.insert s, [s]⟩ := by
        simp [Gathered.add, Gathered.none, Seen.has, Seen.none]
      rw [distinct, Gathered.toList, List.head?_reverse, List.foldl_cons, hfirst,
        getLast?_foldl_add (List.cons_ne_nil s [])]
      rfl

namespace Expr

theorem head?_outcomes_alt (first second : Expr) (s : State) :
    ((alt first second).outcomes text false s).head? =
      (first.outcomes text false s).head?.or (second.outcomes text false s).head? := by
  rw [outcomes, head?_distinct, List.head?_append]

/-- The preferred outcome of alternatives is that of the first that has one. -/
theorem head?_outcomes_ofAlternatives {branches : List Expr} (hne : branches ≠ []) (s : State) :
    ((ofAlternatives branches).outcomes text false s).head? =
      branches.findSome? fun branch => (branch.outcomes text false s).head? := by
  cases branches with
  | nil => exact absurd rfl hne
  | cons first rest =>
      rw [ofAlternatives]
      clear hne
      induction rest generalizing first with
      | nil => simp
      | cons second rest ih =>
          rw [List.foldl_cons, ih, List.findSome?_cons, List.findSome?_cons, List.findSome?_cons,
            head?_outcomes_alt]
          cases (first.outcomes text false s).head? <;> rfl

theorem isInvolved_ofAlternatives {branches : List Expr} {branch : Expr}
    (hbranch : branch ∈ branches) (h : branch.isInvolved = true) :
    (ofAlternatives branches).isInvolved = true := by
  have hfold : ∀ (rest : List Expr) (first : Expr),
      first.isInvolved = true ∨ branch ∈ rest → (rest.foldl alt first).isInvolved = true := by
    intro rest
    induction rest with
    | nil => exact fun first hor => hor.resolve_right List.not_mem_nil
    | cons second rest ih =>
        intro first hor
        refine ih _ ?_
        rcases hor with hfirst | hmem
        · exact .inl (by simp [isInvolved, hfirst])
        · rcases List.mem_cons.1 hmem with rfl | hmem
          · exact .inl (by simp [isInvolved, h])
          · exact .inr hmem
  cases branches with
  | nil => exact absurd hbranch List.not_mem_nil
  | cons first rest =>
      refine hfold rest first ?_
      rcases List.mem_cons.1 hbranch with rfl | hmem
      · exact .inl h
      · exact .inr hmem

theorem loopsAreOrdered_of_ofAlternatives {branches : List Expr}
    (h : (ofAlternatives branches).loopsAreOrdered = true) :
    ∀ branch ∈ branches, branch.loopsAreOrdered = true := by
  have hfold : ∀ (rest : List Expr) (first : Expr),
      (rest.foldl alt first).loopsAreOrdered = true →
        ∀ branch ∈ first :: rest, branch.loopsAreOrdered = true := by
    intro rest
    induction rest with
    | nil => exact fun first hfirst => List.forall_mem_singleton.2 hfirst
    | cons second rest ih =>
        intro first hrow
        obtain ⟨hboth, hrest⟩ := List.forall_mem_cons.1 (ih (.alt first second) hrow)
        rw [loopsAreOrdered, Bool.and_eq_true] at hboth
        exact List.forall_mem_cons.2 ⟨hboth.1, List.forall_mem_cons.2 ⟨hboth.2, hrest⟩⟩
  cases branches with
  | nil => exact fun _ hbranch => absurd hbranch List.not_mem_nil
  | cons first rest => exact hfold rest first h

theorem hasBackref_ofAlternatives {branches : List Expr}
    (h : ∀ branch ∈ branches, branch.hasBackref = false) :
    (ofAlternatives branches).hasBackref = false := by
  refine of_ofAlternatives (P := fun expr => expr.hasBackref = false) rfl ?_ h
  exact fun first second hfirst hsecond => by simp [hasBackref, hfirst, hsecond]

/-- Alternatives match nowhere if and only if none of them does. -/
theorem not_leads_ofAlternatives {branches : List Expr} (hne : branches ≠ []) {position : Nat} :
    (¬ ∃ q, (ofAlternatives branches).Leads text position q) ↔
      ∀ branch ∈ branches, ¬ ∃ q, branch.Leads text position q := by
  simp only [← head?_eq_none_iff_not_leads]
  rw [head?_outcomes_ofAlternatives hne, List.findSome?_eq_none_iff]

theorem ofAlternatives_concat {branches : List Expr} (hne : branches ≠ []) (last : Expr) :
    ofAlternatives (branches ++ [last]) = alt (ofAlternatives branches) last := by
  obtain ⟨first, rest, rfl⟩ := List.exists_cons_of_ne_nil hne
  rw [List.cons_append, ofAlternatives, ofAlternatives, List.foldl_append]
  rfl

end Expr

end Preferred

/-- The preferred outcome from the beginning of a text on. -/
def Expr.preferred? (expr : Expr) (text : Array Char) : Option State :=
  (expr.outcomes text false (.start 0)).head?

section Tried

variable {text : Array Char} {left : Nat}

namespace Expr

/-- A search that does not give up among alternatives does not among the first of them. -/
theorem attempt_front {front : List Expr} (hne : front ≠ []) (back : List Expr) {s : State}
    {next : Continue}
    (h : (ofAlternatives (front ++ back)).attempt text false s left next ≠ .exhausted) :
    (ofAlternatives front).attempt text false s left next ≠ .exhausted := by
  induction back generalizing front with
  | nil => rwa [List.append_nil] at h
  | cons second back ih =>
      rw [List.append_cons] at h
      have hfront := ih (by simp) h
      rw [ofAlternatives_concat hne, attempt] at hfront
      intro hgives
      rw [hgives] at hfront
      exact hfront rfl

/-- A search that does not give up tries every alternative before which none matches. -/
theorem exists_tried {front back : List Expr} {branch : Expr} {position : Nat}
    (hposition : position ≤ text.size) (hplain : ∀ other ∈ front, other.hasBackref = false)
    (hfront : ∀ other ∈ front, ¬ ∃ q, other.Leads text position q)
    (h : (ofAlternatives (front ++ branch :: back)).attempt text false (.start position) left
      (fun _ left => .found left) ≠ .exhausted) :
    ∃ fewer, fewer ≤ left ∧
      branch.attempt text false (.start position) fewer (fun _ left => .found left) ≠
        .exhausted := by
  rw [List.append_cons] at h
  have htried := attempt_front (by simp) back h
  by_cases hne : front = []
  · subst hne
    exact ⟨left, Nat.le_refl left, htried⟩
  · have hleads : ¬ ∃ q, (ofAlternatives front).Leads text position q ∧ True := by
      rintro ⟨q, hq, -⟩
      exact (not_leads_ofAlternatives hne).2 hfront ⟨q, hq⟩
    have hsettles := explores_attempt (hasBackref_ofAlternatives hplain) (.start position) _ _ hposition
      (continues_found text.size position)
    rw [ofAlternatives_concat hne, attempt] at htried
    exact hsettles.exists_of_orElse hleads htried

/-- A search for an expression that matches where it begins comes to it, if it has so many tries. -/
theorem isWithinPatience_of_attempt {expr : Expr} (hplain : expr.hasBackref = false)
    (hmatches : expr.preferred? text ≠ none) (hle : left ≤ patience)
    (h : expr.attempt text false (.start 0) left (fun _ left => .found left) ≠ .exhausted) :
    expr.isWithinPatience text = true := by
  obtain ⟨q, hq⟩ := ne_nil_iff_leads.1 fun hnil => hmatches (List.head?_eq_none_iff.2 hnil)
  have hsettles := explores_attempt hplain (.start 0) _ _ (Nat.zero_le text.size)
    (continues_found text.size 0)
  obtain ⟨rest, hrest⟩ := hsettles.exists_eq_found ⟨q, hq, trivial⟩ h hle
  have hfound : expr.attemptFrom text (text.size + 1) 0 patience = .found rest := by
    rw [attemptFrom, hplain, hrest]
    rfl
  rw [isWithinPatience, hfound]
  split <;> rfl

/-- A search that does not give up tries the first position. -/
theorem attempt_of_isWithinPatience {expr : Expr} (hplain : expr.hasBackref = false)
    (hinvolved : expr.isInvolved = true) (h : expr.isWithinPatience text = true) :
    expr.attempt text false (.start 0) patience (fun _ left => .found left) ≠ .exhausted := by
  intro hgives
  rw [isWithinPatience, if_pos hinvolved, attemptFrom, hplain, hgives] at h
  exact absurd h (by simp [Effort.orElse])

end Expr

end Tried

/-- A match from the beginning of a text on. -/
def Match.ofState (state : State) : Match :=
  ⟨0, state.position, state⟩

/-- An expression that does not refer back matches from the beginning of a text only. -/
structure Expr.Leading (expr : Expr) : Prop where
  plain : expr.hasBackref = false
  first : ∀ (text : Array Char) (position : Nat),
    expr.outcomes text false (.start (position + 1)) = []

/-- A search for an expression that matches from the beginning of a text only. -/
theorem find?_eq_of_leading {regex : Regex} (hleading : regex.expr.Leading) {text : Array Char}
    (hpatience : regex.expr.isWithinPatience text = true) :
    regex.find? text = (regex.expr.preferred? text).map .ofState := by
  have hplain := hleading.plain
  have hlater : ∀ p, regex.expr.matchAt? text (p + 1) = none := by
    intro p
    rw [Expr.matchAt?, hplain, hleading.first]
    rfl
  have hrest : (List.range text.size).findSome?
      (regex.expr.matchAt? text ∘ Nat.succ) = none :=
    List.findSome?_eq_none_iff.2 fun p _ => hlater p
  rw [find?, if_pos hpatience, List.range_succ_eq_map, List.findSome?_cons, List.findSome?_map,
    hrest, Expr.matchAt?, hplain]
  rw [Expr.preferred?]
  cases (regex.expr.outcomes text false (.start 0)).head? <;> rfl

theorem preferred?_of_find? {regex : Regex} (hleading : regex.expr.Leading) {text : Array Char}
    {found : Match} (hfound : regex.find? text = some found) :
    ∃ state, regex.expr.preferred? text = some state ∧ found = .ofState state := by
  have hpatience : regex.expr.isWithinPatience text = true := by
    by_contra hgives
    rw [find?, if_neg hgives] at hfound
    exact absurd hfound (by simp)
  rw [find?_eq_of_leading hleading hpatience] at hfound
  obtain ⟨state, hstate, rfl⟩ := Option.map_eq_some_iff.1 hfound
  exact ⟨state, hstate, rfl⟩

/-- Two states of which the second is behind further groups: they are at the same position and have
captured the same. -/
structure Behind (offset : Nat) (s t : State) : Prop where
  position : s.position = t.position
  span : ∀ index, t.span? (index + offset) = s.span? index

theorem behind_start (offset position : Nat) : Behind offset (.start position) (.start position) :=
  ⟨rfl, fun _ => rfl⟩

theorem parallel_behind (offset : Nat) : Expr.Parallel offset (Behind offset) where
  level _ _ h := h.position
  moveTo _ _ _ h := ⟨rfl, h.span⟩
  capture s t index origin h := by
    refine ⟨h.position, fun other => ?_⟩
    by_cases heq : index = other
    · subst heq
      rw [State.span?_capture_self, State.span?_capture_self, h.position]
    · rw [State.span?_capture_of_ne _ _ heq, State.span?_capture_of_ne _ _ (by omega), h.span]

namespace Expr

/-- Behind further groups, an expression has the same preferred outcome. -/
theorem preferred?_shift {expr : Expr} (hplain : expr.hasBackref = false) (offset : Nat)
    (text : Array Char) :
    Option.Rel (Behind offset) (expr.preferred? text) ((expr.shift offset).preferred? text) := by
  have houtcomes := @forall₂_outcomes text _ _ (parallel_behind offset) _ hplain _ _
    (behind_start offset 0)
  unfold preferred?
  generalize expr.outcomes text false (.start 0) = states at houtcomes ⊢
  generalize (expr.shift offset).outcomes text false (.start 0) = others at houtcomes ⊢
  cases houtcomes with
  | nil => exact .none
  | cons hst => exact .some hst

end Expr

theorem Expr.preferred?_shift_eq_none {expr : Expr} (hplain : expr.hasBackref = false) {offset : Nat}
    {text : Array Char} (h : expr.preferred? text = none) :
    (expr.shift offset).preferred? text = none := by
  have hrel := preferred?_shift hplain offset text
  rw [h] at hrel
  generalize (expr.shift offset).preferred? text = preferred at hrel ⊢
  cases hrel
  rfl

theorem Expr.Leading.shift {expr : Expr} (h : expr.Leading) (offset : Nat) :
    (expr.shift offset).Leading where
  plain := by rw [hasBackref_shift, h.plain]
  first text position := by
    have houtcomes := @forall₂_outcomes text _ _ (parallel_behind offset) _ h.plain _ _
      (behind_start offset (position + 1))
    rw [h.first] at houtcomes
    exact List.forall₂_nil_left_iff.1 houtcomes

/-- The expressions of alternatives, each behind the groups of those before it. -/
def branches : Nat → List Regex → List Expr
  | _, [] => []
  | offset, regex :: regexes =>
      regex.expr.shift offset :: branches (offset + regex.groupCount) regexes

/-- The number of groups of alternatives. -/
def groupsOf (regexes : List Regex) : Nat :=
  (regexes.map groupCount).sum

theorem branches_append (offset : Nat) (front back : List Regex) :
    branches offset (front ++ back) =
      branches offset front ++ branches (offset + groupsOf front) back := by
  induction front generalizing offset with
  | nil => rfl
  | cons regex front ih =>
      have hgroups : offset + groupsOf (regex :: front) =
          offset + regex.groupCount + groupsOf front := by
        rw [groupsOf, List.map_cons, List.sum_cons, ← Nat.add_assoc]
        rfl
      rw [List.cons_append, branches, ih, hgroups]
      rfl

theorem branches_ne_nil {regexes : List Regex} (hne : regexes ≠ []) (offset : Nat) :
    branches offset regexes ≠ [] := by
  obtain ⟨regex, others, rfl⟩ := List.exists_cons_of_ne_nil hne
  exact List.cons_ne_nil _ _

theorem exists_of_mem_branches {offset : Nat} {regexes : List Regex} {branch : Expr}
    (h : branch ∈ branches offset regexes) :
    ∃ regex ∈ regexes, ∃ offset, branch = regex.expr.shift offset := by
  induction regexes generalizing offset with
  | nil => exact absurd h List.not_mem_nil
  | cons regex regexes ih =>
      rcases List.mem_cons.1 h with rfl | h
      · exact ⟨regex, List.mem_cons_self, offset, rfl⟩
      · obtain ⟨other, hother, heq⟩ := ih h
        exact ⟨other, List.mem_cons_of_mem regex hother, heq⟩

theorem exists_shift_mem_branches {regexes : List Regex} {regex : Regex} (h : regex ∈ regexes)
    (offset : Nat) : ∃ further, regex.expr.shift further ∈ branches offset regexes := by
  induction regexes generalizing offset with
  | nil => exact absurd h List.not_mem_nil
  | cons other regexes ih =>
      rcases List.mem_cons.1 h with rfl | h
      · exact ⟨offset, List.mem_cons_self⟩
      · obtain ⟨further, hfurther⟩ := ih h (offset + other.groupCount)
        exact ⟨further, List.mem_cons_of_mem _ hfurther⟩

/-- Alternatives that match from the beginning of a text only, put side by side. -/
structure Joined (whole : Regex) (regexes : List Regex) : Prop where
  ne_nil : regexes ≠ []
  leading : ∀ regex ∈ regexes, regex.expr.Leading
  expr : whole.expr = .ofAlternatives (branches 0 regexes)

namespace Joined

variable {whole regex : Regex} {regexes front back : List Regex} {text : Array Char}

theorem leading_of_mem (h : Joined whole regexes) {branch : Expr}
    (hbranch : branch ∈ branches 0 regexes) : branch.Leading := by
  obtain ⟨regex, hregex, offset, rfl⟩ := exists_of_mem_branches hbranch
  exact (h.leading regex hregex).shift offset

theorem leading_whole (h : Joined whole regexes) : whole.expr.Leading := by
  rw [h.expr]
  refine ⟨?_, fun text position => ?_⟩
  · exact Expr.hasBackref_ofAlternatives fun branch hbranch => (h.leading_of_mem hbranch).plain
  · rw [← List.head?_eq_none_iff, Expr.head?_outcomes_ofAlternatives (branches_ne_nil h.ne_nil 0),
      List.findSome?_eq_none_iff]
    intro branch hbranch
    rw [(h.leading_of_mem hbranch).first, List.head?_nil]

/-- The first alternative that matches is preferred. -/
theorem preferred?_eq (h : Joined whole regexes) (text : Array Char) :
    whole.expr.preferred? text = (branches 0 regexes).findSome? (·.preferred? text) := by
  rw [h.expr, Expr.preferred?, Expr.head?_outcomes_ofAlternatives (branches_ne_nil h.ne_nil 0)]
  rfl

/-- Alternatives that do not match, behind the groups of those before. -/
theorem preferred?_eq_none (hleading : ∀ regex ∈ regexes, regex.expr.Leading)
    (hnone : ∀ regex ∈ regexes, regex.expr.preferred? text = none) (offset : Nat) :
    ∀ branch ∈ branches offset regexes, branch.preferred? text = none := by
  intro branch hbranch
  obtain ⟨regex, hregex, offset, rfl⟩ := exists_of_mem_branches hbranch
  exact Expr.preferred?_shift_eq_none (hleading regex hregex).plain (hnone regex hregex)

/-- Where no alternative before it matches, one that does is found before its search gives up, if the
search for the whole does not. -/
theorem isWithinPatience_of_first (h : Joined whole (front ++ regex :: back))
    (hpatience : whole.expr.isWithinPatience text = true)
    (hfront : ∀ other ∈ front, other.expr.preferred? text = none)
    (hmatches : regex.expr.preferred? text ≠ none) : regex.expr.isWithinPatience text = true := by
  have hleading := h.leading regex (by simp)
  have hsplit : branches 0 (front ++ regex :: back) = branches 0 front ++
      regex.expr.shift (0 + groupsOf front) :: branches (0 + groupsOf front + regex.groupCount) back :=
    branches_append 0 front (regex :: back)
  by_cases hinvolved : regex.expr.isInvolved = true
  · have hwhole : whole.expr.isInvolved = true := by
      rw [h.expr, hsplit]
      refine Expr.isInvolved_ofAlternatives (List.mem_append_right _ List.mem_cons_self) ?_
      rwa [Expr.isInvolved_shift]
    have hattempt := Expr.attempt_of_isWithinPatience h.leading_whole.plain hwhole hpatience
    rw [h.expr, hsplit] at hattempt
    have hnone : ∀ other ∈ branches 0 front, other.preferred? text = none :=
      preferred?_eq_none (fun other hother => h.leading other (by simp [hother])) hfront 0
    obtain ⟨fewer, hle, htried⟩ := Expr.exists_tried (Nat.zero_le text.size)
      (fun other hother => (h.leading_of_mem (hsplit ▸ List.mem_append_left _ hother)).plain)
      (fun other hother => Expr.head?_eq_none_iff_not_leads.1 (hnone other hother)) hattempt
    have hagree : regex.expr.attempt text false (.start 0) fewer (fun _ left => .found left) =
        (regex.expr.shift (0 + groupsOf front)).attempt text false (.start 0) fewer
          fun _ left => .found left :=
      Expr.agree_attempt hleading.plain _ agree_found (.start 0) (.start 0) fewer rfl
    exact Expr.isWithinPatience_of_attempt hleading.plain hmatches hle (hagree ▸ htried)
  · exact Expr.isWithinPatience_of_isInvolved (by simpa using hinvolved) text

/-- Where no alternative before it matches, a search for one comes to what it matches. -/
theorem find?_eq_of_first (h : Joined whole (front ++ regex :: back))
    (hpatience : whole.expr.isWithinPatience text = true)
    (hfront : ∀ other ∈ front, other.expr.preferred? text = none) :
    regex.find? text = (regex.expr.preferred? text).map .ofState := by
  have hleading := h.leading regex (by simp)
  cases hpreferred : regex.expr.preferred? text with
  | some state =>
      have hwithin := h.isWithinPatience_of_first hpatience hfront (by simp [hpreferred])
      rw [find?_eq_of_leading hleading hwithin, hpreferred]
  | none =>
      cases hfound : regex.find? text with
      | none => rfl
      | some found =>
          obtain ⟨state, hstate, _⟩ := preferred?_of_find? hleading hfound
          exact absurd (hpreferred.symm.trans hstate) (by simp)

/-- Where the searches for some alternatives find nothing, none of them matches. -/
theorem preferred?_eq_none_of_find? (h : Joined whole (front ++ back))
    (hpatience : whole.expr.isWithinPatience text = true)
    (hfront : ∀ other ∈ front, other.find? text = none) :
    ∀ other ∈ front, other.expr.preferred? text = none := by
  induction front using List.reverseRecOn generalizing back with
  | nil => exact fun _ hother => absurd hother List.not_mem_nil
  | append_singleton front last ih =>
      rw [List.append_assoc] at h
      obtain ⟨hbefore, hlast⟩ := List.forall_mem_append.1 hfront
      have hnone := ih h hbefore
      refine List.forall_mem_append.2 ⟨hnone, List.forall_mem_singleton.2 ?_⟩
      have hfind := h.find?_eq_of_first hpatience hnone
      rw [hlast last (List.mem_singleton_self last)] at hfind
      exact Option.map_eq_none_iff.1 hfind.symm

/-- The first alternative that is found on its own decides. -/
theorem preferred?_eq_of_find? (h : Joined whole (front ++ regex :: back))
    (hpatience : whole.expr.isWithinPatience text = true)
    (hfront : ∀ other ∈ front, other.find? text = none) {found : Match}
    (hfound : regex.find? text = some found) :
    ∃ s t, found = .ofState s ∧ whole.find? text = some (.ofState t) ∧
      (regex.expr.shift (groupsOf front)).preferred? text = some t ∧
      Behind (groupsOf front) s t := by
  have hleading := h.leading regex (by simp)
  obtain ⟨s, hs, rfl⟩ := preferred?_of_find? hleading hfound
  have hrel := Expr.preferred?_shift hleading.plain (groupsOf front) text
  rw [hs] at hrel
  obtain ⟨t, ht, hst⟩ : ∃ t, (regex.expr.shift (groupsOf front)).preferred? text = some t ∧
      Behind (groupsOf front) s t := by
    generalize (regex.expr.shift (groupsOf front)).preferred? text = preferred at hrel ⊢
    cases hrel with
    | some hst => exact ⟨_, rfl, hst⟩
  refine ⟨s, t, rfl, ?_, ht, hst⟩
  have hnone := preferred?_eq_none (fun other hother => h.leading other (by simp [hother]))
    (h.preferred?_eq_none_of_find? hpatience hfront) 0
  rw [find?_eq_of_leading h.leading_whole hpatience, h.preferred?_eq, branches_append,
    List.findSome?_append, List.findSome?_eq_none_iff.2 hnone, branches, List.findSome?_cons,
    Nat.zero_add, ht]
  rfl

/-- A search for alternatives that does not give up finds something if a search for one of them
does. -/
theorem isSome_find?_iff (h : Joined whole regexes)
    (hpatience : whole.expr.isWithinPatience text = true) :
    (whole.find? text).isSome ↔ ∃ regex ∈ regexes, (regex.find? text).isSome := by
  cases hfirst : regexes.find? fun regex => (regex.find? text).isSome with
  | some regex =>
      obtain ⟨hsome, front, back, rfl, hfront⟩ := List.find?_eq_some_iff_append.1 hfirst
      obtain ⟨found, hfound⟩ := Option.isSome_iff_exists.1 hsome
      obtain ⟨_, _, _, hwhole, _⟩ := h.preferred?_eq_of_find? hpatience
        (fun other hother => by simpa using hfront other hother) hfound
      simp only [hwhole, Option.isSome_some, true_iff]
      exact ⟨regex, by simp, hsome⟩
  | none =>
      have hnone : ∀ regex ∈ regexes, regex.find? text = none := by
        simpa using List.find?_eq_none.1 hfirst
      have hwhole : whole.find? text = none := by
        have hpreferred := h
        rw [← List.append_nil regexes] at hpreferred
        rw [find?_eq_of_leading h.leading_whole hpatience, h.preferred?_eq,
          List.findSome?_eq_none_iff.2 (preferred?_eq_none h.leading
            (hpreferred.preferred?_eq_none_of_find? hpatience hnone) 0)]
        rfl
      simp only [hwhole, Option.isSome_none, Bool.false_eq_true, false_iff, not_exists, not_and]
      intro regex hregex
      simp [hnone regex hregex]

/-- The whole matches where the first alternative that is found on its own does, which has captured
the same behind the groups of those before; no other alternative has captured anything. -/
theorem exists_find? (h : Joined whole (front ++ regex :: back))
    (hnumbered : regex.expr.Numbered regex.groupCount)
    (hpatience : whole.expr.isWithinPatience text = true)
    (hfront : ∀ other ∈ front, other.find? text = none) {found : Match}
    (hfound : regex.find? text = some found) :
    ∃ result, whole.find? text = some result ∧ result.first = found.first ∧
      result.last = found.last ∧
      (∀ index, result.group? text (index + groupsOf front) = found.group? text index) ∧
      ∀ index, index ≤ groupsOf front ∨ groupsOf front + regex.groupCount < index →
        result.group? text index = none := by
  obtain ⟨s, t, rfl, hwhole, ht, hbehind⟩ := h.preferred?_eq_of_find? hpatience hfront hfound
  refine ⟨.ofState t, hwhole, rfl, hbehind.position.symm, fun index => ?_, fun index hindex => ?_⟩
  · rw [Match.group?, Match.group?]
    exact congrArg _ (hbehind.span index)
  · have hruns := Expr.runs_of_mem_outcomes (List.mem_of_head? ht)
    have hnone : t.span? index = none := by
      refine Expr.span?_eq_of_runs hruns fun hmem => ?_
      rw [Expr.groups_shift] at hmem
      obtain ⟨number, hnumber, rfl⟩ := List.mem_map.1 hmem
      obtain ⟨hone, hlast⟩ := hnumbered.groups number hnumber
      omega
    rw [Match.group?]
    exact congrArg _ hnone

end Joined

end Waymark.Regex
