import Waymark.Proofs.Regex.Closure
import Waymark.Regex.Search
/-!
Runs of expressions: what a match consists of, without the order in which matches are tried.

Main statements: every outcome is a run (`runs_of_mem_outcomes`), a certain expression has an outcome
wherever it has a run (`covers_outcomes`), and so a search finds something exactly when there is a
run (`find?_isSome_iff`), and finds it at the start of the text if there is a run from there
(`exists_find?_of_runs`).
-/

namespace Waymark.Regex

namespace State

@[simp] theorem span?_capture_self (s : State) (group origin : Nat) :
    (s.capture group origin).span? group = some (origin, s.position) := by
  simp [capture, span?]

theorem span?_capture_of_ne (s : State) (origin : Nat) {group other : Nat} (hne : group ≠ other) :
    (s.capture group origin).span? other = s.span? other := by
  have hbeq : (other == group) = false := beq_eq_false_iff_ne.2 hne.symm
  simp only [capture, span?, List.lookup_cons, hbeq]
  induction s.spans with
  | nil => rfl
  | cons span rest ih =>
      obtain ⟨key, value⟩ := span
      by_cases heq : key = group
      · subst heq
        simp [List.lookup_cons, hbeq, ih]
      · simp [List.lookup_cons, heq, ih]

end State

namespace Expr

/-- From one state to another by a match of the expression. A negative look is taken for granted,
and an atomic group may match in any way. -/
def Runs (text : Array Char) : Expr → State → State → Prop
  | .empty, s, t => t = s
  | .set chars caseless, s, t =>
      (∃ c, text[s.position]? = some c ∧ chars.contains caseless c = true) ∧
        t = s.moveTo (s.position + 1)
  | .anchor place, s, t => place.holds text s.position = true ∧ t = s
  | .seq first second, s, t => ∃ m, Runs text first s m ∧ Runs text second m t
  | .alt first second, s, t => Runs text first s t ∨ Runs text second s t
  | .group index body, s, t => ∃ m, Runs text body s m ∧ t = m.capture index s.position
  | .loop body least most _, s, t =>
      ∃ count, Admits least most count ∧ Repeats (Runs text body) count s t
  | .ahead negated body, s, t =>
      if negated then t = s else ∃ m, Runs text body s m ∧ t = m.moveTo s.position
  | .behind negated width body, s, t =>
      if negated then t = s
      else ∃ m, Runs text body (s.moveTo (s.position - width)) m ∧ t = m.moveTo s.position
  | .atomic body, s, t => Runs text body s t
  | .backref index _, s, t =>
      ∃ low high, s.span? index = some (low, high) ∧ t = s.moveTo (s.position + (high - low))

/-- A look ahead goes nowhere, but what it sees may capture. -/
theorem Runs.of_ahead {text : Array Char} {negated : Bool} {body : Expr} {s t : State}
    (h : (Expr.ahead negated body).Runs text s t) :
    t = s ∨ ∃ m, body.Runs text s m ∧ t = m.moveTo s.position := by
  cases negated with
  | true => exact .inl h
  | false => exact .inr h

theorem Runs.of_behind {text : Array Char} {negated : Bool} {width : Nat} {body : Expr}
    {s t : State} (h : (Expr.behind negated width body).Runs text s t) :
    t = s ∨ ∃ m, body.Runs text (s.moveTo (s.position - width)) m ∧ t = m.moveTo s.position := by
  cases negated with
  | true => exact .inl h
  | false => exact .inr h

/-- Every outcome is a run. -/
theorem runs_of_mem_outcomes {text : Array Char} {full : Bool} {expr : Expr} {s t : State}
    (h : t ∈ expr.outcomes text full s) : expr.Runs text s t := by
  induction expr generalizing s t with
  | empty => exact List.mem_singleton.1 h
  | set chars caseless =>
      simp only [outcomes] at h
      split at h
      · next c hc =>
        split at h
        · next hcontains => exact ⟨⟨c, hc, hcontains⟩, List.mem_singleton.1 h⟩
        · simp at h
      · simp at h
  | anchor place =>
      simp only [outcomes] at h
      split at h
      · next hholds => exact ⟨hholds, List.mem_singleton.1 h⟩
      · simp at h
  | seq first second ihfirst ihsecond =>
      obtain ⟨m, hm, ht⟩ := List.mem_flatMap.1 (mem_of_mem_distinct h)
      exact ⟨m, ihfirst hm, ihsecond ht⟩
  | alt first second ihfirst ihsecond =>
      rcases List.mem_append.1 (mem_of_mem_distinct h) with hfirst | hsecond
      · exact Or.inl (ihfirst hfirst)
      · exact Or.inr (ihsecond hsecond)
  | group index body ih =>
      obtain ⟨m, hm, rfl⟩ := List.mem_map.1 h
      exact ⟨m, ih hm, rfl⟩
  | loop body least most greedy ih =>
      obtain ⟨count, hcount, hrepeats⟩ := repeats_of_mem_times h
      exact ⟨count, hcount, hrepeats.map id fun _ _ hstep => ih hstep⟩
  | ahead negated body ih =>
      simp only [outcomes] at h
      split at h
      · exact List.mem_singleton.1 h
      · next found others heq =>
        exact ⟨found, ih (heq ▸ List.mem_cons_self), List.mem_singleton.1 h⟩
      · simp at h
  | behind negated width body ih =>
      simp only [outcomes] at h
      split at h
      · exact List.mem_singleton.1 h
      · next found others heq =>
        split at heq
        · exact ⟨found, ih (heq ▸ List.mem_cons_self), List.mem_singleton.1 h⟩
        · simp at heq
      · simp at h
  | atomic body ih => exact ih (List.mem_of_mem_take h)
  | backref index caseless =>
      simp only [outcomes] at h
      split at h
      · next low high hspan =>
        split at h
        · exact ⟨low, high, hspan, List.mem_singleton.1 h⟩
        · simp at h
      · simp at h

/-- Whether every run of an expression is more than a possibility: it does not rest on a negative
look, nor on a look behind, an atomic group or the text of another group. -/
def isCertain : Expr → Bool
  | .empty | .set .. | .anchor _ => true
  | .seq first second | .alt first second => first.isCertain && second.isCertain
  | .group _ body | .loop body .. => body.isCertain
  | .ahead negated body => !negated && body.isCertain
  | .behind .. | .atomic _ | .backref .. => false

theorem isCertain_of_isInvolved {expr : Expr} (h : expr.isInvolved = false) :
    expr.isCertain = true := by
  induction expr with
  | empty | set | anchor => rfl
  | seq first second ihfirst ihsecond | alt first second ihfirst ihsecond =>
      simp only [isInvolved, Bool.or_eq_false_iff] at h
      simp [isCertain, ihfirst h.1, ihsecond h.2]
  | group index body ih => exact ih h
  | loop body least most greedy ih => exact ih h
  | ahead | behind | atomic | backref => simp [isInvolved] at h

theorem hasBackref_of_isCertain {expr : Expr} (hcertain : expr.isCertain = true) :
    expr.hasBackref = false := by
  induction expr with
  | empty | set | anchor => rfl
  | seq first second ihfirst ihsecond | alt first second ihfirst ihsecond =>
      simp only [isCertain, Bool.and_eq_true] at hcertain
      simp [hasBackref, ihfirst hcertain.1, ihsecond hcertain.2]
  | group index body ih => exact ih hcertain
  | loop body least most greedy ih => exact ih hcertain
  | ahead negated body ih => exact ih (Bool.and_eq_true_iff.1 hcertain).2
  | behind | atomic | backref => simp [isCertain] at hcertain

/-- A run does not go back. -/
theorem position_le_of_runs {text : Array Char} {expr : Expr} {s t : State}
    (h : expr.Runs text s t) : s.position ≤ t.position := by
  induction expr generalizing s t with
  | empty =>
      obtain rfl : t = s := h
      exact Nat.le_refl _
  | set chars caseless =>
      obtain ⟨-, rfl⟩ := h
      exact Nat.le_succ _
  | anchor place =>
      obtain ⟨-, rfl⟩ := h
      exact Nat.le_refl _
  | seq first second ihfirst ihsecond =>
      obtain ⟨m, hm, ht⟩ := h
      exact Nat.le_trans (ihfirst hm) (ihsecond ht)
  | alt first second ihfirst ihsecond => exact h.elim ihfirst ihsecond
  | group index body ih =>
      obtain ⟨m, hm, rfl⟩ := h
      exact ih (t := m) hm
  | loop body least most greedy ih =>
      obtain ⟨count, -, hrepeats⟩ := h
      have hstep : ∀ m t : State, body.Runs text m t →
          s.position ≤ m.position → s.position ≤ t.position :=
        fun _ _ hrun hm => Nat.le_trans hm (ih hrun)
      exact hrepeats.keeps hstep (Nat.le_refl _)
  | ahead negated body _ =>
      rcases Runs.of_ahead h with rfl | ⟨m, -, rfl⟩ <;> exact Nat.le_refl _
  | behind negated width body _ =>
      rcases Runs.of_behind h with rfl | ⟨m, -, rfl⟩ <;> exact Nat.le_refl _
  | atomic body ih => exact ih h
  | backref index caseless =>
      obtain ⟨low, high, -, rfl⟩ := h
      exact Nat.le_add_right _ _

/-- A run of an expression that does not refer back goes forward and stays in the text. -/
theorem advances_of_runs {text : Array Char} {expr : Expr} (hplain : expr.hasBackref = false)
    {s t : State} (hs : s.position ≤ text.size) (h : expr.Runs text s t) :
    s.position ≤ t.position ∧ t.position ≤ text.size := by
  induction expr generalizing s t with
  | empty =>
      rw [show t = s from h]
      exact ⟨Nat.le_refl _, hs⟩
  | set chars caseless =>
      obtain ⟨⟨c, hc, _⟩, rfl⟩ := h
      have hlt := (Array.getElem?_eq_some_iff.1 hc).1
      exact ⟨Nat.le_succ _, hlt⟩
  | anchor place =>
      obtain ⟨_, rfl⟩ := h
      exact ⟨Nat.le_refl _, hs⟩
  | seq first second ihfirst ihsecond =>
      simp only [hasBackref, Bool.or_eq_false_iff] at hplain
      obtain ⟨m, hm, ht⟩ := h
      obtain ⟨hle, hsize⟩ := ihfirst hplain.1 hs hm
      obtain ⟨hle', hsize'⟩ := ihsecond hplain.2 hsize ht
      exact ⟨Nat.le_trans hle hle', hsize'⟩
  | alt first second ihfirst ihsecond =>
      simp only [hasBackref, Bool.or_eq_false_iff] at hplain
      rcases h with h | h
      · exact ihfirst hplain.1 hs h
      · exact ihsecond hplain.2 hs h
  | group index body ih =>
      obtain ⟨m, hm, rfl⟩ := h
      exact ih (t := m) hplain hs hm
  | loop body least most greedy ih =>
      obtain ⟨count, _, hrepeats⟩ := h
      have hstep : ∀ m t : State, body.Runs text m t →
          s.position ≤ m.position ∧ m.position ≤ text.size →
          s.position ≤ t.position ∧ t.position ≤ text.size := by
        rintro m t hrun ⟨hle, hsize⟩
        obtain ⟨hle', hsize'⟩ := ih hplain hsize hrun
        exact ⟨Nat.le_trans hle hle', hsize'⟩
      exact hrepeats.keeps hstep ⟨Nat.le_refl _, hs⟩
  | ahead negated body _ =>
      rcases Runs.of_ahead h with rfl | ⟨m, -, rfl⟩ <;> exact ⟨Nat.le_refl _, hs⟩
  | behind negated width body _ =>
      rcases Runs.of_behind h with rfl | ⟨m, -, rfl⟩ <;> exact ⟨Nat.le_refl _, hs⟩
  | atomic body ih => exact ih hplain hs h
  | backref => simp [hasBackref] at hplain

theorem advances_outcomes {text : Array Char} {expr : Expr} (hplain : expr.hasBackref = false)
    (full : Bool) : Advances (expr.outcomes text full) text.size :=
  fun _ hs _ ht => advances_of_runs hplain hs (runs_of_mem_outcomes ht)

/-- From one position to another by a match of the expression. -/
def Moves (text : Array Char) (expr : Expr) (p q : Nat) : Prop :=
  ∃ s t : State, s.position = p ∧ t.position = q ∧ expr.Runs text s t

theorem Runs.moves {text : Array Char} {expr : Expr} {s t : State} (h : expr.Runs text s t) :
    expr.Moves text s.position t.position :=
  ⟨s, t, rfl, rfl, h⟩

/-- A certain expression has an outcome at every position that a run from the same
position leads to. -/
theorem covers_outcomes {text : Array Char} {expr : Expr} (hcertain : expr.isCertain = true) :
    Finds (expr.outcomes text false) text.size (expr.Moves text) := by
  induction expr with
  | empty =>
      rintro s hs q ⟨s', t, hpos, rfl, rfl⟩
      exact ⟨s, List.mem_singleton.2 rfl, hpos.symm⟩
  | set chars caseless =>
      rintro s hs q ⟨s', t, hpos, rfl, ⟨c, hc, hcontains⟩, rfl⟩
      rw [hpos] at hc
      simp only [outcomes, hc, hcontains, ↓reduceIte]
      exact ⟨_, List.mem_singleton.2 rfl, by simp [State.moveTo, hpos]⟩
  | anchor place =>
      rintro s hs q ⟨s', t, hpos, rfl, hholds, rfl⟩
      rw [hpos] at hholds
      simp only [outcomes, hholds, ↓reduceIte]
      exact ⟨s, List.mem_singleton.2 rfl, hpos.symm⟩
  | seq first second ihfirst ihsecond =>
      simp only [isCertain, Bool.and_eq_true] at hcertain
      rintro s hs q ⟨s', t, hpos, rfl, m', hfirst, hsecond⟩
      obtain ⟨m, hm, hmpos⟩ := ihfirst hcertain.1 s hs m'.position (hpos ▸ hfirst.moves)
      have hmsize := (advances_outcomes (hasBackref_of_isCertain hcertain.1) false s hs m hm).2
      obtain ⟨r, hr, hrpos⟩ := ihsecond hcertain.2 m hmsize t.position (hmpos ▸ hsecond.moves)
      exact covers_distinct ⟨r, List.mem_flatMap.2 ⟨m, hm, hr⟩, hrpos⟩
  | alt first second ihfirst ihsecond =>
      simp only [isCertain, Bool.and_eq_true] at hcertain
      rintro s hs q ⟨s', t, hpos, rfl, h | h⟩
      · exact covers_distinct (covers_append.2 (Or.inl (ihfirst hcertain.1 s hs _ (hpos ▸ h.moves))))
      · exact covers_distinct (covers_append.2 (Or.inr (ihsecond hcertain.2 s hs _ (hpos ▸ h.moves))))
  | group index body ih =>
      rintro s hs q ⟨s', t, hpos, rfl, m', hm', rfl⟩
      obtain ⟨m, hm, hmpos⟩ := ih hcertain s hs m'.position (hpos ▸ hm'.moves)
      exact ⟨_, List.mem_map.2 ⟨m, hm, rfl⟩, hmpos⟩
  | loop body least most greedy ih =>
      rintro s hs q ⟨s', t, hpos, rfl, count, hcount, hrepeats⟩
      have hpositions : Repeats (body.Moves text) count s'.position t.position :=
        hrepeats.map State.position fun _ _ hrun => hrun.moves
      have hbody : body.isCertain = true := hcertain
      exact covers_times (ih hbody) (advances_outcomes (hasBackref_of_isCertain hbody) false) hcount
        hs (hpos ▸ hpositions)
  | ahead negated body ih =>
      simp only [isCertain, Bool.and_eq_true, Bool.not_eq_true'] at hcertain
      obtain ⟨rfl, hbody⟩ := hcertain
      rintro s hs q ⟨s', t, hpos, rfl, m', hm', rfl⟩
      obtain ⟨m, hm, _⟩ := ih hbody s hs m'.position (hpos ▸ hm'.moves)
      obtain ⟨found, others, houtcomes⟩ := List.exists_cons_of_ne_nil (List.ne_nil_of_mem hm)
      simp only [outcomes, houtcomes]
      exact ⟨_, List.mem_singleton.2 rfl, hpos.symm⟩
  | behind | atomic | backref => simp [isCertain] at hcertain

/-- What has been captured stays captured. -/
theorem span?_isSome_of_runs {text : Array Char} {expr : Expr} {s t : State}
    (h : expr.Runs text s t) {index : Nat} (hs : (s.span? index).isSome) :
    (t.span? index).isSome := by
  induction expr generalizing s t with
  | empty =>
      rw [show t = s from h]
      exact hs
  | set chars caseless =>
      obtain ⟨_, rfl⟩ := h
      exact hs
  | anchor place =>
      obtain ⟨_, rfl⟩ := h
      exact hs
  | seq first second ihfirst ihsecond =>
      obtain ⟨m, hm, ht⟩ := h
      exact ihsecond ht (ihfirst hm hs)
  | alt first second ihfirst ihsecond =>
      rcases h with h | h
      · exact ihfirst h hs
      · exact ihsecond h hs
  | group number body ih =>
      obtain ⟨m, hm, rfl⟩ := h
      by_cases heq : number = index
      · subst heq
        simp
      · rw [State.span?_capture_of_ne _ _ heq]
        exact ih hm hs
  | loop body least most greedy ih =>
      obtain ⟨count, _, hrepeats⟩ := h
      exact hrepeats.keeps (fun _ _ hrun hm => ih hrun hm) hs
  | ahead negated body ih =>
      rcases Runs.of_ahead h with rfl | ⟨m, hm, rfl⟩
      · exact hs
      · exact ih (t := m) hm hs
  | behind negated width body ih =>
      rcases Runs.of_behind h with rfl | ⟨m, hm, rfl⟩
      · exact hs
      · exact ih (t := m) hm hs
  | atomic body ih => exact ih h hs
  | backref number caseless =>
      obtain ⟨_, _, _, rfl⟩ := h
      exact hs

/-- A match leaves the groups alone that the expression does not have. -/
theorem span?_eq_of_runs {text : Array Char} {expr : Expr} {s t : State}
    (h : expr.Runs text s t) {index : Nat} (hindex : index ∉ expr.groups) :
    t.span? index = s.span? index := by
  induction expr generalizing s t with
  | empty => rw [show t = s from h]
  | set chars caseless =>
      obtain ⟨_, rfl⟩ := h
      rfl
  | anchor place =>
      obtain ⟨_, rfl⟩ := h
      rfl
  | seq first second ihfirst ihsecond =>
      obtain ⟨m, hm, ht⟩ := h
      rw [groups, List.mem_append, not_or] at hindex
      rw [ihsecond ht hindex.2, ihfirst hm hindex.1]
  | alt first second ihfirst ihsecond =>
      rw [groups, List.mem_append, not_or] at hindex
      rcases h with h | h
      · exact ihfirst h hindex.1
      · exact ihsecond h hindex.2
  | group number body ih =>
      obtain ⟨m, hm, rfl⟩ := h
      rw [groups, List.mem_cons, not_or] at hindex
      rw [State.span?_capture_of_ne _ _ (Ne.symm hindex.1)]
      exact ih hm hindex.2
  | loop body least most greedy ih =>
      obtain ⟨count, _, hrepeats⟩ := h
      have hkeeps : ∀ m t : State, body.Runs text m t → m.span? index = s.span? index →
          t.span? index = s.span? index :=
        fun m t hrun hm => (ih hrun hindex).trans hm
      exact hrepeats.keeps hkeeps rfl
  | ahead negated body ih =>
      rcases Runs.of_ahead h with rfl | ⟨m, hm, rfl⟩
      · rfl
      · exact ih (t := m) hm hindex
  | behind negated width body ih =>
      rcases Runs.of_behind h with rfl | ⟨m, hm, rfl⟩
      · rfl
      · exact ih (s := s.moveTo (s.position - width)) (t := m) hm hindex
  | atomic body ih => exact ih h hindex
  | backref number caseless =>
      obtain ⟨_, _, _, rfl⟩ := h
      rfl

/-- A certain expression matches at a position where it has a run. -/
theorem isSome_matchAt?_of_runs {text : Array Char} {expr : Expr}
    (hcertain : expr.isCertain = true) {first : Nat} (hsize : first ≤ text.size) {t : State}
    (h : expr.Runs text (.start first) t) : (expr.matchAt? text first).isSome = true := by
  obtain ⟨found, hfound, _⟩ :=
    covers_outcomes hcertain (.start first) hsize t.position h.moves
  rw [matchAt?, hasBackref_of_isCertain hcertain, Option.isSome_map]
  exact List.isSome_head?.2 (List.ne_nil_of_mem hfound)

theorem isWithinPatience_of_isInvolved {expr : Expr} (h : expr.isInvolved = false)
    (text : Array Char) : expr.isWithinPatience text = true := by
  simp [isWithinPatience, h]

end Expr

/-- What a search finds is a run from a position of the text. -/
theorem find?_eq_some {regex : Regex} {text : Array Char} {found : Match}
    (h : regex.find? text = some found) :
    found.first ≤ text.size ∧ found.last = found.state.position ∧
      regex.expr.Runs text (.start found.first) found.state := by
  unfold find? at h
  split at h
  · obtain ⟨first, hfirst, hmatch⟩ := List.exists_of_findSome?_eq_some h
    obtain ⟨state, hhead, rfl⟩ := Option.map_eq_some_iff.1 hmatch
    exact ⟨Nat.le_of_lt_succ (List.mem_range.1 hfirst), rfl,
      Expr.runs_of_mem_outcomes (List.mem_of_head? hhead)⟩
  · simp at h

/-- A search for an expression that is not involved succeeds exactly where there is a run. -/
theorem find?_isSome_iff {regex : Regex} (hplain : regex.expr.isInvolved = false)
    (text : Array Char) :
    (regex.find? text).isSome ↔
      ∃ first, first ≤ text.size ∧ ∃ t, regex.expr.Runs text (.start first) t := by
  constructor
  · intro h
    obtain ⟨found, hfound⟩ := Option.isSome_iff_exists.1 h
    obtain ⟨hsize, _, hrun⟩ := find?_eq_some hfound
    exact ⟨found.first, hsize, found.state, hrun⟩
  · rintro ⟨first, hsize, t, hrun⟩
    rw [find?, if_pos (Expr.isWithinPatience_of_isInvolved hplain text),
      List.findSome?_isSome_iff]
    refine ⟨first, List.mem_range.2 (by omega), ?_⟩
    exact Expr.isSome_matchAt?_of_runs (Expr.isCertain_of_isInvolved hplain) hsize hrun

/-- A search that does not give up finds a match at the start of the text if there is a run from
there. -/
theorem exists_find?_of_runs {regex : Regex} (hcertain : regex.expr.isCertain = true)
    {text : Array Char} (hpatience : regex.expr.isWithinPatience text = true) {t : State}
    (h : regex.expr.Runs text (.start 0) t) :
    ∃ found, regex.find? text = some found ∧ found.first = 0 := by
  obtain ⟨found, hfound⟩ := Option.isSome_iff_exists.1
    (Expr.isSome_matchAt?_of_runs hcertain (Nat.zero_le _) h)
  refine ⟨found, ?_, ?_⟩
  · rw [find?, if_pos hpatience, List.range_succ_eq_map, List.findSome?_cons, hfound]
  · obtain ⟨state, _, rfl⟩ := Option.map_eq_some_iff.1 hfound
    rfl

end Waymark.Regex
