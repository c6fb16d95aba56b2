import Mathlib.Data.List.Forall2
import Waymark.Proofs.Regex.Runs
/-!
Expressions behind further groups.

The number of a group is one more than that of the groups before it, so an expression that comes
after others has its groups under higher numbers: `Expr.shift` raises them. What an expression
matches does not hang on these numbers, nor on the groups that have matched before, as long as it
does not refer back to them: its outcomes come at the same positions and in the same order, with the
same groups captured under the raised numbers (`forall₂_outcomes`).
-/

namespace Waymark.Regex

/-- A relation of states that are at the same position. -/
def Level (R : State → State → Prop) : Prop :=
  ∀ s t, R s t → s.position = t.position

section Loops

variable {R : State → State → Prop}

/-- Two gatherings that have met the same positions, and gathered states that are related one by
one. -/
structure Gathered.Related (R : State → State → Prop) (gathered other : Gathered) : Prop where
  seen : gathered.seen = other.seen
  full : gathered.seen.full = false
  states : List.Forall₂ R gathered.states other.states

namespace Seen

variable {seen : Seen} {s t : State}

theorem has_congr (hfull : seen.full = false) (h : s.position = t.position) :
    seen.has s = seen.has t := by
  simp [has, hfull, h]

theorem insert_congr (hfull : seen.full = false) (h : s.position = t.position) :
    seen.insert s = seen.insert t := by
  simp [insert, hfull, h]

end Seen

theorem related_none (R : State → State → Prop) :
    (Gathered.none false).Related R (.none false) :=
  ⟨rfl, rfl, .nil⟩

namespace Gathered.Related

variable {gathered other : Gathered} {s t : State}

theorem toList (h : gathered.Related R other) :
    List.Forall₂ R gathered.toList other.toList :=
  List.rel_reverse h.states

/-- The same position is met, and nothing gathered. -/
theorem meet (h : gathered.Related R other) (hposition : s.position = t.position) :
    ({ gathered with seen := gathered.seen.insert s } : Gathered).Related R
      { other with seen := other.seen.insert t } where
  seen := by
    rw [← h.seen]
    exact Seen.insert_congr h.full hposition
  full := by simpa using h.full
  states := h.states

/-- Related states are gathered. -/
theorem gather (h : gathered.Related R other) (hst : R s t) :
    ({ gathered with states := s :: gathered.states } : Gathered).Related R
      { other with states := t :: other.states } :=
  ⟨h.seen, h.full, .cons hst h.states⟩

theorem has_eq (h : gathered.Related R other) (hposition : s.position = t.position) :
    other.seen.has t = gathered.seen.has s := by
  rw [← h.seen]
  exact Seen.has_congr h.full hposition.symm

theorem add (h : gathered.Related R other) (hR : Level R) (hst : R s t) :
    (gathered.add s).Related R (other.add t) := by
  unfold Gathered.add
  rw [h.has_eq (hR s t hst)]
  split
  · exact h
  · exact (h.meet (hR s t hst)).gather hst

end Gathered.Related

theorem forall₂_distinct (hR : Level R) {states others : List State}
    (h : List.Forall₂ R states others) :
    List.Forall₂ R (distinct false states) (distinct false others) := by
  have hfold : (states.foldl Gathered.add (.none false)).Related R
      (others.foldl Gathered.add (.none false)) :=
    List.rel_foldl (R := R) (fun _ _ h _ _ hst => h.add hR hst) (related_none R) h
  exact hfold.toList

variable {once again : State → List State} {greedy : Bool} {size : Nat} {s t : State}

theorem forall₂_exactly (hR : Level R)
    (honce : ∀ s t, R s t → List.Forall₂ R (once s) (again t)) (count : Nat)
    {states others : List State} (h : List.Forall₂ R states others) :
    List.Forall₂ R (exactly once false count states) (exactly again false count others) := by
  induction count generalizing states others with
  | zero => exact h
  | succ count ih => exact ih (forall₂_distinct hR (List.rel_flatMap h honce))

theorem related_further (hR : Level R) (honce : ∀ s t, R s t → List.Forall₂ R (once s) (again t))
    (fuel origin : Nat) {gathered other : Gathered} (h : gathered.Related R other) (hst : R s t) :
    (further once greedy fuel origin gathered s).Related R
      (further again greedy fuel origin other t) := by
  induction fuel generalizing origin gathered other s t with
  | zero => exact h
  | succ fuel ih =>
      have hposition := hR s t hst
      have hdeeper : ∀ {gathered other : Gathered}, gathered.Related R other →
          (if s.position = origin then gathered
            else (once s).foldl (further once greedy fuel s.position) gathered).Related R
          (if t.position = origin then other
            else (again t).foldl (further again greedy fuel t.position) other) := by
        intro gathered other h
        rw [← hposition]
        split
        · exact h
        · exact List.rel_foldl (R := R) (fun _ _ h _ _ hst => ih s.position h hst) h (honce s t hst)
      simp only [further]
      rw [h.has_eq hposition]
      split
      · exact h
      · split
        · exact (hdeeper (h.meet hposition)).gather hst
        · exact hdeeper ((h.meet hposition).gather hst)

theorem forall₂_oneOrMore (hR : Level R)
    (honce : ∀ s t, R s t → List.Forall₂ R (once s) (again t)) (hst : R s t) :
    List.Forall₂ R (oneOrMore once false greedy size s) (oneOrMore again false greedy size t) := by
  unfold oneOrMore
  rw [← hR s t hst]
  have hfold : ((once s).foldl (further once greedy (size + 2) s.position) (.none false)).Related R
      ((again t).foldl (further again greedy (size + 2) s.position) (.none false)) :=
    List.rel_foldl (R := R) (fun _ _ h _ _ hst => related_further hR honce _ _ h hst)
      (related_none R) (honce s t hst)
  exact hfold.toList

theorem forall₂_zeroOrMore (hR : Level R)
    (honce : ∀ s t, R s t → List.Forall₂ R (once s) (again t)) (hst : R s t) :
    List.Forall₂ R (zeroOrMore once false greedy size s) (zeroOrMore again false greedy size t) := by
  have hmore : List.Forall₂ R (oneOrMore once false greedy size s)
      (oneOrMore again false greedy size t) := forall₂_oneOrMore hR honce hst
  refine forall₂_distinct hR ?_
  split
  · exact List.rel_append hmore (.cons hst .nil)
  · exact .cons hst hmore

/-- Two bounded searches that have met the same positions, and gathered states that are related one
by one. -/
structure RelatedLevels (R : State → State → Prop) (found other : List Seen × List State) :
    Prop where
  seens : found.1 = other.1
  full : ∀ seen ∈ found.1, seen.full = false
  states : List.Forall₂ R found.2 other.2

theorem RelatedLevels.meet {seen : Seen} {found other : List Seen × List State}
    (h : RelatedLevels R found other) (hfull : seen.full = false)
    (hposition : s.position = t.position) :
    RelatedLevels R (seen.insert s :: found.1, found.2) (seen.insert t :: other.1, other.2) where
  seens := by rw [h.seens, Seen.insert_congr hfull hposition]
  full := List.forall_mem_cons.2 ⟨by simpa using hfull, h.full⟩
  states := h.states

theorem RelatedLevels.gather {found other : List Seen × List State}
    (h : RelatedLevels R found other) (hst : R s t) :
    RelatedLevels R (found.1, s :: found.2) (other.1, t :: other.2) :=
  ⟨h.seens, h.full, .cons hst h.states⟩

theorem related_upTo (hR : Level R) (honce : ∀ s t, R s t → List.Forall₂ R (once s) (again t))
    (count : Nat) {found other : List Seen × List State} (h : RelatedLevels R found other)
    (hst : R s t) :
    RelatedLevels R (upTo once greedy count found s) (upTo again greedy count other t) := by
  induction count generalizing found other s t with
  | zero =>
      obtain ⟨seens, states⟩ := found
      obtain ⟨_, others⟩ := other
      obtain rfl := h.seens
      cases seens with
      | nil => exact h
      | cons seen rest =>
          obtain ⟨hfull, hrest⟩ := List.forall_mem_cons.1 h.full
          have hinside : RelatedLevels R (rest, states) (rest, others) := ⟨rfl, hrest, h.states⟩
          simp only [upTo]
          rw [← Seen.has_congr hfull (hR s t hst)]
          split
          · exact h
          · exact (hinside.gather hst).meet hfull (hR s t hst)
  | succ count ih =>
      obtain ⟨seens, states⟩ := found
      obtain ⟨_, others⟩ := other
      obtain rfl := h.seens
      cases seens with
      | nil => exact h
      | cons seen rest =>
          obtain ⟨hfull, hrest⟩ := List.forall_mem_cons.1 h.full
          have hinside : RelatedLevels R (rest, states) (rest, others) := ⟨rfl, hrest, h.states⟩
          have hdeeper : ∀ {found other : List Seen × List State}, RelatedLevels R found other →
              RelatedLevels R ((once s).foldl (upTo once greedy count) found)
                ((again t).foldl (upTo again greedy count) other) :=
            fun h => List.rel_foldl (R := R) (fun _ _ h _ _ hst => ih h hst) h (honce s t hst)
          simp only [upTo]
          rw [← Seen.has_congr hfull (hR s t hst)]
          split
          · exact h
          · split
            · exact ((hdeeper hinside).gather hst).meet hfull (hR s t hst)
            · exact (hdeeper (hinside.gather hst)).meet hfull (hR s t hst)

theorem forall₂_atMost (hR : Level R)
    (honce : ∀ s t, R s t → List.Forall₂ R (once s) (again t)) (count : Nat) (hst : R s t) :
    List.Forall₂ R (atMost once false greedy count s) (atMost again false greedy count t) := by
  have hstart : RelatedLevels R (List.replicate (count + 1) (.none false), [])
      (List.replicate (count + 1) (.none false), []) := by
    refine ⟨rfl, fun seen hseen => ?_, .nil⟩
    rw [List.eq_of_mem_replicate hseen]
    rfl
  exact forall₂_distinct hR (List.rel_reverse (related_upTo hR honce count hstart hst).states)

/-- Repetitions from related states lead to related states, one by one. -/
theorem forall₂_times (hR : Level R)
    (honce : ∀ s t, R s t → List.Forall₂ R (once s) (again t)) (least : Nat) (most : Option Nat)
    (hst : R s t) :
    List.Forall₂ R (times once false greedy size least most s)
      (times again false greedy size least most t) := by
  have hrequired : ∀ count,
      List.Forall₂ R (exactly once false count [s]) (exactly again false count [t]) :=
    fun count => forall₂_exactly hR honce count (.cons hst .nil)
  unfold times
  split
  · exact forall₂_distinct hR
      (List.rel_flatMap (hrequired _) fun _ _ hst => forall₂_atMost hR honce _ hst)
  · split
    · exact forall₂_zeroOrMore hR honce hst
    · exact forall₂_distinct hR
        (List.rel_flatMap (hrequired _) fun _ _ hst => forall₂_oneOrMore hR honce hst)

end Loops

namespace Expr

/-- The same expression behind a number of further groups. -/
@[simp] def shift (offset : Nat) : Expr → Expr
  | .empty => .empty
  | .set chars caseless => .set chars caseless
  | .anchor place => .anchor place
  | .seq first second => .seq (first.shift offset) (second.shift offset)
  | .alt first second => .alt (first.shift offset) (second.shift offset)
  | .group index body => .group (index + offset) (body.shift offset)
  | .loop body least most greedy => .loop (body.shift offset) least most greedy
  | .ahead negated body => .ahead negated (body.shift offset)
  | .behind negated width body => .behind negated width (body.shift offset)
  | .atomic body => .atomic (body.shift offset)
  | .backref index caseless => .backref (index + offset) caseless

theorem shift_zero (expr : Expr) : expr.shift 0 = expr := by
  induction expr <;> simp_all

theorem repeatable_shift (offset : Nat) (expr : Expr) :
    (expr.shift offset).repeatable = expr.repeatable := by
  cases expr <;> rfl

theorem shift_eq_empty_iff {offset : Nat} {expr : Expr} : expr.shift offset = .empty ↔ expr = .empty := by
  cases expr <;> simp

theorem width?_shift (offset : Nat) (expr : Expr) : (expr.shift offset).width? = expr.width? := by
  induction expr <;> simp_all [width?]

theorem isInvolved_shift (offset : Nat) (expr : Expr) :
    (expr.shift offset).isInvolved = expr.isInvolved := by
  induction expr <;> simp_all [isInvolved]

theorem hasBackref_shift (offset : Nat) (expr : Expr) :
    (expr.shift offset).hasBackref = expr.hasBackref := by
  induction expr <;> simp_all [hasBackref]

theorem loopsAreOrdered_shift (offset : Nat) (expr : Expr) :
    (expr.shift offset).loopsAreOrdered = expr.loopsAreOrdered := by
  induction expr <;> simp_all [loopsAreOrdered]

theorem groups_shift (offset : Nat) (expr : Expr) :
    (expr.shift offset).groups = expr.groups.map (· + offset) := by
  induction expr <;> simp_all [groups]

theorem alternatives_shift (offset : Nat) (expr : Expr) :
    (expr.shift offset).alternatives = expr.alternatives.map (shift offset) := by
  induction expr <;> simp_all [alternatives]

theorem shift_ofSeq (offset : Nat) (items : List Expr) :
    (ofSeq items).shift offset = ofSeq (items.map (shift offset)) := by
  cases items with
  | nil => rfl
  | cons first rest =>
      rw [List.map_cons, ofSeq, ofSeq, List.foldl_map]
      exact (List.foldl_hom (shift offset) fun _ _ => rfl).symm

theorem shift_ofAlternatives (offset : Nat) (branches : List Expr) :
    (ofAlternatives branches).shift offset = ofAlternatives (branches.map (shift offset)) := by
  cases branches with
  | nil => rfl
  | cons first rest =>
      rw [List.map_cons, ofAlternatives, ofAlternatives, List.foldl_map]
      exact (List.foldl_hom (shift offset) fun _ _ => rfl).symm

/-- A relation of states that goes on when both match alike, groups in the second under numbers that
are higher by the offset. -/
structure Parallel (offset : Nat) (R : State → State → Prop) : Prop where
  level : Level R
  moveTo : ∀ s t position, R s t → R (s.moveTo position) (t.moveTo position)
  capture : ∀ s t index origin, R s t →
    R (s.capture index origin) (t.capture (index + offset) origin)

theorem parallel_level (offset : Nat) :
    Parallel offset fun s t => s.position = t.position where
  level _ _ h := h
  moveTo _ _ _ _ := rfl
  capture _ _ _ _ h := h

/-- An expression that does not refer back has outcomes that are related one by one. -/
theorem forall₂_outcomes {text : Array Char} {offset : Nat} {R : State → State → Prop}
    (hR : Parallel offset R) {expr : Expr} (hplain : expr.hasBackref = false) {s t : State}
    (hst : R s t) :
    List.Forall₂ R (expr.outcomes text false s) ((expr.shift offset).outcomes text false t) := by
  induction expr generalizing s t with
  | empty => exact .cons hst .nil
  | set chars caseless =>
      simp only [shift, outcomes]
      rw [← hR.level s t hst]
      split
      · split
        · exact .cons (hR.moveTo s t _ hst) .nil
        · exact .nil
      · exact .nil
  | anchor place =>
      simp only [shift, outcomes]
      rw [← hR.level s t hst]
      split
      · exact .cons hst .nil
      · exact .nil
  | seq first second ihfirst ihsecond =>
      simp only [hasBackref, Bool.or_eq_false_iff] at hplain
      exact forall₂_distinct hR.level
        (List.rel_flatMap (ihfirst hplain.1 hst) fun _ _ hst => ihsecond hplain.2 hst)
  | alt first second ihfirst ihsecond =>
      simp only [hasBackref, Bool.or_eq_false_iff] at hplain
      exact forall₂_distinct hR.level
        (List.rel_append (ihfirst hplain.1 hst) (ihsecond hplain.2 hst))
  | group index body ih =>
      refine List.rel_map (fun m l hml => ?_) (ih hplain hst)
      rw [← hR.level s t hst]
      exact hR.capture m l index s.position hml
  | loop body least most greedy ih =>
      exact forall₂_times hR.level (fun _ _ hst => ih hplain hst) least most hst
  | ahead negated body ih =>
      have hlook := ih hplain hst
      simp only [shift, outcomes]
      rw [← hR.level s t hst]
      generalize body.outcomes text false s = found at hlook ⊢
      generalize (body.shift offset).outcomes text false t = other at hlook ⊢
      cases hlook with
      | nil => cases negated <;> simp [hst]
      | cons hfound => cases negated <;> simp [hR.moveTo _ _ _ hfound]
  | behind negated width body ih =>
      have hlook : List.Forall₂ R
          (if width ≤ s.position then body.outcomes text false (s.moveTo (s.position - width)) else [])
          (if width ≤ s.position then
            (body.shift offset).outcomes text false (t.moveTo (s.position - width)) else []) := by
        split
        · exact ih hplain (hR.moveTo _ _ _ hst)
        · exact .nil
      simp only [shift, outcomes]
      rw [← hR.level s t hst]
      generalize ite (width ≤ s.position) (body.outcomes text false _) [] = found at hlook ⊢
      generalize ite (width ≤ s.position) ((body.shift offset).outcomes text false _) [] = other
        at hlook ⊢
      cases hlook with
      | nil => cases negated <;> simp [hst]
      | cons hfound => cases negated <;> simp [hR.moveTo _ _ _ hfound]
  | atomic body ih => exact List.forall₂_take 1 (ih hplain hst)
  | backref => simp [hasBackref] at hplain

end Expr

end Waymark.Regex
