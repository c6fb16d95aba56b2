import Waymark.Proofs.Regex.Settling
import Waymark.Proofs.Regex.Shifting
/-!
What trying finds.

Unless a search for an expression gives up, it finds something exactly if the outcomes of the
expression do, and how many tries it takes hangs neither on the number that is allowed nor on the groups
that come before (`agree_attempt`). Main statement: an expression that does not refer back, followed by
something that settles, settles (`explores_attempt`).
-/

namespace Waymark.Regex

theorem covers_distinct_iff {states : List State} {q : Nat} :
    Covers (distinct false states) q ↔ Covers states q :=
  ⟨fun ⟨s, hs, hq⟩ => ⟨s, mem_of_mem_distinct hs, hq⟩, covers_distinct⟩

theorem covers_congr {states others : List State}
    (h : List.Forall₂ (fun s t => s.position = t.position) states others) {q : Nat} :
    Covers states q ↔ Covers others q := by
  induction h with
  | nil => exact Iff.rfl
  | cons hst _ ih =>
      simp only [Covers, List.mem_cons, exists_eq_or_imp, hst] at ih ⊢
      exact or_congr_right ih

namespace Expr

variable {text : Array Char}

/-- From one position to another by an outcome of the expression. -/
def Leads (text : Array Char) (expr : Expr) (p q : Nat) : Prop :=
  Covers (expr.outcomes text false (.start p)) q

variable {expr : Expr}

/-- The positions that an expression that does not refer back comes to hang on the position alone. -/
theorem forall₂_outcomes_start (text : Array Char) (hplain : expr.hasBackref = false) (s : State) :
    List.Forall₂ (fun s t => s.position = t.position) (expr.outcomes text false s)
      (expr.outcomes text false (.start s.position)) := by
  have hstart : s.position = (State.start s.position).position := rfl
  have hshift := @forall₂_outcomes text _ _ (parallel_level 0) _ hplain _ _ hstart
  rwa [shift_zero] at hshift

theorem covers_outcomes_iff (hplain : expr.hasBackref = false) {s : State} {q : Nat} :
    Covers (expr.outcomes text false s) q ↔ expr.Leads text s.position q :=
  covers_congr (forall₂_outcomes_start text hplain s)

theorem leads_loop {body : Expr} (hplain : body.hasBackref = false) {least : Nat}
    {most : Option Nat} {greedy : Bool} {p q : Nat} (hp : p ≤ text.size) :
    (Expr.loop body least most greedy).Leads text p q ↔
      ∃ count, Admits least most count ∧ Repeats (body.Leads text) count p q := by
  have hstep : ∀ s t, t ∈ body.outcomes text false s → body.Leads text s.position t.position :=
    fun s t ht => (covers_outcomes_iff hplain).1 ⟨t, ht, rfl⟩
  constructor
  · rintro ⟨t, ht, rfl⟩
    obtain ⟨count, hcount, hrepeats⟩ := repeats_of_mem_times ht
    exact ⟨count, hcount, hrepeats.map State.position hstep⟩
  · rintro ⟨count, hcount, hrepeats⟩
    exact covers_times (s := .start p) (fun s _ q hq => (covers_outcomes_iff hplain).2 hq)
      (advances_outcomes hplain false) hcount hp hrepeats

theorem leads_empty {p q : Nat} : Expr.empty.Leads text p q ↔ q = p := by
  simp [Leads, outcomes, Covers, State.start, eq_comm]

theorem leads_set {chars : CharSet} {caseless : Bool} {p q : Nat} :
    (Expr.set chars caseless).Leads text p q ↔
      (∃ c, text[p]? = some c ∧ chars.contains caseless c = true) ∧ q = p + 1 := by
  simp only [Leads, outcomes, State.start]
  cases text[p]? with
  | none => simp [Covers]
  | some c =>
      simp only [Option.some.injEq, exists_eq_left']
      split
      · next hc => simp [Covers, State.moveTo, hc, eq_comm]
      · next hc => simp [Covers, hc]

theorem leads_anchor {place : Anchor} {p q : Nat} :
    (Expr.anchor place).Leads text p q ↔ place.holds text p = true ∧ q = p := by
  by_cases hplace : place.holds text p = true
  · simp [Leads, outcomes, State.start, hplace, Covers, eq_comm]
  · simp [Leads, outcomes, State.start, hplace, Covers]

theorem leads_seq {first second : Expr} (hplain : second.hasBackref = false) {p q : Nat} :
    (Expr.seq first second).Leads text p q ↔
      ∃ m, first.Leads text p m ∧ second.Leads text m q := by
  simp only [Leads, outcomes, covers_distinct_iff]
  constructor
  · rintro ⟨t, ht, rfl⟩
    obtain ⟨m, hm, ht⟩ := List.mem_flatMap.1 ht
    exact ⟨m.position, ⟨m, hm, rfl⟩, (covers_outcomes_iff hplain).1 ⟨t, ht, rfl⟩⟩
  · rintro ⟨_, ⟨m, hm, rfl⟩, h⟩
    obtain ⟨t, ht, htq⟩ := (covers_outcomes_iff hplain).2 h
    exact ⟨t, List.mem_flatMap.2 ⟨m, hm, ht⟩, htq⟩

theorem leads_alt {first second : Expr} {p q : Nat} :
    (Expr.alt first second).Leads text p q ↔ first.Leads text p q ∨ second.Leads text p q := by
  rw [Leads, outcomes, covers_distinct_iff, covers_append]
  exact Iff.rfl

theorem leads_group {index : Nat} {body : Expr} {p q : Nat} :
    (Expr.group index body).Leads text p q ↔ body.Leads text p q := by
  simp [Leads, outcomes, Covers, State.capture]

theorem ne_nil_iff_leads {body : Expr} {p : Nat} :
    body.outcomes text false (.start p) ≠ [] ↔ ∃ q, body.Leads text p q := by
  constructor
  · intro hne
    obtain ⟨t, ht⟩ := List.exists_mem_of_ne_nil _ hne
    exact ⟨t.position, t, ht, rfl⟩
  · rintro ⟨_, t, ht, -⟩
    exact List.ne_nil_of_mem ht

theorem head?_eq_none_iff_not_leads {body : Expr} {p : Nat} :
    (body.outcomes text false (.start p)).head? = none ↔ ¬ ∃ q, body.Leads text p q := by
  rw [List.head?_eq_none_iff, ← ne_nil_iff_leads, not_not]

/-- A look stays where it is, if it lets through. -/
theorem covers_look {found : List State} {negated : Bool} {s : State} {q : Nat} :
    Covers (match found, negated with
      | [], true => [s]
      | found :: _, false => [found.moveTo s.position]
      | _, _ => []) q ↔ (found ≠ [] ↔ negated = false) ∧ q = s.position := by
  cases found <;> cases negated <;> simp [Covers, State.moveTo, eq_comm]

theorem leads_ahead {negated : Bool} {body : Expr} {p q : Nat} :
    (Expr.ahead negated body).Leads text p q ↔
      ((∃ m, body.Leads text p m) ↔ negated = false) ∧ q = p := by
  rw [← ne_nil_iff_leads]
  exact covers_look

theorem leads_behind {negated : Bool} {width : Nat} {body : Expr} {p q : Nat} :
    (Expr.behind negated width body).Leads text p q ↔
      ((width ≤ p ∧ ∃ m, body.Leads text (p - width) m) ↔ negated = false) ∧ q = p := by
  have hfound : (if width ≤ p then body.outcomes text false (.start (p - width)) else []) ≠ [] ↔
      width ≤ p ∧ ∃ m, body.Leads text (p - width) m := by
    rw [← ne_nil_iff_leads]
    split <;> simp [*]
  rw [← hfound]
  exact covers_look

theorem leads_atomic {body : Expr} {p q : Nat} :
    (Expr.atomic body).Leads text p q ↔
      ((body.outcomes text false (.start p)).head?).map State.position = some q := by
  rw [Leads, outcomes]
  cases body.outcomes text false (.start p) <;> simp [Covers]

/-- The position of the preferred outcome hangs on the position alone. -/
theorem head?_outcomes_congr (text : Array Char) (hplain : expr.hasBackref = false) (s : State) :
    (expr.outcomes text false s).head?.map State.position =
      (expr.outcomes text false (.start s.position)).head?.map State.position := by
  have hstart := forall₂_outcomes_start text hplain s
  generalize expr.outcomes text false s = states at hstart ⊢
  generalize expr.outcomes text false (.start s.position) = others at hstart ⊢
  cases hstart with
  | nil => rfl
  | cons h => exact congrArg some h

section Exploring

variable {body : Expr}

theorem explores_set (chars : CharSet) (caseless : Bool) :
    Explores ((Expr.set chars caseless).attempt text false) text.size
      ((Expr.set chars caseless).Leads text) := by
  intro s next leads hs hnext
  simp only [attempt, leads_set]
  cases hc : text[s.position]? with
  | none => exact Settles.failed.congr (by simp)
  | some c =>
      have hlt := (Array.getElem?_eq_some_iff.1 hc).1
      by_cases hcontains : chars.contains caseless c = true
      · have hmoved := hnext (s.moveTo (s.position + 1)) (Nat.le_succ _) hlt
        simp only [hcontains, ↓reduceIte]
        exact hmoved.congr (by simp [hcontains, State.moveTo])
      · simp only [hcontains]
        exact Settles.failed.congr (by simp [hcontains])

theorem explores_anchor (place : Anchor) :
    Explores ((Expr.anchor place).attempt text false) text.size
      ((Expr.anchor place).Leads text) := by
  intro s next leads hs hnext
  simp only [attempt, leads_anchor]
  cases hplace : place.holds text s.position with
  | true => exact (hnext s (Nat.le_refl _) hs).congr (by simp)
  | false => exact Settles.failed.congr (by simp)

theorem explores_seq {first second : Expr} (hplain : second.hasBackref = false)
    (hfirst : Explores (first.attempt text false) text.size (first.Leads text))
    (hsecond : Explores (second.attempt text false) text.size (second.Leads text)) :
    Explores ((Expr.seq first second).attempt text false) text.size
      ((Expr.seq first second).Leads text) := by
  intro s next leads hs hnext
  have hrest : Continues text.size s.position (fun p => ∃ q, second.Leads text p q ∧ leads q)
      fun t left => second.attempt text false t left next :=
    fun t hle ht => hsecond t next leads ht (hnext.later hle)
  refine (hfirst s _ _ hs hrest).congr ?_
  simp only [leads_seq hplain]
  constructor
  · rintro ⟨m, hm, q, hq, h⟩
    exact ⟨q, ⟨m, hm, hq⟩, h⟩
  · rintro ⟨q, ⟨m, hm, hq⟩, h⟩
    exact ⟨m, hm, q, hq, h⟩

theorem explores_loop (hplain : body.hasBackref = false)
    (hbody : Explores (body.attempt text false) text.size (body.Leads text)) (least : Nat)
    (most : Option Nat) (greedy : Bool) :
    Explores ((Expr.loop body least most greedy).attempt text false) text.size
      ((Expr.loop body least most greedy).Leads text) := by
  intro s next leads hs hnext
  have hloop : ∀ q, (Expr.loop body least most greedy).Leads text s.position q ↔
      ∃ count, Admits least most count ∧ Repeats (body.Leads text) count s.position q :=
    fun q => leads_loop hplain hs
  simp only [hloop, attempt]
  cases most with
  | some most =>
      have hmore := continues_tryAtMost hbody greedy (most - min least most) hnext
      have htimes := continues_tryExactly hbody (min least most) hmore
      refine (htimes s (Nat.le_refl _) hs).congr (reaches_split_iff (fun m q => ?_) ?_)
      · refine exists_congr fun n => and_congr_left' ?_
        simp only [Admits]
        omega
      · exact fun n hn => hn.1
  | none =>
      have hmore := continues_tryAny hbody greedy
        (show text.size < text.size + 2 + s.position by omega) hnext
      have htimes := continues_tryExactly hbody least hmore
      refine (htimes s (Nat.le_refl _) hs).congr (reaches_split_iff (fun m q => ?_) ?_)
      · simp [Admits]
      · exact fun n hn => hn

theorem explores_behind (hbody : Explores (body.attempt text false) text.size (body.Leads text))
    (negated : Bool) (width : Nat) :
    Explores ((Expr.behind negated width body).attempt text false) text.size
      ((Expr.behind negated width body).Leads text) := by
  intro s next leads hs hnext
  have hlook : Settles (width ≤ s.position ∧ ∃ m, body.Leads text (s.position - width) m)
      fun left =>
        if width ≤ s.position then
          body.attempt text false (s.moveTo (s.position - width)) left fun _ left => .found left
        else .failed left := by
    by_cases hwidth : width ≤ s.position
    · simp only [hwidth, ↓reduceIte]
      refine (hbody (s.moveTo (s.position - width)) _ _
        (Nat.le_trans (Nat.sub_le _ _) hs) (continues_found _ _)).congr ?_
      simp [State.moveTo]
    · simp only [hwidth, ↓reduceIte]
      exact Settles.failed.congr (by simp)
  refine (hlook.look (hnext s (Nat.le_refl _) hs) negated).congr ?_
  simp [leads_behind]

theorem explores_atomic (hplain : body.hasBackref = false) :
    Explores ((Expr.atomic body).attempt text false) text.size ((Expr.atomic body).Leads text) := by
  intro s next leads hs hnext
  have hadvances : ∀ t ∈ body.outcomes text false s, s.position ≤ t.position ∧
      t.position ≤ text.size :=
    advances_outcomes hplain false s hs
  have hhead := head?_outcomes_congr text hplain s
  simp only [leads_atomic, ← hhead, attempt]
  cases hfound : body.outcomes text false s with
  | nil => exact Settles.failed.congr (by simp)
  | cons found others =>
      rw [hfound] at hadvances
      obtain ⟨hle, hsize⟩ := hadvances found List.mem_cons_self
      exact (hnext found hle hsize).congr (by simp)

/-- A search for an expression that does not refer back settles where what follows it does, and comes
to something exactly if an outcome of the expression does. -/
theorem explores_attempt (hplain : expr.hasBackref = false) :
    Explores (expr.attempt text false) text.size (expr.Leads text) := by
  induction expr with
  | empty =>
      intro s next leads hs hnext
      exact (hnext s (Nat.le_refl _) hs).congr (by simp [leads_empty])
  | set chars caseless => exact explores_set chars caseless
  | anchor place => exact explores_anchor place
  | seq first second ihfirst ihsecond =>
      simp only [hasBackref, Bool.or_eq_false_iff] at hplain
      exact explores_seq hplain.2 (ihfirst hplain.1) (ihsecond hplain.2)
  | alt first second ihfirst ihsecond =>
      simp only [hasBackref, Bool.or_eq_false_iff] at hplain
      intro s next leads hs hnext
      refine ((ihfirst hplain.1 s next leads hs hnext).orElse
        (ihsecond hplain.2 s next leads hs hnext)).congr ?_
      simp only [leads_alt, or_and_right, exists_or]
  | group index body ih =>
      intro s next leads hs hnext
      have hcapture : Continues text.size s.position leads fun t left =>
          next (t.capture index s.position) left :=
        fun t hle ht => hnext (t.capture index s.position) hle ht
      exact (ih hplain s _ _ hs hcapture).congr (by simp only [leads_group])
  | loop body least most greedy ih =>
      have hbody : body.hasBackref = false := hplain
      exact explores_loop hbody (ih hbody) least most greedy
  | ahead negated body ih =>
      intro s next leads hs hnext
      have hlook := ih hplain s _ _ hs (continues_found text.size s.position)
      refine (hlook.look (hnext s (Nat.le_refl _) hs) negated).congr ?_
      simp [leads_ahead]
  | behind negated width body ih => exact explores_behind (ih hplain) negated width
  | atomic body =>
      have hbody : body.hasBackref = false := hplain
      exact explores_atomic hbody
  | backref => simp [hasBackref] at hplain

end Exploring

section Agreeing

variable {offset : Nat} {next other : Continue}

theorem agree_set (chars : CharSet) (caseless : Bool) (h : Agree next other) :
    Agree (fun s left => (Expr.set chars caseless).attempt text false s left next)
      fun t left => (Expr.set chars caseless).attempt text false t left other := by
  intro s t left hst
  simp only [attempt, hst]
  cases text[t.position]? with
  | none => rfl
  | some c =>
      simp only
      split
      · exact h (s.moveTo _) (t.moveTo _) left rfl
      · rfl

theorem agree_ahead
    (hbody : Agree (fun s left => body.attempt text false s left fun _ left => .found left)
      fun t left => (body.shift offset).attempt text false t left fun _ left => .found left)
    (negated : Bool) (h : Agree next other) :
    Agree (fun s left => (Expr.ahead negated body).attempt text false s left next)
      fun t left => ((Expr.ahead negated body).shift offset).attempt text false t left other := by
  intro s t left hst
  have hlook := hbody s t left hst
  have hnext : next s = other t := funext fun left => h s t left hst
  simp only [shift, attempt, hlook, hnext]

theorem agree_behind
    (hbody : Agree (fun s left => body.attempt text false s left fun _ left => .found left)
      fun t left => (body.shift offset).attempt text false t left fun _ left => .found left)
    (negated : Bool) (width : Nat) (h : Agree next other) :
    Agree (fun s left => (Expr.behind negated width body).attempt text false s left next)
      fun t left =>
        ((Expr.behind negated width body).shift offset).attempt text false t left other := by
  intro s t left hst
  have hlook := hbody (s.moveTo (t.position - width)) (t.moveTo (t.position - width)) left rfl
  have hnext : next s = other t := funext fun left => h s t left hst
  simp only [shift, attempt, hst, hlook, hnext]

theorem agree_atomic (hplain : body.hasBackref = false) (h : Agree next other) :
    Agree (fun s left => (Expr.atomic body).attempt text false s left next)
      fun t left => ((Expr.atomic body).shift offset).attempt text false t left other := by
  intro s t left hst
  have houtcomes := @forall₂_outcomes text _ _ (parallel_level offset) _ hplain _ _ hst
  simp only [shift, attempt]
  generalize body.outcomes text false s = found at houtcomes ⊢
  generalize (body.shift offset).outcomes text false t = again at houtcomes ⊢
  cases houtcomes with
  | nil => rfl
  | cons hfound => exact h _ _ left hfound

/-- Which tries are made hangs neither on the numbers of the groups nor on those that have matched
before. -/
theorem agree_attempt (hplain : expr.hasBackref = false) (offset : Nat) (h : Agree next other) :
    Agree (fun s left => expr.attempt text false s left next)
      fun t left => (expr.shift offset).attempt text false t left other := by
  induction expr generalizing next other with
  | empty => exact h
  | set chars caseless => exact agree_set chars caseless h
  | anchor place =>
      intro s t left hst
      simp only [shift, attempt, hst]
      split
      · exact h s t left hst
      · rfl
  | seq first second ihfirst ihsecond =>
      simp only [hasBackref, Bool.or_eq_false_iff] at hplain
      exact ihfirst hplain.1 (ihsecond hplain.2 h)
  | alt first second ihfirst ihsecond =>
      simp only [hasBackref, Bool.or_eq_false_iff] at hplain
      intro s t left hst
      have hsecond : (second.attempt text false s · next) =
          ((second.shift offset).attempt text false t · other) :=
        funext fun left => ihsecond hplain.2 h s t left hst
      simp only [shift, attempt, ihfirst hplain.1 h s t left hst, hsecond]
  | group index body ih =>
      intro s t left hst
      have hcapture : Agree (fun m left => next (m.capture index s.position) left)
          fun l left => other (l.capture (index + offset) t.position) left :=
        fun m l left hml => h _ _ left hml
      exact ih hplain hcapture s t left hst
  | loop body least most greedy ih =>
      have hbody : body.hasBackref = false := hplain
      cases most with
      | some most =>
          exact agree_tryExactly (ih hbody) (min least most)
            (agree_tryAtMost (ih hbody) greedy (most - min least most) h)
      | none =>
          exact agree_tryExactly (ih hbody) least
            (agree_tryAny (ih hbody) greedy (text.size + 2) h)
  | ahead negated body ih => exact agree_ahead (ih hplain agree_found) negated h
  | behind negated width body ih => exact agree_behind (ih hplain agree_found) negated width h
  | atomic body ih =>
      have hbody : body.hasBackref = false := hplain
      exact agree_atomic hbody h
  | backref => simp [hasBackref] at hplain

end Agreeing

end Expr

end Waymark.Regex
