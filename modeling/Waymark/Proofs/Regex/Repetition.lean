import Waymark.Regex.Outcomes
/-!
Where repetitions lead.

`Repeats` is a given number of steps of a relation. Main statement: every outcome of a repetition is
reached by an admitted number of steps (`repeats_of_mem_times`). Where states are told apart by
position, `Covers` is the view of a list of states that `distinct` keeps.
-/

namespace Waymark.Regex

universe u v

/-- A number of steps of a relation, one after another. -/
inductive Repeats {σ : Type u} (step : σ → σ → Prop) : Nat → σ → σ → Prop
  | zero (s : σ) : Repeats step 0 s s
  | succ {n : Nat} {s m t : σ} (first : step s m) (rest : Repeats step n m t) :
      Repeats step (n + 1) s t

/-- Whether a repetition may take place a number of times. -/
def Admits (least : Nat) (most : Option Nat) (count : Nat) : Prop :=
  match most with
  | some most => min least most ≤ count ∧ count ≤ most
  | none => least ≤ count

namespace Repeats

variable {σ : Type u} {step : σ → σ → Prop}

theorem trans {m n : Nat} {s t r : σ} (hfirst : Repeats step m s t)
    (hrest : Repeats step n t r) : Repeats step (m + n) s r := by
  induction hfirst with
  | zero => simpa using hrest
  | succ first _ ih =>
      have := Repeats.succ first (ih hrest)
      rwa [Nat.add_right_comm] at this

/-- Any number of steps can be interrupted after some of them. -/
theorem split {n : Nat} (m : Nat) {s r : σ} (h : Repeats step (m + n) s r) :
    ∃ t, Repeats step m s t ∧ Repeats step n t r := by
  induction m generalizing s with
  | zero => exact ⟨s, .zero s, by simpa using h⟩
  | succ m ih =>
      rw [Nat.add_right_comm] at h
      cases h with
      | succ first rest =>
          obtain ⟨t, hfirst, hrest⟩ := ih rest
          exact ⟨t, .succ first hfirst, hrest⟩

theorem map {τ : Type v} {other : τ → τ → Prop} (f : σ → τ)
    (himp : ∀ s t, step s t → other (f s) (f t)) {n : Nat} {s t : σ} (h : Repeats step n s t) :
    Repeats other n (f s) (f t) := by
  induction h with
  | zero s => exact .zero (f s)
  | succ first _ ih => exact .succ (himp _ _ first) ih

/-- What every step keeps, any number of steps keeps. -/
theorem keeps {P : σ → Prop} (hstep : ∀ s t, step s t → P s → P t) {n : Nat} {s t : σ}
    (h : Repeats step n s t) (hs : P s) : P t := by
  induction h with
  | zero => exact hs
  | succ first _ ih => exact ih (hstep _ _ first hs)

end Repeats

/-- One of some states is at a position. -/
def Covers (states : List State) (position : Nat) : Prop :=
  ∃ s ∈ states, s.position = position

theorem covers_append {left right : List State} {position : Nat} :
    Covers (left ++ right) position ↔ Covers left position ∨ Covers right position := by
  simp only [Covers, List.mem_append]
  constructor
  · rintro ⟨s, hs | hs, heq⟩
    · exact Or.inl ⟨s, hs, heq⟩
    · exact Or.inr ⟨s, hs, heq⟩
  · rintro (⟨s, hs, heq⟩ | ⟨s, hs, heq⟩)
    · exact ⟨s, Or.inl hs, heq⟩
    · exact ⟨s, Or.inr hs, heq⟩

namespace Seen

/-- A position has been met, where states are told apart by position. -/
def Met (seen : Seen) (position : Nat) : Prop :=
  seen.positions.testBit position = true

theorem not_met_none (full : Bool) (position : Nat) : ¬ (Seen.none full).Met position := by
  simp [Met, none]

theorem has_iff_met {seen : Seen} (hfull : seen.full = false) (s : State) :
    seen.has s = true ↔ seen.Met s.position := by
  simp [has, Met, hfull]

theorem met_insert {seen : Seen} (hfull : seen.full = false) (s : State) (position : Nat) :
    (seen.insert s).Met position ↔ position = s.position ∨ seen.Met position := by
  simp only [Met, insert, hfull, Bool.false_eq_true, ↓reduceIte, Nat.testBit_or, Nat.one_shiftLeft,
    Nat.testBit_two_pow, Bool.or_eq_true, decide_eq_true_eq]
  rw [or_comm]
  exact or_congr eq_comm Iff.rfl

@[simp] theorem full_insert (seen : Seen) (s : State) : (seen.insert s).full = seen.full := by
  unfold insert
  split <;> rfl

end Seen

section Distinct

theorem mem_of_mem_foldl_add {states : List State} {gathered : Gathered} {s : State}
    (h : s ∈ (states.foldl Gathered.add gathered).states) : s ∈ gathered.states ∨ s ∈ states := by
  induction states generalizing gathered with
  | nil => exact Or.inl h
  | cons first rest ih =>
      rcases ih h with hold | hrest
      · simp only [Gathered.add] at hold
        split at hold
        · exact Or.inl hold
        · simp only [List.mem_cons] at hold ⊢
          rcases hold with rfl | hold
          · exact Or.inr (Or.inl rfl)
          · exact Or.inl hold
      · exact Or.inr (List.mem_cons_of_mem first hrest)

theorem mem_of_mem_distinct {full : Bool} {states : List State} {s : State}
    (h : s ∈ distinct full states) : s ∈ states := by
  simp only [distinct, Gathered.toList, List.mem_reverse] at h
  rcases mem_of_mem_foldl_add h with hnone | hs
  · simp [Gathered.none] at hnone
  · exact hs

/-- The states that have been gathered are at the positions that have been met. -/
def Gathered.Faithful (gathered : Gathered) : Prop :=
  gathered.seen.full = false ∧ ∀ p, gathered.seen.Met p → Covers gathered.states p

theorem faithful_none : (Gathered.none false).Faithful :=
  ⟨rfl, fun p hp => absurd hp (Seen.not_met_none false p)⟩

theorem covers_foldl_add {states : List State} {gathered : Gathered} (h : gathered.Faithful)
    {p : Nat} (hp : Covers gathered.states p ∨ Covers states p) :
    Covers (states.foldl Gathered.add gathered).states p := by
  induction states generalizing gathered with
  | nil =>
      rcases hp with hp | ⟨_, hmem, _⟩
      · exact hp
      · simp at hmem
  | cons first rest ih =>
      have hcase : gathered.add first = gathered ∧ Covers gathered.states first.position ∨
          gathered.add first = ⟨gathered.seen.insert first, first :: gathered.states⟩ := by
        by_cases hseen : gathered.seen.has first = true
        · exact Or.inl ⟨by simp [Gathered.add, hseen], h.2 _ ((Seen.has_iff_met h.1 first).1 hseen)⟩
        · exact Or.inr (by simp [Gathered.add, hseen])
      simp only [List.foldl_cons]
      rcases hcase with ⟨heq, hcovers⟩ | heq
      · rw [heq]
        apply ih h
        rcases hp with hp | ⟨s, hs, hpos⟩
        · exact Or.inl hp
        · rcases List.mem_cons.1 hs with rfl | hs
          · exact Or.inl (hpos ▸ hcovers)
          · exact Or.inr ⟨s, hs, hpos⟩
      · rw [heq]
        apply ih
        · refine ⟨by simpa using h.1, fun q hq => ?_⟩
          rcases (Seen.met_insert h.1 first q).1 hq with rfl | hq
          · exact ⟨first, List.mem_cons_self, rfl⟩
          · obtain ⟨s, hs, hpos⟩ := h.2 q hq
            exact ⟨s, List.mem_cons_of_mem first hs, hpos⟩
        · rcases hp with ⟨s, hs, hpos⟩ | ⟨s, hs, hpos⟩
          · exact Or.inl ⟨s, List.mem_cons_of_mem first hs, hpos⟩
          · rcases List.mem_cons.1 hs with rfl | hs
            · exact Or.inl ⟨s, List.mem_cons_self, hpos⟩
            · exact Or.inr ⟨s, hs, hpos⟩

theorem covers_distinct {states : List State} {p : Nat} (h : Covers states p) :
    Covers (distinct false states) p := by
  obtain ⟨s, hs, hpos⟩ := covers_foldl_add faithful_none (Or.inr h)
  exact ⟨s, List.mem_reverse.2 hs, hpos⟩

end Distinct

section Sound

variable {once : State → List State} {full greedy : Bool}

theorem mem_of_mem_exactly {count : Nat} {states : List State} {t : State}
    (h : t ∈ exactly once full count states) :
    ∃ s ∈ states, Repeats (fun s t => t ∈ once s) count s t := by
  induction count generalizing states with
  | zero => exact ⟨t, h, .zero t⟩
  | succ count ih =>
      obtain ⟨m, hm, hrest⟩ := ih h
      obtain ⟨s, hs, hfirst⟩ := List.mem_flatMap.1 (mem_of_mem_distinct hm)
      exact ⟨s, hs, .succ hfirst hrest⟩

/-- What a fold gathers has been gathered before or comes from one of its steps. -/
theorem mem_states_foldl {step : Gathered → State → Gathered} {P : Prop} {t : State}
    {children : List State} {gathered : Gathered}
    (hstep : ∀ child ∈ children, ∀ found : Gathered,
      t ∈ (step found child).states → t ∈ found.states ∨ P)
    (h : t ∈ (children.foldl step gathered).states) : t ∈ gathered.states ∨ P := by
  induction children generalizing gathered with
  | nil => exact Or.inl h
  | cons child rest ih =>
      rcases ih (fun m hm => hstep m (List.mem_cons_of_mem child hm)) h with hfirst | hrest
      · exact hstep child List.mem_cons_self gathered hfirst
      · exact Or.inr hrest

/-- What `further` gathers has been gathered before or is reached from where it is called. -/
theorem reached_of_mem_further {fuel origin : Nat} {gathered : Gathered} {s t : State}
    (h : t ∈ (further once greedy fuel origin gathered s).states) :
    t ∈ gathered.states ∨ ∃ count, Repeats (fun s t => t ∈ once s) count s t := by
  induction fuel generalizing origin gathered s with
  | zero => exact Or.inl h
  | succ fuel ih =>
      have hhere : ∃ count, Repeats (fun s t => t ∈ once s) count s s := ⟨0, .zero s⟩
      have hchildren : ∀ child ∈ once s, ∀ found : Gathered,
          t ∈ (further once greedy fuel s.position found child).states →
          t ∈ found.states ∨ ∃ count, Repeats (fun s t => t ∈ once s) count s t := by
        intro child hchild found hmem
        rcases ih hmem with hold | ⟨count, hcount⟩
        · exact Or.inl hold
        · exact Or.inr ⟨count + 1, .succ hchild hcount⟩
      simp only [further] at h
      split at h
      · exact Or.inl h
      · split at h
        · rcases List.mem_cons.1 h with rfl | h
          · exact Or.inr hhere
          · split at h
            · exact Or.inl h
            · rcases mem_states_foldl hchildren h with hold | hfound
              · exact Or.inl hold
              · exact Or.inr hfound
        · have hstart : t ∈ s :: gathered.states ∨
              ∃ count, Repeats (fun s t => t ∈ once s) count s t := by
            split at h
            · exact Or.inl h
            · rcases mem_states_foldl hchildren h with hold | hfound
              · exact Or.inl hold
              · exact Or.inr hfound
          rcases hstart with hstart | hfound
          · rcases List.mem_cons.1 hstart with rfl | hstart
            · exact Or.inr hhere
            · exact Or.inl hstart
          · exact Or.inr hfound

theorem repeats_of_mem_oneOrMore {size : Nat} {s t : State}
    (h : t ∈ oneOrMore once full greedy size s) :
    ∃ count, 1 ≤ count ∧ Repeats (fun s t => t ∈ once s) count s t := by
  have hchildren : ∀ child ∈ once s, ∀ found : Gathered,
      t ∈ (further once greedy (size + 2) s.position found child).states →
      t ∈ found.states ∨ ∃ count, 1 ≤ count ∧ Repeats (fun s t => t ∈ once s) count s t := by
    intro child hchild found hmem
    rcases reached_of_mem_further hmem with hold | ⟨count, hcount⟩
    · exact Or.inl hold
    · exact Or.inr ⟨count + 1, by omega, .succ hchild hcount⟩
  simp only [oneOrMore, Gathered.toList, List.mem_reverse] at h
  rcases mem_states_foldl hchildren h with hnone | hfound
  · simp [Gathered.none] at hnone
  · exact hfound

theorem repeats_of_mem_zeroOrMore {size : Nat} {s t : State}
    (h : t ∈ zeroOrMore once full greedy size s) :
    ∃ count, Repeats (fun s t => t ∈ once s) count s t := by
  have hcase : t = s ∨ t ∈ oneOrMore once full greedy size s := by
    have := mem_of_mem_distinct h
    split at this
    · rcases List.mem_append.1 this with hmore | hself
      · exact Or.inr hmore
      · exact Or.inl (List.mem_singleton.1 hself)
    · exact List.mem_cons.1 this
  rcases hcase with rfl | hmore
  · exact ⟨0, .zero t⟩
  · obtain ⟨count, _, hcount⟩ := repeats_of_mem_oneOrMore hmore
    exact ⟨count, hcount⟩

theorem reached_of_mem_upTo {count : Nat} {seens : List Seen} {states : List State} {s t : State}
    (h : t ∈ (upTo once greedy count (seens, states) s).2) :
    t ∈ states ∨ ∃ n, n ≤ count ∧ Repeats (fun s t => t ∈ once s) n s t := by
  have hhere : ∃ n, n ≤ count ∧ Repeats (fun s t => t ∈ once s) n s s := ⟨0, by omega, .zero s⟩
  induction count generalizing seens states s with
  | zero =>
      cases seens with
      | nil => exact Or.inl h
      | cons seen others =>
          simp only [upTo] at h
          split at h
          · exact Or.inl h
          · rcases List.mem_cons.1 h with rfl | h
            · exact Or.inr hhere
            · exact Or.inl h
  | succ count ih =>
      cases seens with
      | nil => exact Or.inl h
      | cons seen others =>
          have hchildren : ∀ (children : List State) (found : List Seen × List State),
              (∀ child ∈ children, child ∈ once s) →
              t ∈ (children.foldl (upTo once greedy count) found).2 →
              t ∈ found.2 ∨ ∃ n, n ≤ count + 1 ∧ Repeats (fun s t => t ∈ once s) n s t := by
            intro children
            induction children with
            | nil => exact fun found _ hmem => Or.inl hmem
            | cons child rest ihrest =>
                intro found hmems hmem
                rcases ihrest _ (fun m hm => hmems m (List.mem_cons_of_mem child hm)) hmem with
                  hfirst | hrest
                · rcases ih hfirst ⟨0, by omega, .zero child⟩ with hold | ⟨n, hn, hrun⟩
                  · exact Or.inl hold
                  · exact Or.inr ⟨n + 1, by omega, .succ (hmems child List.mem_cons_self) hrun⟩
                · exact Or.inr hrest
          simp only [upTo] at h
          split at h
          · exact Or.inl h
          · split at h
            · rcases List.mem_cons.1 h with rfl | h
              · exact Or.inr hhere
              · exact hchildren _ _ (fun m hm => hm) h
            · rcases hchildren _ _ (fun m hm => hm) h with hold | hfound
              · rcases List.mem_cons.1 hold with rfl | hold
                · exact Or.inr hhere
                · exact Or.inl hold
              · exact Or.inr hfound

theorem repeats_of_mem_atMost {count : Nat} {s t : State}
    (h : t ∈ atMost once full greedy count s) :
    ∃ n, n ≤ count ∧ Repeats (fun s t => t ∈ once s) n s t := by
  rcases reached_of_mem_upTo (List.mem_reverse.1 (mem_of_mem_distinct h)) with hnone | hfound
  · simp at hnone
  · exact hfound

/-- Every outcome of a repetition is reached by an admitted number of repetitions. -/
theorem repeats_of_mem_times {size least : Nat} {most : Option Nat} {s t : State}
    (h : t ∈ times once full greedy size least most s) :
    ∃ count, Admits least most count ∧ Repeats (fun s t => t ∈ once s) count s t := by
  unfold times at h
  split at h
  · next most =>
    obtain ⟨m, hm, hmore⟩ := List.mem_flatMap.1 (mem_of_mem_distinct h)
    obtain ⟨s', hs', hrequired⟩ := mem_of_mem_exactly hm
    obtain ⟨n, hn, hrest⟩ := repeats_of_mem_atMost hmore
    rw [List.mem_singleton.1 hs'] at hrequired
    refine ⟨min least most + n, ⟨by omega, by omega⟩, hrequired.trans hrest⟩
  · split at h
    · obtain ⟨count, hcount⟩ := repeats_of_mem_zeroOrMore h
      exact ⟨count, Nat.zero_le count, hcount⟩
    · next least =>
      obtain ⟨m, hm, hmore⟩ := List.mem_flatMap.1 (mem_of_mem_distinct h)
      obtain ⟨s', hs', hrequired⟩ := mem_of_mem_exactly hm
      obtain ⟨n, hn, hrest⟩ := repeats_of_mem_oneOrMore hmore
      rw [List.mem_singleton.1 hs'] at hrequired
      exact ⟨least + n, Nat.add_le_add_left hn least, hrequired.trans hrest⟩

end Sound

end Waymark.Regex
