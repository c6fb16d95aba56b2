import Waymark.Proofs.Regex.Repetition
/-!
Every place a repetition can lead to is found.

The search for repetitions goes on from each position once. The invariants say what one part of it
adds: `Extends` for an unbounded repetition, where every position that is newly met has all its
successors among those met afterwards, and `Climbs` for a bounded one, where they are met one level
further on. Main statement: where states are told apart by position, an admitted number of
repetitions leads to the position of an outcome (`covers_times`).
-/

namespace Waymark.Regex

variable {once : State → List State} {greedy : Bool} {size : Nat} {step : Nat → Nat → Prop}

/-- Every step from a state of the text leads to the position of one of its successors. -/
def Finds (once : State → List State) (size : Nat) (step : Nat → Nat → Prop) : Prop :=
  ∀ s : State, s.position ≤ size → ∀ q, step s.position q → Covers (once s) q

/-- Successors of a state of the text do not lie before it and stay in the text. -/
def Advances (once : State → List State) (size : Nat) : Prop :=
  ∀ s : State, s.position ≤ size → ∀ t ∈ once s, s.position ≤ t.position ∧ t.position ≤ size

theorem Advances.repeats (hadvances : Advances once size) {count : Nat} {s t : State}
    (hs : s.position ≤ size) (h : Repeats (fun s t => t ∈ once s) count s t) :
    s.position ≤ t.position ∧ t.position ≤ size := by
  induction h with
  | zero s => exact ⟨Nat.le_refl _, hs⟩
  | succ first _ ih =>
      obtain ⟨hle, hsize⟩ := hadvances _ hs _ first
      obtain ⟨hle', hsize'⟩ := ih hsize
      exact ⟨Nat.le_trans hle hle', hsize'⟩

/-- What one part of the search adds: every position that is newly met is `origin` or has all its
successors among those met afterwards. `kept` carries what is gathered along with what is met; `X`
are the positions that are met already but gathered only later. -/
structure Extends (step : Nat → Nat → Prop) (origin : Nat) (before after : Gathered) : Prop where
  full : after.seen.full = false
  grows : ∀ p, before.seen.Met p → after.seen.Met p
  kept : ∀ X : Nat → Prop, (∀ p, before.seen.Met p → Covers before.states p ∨ X p) →
    ∀ p, after.seen.Met p → Covers after.states p ∨ X p
  closed : ∀ p, after.seen.Met p →
    before.seen.Met p ∨ p = origin ∨ ∀ q, step p q → after.seen.Met q

namespace Extends

theorem refl {origin : Nat} {gathered : Gathered} (hfull : gathered.seen.full = false) :
    Extends step origin gathered gathered :=
  ⟨hfull, fun _ hp => hp, fun _ h => h, fun _ hp => Or.inl hp⟩

theorem trans {origin : Nat} {first second third : Gathered}
    (hfirst : Extends step origin first second) (hsecond : Extends step origin second third) :
    Extends step origin first third where
  full := hsecond.full
  grows p hp := hsecond.grows p (hfirst.grows p hp)
  kept X h := hsecond.kept X (hfirst.kept X h)
  closed p hp := by
    rcases hsecond.closed p hp with hold | heq | hnext
    · rcases hfirst.closed p hold with hold | heq | hnext
      · exact Or.inl hold
      · exact Or.inr (Or.inl heq)
      · exact Or.inr (Or.inr fun q hq => hsecond.grows q (hnext q hq))
    · exact Or.inr (Or.inl heq)
    · exact Or.inr (Or.inr hnext)

/-- A fold over states extends what it starts from, and meets every one of them. -/
theorem foldl {origin : Nat} {gather : Gathered → State → Gathered} {children : List State}
    {start : Gathered} (hfull : start.seen.full = false)
    (hstep : ∀ child ∈ children, ∀ gathered : Gathered, Extends step origin start gathered →
      Extends step origin gathered (gather gathered child) ∧
        (gather gathered child).seen.Met child.position) :
    Extends step origin start (children.foldl gather start) ∧
      ∀ child ∈ children, (children.foldl gather start).seen.Met child.position := by
  have hgeneral : ∀ (rest : List State) (gathered : Gathered), (∀ child ∈ rest, child ∈ children) →
      Extends step origin start gathered →
      Extends step origin gathered (rest.foldl gather gathered) ∧
        ∀ child ∈ rest, (rest.foldl gather gathered).seen.Met child.position := by
    intro rest
    induction rest with
    | nil => exact fun gathered _ hstart => ⟨refl hstart.full, by simp⟩
    | cons child rest ih =>
        intro gathered hmems hstart
        obtain ⟨hchild, hmet⟩ := hstep child (hmems child List.mem_cons_self) gathered hstart
        obtain ⟨hrest, hrestmet⟩ := ih (gather gathered child)
          (fun m hm => hmems m (List.mem_cons_of_mem child hm)) (hstart.trans hchild)
        refine ⟨hchild.trans hrest, fun m hm => ?_⟩
        rcases List.mem_cons.1 hm with rfl | hm
        · exact hrest.grows _ hmet
        · exact hrestmet m hm
  exact hgeneral children start (fun _ hm => hm) (refl hfull)

/-- A fold over the outcomes of a state meets the positions of all its successors. -/
theorem successors (hfinds : Finds once size step) {s : State} (hsize : s.position ≤ size)
    {gather : Gathered → State → Gathered} {start : Gathered} (hfull : start.seen.full = false)
    (hstep : ∀ child ∈ once s, ∀ gathered : Gathered, Extends step s.position start gathered →
      Extends step s.position gathered (gather gathered child) ∧
        (gather gathered child).seen.Met child.position) :
    Extends step s.position start ((once s).foldl gather start) ∧
      ∀ q, step s.position q → ((once s).foldl gather start).seen.Met q := by
  obtain ⟨hextends, hmet⟩ := foldl hfull hstep
  refine ⟨hextends, fun q hq => ?_⟩
  obtain ⟨child, hchild, rfl⟩ := hfinds s hsize q hq
  exact hmet child hchild

/-- A state is met and gathered at once. -/
theorem here {gathered : Gathered} (hfull : gathered.seen.full = false) (s : State) :
    Extends step s.position gathered ⟨gathered.seen.insert s, s :: gathered.states⟩ where
  full := by simpa using hfull
  grows p hp := (Seen.met_insert hfull s p).2 (Or.inr hp)
  kept X h p hp := by
    rcases (Seen.met_insert hfull s p).1 hp with rfl | hp
    · exact Or.inl ⟨s, List.mem_cons_self, rfl⟩
    · rcases h p hp with ⟨t, ht, hpos⟩ | hX
      · exact Or.inl ⟨t, List.mem_cons_of_mem s ht, hpos⟩
      · exact Or.inr hX
  closed p hp := by
    rcases (Seen.met_insert hfull s p).1 hp with rfl | hp
    · exact Or.inr (Or.inl rfl)
    · exact Or.inl hp

/-- A state is met before further ones are searched for, and gathered after them. -/
theorem late {gathered found : Gathered} (hfull : gathered.seen.full = false) {s : State}
    (h : Extends step s.position ⟨gathered.seen.insert s, gathered.states⟩ found) :
    Extends step s.position gathered ⟨found.seen, s :: found.states⟩ where
  full := h.full
  grows p hp := h.grows p ((Seen.met_insert hfull s p).2 (Or.inr hp))
  kept X hkept p hp := by
    have hlater := h.kept (fun p => X p ∨ p = s.position) (by
      intro p hp
      rcases (Seen.met_insert hfull s p).1 hp with hself | hp
      · exact Or.inr (Or.inr hself)
      · exact (hkept p hp).imp_right Or.inl) p hp
    rcases hlater with ⟨t, ht, hpos⟩ | hX | rfl
    · exact Or.inl ⟨t, List.mem_cons_of_mem s ht, hpos⟩
    · exact Or.inr hX
    · exact Or.inl ⟨s, List.mem_cons_self, rfl⟩
  closed p hp := by
    rcases h.closed p hp with hold | hrest
    · rcases (Seen.met_insert hfull s p).1 hold with rfl | hold
      · exact Or.inr (Or.inl rfl)
      · exact Or.inl hold
    · exact Or.inr hrest

/-- Once all successors of the origin are met, no origin is left. -/
theorem settle {origin : Nat} {before after : Gathered} (h : Extends step origin before after)
    (hnext : ∀ q, step origin q → after.seen.Met q) (other : Nat) :
    Extends step other before after where
  full := h.full
  grows := h.grows
  kept := h.kept
  closed p hp := by
    rcases h.closed p hp with hold | rfl | hclosed
    · exact Or.inl hold
    · exact Or.inr (Or.inr hnext)
    · exact Or.inr (Or.inr hclosed)

end Extends

/-- One call of the search extends what was gathered, and meets the position it is called at. The
fuel suffices because each deeper call stands at a later position or at one that was met. -/
theorem further_extends (hfinds : Finds once size step) (hadvances : Advances once size)
    {fuel origin : Nat} {gathered : Gathered} {s : State} (hfull : gathered.seen.full = false)
    (hsize : s.position ≤ size)
    (hfuel : gathered.seen.Met s.position ∨ size + 1 ≤ fuel + s.position) :
    Extends step origin gathered (further once greedy fuel origin gathered s) ∧
      (further once greedy fuel origin gathered s).seen.Met s.position := by
  induction fuel generalizing origin gathered s with
  | zero =>
      rcases hfuel with hmet | hfuel
      · exact ⟨.refl hfull, hmet⟩
      · omega
  | succ fuel ih =>
      by_cases hmet : gathered.seen.Met s.position
      · have hhas := (Seen.has_iff_met hfull s).2 hmet
        simp only [further, hhas, ↓reduceIte]
        exact ⟨.refl hfull, hmet⟩
      have hfuel : size + 1 ≤ fuel + 1 + s.position := hfuel.resolve_left hmet
      have hhas : gathered.seen.has s = false :=
        Bool.eq_false_iff.2 fun h => hmet ((Seen.has_iff_met hfull s).1 h)
      have hself : (gathered.seen.insert s).Met s.position :=
        (Seen.met_insert hfull s s.position).2 (Or.inl rfl)
      -- The successors are searched from a start at which this position has been met.
      have hdeeper : ∀ start : Gathered, start.seen = gathered.seen.insert s →
          Extends step s.position start
              ((once s).foldl (further once greedy fuel s.position) start) ∧
            ∀ q, step s.position q →
              ((once s).foldl (further once greedy fuel s.position) start).seen.Met q := by
        intro start hstart
        refine Extends.successors hfinds hsize (by rw [hstart]; simpa using hfull) ?_
        intro child hchild found hfound
        obtain ⟨hle, hchildsize⟩ := hadvances s hsize child hchild
        apply ih hfound.full hchildsize
        by_cases heq : child.position = s.position
        · exact Or.inl (hfound.grows _ (by rw [hstart, heq]; exact hself))
        · exact Or.inr (by omega)
      by_cases horigin : s.position = origin
      · subst horigin
        have hhere : further once greedy (fuel + 1) s.position gathered s =
            ⟨gathered.seen.insert s, s :: gathered.states⟩ := by
          simp [further, hhas]
        rw [hhere]
        exact ⟨.here hfull s, hself⟩
      cases greedy with
      | true =>
          obtain ⟨hextends, hnext⟩ := hdeeper ⟨gathered.seen.insert s, gathered.states⟩ rfl
          have hhere : further once true (fuel + 1) origin gathered s =
              ⟨((once s).foldl (further once true fuel s.position)
                  ⟨gathered.seen.insert s, gathered.states⟩).seen,
                s :: ((once s).foldl (further once true fuel s.position)
                  ⟨gathered.seen.insert s, gathered.states⟩).states⟩ := by
            simp [further, hhas, horigin]
          rw [hhere]
          exact ⟨(hextends.late hfull).settle hnext origin, hextends.grows _ hself⟩
      | false =>
          obtain ⟨hextends, hnext⟩ := hdeeper ⟨gathered.seen.insert s, s :: gathered.states⟩ rfl
          have hhere : further once false (fuel + 1) origin gathered s =
              (once s).foldl (further once false fuel s.position)
                ⟨gathered.seen.insert s, s :: gathered.states⟩ := by
            simp [further, hhas, horigin]
          rw [hhere]
          exact ⟨((Extends.here hfull s).trans hextends).settle hnext origin,
            hextends.grows _ hself⟩

theorem covers_oneOrMore (hfinds : Finds once size step) (hadvances : Advances once size)
    {count : Nat} {s : State} (hsize : s.position ≤ size) {q : Nat}
    (h : Repeats step (count + 1) s.position q) :
    Covers (oneOrMore once false greedy size s) q := by
  have hfold : Extends step s.position (.none false)
        ((once s).foldl (further once greedy (size + 2) s.position) (.none false)) ∧
      ∀ q, step s.position q →
        ((once s).foldl (further once greedy (size + 2) s.position) (.none false)).seen.Met q := by
    refine Extends.successors hfinds hsize rfl ?_
    intro child hchild found hfound
    obtain ⟨hle, hchildsize⟩ := hadvances s hsize child hchild
    exact further_extends hfinds hadvances hfound.full hchildsize (Or.inr (by omega))
  obtain ⟨hextends, hnext⟩ := hfold
  have hclosed : ∀ p q, step p q →
      ((once s).foldl (further once greedy (size + 2) s.position) (.none false)).seen.Met p →
      ((once s).foldl (further once greedy (size + 2) s.position) (.none false)).seen.Met q := by
    intro p q hq hp
    rcases hextends.closed p hp with hnone | rfl | hclosed
    · exact absurd hnone (Seen.not_met_none false p)
    · exact hnext q hq
    · exact hclosed q hq
  cases h with
  | succ first rest =>
      have hfound := hextends.kept (fun _ => False)
        (fun p hp => absurd hp (Seen.not_met_none false p)) q (rest.keeps hclosed (hnext _ first))
      obtain ⟨t, ht, hpos⟩ := hfound.resolve_right id
      exact ⟨t, List.mem_reverse.2 ht, hpos⟩

theorem covers_zeroOrMore (hfinds : Finds once size step) (hadvances : Advances once size)
    {count : Nat} {s : State} (hsize : s.position ≤ size) {q : Nat}
    (h : Repeats step count s.position q) :
    Covers (zeroOrMore once false greedy size s) q := by
  have hcase : s.position = q ∨ Covers (oneOrMore once false greedy size s) q := by
    cases count with
    | zero =>
        cases h
        exact Or.inl rfl
    | succ count => exact Or.inr (covers_oneOrMore hfinds hadvances hsize h)
  apply covers_distinct
  split
  · rcases hcase with heq | hmore
    · exact covers_append.2 (Or.inr ⟨s, List.mem_singleton.2 rfl, heq⟩)
    · exact covers_append.2 (Or.inl hmore)
  · rcases hcase with heq | ⟨t, ht, hpos⟩
    · exact ⟨s, List.mem_cons_self, heq⟩
    · exact ⟨t, List.mem_cons_of_mem s ht, hpos⟩

/-- A position has been met with a given number of repetitions behind it. -/
def MetAt (seens : List Seen) (level position : Nat) : Prop :=
  ∃ seen, seens[level]? = some seen ∧ seen.Met position

/-- What one part of a bounded search adds: every position that is newly met with repetitions left
has its successors met one level further on. -/
structure Climbs (step : Nat → Nat → Prop) (count : Nat) (before after : List Seen × List State) :
    Prop where
  length : after.1.length = count + 1
  full : ∀ seen ∈ after.1, seen.full = false
  grows : ∀ level p, MetAt before.1 level p → MetAt after.1 level p
  holds : ∀ p, Covers before.2 p → Covers after.2 p
  kept : ∀ X : Nat → Prop, (∀ level p, MetAt before.1 level p → Covers before.2 p ∨ X p) →
    ∀ level p, MetAt after.1 level p → Covers after.2 p ∨ X p
  closed : ∀ level p, MetAt after.1 level p → MetAt before.1 level p ∨ count ≤ level ∨
    ∀ q, step p q → MetAt after.1 (level + 1) q

namespace Climbs

theorem refl {count : Nat} {found : List Seen × List State} (hlength : found.1.length = count + 1)
    (hfull : ∀ seen ∈ found.1, seen.full = false) : Climbs step count found found :=
  ⟨hlength, hfull, fun _ _ hp => hp, fun _ hp => hp, fun _ h => h, fun _ _ hp => Or.inl hp⟩

theorem trans {count : Nat} {first second third : List Seen × List State}
    (hfirst : Climbs step count first second) (hsecond : Climbs step count second third) :
    Climbs step count first third where
  length := hsecond.length
  full := hsecond.full
  grows level p hp := hsecond.grows level p (hfirst.grows level p hp)
  holds p hp := hsecond.holds p (hfirst.holds p hp)
  kept X h := hsecond.kept X (hfirst.kept X h)
  closed level p hp := by
    rcases hsecond.closed level p hp with hold | hlast | hnext
    · rcases hfirst.closed level p hold with hold | hlast | hnext
      · exact Or.inl hold
      · exact Or.inr (Or.inl hlast)
      · exact Or.inr (Or.inr fun q hq => hsecond.grows _ q (hnext q hq))
    · exact Or.inr (Or.inl hlast)
    · exact Or.inr (Or.inr hnext)

theorem foldl {count : Nat} {gather : List Seen × List State → State → List Seen × List State}
    {children : List State} {start : List Seen × List State}
    (hlength : start.1.length = count + 1) (hfull : ∀ seen ∈ start.1, seen.full = false)
    (hstep : ∀ child ∈ children, ∀ found : List Seen × List State, found.1.length = count + 1 →
      (∀ seen ∈ found.1, seen.full = false) →
      Climbs step count found (gather found child) ∧ MetAt (gather found child).1 0 child.position) :
    Climbs step count start (children.foldl gather start) ∧
      ∀ child ∈ children, MetAt (children.foldl gather start).1 0 child.position := by
  induction children generalizing start with
  | nil => exact ⟨refl hlength hfull, by simp⟩
  | cons child rest ih =>
      obtain ⟨hchild, hmet⟩ := hstep child List.mem_cons_self start hlength hfull
      obtain ⟨hrest, hrestmet⟩ := ih hchild.length hchild.full
        fun m hm => hstep m (List.mem_cons_of_mem child hm)
      refine ⟨hchild.trans hrest, fun m hm => ?_⟩
      rcases List.mem_cons.1 hm with rfl | hm
      · exact hrest.grows 0 _ hmet
      · exact hrestmet m hm

theorem successors (hfinds : Finds once size step) {s : State} (hsize : s.position ≤ size)
    {count : Nat} {gather : List Seen × List State → State → List Seen × List State}
    {start : List Seen × List State} (hlength : start.1.length = count + 1)
    (hfull : ∀ seen ∈ start.1, seen.full = false)
    (hstep : ∀ child ∈ once s, ∀ found : List Seen × List State, found.1.length = count + 1 →
      (∀ seen ∈ found.1, seen.full = false) →
      Climbs step count found (gather found child) ∧ MetAt (gather found child).1 0 child.position) :
    Climbs step count start ((once s).foldl gather start) ∧
      ∀ q, step s.position q → MetAt ((once s).foldl gather start).1 0 q := by
  obtain ⟨hclimbs, hmet⟩ := foldl hlength hfull hstep
  refine ⟨hclimbs, fun q hq => ?_⟩
  obtain ⟨child, hchild, rfl⟩ := hfinds s hsize q hq
  exact hmet child hchild

end Climbs

theorem metAt_zero_cons {seen : Seen} {others : List Seen} {p : Nat} :
    MetAt (seen :: others) 0 p ↔ seen.Met p := by
  simp [MetAt]

theorem metAt_succ_cons {seen : Seen} {others : List Seen} {level p : Nat} :
    MetAt (seen :: others) (level + 1) p ↔ MetAt others level p := by
  simp [MetAt]

/-- One call of the bounded search: the present level, with those of the successors behind it. The
state is gathered before its successors, among `inner`, or after them, among `late`. -/
theorem Climbs.around {count : Nat} {seen : Seen} {others : List Seen}
    {states inner late : List State} {s : State} {found : List Seen × List State}
    (hseen : seen.full = false) (hclimbs : Climbs step count (others, inner) found)
    (hnext : ∀ q, step s.position q → MetAt found.1 0 q)
    (hinner : ∀ p, Covers states p → Covers inner p)
    (hlate : ∀ p, Covers found.2 p → Covers late p) (hself : Covers late s.position) :
    Climbs step (count + 1) (seen :: others, states) (seen.insert s :: found.1, late) where
  length := by simp [hclimbs.length]
  full := by
    intro other hother
    rcases List.mem_cons.1 hother with rfl | hother
    · simpa using hseen
    · exact hclimbs.full other hother
  grows level p hp := by
    cases level with
    | zero =>
        rw [metAt_zero_cons] at hp ⊢
        exact (Seen.met_insert hseen s p).2 (Or.inr hp)
    | succ level =>
        rw [metAt_succ_cons] at hp ⊢
        exact hclimbs.grows level p hp
  holds p hp := hlate p (hclimbs.holds p (hinner p hp))
  kept X hkept level p hp := by
    cases level with
    | zero =>
        rcases (Seen.met_insert hseen s p).1 (metAt_zero_cons.1 hp) with rfl | hp
        · exact Or.inl hself
        · rcases hkept 0 p (metAt_zero_cons.2 hp) with hcovers | hX
          · exact Or.inl (hlate p (hclimbs.holds p (hinner p hcovers)))
          · exact Or.inr hX
    | succ level =>
        have hold : ∀ level p, MetAt others level p → Covers inner p ∨ X p :=
          fun level p hp => (hkept (level + 1) p (metAt_succ_cons.2 hp)).imp_left (hinner p)
        exact (hclimbs.kept X hold level p (metAt_succ_cons.1 hp)).imp_left (hlate p)
  closed level p hp := by
    cases level with
    | zero =>
        rw [metAt_zero_cons] at hp ⊢
        rcases (Seen.met_insert hseen s p).1 hp with rfl | hp
        · exact Or.inr (Or.inr fun q hq => metAt_succ_cons.2 (hnext q hq))
        · exact Or.inl hp
    | succ level =>
        rw [metAt_succ_cons] at hp ⊢
        rcases hclimbs.closed level p hp with hold | hlast | hnext
        · exact Or.inl hold
        · exact Or.inr (Or.inl (by omega))
        · exact Or.inr (Or.inr fun q hq => metAt_succ_cons.2 (hnext q hq))

/-- The last level of a bounded search: nothing follows. -/
theorem Climbs.last {seen : Seen} {states : List State} (hseen : seen.full = false) (s : State) :
    Climbs step 0 ([seen], states) ([seen.insert s], s :: states) where
  length := rfl
  full := by simpa using hseen
  grows level p hp := by
    cases level with
    | zero =>
        rw [metAt_zero_cons] at hp ⊢
        exact (Seen.met_insert hseen s p).2 (Or.inr hp)
    | succ level => simp [MetAt] at hp
  holds p := fun ⟨t, ht, hpos⟩ => ⟨t, List.mem_cons_of_mem s ht, hpos⟩
  kept X hkept level p hp := by
    cases level with
    | zero =>
        rcases (Seen.met_insert hseen s p).1 (metAt_zero_cons.1 hp) with rfl | hp
        · exact Or.inl ⟨s, List.mem_cons_self, rfl⟩
        · rcases hkept 0 p (metAt_zero_cons.2 hp) with ⟨t, ht, hpos⟩ | hX
          · exact Or.inl ⟨t, List.mem_cons_of_mem s ht, hpos⟩
          · exact Or.inr hX
    | succ level => simp [MetAt] at hp
  closed level p _ := Or.inr (Or.inl (Nat.zero_le level))

theorem upTo_climbs (hfinds : Finds once size step) (hadvances : Advances once size) {count : Nat}
    {found : List Seen × List State} {s : State} (hlength : found.1.length = count + 1)
    (hfull : ∀ seen ∈ found.1, seen.full = false) (hsize : s.position ≤ size) :
    Climbs step count found (upTo once greedy count found s) ∧
      MetAt (upTo once greedy count found s).1 0 s.position := by
  induction count generalizing found s with
  | zero =>
      obtain ⟨seens, states⟩ := found
      obtain ⟨seen, rfl⟩ := List.length_eq_one_iff.1 hlength
      have hseen : seen.full = false := hfull seen List.mem_cons_self
      by_cases hmet : seen.Met s.position
      · have hhas := (Seen.has_iff_met hseen s).2 hmet
        simp only [upTo, hhas, ↓reduceIte]
        exact ⟨.refl hlength hfull, metAt_zero_cons.2 hmet⟩
      · have hhas : seen.has s = false :=
          Bool.eq_false_iff.2 fun h => hmet ((Seen.has_iff_met hseen s).1 h)
        simp only [upTo, hhas, Bool.false_eq_true, ↓reduceIte]
        exact ⟨.last hseen s, metAt_zero_cons.2 ((Seen.met_insert hseen s _).2 (Or.inl rfl))⟩
  | succ count ih =>
      obtain ⟨seens, states⟩ := found
      obtain ⟨seen, others, rfl⟩ := List.exists_cons_of_length_eq_add_one hlength
      have hseen : seen.full = false := hfull seen List.mem_cons_self
      have hothers : others.length = count + 1 := by simpa using hlength
      by_cases hmet : seen.Met s.position
      · have hhas := (Seen.has_iff_met hseen s).2 hmet
        simp only [upTo, hhas, ↓reduceIte]
        exact ⟨.refl hlength hfull, metAt_zero_cons.2 hmet⟩
      have hhas : seen.has s = false :=
        Bool.eq_false_iff.2 fun h => hmet ((Seen.has_iff_met hseen s).1 h)
      have hself : (seen.insert s).Met s.position := (Seen.met_insert hseen s _).2 (Or.inl rfl)
      have hdeeper : ∀ inner : List State,
          Climbs step count (others, inner) ((once s).foldl (upTo once greedy count) (others, inner)) ∧
            ∀ q, step s.position q →
              MetAt ((once s).foldl (upTo once greedy count) (others, inner)).1 0 q := by
        intro inner
        refine Climbs.successors hfinds hsize hothers ?_ ?_
        · exact fun other hother => hfull other (List.mem_cons_of_mem seen hother)
        · exact fun child hchild found hlength hfull =>
            ih hlength hfull (hadvances s hsize child hchild).2
      have hcons : ∀ (states : List State) p, Covers states p → Covers (s :: states) p := by
        intro states p hp
        obtain ⟨t, ht, hpos⟩ := hp
        exact ⟨t, List.mem_cons_of_mem s ht, hpos⟩
      cases greedy with
      | true =>
          obtain ⟨hclimbs, hnext⟩ := hdeeper states
          simp only [upTo, hhas, Bool.false_eq_true, ↓reduceIte]
          exact ⟨hclimbs.around hseen hnext (fun _ hp => hp) (hcons _) ⟨s, List.mem_cons_self, rfl⟩,
            metAt_zero_cons.2 hself⟩
      | false =>
          obtain ⟨hclimbs, hnext⟩ := hdeeper (s :: states)
          simp only [upTo, hhas, Bool.false_eq_true, ↓reduceIte]
          exact ⟨hclimbs.around hseen hnext (hcons states) (fun _ hp => hp)
            (hclimbs.holds _ ⟨s, List.mem_cons_self, rfl⟩), metAt_zero_cons.2 hself⟩

theorem covers_atMost (hfinds : Finds once size step) (hadvances : Advances once size)
    {count n : Nat} (hn : n ≤ count) {s : State} (hsize : s.position ≤ size) {q : Nat}
    (h : Repeats step n s.position q) : Covers (atMost once false greedy count s) q := by
  have hnone : ∀ level p, ¬ MetAt (List.replicate (count + 1) (Seen.none false)) level p := by
    rintro level p ⟨seen, hseen, hmet⟩
    rw [List.eq_of_mem_replicate (List.mem_of_getElem? hseen)] at hmet
    exact Seen.not_met_none false p hmet
  have hclimb : Climbs step count (List.replicate (count + 1) (.none false), [])
        (upTo once greedy count (List.replicate (count + 1) (.none false), []) s) ∧
      MetAt (upTo once greedy count (List.replicate (count + 1) (.none false), []) s).1 0
        s.position := by
    refine upTo_climbs hfinds hadvances (by simp) ?_ hsize
    intro seen hseen
    rw [List.eq_of_mem_replicate hseen]
    rfl
  obtain ⟨hclimbs, hmet⟩ := hclimb
  have hreached : ∀ (n level p : Nat), level + n ≤ count → Repeats step n p q →
      MetAt (upTo once greedy count (List.replicate (count + 1) (.none false), []) s).1 level p →
      MetAt (upTo once greedy count (List.replicate (count + 1) (.none false), []) s).1 (level + n)
        q := by
    intro n
    induction n with
    | zero =>
        intro level p _ hrun hp
        cases hrun
        exact hp
    | succ n ih =>
        intro level p hlevel hrun hp
        cases hrun with
        | succ first rest =>
            rcases hclimbs.closed level p hp with hold | hlast | hnext
            · exact absurd hold (hnone level p)
            · omega
            · have := ih (level + 1) _ (by omega) rest (hnext _ first)
              rwa [Nat.add_right_comm] at this
  have hfound := hclimbs.kept (fun _ => False) (fun level p hp => absurd hp (hnone level p)) _ q
    (hreached n 0 s.position (by omega) h hmet)
  obtain ⟨t, ht, hpos⟩ := hfound.resolve_right id
  exact covers_distinct ⟨t, List.mem_reverse.2 ht, hpos⟩

theorem covers_exactly (hfinds : Finds once size step) (hadvances : Advances once size)
    {count : Nat} {states : List State} (hsize : ∀ s ∈ states, s.position ≤ size) {p q : Nat}
    (hp : Covers states p) (h : Repeats step count p q) :
    Covers (exactly once false count states) q := by
  induction count generalizing states p with
  | zero =>
      cases h
      exact hp
  | succ count ih =>
      cases h with
      | succ first rest =>
          obtain ⟨s, hs, rfl⟩ := hp
          obtain ⟨t, ht, hpos⟩ := hfinds s (hsize s hs) _ first
          apply ih _ (covers_distinct ⟨t, List.mem_flatMap.2 ⟨s, hs, ht⟩, hpos⟩) rest
          intro m hm
          obtain ⟨s, hs, hm⟩ := List.mem_flatMap.1 (mem_of_mem_distinct hm)
          exact (hadvances s (hsize s hs) m hm).2

/-- An admitted number of repetitions leads to the position of an outcome. -/
theorem covers_times (hfinds : Finds once size step) (hadvances : Advances once size)
    {least : Nat} {most : Option Nat} {count : Nat} (hcount : Admits least most count) {s : State}
    (hsize : s.position ≤ size) {q : Nat} (h : Repeats step count s.position q) :
    Covers (times once false greedy size least most s) q := by
  -- The required repetitions come first; the others start where one of their outcomes is.
  have hrequired : ∀ (required : Nat) (more : State → List State) (p : Nat),
      Repeats step required s.position p →
      (∀ t : State, t.position = p → t.position ≤ size → Covers (more t) q) →
      Covers (distinct false ((exactly once false required [s]).flatMap more)) q := by
    intro required more p hfirst hmore
    have hstart : ∀ t ∈ [s], t.position ≤ size := by simpa using hsize
    obtain ⟨t, ht, hpos⟩ := covers_exactly hfinds hadvances hstart
      ⟨s, List.mem_singleton.2 rfl, rfl⟩ hfirst
    obtain ⟨s', hs', hreached⟩ := mem_of_mem_exactly ht
    rw [List.mem_singleton.1 hs'] at hreached
    obtain ⟨r, hr, hrpos⟩ := hmore t hpos (hadvances.repeats hsize hreached).2
    exact covers_distinct ⟨r, List.mem_flatMap.2 ⟨t, ht, hr⟩, hrpos⟩
  cases most with
  | some most =>
      obtain ⟨hleast, hmost⟩ := hcount
      obtain ⟨n, rfl⟩ := Nat.exists_eq_add_of_le hleast
      obtain ⟨p, hfirst, hrest⟩ := h.split
      exact hrequired _ _ p hfirst fun t hpos htsize =>
        covers_atMost hfinds hadvances (n := n) (by omega) htsize (hpos ▸ hrest)
  | none =>
      cases least with
      | zero => exact covers_zeroOrMore hfinds hadvances hsize h
      | succ least =>
          obtain ⟨n, rfl⟩ := Nat.exists_eq_add_of_le hcount
          rw [Nat.add_assoc, Nat.add_comm 1 n] at h
          obtain ⟨p, hfirst, hrest⟩ := h.split
          exact hrequired _ _ p hfirst fun t hpos htsize =>
            covers_oneOrMore hfinds hadvances htsize (hpos ▸ hrest)

end Waymark.Regex
