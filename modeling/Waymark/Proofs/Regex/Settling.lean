import Waymark.Proofs.Regex.Repetition
import Waymark.Regex.Effort
/-!
Tries that settle.

Trying one way after another gives up when no more tries are allowed. Something settles (`Settles`) if
it takes a number of tries of its own, however many are allowed, and finds something exactly if a
condition holds. Ways that are tried in turn settle where each of them does, and so do looks and loops,
if the steps of a loop settle where what follows them does (`Explores`).
-/

namespace Waymark.Regex

/-- Trying gives up below a number of tries, and takes that number otherwise: then something is
found if a condition holds, and nothing if not. -/
def Settles (holds : Prop) (run : Nat → Effort) : Prop :=
  ∃ cost, (∀ left, left < cost → run left = .exhausted) ∧
    (holds → ∀ rest, run (rest + cost) = .found rest) ∧
    (¬ holds → ∀ rest, run (rest + cost) = .failed rest)

namespace Settles

variable {holds more : Prop} {run other : Nat → Effort}

theorem congr (h : Settles holds run) (hiff : holds ↔ more) : Settles more run := by
  rwa [← propext hiff]

theorem found : Settles True .found :=
  ⟨0, fun _ h => absurd h (Nat.not_lt_zero _), fun _ _ => rfl, fun h => absurd trivial h⟩

theorem failed : Settles False .failed :=
  ⟨0, fun _ h => absurd h (Nat.not_lt_zero _), False.elim, fun _ _ => rfl⟩

/-- What takes some tries first and then goes on as something that settles, settles. -/
theorem delay (h : Settles holds other) (cost : Nat)
    (hfew : ∀ left, left < cost → run left = .exhausted)
    (hthen : ∀ rest, run (rest + cost) = other rest) : Settles holds run := by
  obtain ⟨further, hfew', hfound, hfailed⟩ := h
  refine ⟨further + cost, fun left hleft => ?_, fun hholds rest => ?_, fun hnot rest => ?_⟩
  · rcases Nat.lt_or_ge left cost with hlt | hge
    · exact hfew left hlt
    · obtain ⟨rest, rfl⟩ := Nat.exists_eq_add_of_le' hge
      rw [hthen]
      exact hfew' rest (by omega)
  · rw [← Nat.add_assoc, hthen, hfound hholds]
  · rw [← Nat.add_assoc, hthen, hfailed hnot]

/-- Nothing is tried after something has been found. -/
theorem orElse_of_holds (h : Settles holds run) (hholds : holds) :
    Settles True fun left => (run left).orElse other := by
  obtain ⟨cost, hfew, hfound, -⟩ := h
  refine found.delay cost (fun left hleft => ?_) fun rest => ?_
  · simp only [hfew left hleft]
    rfl
  · simp only [hfound hholds rest]
    rfl

/-- What is tried after one way that fails takes a try more. -/
theorem orElse_of_not (h : Settles holds run) (hother : Settles more other) (hnot : ¬ holds) :
    Settles more fun left => (run left).orElse other := by
  obtain ⟨cost, hfew, -, hfailed⟩ := h
  have hsome : Settles more fun left => (Effort.failed left).orElse other := by
    refine hother.delay 1 (fun left hleft => ?_) fun rest => rfl
    obtain rfl := Nat.lt_one_iff.1 hleft
    rfl
  refine hsome.delay cost (fun left hleft => ?_) fun rest => ?_
  · simp only [hfew left hleft]
    rfl
  · simp only [hfailed hnot rest]

theorem orElse (h : Settles holds run) (hother : Settles more other) :
    Settles (holds ∨ more) fun left => (run left).orElse other := by
  by_cases hholds : holds
  · exact (h.orElse_of_holds hholds).congr (by simp [hholds])
  · exact (h.orElse_of_not hother hholds).congr (by simp [hholds])

theorem tryMore (greedy : Bool) (h : Settles holds run) (hother : Settles more other) :
    Settles (holds ∨ more) (tryMore greedy run other) := by
  cases greedy with
  | true => exact h.orElse hother
  | false => exact (hother.orElse h).congr or_comm

/-- What comes next is tried where a look finds something, or where it does not. -/
theorem look (h : Settles holds run) (hmore : Settles more other) (negated : Bool) :
    Settles ((holds ↔ negated = false) ∧ more) fun left =>
      match run left, negated with
      | .found left, false | .failed left, true => other left
      | .found left, true | .failed left, false => .failed left
      | .exhausted, _ => .exhausted := by
  obtain ⟨cost, hfew, hfound, hfailed⟩ := h
  by_cases hpasses : holds ↔ negated = false
  · refine (hmore.delay cost (fun left hleft => ?_) fun rest => ?_).congr (by simp [hpasses])
    · simp only [hfew left hleft]
    · cases negated with
      | false => simp only [hfound (hpasses.2 rfl) rest]
      | true => simp only [hfailed (by simpa using hpasses) rest]
  · refine (failed.delay cost (fun left hleft => ?_) fun rest => ?_).congr (by simp [hpasses])
    · simp only [hfew left hleft]
    · cases negated with
      | false => simp only [hfailed (by simpa using hpasses) rest]
      | true => simp only [hfound (by simpa using hpasses) rest]

/-- After one way that fails, a search that does not give up tries another. -/
theorem exists_of_orElse (h : Settles holds run) (hnot : ¬ holds) {left : Nat}
    (hleft : (run left).orElse other ≠ .exhausted) : ∃ rest, rest ≤ left ∧ other rest ≠ .exhausted := by
  obtain ⟨cost, hfew, -, hfailed⟩ := h
  rcases Nat.lt_or_ge left cost with hlt | hge
  · rw [hfew left hlt] at hleft
    exact absurd rfl hleft
  · obtain ⟨rest, rfl⟩ := Nat.exists_eq_add_of_le' hge
    rw [hfailed hnot rest] at hleft
    cases rest with
    | zero => exact absurd rfl hleft
    | succ rest => exact ⟨rest, by omega, hleft⟩

/-- A search that does not give up finds something if the condition holds. -/
theorem exists_eq_found (h : Settles holds run) (hholds : holds) {left : Nat}
    (hleft : run left ≠ .exhausted) {enough : Nat} (hle : left ≤ enough) :
    ∃ rest, run enough = .found rest := by
  obtain ⟨cost, hfew, hfound, -⟩ := h
  have hcost : cost ≤ left := Nat.le_of_not_lt fun hlt => hleft (hfew left hlt)
  obtain ⟨rest, rfl⟩ := Nat.exists_eq_add_of_le' (Nat.le_trans hcost hle)
  exact ⟨rest, hfound hholds rest⟩

end Settles

section Loops

variable {once : State → Nat → Continue → Effort} {step : Nat → Nat → Prop} {size : Nat}

/-- From every state of the text that is not before a position, what comes next settles by where the
state is. -/
def Continues (size origin : Nat) (leads : Nat → Prop) (next : Continue) : Prop :=
  ∀ t : State, origin ≤ t.position → t.position ≤ size → Settles (leads t.position) (next t)

/-- Trying steps from a state of the text settles if what comes next does. -/
def Explores (once : State → Nat → Continue → Effort) (size : Nat) (step : Nat → Nat → Prop) :
    Prop :=
  ∀ (s : State) (next : Continue) (leads : Nat → Prop), s.position ≤ size →
    Continues size s.position leads next →
    Settles (∃ q, step s.position q ∧ leads q) fun left => once s left next

variable {next : Continue} {leads : Nat → Prop} {origin : Nat}

theorem Continues.later (h : Continues size origin leads next) {position : Nat}
    (hle : origin ≤ position) : Continues size position leads next :=
  fun t ht hsize => h t (Nat.le_trans hle ht) hsize

theorem continues_found (size origin : Nat) :
    Continues size origin (fun _ => True) fun _ left => .found left :=
  fun _ _ _ => .found

theorem continues_tryExactly (honce : Explores once size step) (count : Nat)
    (h : Continues size origin leads next) :
    Continues size origin (fun p => ∃ q, Repeats step count p q ∧ leads q)
      fun s left => tryExactly once count s left next := by
  induction count generalizing origin with
  | zero =>
      refine fun s hle hs => (h s hle hs).congr ⟨fun h => ⟨_, .zero _, h⟩, ?_⟩
      rintro ⟨_, hrepeats, h⟩
      cases hrepeats
      exact h
  | succ count ih =>
      refine fun s hle hs => (honce s _ _ hs (ih (h.later hle))).congr ⟨?_, ?_⟩
      · rintro ⟨p, hfirst, q, hrest, h⟩
        exact ⟨q, .succ hfirst hrest, h⟩
      · rintro ⟨q, hrepeats, h⟩
        cases hrepeats with
        | succ hfirst hrest => exact ⟨_, hfirst, q, hrest, h⟩

theorem continues_tryAtMost (honce : Explores once size step) (greedy : Bool) (count : Nat)
    (h : Continues size origin leads next) :
    Continues size origin (fun p => ∃ q, (∃ n, n ≤ count ∧ Repeats step n p q) ∧ leads q)
      fun s left => tryAtMost once greedy count s left next := by
  induction count generalizing origin with
  | zero =>
      refine fun s hle hs => (h s hle hs).congr ⟨fun h => ⟨_, ⟨0, Nat.le_refl _, .zero _⟩, h⟩, ?_⟩
      rintro ⟨_, ⟨n, hn, hrepeats⟩, h⟩
      obtain rfl := Nat.le_zero.1 hn
      cases hrepeats
      exact h
  | succ count ih =>
      intro s hle hs
      have hmore := honce s _ _ hs (ih (h.later hle))
      refine (hmore.tryMore greedy (h s hle hs)).congr ⟨?_, ?_⟩
      · rintro (⟨p, hfirst, q, ⟨n, hn, hrest⟩, h⟩ | h)
        · exact ⟨q, ⟨n + 1, Nat.succ_le_succ hn, .succ hfirst hrest⟩, h⟩
        · exact ⟨_, ⟨0, Nat.zero_le _, .zero _⟩, h⟩
      · rintro ⟨q, ⟨n, hn, hrepeats⟩, h⟩
        cases hrepeats with
        | zero => exact .inr h
        | succ hfirst hrest => exact .inl ⟨_, hfirst, q, ⟨_, Nat.le_of_succ_le_succ hn, hrest⟩, h⟩

/-- Steps that lead nowhere can be left out. -/
theorem reaches_iff {p : Nat} :
    (∃ q, (∃ n, Repeats step n p q) ∧ leads q) ↔
      (∃ m, step p m ∧ m ≠ p ∧ ∃ q, (∃ n, Repeats step n m q) ∧ leads q) ∨ leads p := by
  constructor
  · rintro ⟨q, ⟨n, hrepeats⟩, h⟩
    induction hrepeats with
    | zero => exact .inr h
    | @succ n p m q hfirst hrest ih =>
        by_cases heq : m = p
        · subst heq
          exact ih h
        · exact .inl ⟨m, hfirst, heq, q, ⟨n, hrest⟩, h⟩
  · rintro (⟨m, hfirst, -, q, ⟨n, hrest⟩, h⟩ | h)
    · exact ⟨q, ⟨n + 1, .succ hfirst hrest⟩, h⟩
    · exact ⟨p, ⟨0, .zero p⟩, h⟩

/-- The fuel suffices because every repetition that is tried comes to a later position. -/
theorem continues_tryAny (honce : Explores once size step) (greedy : Bool) {fuel : Nat}
    (hfuel : size < fuel + origin) (h : Continues size origin leads next) :
    Continues size origin (fun p => ∃ q, (∃ n, Repeats step n p q) ∧ leads q)
      fun s left => tryAny once greedy fuel s left next := by
  induction fuel generalizing origin with
  | zero =>
      intro s hle hs
      omega
  | succ fuel ih =>
      intro s hle hs
      have hlater := @ih (s.position + 1) (by omega) (h.later (by omega))
      have hmore : Continues size s.position
          (fun p => p ≠ s.position ∧ ∃ q, (∃ n, Repeats step n p q) ∧ leads q) fun t left =>
            if t.position = s.position then .failed left
            else tryAny once greedy fuel t left next := by
        intro t htle ht
        by_cases heq : t.position = s.position
        · simp only [heq, ↓reduceIte]
          exact Settles.failed.congr (by simp)
        · simp only [heq, ↓reduceIte]
          exact (hlater t (by omega) ht).congr (by simp [heq])
      exact ((honce s _ _ hs hmore).tryMore greedy (h s hle hs)).congr reaches_iff.symm

/-- A number of steps can be interrupted after the first of them. -/
theorem reaches_split_iff {required p : Nat} {admitted : Nat → Prop} {reaches : Nat → Nat → Prop}
    (h : ∀ m q, reaches m q ↔ ∃ n, admitted (required + n) ∧ Repeats step n m q)
    (hleast : ∀ n, admitted n → required ≤ n) :
    (∃ m, Repeats step required p m ∧ ∃ q, reaches m q ∧ leads q) ↔
      ∃ q, (∃ n, admitted n ∧ Repeats step n p q) ∧ leads q := by
  simp only [h]
  constructor
  · rintro ⟨m, hfirst, q, ⟨n, hn, hrest⟩, h'⟩
    exact ⟨q, ⟨required + n, hn, hfirst.trans hrest⟩, h'⟩
  · rintro ⟨q, ⟨n, hn, hrepeats⟩, h'⟩
    obtain ⟨rest, rfl⟩ := Nat.exists_eq_add_of_le (hleast n hn)
    obtain ⟨m, hfirst, hrest⟩ := hrepeats.split
    exact ⟨m, hfirst, q, ⟨rest, hn, hrest⟩, h'⟩

end Loops

/-- What comes next in two searches is the same at each position. -/
def Agree (next other : Continue) : Prop :=
  ∀ (s t : State) (left : Nat), s.position = t.position → next s left = other t left

theorem agree_found : Agree (fun _ left => .found left) fun _ left => .found left :=
  fun _ _ _ _ => rfl

section Agreeing

variable {once again : State → Nat → Continue → Effort} {next other : Continue}

theorem agree_tryExactly
    (honce : ∀ {next other : Continue}, Agree next other →
      Agree (fun s left => once s left next) fun t left => again t left other)
    (count : Nat) (h : Agree next other) :
    Agree (fun s left => tryExactly once count s left next)
      fun t left => tryExactly again count t left other := by
  induction count with
  | zero => exact h
  | succ count ih => exact honce ih

theorem Agree.tryMore {more stop : State → Nat → Effort} {more' stop' : State → Nat → Effort}
    (greedy : Bool) (hmore : Agree more more') (hstop : Agree stop stop') :
    Agree (fun s left => tryMore greedy (more s) (stop s) left)
      fun t left => tryMore greedy (more' t) (stop' t) left := by
  intro s t left hst
  have heq : more s = more' t := funext fun left => hmore s t left hst
  have heq' : stop s = stop' t := funext fun left => hstop s t left hst
  simp only [heq, heq']

theorem agree_tryAtMost
    (honce : ∀ {next other : Continue}, Agree next other →
      Agree (fun s left => once s left next) fun t left => again t left other)
    (greedy : Bool) (count : Nat) (h : Agree next other) :
    Agree (fun s left => tryAtMost once greedy count s left next)
      fun t left => tryAtMost again greedy count t left other := by
  induction count with
  | zero => exact h
  | succ count ih => exact (honce ih).tryMore greedy h

theorem agree_tryAny
    (honce : ∀ {next other : Continue}, Agree next other →
      Agree (fun s left => once s left next) fun t left => again t left other)
    (greedy : Bool) (fuel : Nat) (h : Agree next other) :
    Agree (fun s left => tryAny once greedy fuel s left next)
      fun t left => tryAny again greedy fuel t left other := by
  induction fuel with
  | zero => exact h
  | succ fuel ih =>
      refine Agree.tryMore greedy (fun s t left hst => ?_) h
      refine honce (fun m l left hml => ?_) s t left hst
      have hrest : tryAny once greedy fuel m left next = tryAny again greedy fuel l left other :=
        ih m l left hml
      rw [hst, hml, hrest]

end Agreeing

end Waymark.Regex
