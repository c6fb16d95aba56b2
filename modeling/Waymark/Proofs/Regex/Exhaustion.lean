import Mathlib.Algebra.Group.Nat.Defs
import Waymark.Regex.Search
/-!
Searches that give up.

Where a repetition can go on in two ways at each character, and what follows it always fails, every
character doubles the tries (`costs_tryAny`). So a text of no great length is enough for a search to
give up, though there is a match that it would come to in the end.
-/

namespace Waymark.Regex

/-- Trying comes to nothing, after no fewer than a number of tries. -/
def Costs (tries : Nat) (run : Nat → Effort) : Prop :=
  ∀ left, run left = .exhausted ∨ ∃ rest, run left = .failed rest ∧ rest + tries ≤ left

namespace Costs

variable {tries more : Nat} {run other : Nat → Effort}

theorem failed : Costs 0 fun left => .failed left :=
  fun left => .inr ⟨left, rfl, Nat.le_refl left⟩

theorem mono (h : Costs tries run) (hle : more ≤ tries) : Costs more run := by
  intro left
  rcases h left with hrun | ⟨rest, hrun, hrest⟩
  · exact .inl hrun
  · exact .inr ⟨rest, hrun, by omega⟩

/-- Two ways, one after the other, take one try more than both. -/
theorem orElse (h : Costs tries run) (hother : Costs more other) :
    Costs (tries + more + 1) fun left => (run left).orElse other := by
  intro left
  simp only
  rcases h left with hrun | ⟨rest, hrun, hrest⟩
  · rw [hrun]
    exact .inl rfl
  · rw [hrun]
    cases rest with
    | zero => exact .inl rfl
    | succ rest =>
        rcases hother rest with hother | ⟨last, hother, hlast⟩
        · exact .inl hother
        · exact .inr ⟨last, hother, by omega⟩

theorem tryMore (greedy : Bool) (h : Costs tries run) (hother : Costs more other) :
    Costs (tries + more + 1) (tryMore greedy run other) := by
  cases greedy with
  | true => exact h.orElse hother
  | false => exact (hother.orElse h).mono (by omega)

/-- A search gives up that is allowed fewer tries. -/
theorem exhausted (h : Costs tries run) {left : Nat} (hleft : left < tries) :
    run left = .exhausted := by
  rcases h left with hrun | ⟨rest, _, hrest⟩
  · exact hrun
  · omega

end Costs

/-- Going on in two ways at each character up to the end of a text doubles the tries, character by
character, if what follows fails. -/
theorem costs_tryAny {once : State → Nat → Continue → Effort} {greedy : Bool} {next : Continue}
    {size : Nat} (hnext : ∀ s, Costs 0 (next s))
    (hends : ∀ (s : State) (after : Continue), size ≤ s.position →
      Costs 0 fun left => once s left after)
    (hstep : ∀ (s : State) (after : Continue) (tries : Nat), s.position < size →
      Costs tries (after (s.moveTo (s.position + 1))) →
        Costs (tries + tries + 1) fun left => once s left after)
    {count fuel : Nat} (hfuel : count ≤ fuel) {s : State} (hs : s.position + count = size) :
    Costs (2 ^ count - 1) fun left => tryAny once greedy fuel s left next := by
  induction count generalizing fuel s with
  | zero =>
      cases fuel with
      | zero => exact hnext s
      | succ fuel => exact ((hends s _ (by omega)).tryMore greedy (hnext s)).mono (Nat.zero_le _)
  | succ count ih =>
      obtain ⟨before, rfl⟩ := Nat.exists_eq_add_of_le' (Nat.le_of_add_left_le hfuel)
      have hrest : Costs (2 ^ count - 1) fun left =>
          tryAny once greedy before (s.moveTo (s.position + 1)) left next :=
        ih (by omega) (by simp only [State.moveTo]; omega)
      have hmore : Costs (2 ^ count - 1 + (2 ^ count - 1) + 1) fun left =>
          once s left fun after left =>
            if after.position = s.position then .failed left
            else tryAny once greedy before after left next :=
        hstep s _ _ (by omega) (by simpa [State.moveTo] using hrest)
      refine (hmore.tryMore greedy (hnext s)).mono ?_
      have hpos : 1 ≤ 2 ^ count := Nat.one_le_two_pow
      omega

/-- The repetition of two alternatives that are one and the same set of characters, where every
character of the text is in the set. -/
theorem costs_loop_alt_set {text : Array Char} {full : Bool} {chars : CharSet} {caseless greedy : Bool}
    (hcontains : ∀ (p : Nat) (c : Char), text[p]? = some c → chars.contains caseless c = true)
    {next : Continue} (hnext : ∀ s, Costs 0 (next s)) {s : State} (hs : s.position ≤ text.size) :
    Costs (2 ^ (text.size - s.position) - 1) fun left =>
      (Expr.loop (.alt (.set chars caseless) (.set chars caseless)) 0 none greedy).attempt text full s
        left next := by
  have hsum : s.position + (text.size - s.position) = text.size := Nat.add_sub_of_le hs
  refine costs_tryAny hnext (fun s after hend => ?_) (fun s after tries hlt hafter => ?_)
    (by omega) hsum
  · have hfailed : Costs 0 fun left => (Expr.set chars caseless).attempt text full s left after := by
      have hnone : text[s.position]? = none := Array.getElem?_eq_none hend
      simp only [Expr.attempt, hnone]
      exact .failed
    exact (hfailed.orElse hfailed).mono (Nat.zero_le _)
  · have hone : Costs tries fun left => (Expr.set chars caseless).attempt text full s left after := by
      obtain ⟨c, hc⟩ : ∃ c, text[s.position]? = some c := ⟨_, Array.getElem?_eq_getElem hlt⟩
      simp only [Expr.attempt, hc, hcontains _ _ hc, ↓reduceIte]
      exact hafter
    exact hone.orElse hone

end Waymark.Regex
