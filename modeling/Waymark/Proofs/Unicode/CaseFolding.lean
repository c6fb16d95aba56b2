import Waymark.Unicode.CaseFolding
/-!
A character equals itself in all but case.
-/

namespace Waymark.Unicode

theorem Run.preimage?_of_image? {run : Run} (hpositive : 0 ≤ (run.first : Int) + run.shift)
    {code image : Nat} (h : run.image? code = some image) : run.preimage? image = some code := by
  unfold image? at h
  split at h
  · next hcontains =>
    obtain rfl := Option.some.inj h
    have hfirst : run.first ≤ code := by
      simp only [contains, Bool.and_eq_true, decide_eq_true_eq] at hcontains
      exact hcontains.1.1
    have hsource : ((((code : Int) + run.shift).toNat : Int) - run.shift) = code := by omega
    unfold preimage?
    simp only [hsource, Int.toNat_natCast]
    exact if_pos ⟨Int.natCast_nonneg code, hcontains⟩
  · exact absurd h (by simp)

theorem foldingRuns_positive : ∀ run ∈ foldingRuns, 0 ≤ (run.first : Int) + run.shift := by
  have hall : (foldingRuns.all fun run => decide (0 ≤ (run.first : Int) + run.shift)) = true := by
    decide
  exact fun run hrun => of_decide_eq_true (List.all_eq_true.1 hall run hrun)

/-- A code point folds to itself or is among those that fold to its image. -/
theorem eq_or_mem_unfoldCode (code : Nat) :
    foldCode code = code ∨ code ∈ unfoldCode (foldCode code) := by
  unfold foldCode
  cases h : foldingRuns.findSome? fun run => run.image? code with
  | none => exact .inl rfl
  | some image =>
      obtain ⟨run, hrun, himage⟩ := List.exists_of_findSome?_eq_some h
      have hpreimage := Run.preimage?_of_image? (foldingRuns_positive run hrun) himage
      exact .inr (List.mem_filterMap.2 ⟨run, hrun, hpreimage⟩)

theorem toLower_or_toUpper_eq (c : Char) : c.toLower = c ∨ c.toUpper = c := by
  by_cases hupper : c.val ≥ 'A'.val ∧ c.val ≤ 'Z'.val
  · refine .inr (dif_neg ?_)
    rintro ⟨hlower, -⟩
    exact absurd (UInt32.le_trans hlower hupper.2) (by decide)
  · exact .inl (dif_neg hupper)

theorem mem_caseVariants_self (c : Char) : c ∈ caseVariants c := by
  unfold caseVariants
  split
  · rcases toLower_or_toUpper_eq c with heq | heq
    · rw [heq]
      exact List.mem_cons_self
    · rw [heq]
      exact List.mem_cons_of_mem _ List.mem_cons_self
  · split
    · exact List.mem_singleton.2 rfl
    · refine List.mem_map.2 ⟨c.toNat, ?_, Char.ofNat_toNat c⟩
      rcases eq_or_mem_unfoldCode c.toNat with heq | hmem
      · rw [heq]
        exact List.mem_cons_self
      · exact List.mem_cons_of_mem _ hmem

theorem sameButCase_self (c : Char) : sameButCase c c = true := by
  rw [sameButCase, List.contains_iff_mem]
  exact mem_caseVariants_self c

end Waymark.Unicode
