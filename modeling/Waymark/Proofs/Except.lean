/-!
Steps that may fail, one after another.
-/

namespace Waymark

variable {ε α β : Type}

/-- A result that is there as an option is the result of the step: so steps on fixed inputs can be
run, where there is no deciding between errors. -/
theorem eq_ok_of_toOption {step : Except ε α} {result : α} (h : step.toOption = some result) :
    step = .ok result := by
  cases step with
  | error e => exact absurd h (by simp [Except.toOption])
  | ok value => exact congrArg Except.ok (Option.some.inj h)

theorem exists_ok_of_any {step : Except ε α} {test : α → Bool} (h : step.toOption.any test = true) :
    ∃ result, step = .ok result ∧ test result = true := by
  obtain ⟨result, hresult, htest⟩ := (Option.any_eq_true _ _).1 h
  exact ⟨result, eq_ok_of_toOption hresult, htest⟩

theorem exists_ok_and {step : Except ε α} {P : α → Prop} (h : step.toOption.isSome = true)
    (hP : ∀ result, step = .ok result → P result) : ∃ result, step = .ok result ∧ P result := by
  obtain ⟨result, hresult⟩ := Option.isSome_iff_exists.1 h
  have hok := eq_ok_of_toOption hresult
  exact ⟨result, hok, hP result hok⟩

theorem bind_eq_ok_iff {step : Except ε α} {next : α → Except ε β} {result : β} :
    (step >>= next) = .ok result ↔ ∃ value, step = .ok value ∧ next value = .ok result := by
  cases step with
  | error e =>
      constructor
      · exact fun h => absurd h (by simp [bind, Except.bind])
      · rintro ⟨value, h, -⟩
        exact absurd h (by simp)
  | ok value =>
      constructor
      · exact fun h => ⟨value, rfl, h⟩
      · rintro ⟨_, hvalue, h⟩
        rw [← Except.ok.inj hvalue] at h
        exact h

theorem map_eq_ok_iff {f : α → β} {step : Except ε α} {result : β} :
    f <$> step = .ok result ↔ ∃ value, step = .ok value ∧ f value = result := by
  cases step <;> simp [Functor.map, Except.map]

theorem map_bind_pure {γ : Type} (step : Except ε α) (f : α → β) (g : β → γ) :
    (do return f (← step) : Except ε β).map g = step.map fun value => g (f value) := by
  cases step <;> rfl

theorem mapError_eq_ok_iff {f : ε → β} {step : Except ε α} {result : α} :
    step.mapError f = .ok result ↔ step = .ok result := by
  cases step with
  | error e => exact ⟨nofun, nofun⟩
  | ok value =>
      constructor
      · exact fun h => congrArg Except.ok (Except.ok.inj h)
      · exact fun h => congrArg Except.ok (Except.ok.inj h)

theorem mapM_cons_eq_ok_iff {f : α → Except ε β} {item : α} {items : List α}
    {results : List β} :
    (item :: items).mapM f = .ok results ↔
      ∃ first rest, f item = .ok first ∧ items.mapM f = .ok rest ∧ results = first :: rest := by
  rw [List.mapM_cons, bind_eq_ok_iff]
  simp only [bind_eq_ok_iff]
  constructor
  · rintro ⟨first, hfirst, rest, hrest, h⟩
    exact ⟨first, rest, hfirst, hrest, (Except.ok.inj h).symm⟩
  · rintro ⟨first, rest, hfirst, hrest, rfl⟩
    exact ⟨first, hfirst, rest, hrest, rfl⟩

/-- Every result comes from one of the items. -/
theorem exists_of_mem_mapM {f : α → Except ε β} {items : List α} {results : List β}
    (h : items.mapM f = .ok results) {result : β} (hresult : result ∈ results) :
    ∃ item ∈ items, f item = .ok result := by
  induction items generalizing results with
  | nil =>
      obtain rfl : [] = results := Except.ok.inj h
      exact absurd hresult List.not_mem_nil
  | cons item items ih =>
      obtain ⟨first, rest, hfirst, hrest, rfl⟩ := mapM_cons_eq_ok_iff.1 h
      rcases List.mem_cons.1 hresult with rfl | hresult
      · exact ⟨item, List.mem_cons_self, hfirst⟩
      · obtain ⟨other, hother, hresult⟩ := ih hrest hresult
        exact ⟨other, List.mem_cons_of_mem item hother, hresult⟩

/-- Steps that all succeed do so in a row. -/
theorem mapM_eq_ok_map {f : α → Except ε β} {g : α → β} {items : List α}
    (h : ∀ item ∈ items, f item = .ok (g item)) : items.mapM f = .ok (items.map g) := by
  induction items with
  | nil => rfl
  | cons item items ih =>
      refine mapM_cons_eq_ok_iff.2 ⟨g item, items.map g, h item List.mem_cons_self, ?_, rfl⟩
      exact ih fun other hother => h other (List.mem_cons_of_mem item hother)

end Waymark
