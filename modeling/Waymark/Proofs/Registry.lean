import Mathlib.Data.List.Induction
import Waymark.Proofs.Dict
import Waymark.Registry
/-!
Waiting for a registered value.

What is registered under a name is what the last step that concerns the name has registered
(`get?_run_iff`). Whatever the order in which values come and go and waiters get their turns, nobody
is asleep who waits for a value that is registered, and what a waiter has been given was registered
under its own name, with its own type, when it looked (`wakeful_and_faithful`).
-/

namespace Waymark

/-- A step of those who share a registry: what is registered changes, someone begins to wait, or
someone who waits gets a turn. -/
inductive RegistryStep {κ : Type} (β : κ → Type) where
  | edit (change : RegistryChange β)
  | join (name : String) (kind : κ)
  | poll (index : Nat)

variable {κ : Type} {β : κ → Type}

/-- The name that a change is about. -/
def RegistryChange.name : RegistryChange β → String
  | .register name _ => name
  | .unregister name => name

/-- The step changes what is registered under a name. -/
def RegistryStep.Concerns (name : String) : RegistryStep β → Prop
  | .edit change => change.name = name
  | _ => False

/-- Of the steps that concern a name, the last one has registered an item under it. -/
def Registered (steps : List (RegistryStep β)) (name : String) (item : Sigma β) : Prop :=
  ∃ before after, steps = before ++ .edit (.register name item) :: after ∧
    ∀ step ∈ after, ¬step.Concerns name

namespace Registry

section Entries

/-- What is registered after one more step. -/
theorem registered_concat_iff {steps : List (RegistryStep β)} {step : RegistryStep β}
    {name : String} {item : Sigma β} :
    Registered (steps ++ [step]) name item ↔
      step = .edit (.register name item) ∨ ¬step.Concerns name ∧ Registered steps name item := by
  constructor
  · rintro ⟨before, after, hsteps, hafter⟩
    rcases List.eq_nil_or_concat after with rfl | ⟨init, last, rfl⟩
    · obtain ⟨-, hlast⟩ := List.append_inj' hsteps rfl
      exact .inl (List.singleton_inj.1 hlast)
    · rw [List.concat_eq_append, ← List.cons_append, ← List.append_assoc] at hsteps
      obtain ⟨hinit, hlast⟩ := List.append_inj' hsteps rfl
      rw [List.concat_eq_append] at hafter
      refine .inr ⟨?_, before, init, hinit, fun other hother => hafter other (by simp [hother])⟩
      exact hafter step (by simp [List.singleton_inj.1 hlast])
  · rintro (rfl | ⟨hconcerns, before, after, rfl, hafter⟩)
    · exact ⟨steps, [], rfl, by simp⟩
    · refine ⟨before, after ++ [step], by simp, fun other hother => ?_⟩
      rcases List.mem_append.1 hother with hother | hother
      · exact hafter other hother
      · rw [List.mem_singleton.1 hother]
        exact hconcerns

theorem get?_apply_of_ne (registry : Registry β) {change : RegistryChange β} {name : String}
    (hne : change.name ≠ name) :
    Dict.get? (registry.apply change).entries name = Dict.get? registry.entries name := by
  cases change with
  | register other item => exact Dict.get?_insert_of_ne _ item hne
  | unregister other => exact Dict.get?_erase_of_ne _ hne

theorem sorted_apply {registry : Registry β} (h : Dict.Sorted registry.entries)
    (change : RegistryChange β) : Dict.Sorted (registry.apply change).entries := by
  cases change with
  | register name item => exact h.insert name item
  | unregister name => exact h.erase name

variable [DecidableEq κ]

/-- What a step makes of a registry. -/
def next (registry : Registry β) : RegistryStep β → Registry β
  | .edit change => registry.apply change
  | .join name kind => registry.join name kind
  | .poll index => registry.poll index

/-- What steps make of the empty registry. -/
def run (steps : List (RegistryStep β)) : Registry β :=
  steps.foldl next empty

theorem run_concat (steps : List (RegistryStep β)) (step : RegistryStep β) :
    run (steps ++ [step]) = (run steps).next step := by
  rw [run, List.foldl_append]
  rfl

theorem get?_next_of_not_concerns (registry : Registry β) {step : RegistryStep β} {name : String}
    (h : ¬step.Concerns name) :
    Dict.get? (registry.next step).entries name = Dict.get? registry.entries name := by
  cases step with
  | edit change => exact get?_apply_of_ne registry h
  | join other kind => rfl
  | poll index => rfl

theorem sorted_run (steps : List (RegistryStep β)) : Dict.Sorted (run steps).entries := by
  induction steps using List.reverseRecOn with
  | nil => exact List.Pairwise.nil
  | append_singleton steps step ih =>
      rw [run_concat]
      cases step with
      | edit change => exact sorted_apply ih change
      | join name kind => exact ih
      | poll index => exact ih

/-- What a registry holds under a name is what has been registered there last. -/
theorem get?_run_iff (steps : List (RegistryStep β)) (name : String) (item : Sigma β) :
    Dict.get? (run steps).entries name = some item ↔ Registered steps name item := by
  induction steps using List.reverseRecOn with
  | nil =>
      refine ⟨fun h => absurd h (by simp [run, empty]), ?_⟩
      rintro ⟨before, after, hsteps, -⟩
      simp at hsteps
  | append_singleton steps step ih =>
      rw [run_concat, registered_concat_iff]
      by_cases hconcerns : step.Concerns name
      · rw [or_iff_left fun h => h.1 hconcerns]
        cases step with
        | edit change =>
            obtain rfl : change.name = name := hconcerns
            cases change with
            | register name other => simp [next, apply, register, RegistryChange.name]
            | unregister name =>
                simp [next, apply, unregister, RegistryChange.name,
                  Dict.get?_erase_self (sorted_run steps)]
        | join other kind => exact hconcerns.elim
        | poll index => exact hconcerns.elim
      · rw [get?_next_of_not_concerns _ hconcerns, ih, or_iff_right, and_iff_right hconcerns]
        rintro rfl
        exact hconcerns rfl

end Entries

section Waiters

variable [DecidableEq κ] {registry : Registry β}

/-- Nobody is asleep who waits for a value of a type that is registered under the name. -/
def Wakeful (registry : Registry β) : Prop :=
  ∀ (index : Nat) (waiter : Waiter β), registry.waiters[index]? = some waiter →
    waiter.state = .asleep →
    ∀ value, Dict.get? registry.entries waiter.name ≠ some ⟨waiter.kind, value⟩

theorem itemAs?_eq_some_iff {kind : κ} {item : Sigma β} {value : β kind} :
    itemAs? kind item = some value ↔ item = ⟨kind, value⟩ := by
  obtain ⟨other, held⟩ := item
  constructor
  · intro h
    rw [itemAs?] at h
    split at h
    · next heq =>
      subst heq
      rw [← Option.some.inj h]
    · cases h
  · rintro ⟨⟩
    exact itemAs?_self kind value

theorem valueOf?_eq_some_iff {entries : Dict (Sigma β)} {kind : κ} {name : String} {value : β kind} :
    valueOf? entries kind name = some value ↔ Dict.get? entries name = some ⟨kind, value⟩ := by
  simp [valueOf?, Option.bind_eq_some_iff, itemAs?_eq_some_iff]

/-- A waiter that is to look finds the value that is registered, or falls asleep. -/
theorem look_of_due (entries : Dict (Sigma β)) (waiter : Waiter β) (h : waiter.state = .due) :
    (∃ value, Dict.get? entries waiter.name = some ⟨waiter.kind, value⟩ ∧
        waiter.look entries = { waiter with state := .served value }) ∨
      (∀ value, Dict.get? entries waiter.name ≠ some ⟨waiter.kind, value⟩) ∧
        waiter.look entries = { waiter with state := .asleep } := by
  obtain ⟨name, kind, state⟩ := waiter
  obtain rfl : state = .due := h
  cases hvalue : valueOf? entries kind name with
  | some value => exact .inl ⟨value, valueOf?_eq_some_iff.1 hvalue, by simp [Waiter.look, hvalue]⟩
  | none =>
      refine .inr ⟨fun value hget => ?_, by simp [Waiter.look, hvalue]⟩
      rw [valueOf?_eq_some_iff.2 hget] at hvalue
      cases hvalue

theorem look_of_ne {entries : Dict (Sigma β)} {waiter : Waiter β} (h : waiter.state ≠ .due) :
    waiter.look entries = waiter := by
  obtain ⟨name, kind, state⟩ := waiter
  cases state with
  | due => exact absurd rfl h
  | asleep => rfl
  | served value => rfl

omit [DecidableEq κ] in
theorem wake_cases (waiter : Waiter β) :
    waiter.wake.state = .due ∨ waiter.wake = waiter ∧ waiter.state ≠ .asleep := by
  obtain ⟨name, kind, state⟩ := waiter
  cases state with
  | due => exact .inl rfl
  | asleep => exact .inl rfl
  | served value => exact .inr ⟨rfl, by simp⟩

/-- A waiter after a step is to look, or is as it was and has not slept through a registration, or
it was to look and has had its turn. -/
theorem getElem?_next_cases {step : RegistryStep β} {index : Nat} {waiter : Waiter β}
    (h : (registry.next step).waiters[index]? = some waiter) :
    waiter.state = .due ∨
      registry.waiters[index]? = some waiter ∧
        (waiter.state = .asleep → ∀ name item, step ≠ .edit (.register name item)) ∨
      step = .poll index ∧ ∃ old, registry.waiters[index]? = some old ∧ old.state = .due ∧
        waiter = old.look registry.entries := by
  cases step with
  | edit change =>
      cases change with
      | register name item =>
          have hwoken : (registry.waiters.map Waiter.wake)[index]? = some waiter := h
          rw [List.getElem?_map] at hwoken
          obtain ⟨old, hold, rfl⟩ := Option.map_eq_some_iff.1 hwoken
          rcases wake_cases old with hdue | ⟨heq, hawake⟩
          · exact .inl hdue
          · rw [heq]
            exact .inr (.inl ⟨hold, fun hasleep => absurd hasleep hawake⟩)
      | unregister name => exact .inr (.inl ⟨h, by simp⟩)
  | join name kind =>
      have hjoined : (registry.waiters ++ [⟨name, kind, .due⟩])[index]? = some waiter := h
      rw [List.getElem?_append] at hjoined
      split at hjoined
      · exact .inr (.inl ⟨hjoined, by simp⟩)
      · have hnew := List.mem_of_getElem? hjoined
        rw [List.mem_singleton.1 hnew]
        exact .inl rfl
  | poll other =>
      have hpolled : (registry.waiters.modify other (Waiter.look registry.entries))[index]? =
          some waiter := h
      by_cases heq : other = index
      · subst heq
        rw [List.getElem?_modify_eq] at hpolled
        obtain ⟨old, hold, rfl⟩ := Option.map_eq_some_iff.1 hpolled
        by_cases hdue : old.state = .due
        · exact .inr (.inr ⟨rfl, old, hold, hdue, rfl⟩)
        · rw [look_of_ne hdue]
          exact .inr (.inl ⟨hold, by simp⟩)
      · rw [List.getElem?_modify_ne _ _ heq] at hpolled
        exact .inr (.inl ⟨hpolled, by simp⟩)

/-- What a step other than a registration leaves under a name was there before. -/
theorem get?_of_get?_next (hsorted : Dict.Sorted registry.entries) {step : RegistryStep β}
    (hstep : ∀ name item, step ≠ .edit (.register name item)) {name : String} {item : Sigma β}
    (h : Dict.get? (registry.next step).entries name = some item) :
    Dict.get? registry.entries name = some item := by
  by_cases hconcerns : step.Concerns name
  · cases step with
    | edit change =>
        cases change with
        | register other held => exact absurd rfl (hstep other held)
        | unregister other =>
            obtain rfl : other = name := hconcerns
            have herased : Dict.get? (Dict.erase registry.entries other) other = some item := h
            rw [Dict.get?_erase_self hsorted] at herased
            cases herased
    | join other kind => exact h
    | poll index => exact h
  · rwa [get?_next_of_not_concerns registry hconcerns] at h

/-- One step leaves nobody asleep who waits for a value that is registered. -/
theorem Wakeful.next (h : Wakeful registry) (hsorted : Dict.Sorted registry.entries)
    (step : RegistryStep β) : Wakeful (registry.next step) := by
  intro index waiter hwaiter hasleep value hget
  rcases getElem?_next_cases hwaiter with hdue | ⟨hsame, hslept⟩ | ⟨rfl, old, hold, hdue, heq⟩
  · rw [hdue] at hasleep
    cases hasleep
  · exact h index waiter hsame hasleep value (get?_of_get?_next hsorted (hslept hasleep) hget)
  · rcases look_of_due _ old hdue with ⟨held, -, hlook⟩ | ⟨hnone, hlook⟩
    · rw [heq, hlook] at hasleep
      cases hasleep
    · rw [hlook] at heq
      subst heq
      exact hnone value hget

theorem wakeful_run (steps : List (RegistryStep β)) : Wakeful (run steps) := by
  induction steps using List.reverseRecOn with
  | nil => exact fun _ _ hwaiter => absurd hwaiter (by simp [run, empty])
  | append_singleton steps step ih =>
      rw [run_concat]
      exact ih.next (sorted_run steps) step

/-- A waiter that has been given a value had a turn in which the value was registered under its name. -/
theorem exists_poll_of_served (steps : List (RegistryStep β)) {index : Nat} {waiter : Waiter β}
    {value : β waiter.kind} (hwaiter : (run steps).waiters[index]? = some waiter)
    (hserved : waiter.state = .served value) :
    ∃ before after, steps = before ++ .poll index :: after ∧
      (run before).waiters[index]? = some { waiter with state := .due } ∧
      Registered before waiter.name ⟨waiter.kind, value⟩ := by
  induction steps using List.reverseRecOn with
  | nil => exact absurd hwaiter (by simp [run, empty])
  | append_singleton steps step ih =>
      rw [run_concat] at hwaiter
      rcases getElem?_next_cases hwaiter with hdue | ⟨hsame, -⟩ | ⟨rfl, old, hold, hdue, heq⟩
      · rw [hdue] at hserved
        cases hserved
      · obtain ⟨before, after, rfl, hrest⟩ := ih hsame
        exact ⟨before, after ++ [step], by simp, hrest⟩
      · rcases look_of_due _ old hdue with ⟨held, hget, hlook⟩ | ⟨-, hlook⟩
        · rw [hlook] at heq
          subst heq
          obtain rfl := WaitState.served.inj hserved
          refine ⟨steps, [], rfl, ?_, (get?_run_iff _ _ _).1 hget⟩
          rw [hold, ← hdue]
        · rw [hlook] at heq
          subst heq
          cases hserved

end Waiters

section Waiting

/-- What changes make of a registry. -/
def applyAll (registry : Registry β) (changes : List (Nat × RegistryChange β)) : Registry β :=
  changes.foldl (fun registry change => registry.apply change.2) registry

/-- Some first changes of a list are those up to the end of a time before a limit. -/
def Ends (changes : List (Nat × RegistryChange β)) (limit : Nat)
    (before : List (Nat × RegistryChange β)) (time : Nat) : Prop :=
  ∃ after, changes = before ++ after ∧ before.getLast?.map (·.1) = some time ∧
    after.head?.map (·.1) ≠ some time ∧ ∀ change ∈ before, change.1 < limit

theorem not_ends_nil {limit : Nat} {before : List (Nat × RegistryChange β)} {time : Nat} :
    ¬Ends [] limit before time := by
  rintro ⟨after, hchanges, hlast, -⟩
  obtain ⟨rfl, -⟩ := List.append_eq_nil_iff.1 hchanges.symm
  cases hlast

/-- The first change ends its time, or some later one does. -/
theorem ends_cons_iff {moment : Nat} {change : RegistryChange β}
    {rest before : List (Nat × RegistryChange β)} {limit time : Nat} :
    Ends ((moment, change) :: rest) limit before time ↔
      moment < limit ∧ ∃ others, before = (moment, change) :: others ∧
        (others = [] ∧ time = moment ∧ rest.head?.map (·.1) ≠ some moment ∨
          Ends rest limit others time) := by
  constructor
  · rintro ⟨after, hchanges, hlast, hnext, hbelow⟩
    cases before with
    | nil => cases hlast
    | cons first others =>
        obtain ⟨rfl, rfl⟩ := List.cons.inj hchanges
        refine ⟨hbelow _ List.mem_cons_self, others, rfl, ?_⟩
        cases others with
        | nil =>
            obtain rfl : moment = time := Option.some.inj hlast
            exact .inl ⟨rfl, rfl, hnext⟩
        | cons second others =>
            rw [List.getLast?_cons_cons] at hlast
            exact .inr ⟨after, rfl, hlast, hnext,
              fun later hlater => hbelow later (List.mem_cons_of_mem _ hlater)⟩
  · rintro ⟨hbelow, others, rfl, ⟨rfl, rfl, hnext⟩ | ⟨after, rfl, hlast, hnext, hothers⟩⟩
    · refine ⟨rest, rfl, rfl, hnext, fun later hlater => ?_⟩
      rw [List.mem_singleton.1 hlater]
      exact hbelow
    · refine ⟨after, rfl, ?_, hnext, fun later hlater => ?_⟩
      · cases others with
        | nil => cases hlast
        | cons second others => rwa [List.getLast?_cons_cons]
      · rcases List.mem_cons.1 hlater with rfl | hlater
        · exact hbelow
        · exact hothers later hlater

/-- What is registered in the end does not depend on who waits. -/
theorem entries_applyAll {registry other : Registry β} (h : registry.entries = other.entries)
    (changes : List (Nat × RegistryChange β)) :
    (registry.applyAll changes).entries = (other.applyAll changes).entries := by
  induction changes generalizing registry other with
  | nil => exact h
  | cons change changes ih =>
      apply ih
      obtain ⟨time, change⟩ := change
      cases change with
      | register name item => exact congrArg (Dict.insert · name item) h
      | unregister name => exact congrArg (Dict.erase · name) h

/-- A waiter has not been given a value yet. -/
def Waits (registry : Registry β) (index : Nat) (name : String) (kind : κ) : Prop :=
  ∃ state, registry.waiters[index]? = some ⟨name, kind, state⟩ ∧ (state = .due ∨ state = .asleep)

variable {registry : Registry β} {index : Nat} {name : String} {kind : κ}

theorem Waits.apply (h : Waits registry index name kind) (change : RegistryChange β) :
    Waits (registry.apply change) index name kind := by
  obtain ⟨state, hwaiter, hstate⟩ := h
  cases change with
  | register other item =>
      refine ⟨.due, ?_, .inl rfl⟩
      have hwoken : (registry.waiters.map Waiter.wake)[index]? =
          some (Waiter.wake ⟨name, kind, state⟩) := by
        rw [List.getElem?_map, hwaiter, Option.map_some]
      rcases hstate with rfl | rfl <;> exact hwoken
  | unregister other => exact ⟨state, hwaiter, hstate⟩

/-- What a waiter has been given while changes happen: the value that is registered for it at the end
of some time before the limit, or else no such value is registered at the end of any time. -/
def Serves (registry : Registry β) (name : String) (kind : κ) (limit : Nat)
    (changes : List (Nat × RegistryChange β)) : Option (β kind × Nat) → Prop
  | some (value, time) => ∃ before, Ends changes limit before time ∧
      Dict.get? (registry.applyAll before).entries name = some ⟨kind, value⟩
  | none => ∀ before time value, Ends changes limit before time →
      Dict.get? (registry.applyAll before).entries name ≠ some ⟨kind, value⟩

theorem Serves.congr {other : Registry β} {limit : Nat} {changes : List (Nat × RegistryChange β)}
    {result : Option (β kind × Nat)} (h : Serves registry name kind limit changes result)
    (hentries : registry.entries = other.entries) :
    Serves other name kind limit changes result := by
  cases result with
  | some result =>
      obtain ⟨before, hends, hget⟩ := h
      exact ⟨before, hends, entries_applyAll hentries before ▸ hget⟩
  | none =>
      intro before time value hends
      rw [← entries_applyAll hentries before]
      exact h before time value hends

/-- Where a waiter is not served at the first of the changes, it is served by the rest. -/
theorem Serves.cons {moment limit : Nat} {change : RegistryChange β}
    {rest : List (Nat × RegistryChange β)} {result : Option (β kind × Nat)}
    (h : Serves (registry.apply change) name kind limit rest result) (hmoment : moment < limit)
    (hunserved : rest.head?.map (·.1) = some moment ∨
      ∀ value, Dict.get? (registry.apply change).entries name ≠ some ⟨kind, value⟩) :
    Serves registry name kind limit ((moment, change) :: rest) result := by
  cases result with
  | some result =>
      obtain ⟨before, hends, hget⟩ := h
      exact ⟨_, ends_cons_iff.2 ⟨hmoment, before, rfl, .inr hends⟩, hget⟩
  | none =>
      intro before time value hends
      obtain ⟨-, others, rfl, ⟨rfl, rfl, hnext⟩ | hothers⟩ := ends_cons_iff.1 hends
      · exact hunserved.resolve_left hnext value
      · exact h others time value hothers

variable [DecidableEq κ]

theorem answer?_of_getElem? {waiter : Waiter β} (h : registry.waiters[index]? = some waiter) :
    registry.answer? index kind = waiter.answer? kind := by
  rw [answer?, h, Option.bind_some]

/-- A turn gives a waiter the value that is registered, or there is none and it waits on. -/
theorem poll_cases (hwakeful : Wakeful registry) (h : Waits registry index name kind) :
    (∃ value, Dict.get? registry.entries name = some ⟨kind, value⟩ ∧
        (registry.poll index).answer? index kind = some value) ∨
      (∀ value, Dict.get? registry.entries name ≠ some ⟨kind, value⟩) ∧
        (registry.poll index).answer? index kind = none ∧
        Waits (registry.poll index) index name kind := by
  obtain ⟨state, hwaiter, hstate⟩ := h
  have hpolled : (registry.poll index).waiters[index]? =
      some (Waiter.look registry.entries ⟨name, kind, state⟩) := by
    rw [poll, List.getElem?_modify_eq, hwaiter]
    rfl
  rcases hstate with rfl | rfl
  · rcases look_of_due registry.entries ⟨name, kind, .due⟩ rfl with
      ⟨value, hget, hlook⟩ | ⟨hnone, hlook⟩
    · rw [hlook] at hpolled
      refine .inl ⟨value, hget, ?_⟩
      rw [answer?_of_getElem? hpolled]
      exact itemAs?_self kind value
    · rw [hlook] at hpolled
      refine .inr ⟨hnone, ?_, .asleep, hpolled, .inr rfl⟩
      rw [answer?_of_getElem? hpolled]
      rfl
  · refine .inr ⟨hwakeful index _ hwaiter rfl, ?_, .asleep, hpolled, .inr rfl⟩
    rw [answer?_of_getElem? hpolled]
    rfl

/-- A waiter is served as soon as a value is registered for it at the end of a time, by induction on
the changes: at each of them it waits and is not asleep beside a value. -/
theorem serves_serve (limit : Nat) (changes : List (Nat × RegistryChange β))
    (hsorted : Dict.Sorted registry.entries) (hwakeful : Wakeful registry)
    (hwaits : Waits registry index name kind) :
    Serves registry name kind limit changes (serve index kind limit changes registry) := by
  induction changes generalizing registry with
  | nil => exact fun _ _ _ hends => absurd hends not_ends_nil
  | cons first rest ih =>
      obtain ⟨moment, change⟩ := first
      have hsorted' := sorted_apply hsorted change
      have hwakeful' : Wakeful (registry.apply change) := hwakeful.next hsorted (.edit change)
      have hwaits' := hwaits.apply change
      rw [serve]
      split
      · next hlimit =>
        intro before time value hends
        exact absurd (ends_cons_iff.1 hends).1 (Nat.not_lt.2 hlimit)
      next hlimit =>
      have hmoment := Nat.lt_of_not_le hlimit
      have hsame : rest.head?.any (·.1 = moment) = true ↔ rest.head?.map (·.1) = some moment := by
        cases rest.head? <;> simp
      dsimp only
      split
      · next hany =>
        exact (ih hsorted' hwakeful' hwaits').cons hmoment (.inl (hsame.1 hany))
      next hany =>
      have hends : rest.head?.map (·.1) ≠ some moment := fun h => hany (hsame.2 h)
      rcases poll_cases hwakeful' hwaits' with ⟨value, hget, hanswer⟩ | ⟨hnone, hanswer, hwaits''⟩
      · rw [hanswer]
        exact ⟨_, ends_cons_iff.2 ⟨hmoment, [], rfl, .inl ⟨rfl, rfl, hends⟩⟩, hget⟩
      · rw [hanswer]
        apply Serves.cons _ hmoment (.inr hnone)
        have hpolled : Wakeful ((registry.apply change).poll index) :=
          hwakeful'.next hsorted' (.poll index)
        have hkept : Dict.Sorted ((registry.apply change).poll index).entries := hsorted'
        exact (ih hkept hpolled hwaits'').congr rfl

/-- What one who begins to wait after some steps is answered while changes happen: a value that is
registered for it when it looks, or that its time is over and no value is registered whenever it
looks. It looks before the first change and at the end of each time before the limit. -/
def Answers (steps : List (RegistryStep β)) (name : String) (kind : κ) (limit : Nat)
    (changes : List (Nat × RegistryChange β)) : Except Timeout (β kind × Nat) → Prop
  | .ok (value, time) => ∃ before, (before = [] ∧ time = 0 ∨ Ends changes limit before time) ∧
      Registered (steps ++ before.map fun change => .edit change.2) name ⟨kind, value⟩
  | .error timeout => timeout = ⟨name, limit⟩ ∧
      ∀ before time value, (before = [] ∧ time = 0 ∨ Ends changes limit before time) →
        ¬Registered (steps ++ before.map fun change => .edit change.2) name ⟨kind, value⟩

theorem get?_applyAll_run_iff (steps : List (RegistryStep β))
    (changes : List (Nat × RegistryChange β)) (name : String) (item : Sigma β) :
    Dict.get? ((run steps).applyAll changes).entries name = some item ↔
      Registered (steps ++ changes.map fun change => .edit change.2) name item := by
  rw [← get?_run_iff, run, run, List.foldl_append, List.foldl_map]
  rfl

/-- One who waits is answered with what is registered for it, and is not kept waiting beside it. -/
theorem answers_wait (steps : List (RegistryStep β)) (name : String) (kind : κ) (limit : Nat)
    (changes : List (Nat × RegistryChange β)) :
    Answers steps name kind limit changes ((run steps).wait name kind limit changes).1 := by
  have hsorted := sorted_run steps
  have hwakeful : Wakeful ((run steps).join name kind) :=
    (wakeful_run steps).next hsorted (.join name kind)
  have hwaits : Waits ((run steps).join name kind) (run steps).waiters.length name kind :=
    ⟨.due, List.getElem?_concat_length, .inl rfl⟩
  rw [wait]
  dsimp only
  rcases poll_cases hwakeful hwaits with ⟨value, hget, hanswer⟩ | ⟨hnone, hanswer, hjoined⟩
  · rw [hanswer]
    exact ⟨[], .inl ⟨rfl, rfl⟩, (get?_applyAll_run_iff steps [] name _).1 hget⟩
  have hpolled : Wakeful (((run steps).join name kind).poll (run steps).waiters.length) :=
    hwakeful.next hsorted (.poll _)
  have hkept : Dict.Sorted
      (((run steps).join name kind).poll (run steps).waiters.length).entries := hsorted
  have hserves : Serves (run steps) name kind limit changes (serve (run steps).waiters.length kind
      limit changes (((run steps).join name kind).poll (run steps).waiters.length)) :=
    (serves_serve limit changes hkept hpolled hjoined).congr rfl
  rw [hanswer]
  cases hresult : serve (run steps).waiters.length kind limit changes
      (((run steps).join name kind).poll (run steps).waiters.length) with
  | some result =>
      rw [hresult] at hserves
      obtain ⟨before, hends, hget⟩ := hserves
      exact ⟨before, .inr hends, (get?_applyAll_run_iff steps before name _).1 hget⟩
  | none =>
      rw [hresult] at hserves
      refine ⟨rfl, fun before time value hbefore hregistered => ?_⟩
      have hget := (get?_applyAll_run_iff steps before name _).2 hregistered
      rcases hbefore with ⟨rfl, -⟩ | hends
      · exact hnone value hget
      · exact hserves before time value hends hget

/-- No wake-up is lost. After any steps nobody is asleep who waits for a value that is registered.
Whoever has been given a value had a turn at which it was registered under its own name with its own
type, and waiting until a limit fails only where no such value is there when the waiter looks. -/
theorem wakeful_and_faithful (steps : List (RegistryStep β)) :
    (∀ (index : Nat) (waiter : Waiter β), (run steps).waiters[index]? = some waiter →
      waiter.state = .asleep → ∀ value, ¬Registered steps waiter.name ⟨waiter.kind, value⟩) ∧
    (∀ (index : Nat) (waiter : Waiter β) (value : β waiter.kind),
      (run steps).waiters[index]? = some waiter → waiter.state = .served value →
      ∃ before after, steps = before ++ .poll index :: after ∧
        (run before).waiters[index]? = some { waiter with state := .due } ∧
        Registered before waiter.name ⟨waiter.kind, value⟩) ∧
    ∀ (name : String) (kind : κ) (limit : Nat) (changes : List (Nat × RegistryChange β)),
      Answers steps name kind limit changes ((run steps).wait name kind limit changes).1 := by
  refine ⟨fun index waiter hwaiter hasleep value hregistered => ?_,
    fun _ _ _ => exists_poll_of_served steps, answers_wait steps⟩
  exact wakeful_run steps index waiter hwaiter hasleep value ((get?_run_iff _ _ _).2 hregistered)

end Waiting

end Registry

end Waymark
