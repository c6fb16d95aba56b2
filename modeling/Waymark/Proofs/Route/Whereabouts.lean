import Waymark.Proofs.Route.Documents
/-!
Where a navigator is.

A navigator is where the last navigation has led that was answered with a route; URLs that lead nowhere
and navigations that fail leave it there. To a route of another name it goes without asking for a
document, and of a navigation that fails nothing is left but the settings that were loaded for it. It
stops at one of five places, each with its answer (`Navigator.Stops`,
`Action.current_and_moves_foldl`).
-/

namespace Waymark.Route

open Waymark.Json

variable {σ : Type}

/-- A loader that takes note of the references that it is asked for. -/
def Loader.noting (loader : Loader σ) : Loader (σ × List String) :=
  fun reference (source, asked) =>
    let (answer, source) := loader reference source
    (answer, source, asked ++ [reference])

/-- The visit that the answer to a navigation carries. -/
def Navigation.visit? : Navigation → Option Visit
  | .unrouted _ => none
  | .reload visit => some visit
  | .update visit => some visit

namespace Action

/-- Where an action leads, if it is a navigation that is answered with a route. -/
def arrival? (loader : Loader σ) (state : Navigator × σ) : Action → Option Visit
  | .navigate url => (state.1.navigate url loader state.2).1.toOption.bind (·.visit?)
  | .add _ _ => none
  | .resolve _ => none

/-- Where actions lead one after another. -/
def arrivals (loader : Loader σ) (state : Navigator × σ) : List Action → List Visit
  | [] => []
  | action :: actions =>
      (action.arrival? loader state).toList ++ arrivals loader (action.next loader state) actions

end Action

/-- A table with a document put into the settings of an entry. -/
def Table.withSettings (table : Table) (index : Nat) (entry : Entry) (loaded : Loaded) : Table :=
  { table with entries := table.entries.set index (entry.store .settings loaded) }

/-- Where a navigation stops, with its answer and what it leaves. -/
inductive Navigator.Stops (navigator : Navigator) (loader : Loader σ) (source : σ) (url : String) :
    Except Error Navigation × Navigator × σ → Prop
  | badUrl {cause : Error} (hresolve : navigator.table.resolve url = .error cause) :
      Stops navigator loader source url (.error cause, navigator, source)
  | unrouted {location : Location}
      (hresolve : navigator.table.resolve url = .ok ⟨location, none⟩) :
      Stops navigator loader source url (.ok (.unrouted url), navigator, source)
  | reload {location : Location} {target : Target}
      (hresolve : navigator.table.resolve url = .ok ⟨location, some target⟩)
      (hleaves : navigator.leaves target = true) :
      Stops navigator loader source url
        (.ok (.reload ⟨location, target⟩), { navigator with current := some ⟨location, target⟩ },
          source)
  | notLoaded {location : Location} {target : Target} {cause : Error} {table : Table} {rest : σ}
      (hresolve : navigator.table.resolve url = .ok ⟨location, some target⟩)
      (hleaves : navigator.leaves target = false)
      (hload : loadTarget navigator.table target loader source = (.error cause, table, rest)) :
      Stops navigator loader source url (.error cause, { navigator with table }, rest)
  | update {location : Location} {target loaded : Target} {table : Table} {rest : σ}
      (hresolve : navigator.table.resolve url = .ok ⟨location, some target⟩)
      (hleaves : navigator.leaves target = false)
      (hload : loadTarget navigator.table target loader source = (.ok loaded, table, rest)) :
      Stops navigator loader source url
        (.ok (.update ⟨location, loaded⟩), ⟨table, some ⟨location, loaded⟩⟩, rest)

/-- How a navigator goes to a URL. -/
structure Navigator.Moves (navigator : Navigator) (loader : Loader σ) (source : σ) (url : String) :
    Prop where
  /-- The answer and what the navigation leaves are those of the place where it stops. -/
  stops : navigator.Stops loader source url (navigator.navigate url loader source)
  /-- Where a route accepts the URL, the answer is a reload exactly if there is a current route of
  another name. -/
  reloads : ∀ location target, navigator.table.resolve url = .ok ⟨location, some target⟩ →
    ((∃ visit, (navigator.navigate url loader source).1 = .ok (.reload visit)) ↔
      ∃ current, navigator.current = some current ∧ current.target.name ≠ target.name)
  /-- For a reload the loader is not asked for anything. -/
  asksNothing : ∀ visit asked, (navigator.navigate url loader source).1 = .ok (.reload visit) →
    navigator.navigate url loader.noting (source, asked) =
      (.ok (.reload visit), { navigator with current := some visit }, source, asked)
  /-- A navigation that fails leaves at most the settings of the entry that accepts the URL: the
  document that the loader has answered for the reference of the URL. -/
  fails : ∀ cause, (navigator.navigate url loader source).1 = .error cause →
    (navigator.navigate url loader source).2.1 = navigator ∨
      ∃ location target entry reference document,
        navigator.table.resolve url = .ok ⟨location, some target⟩ ∧
        navigator.table.entries[target.index]? = some entry ∧
        target.settingsReference = some reference ∧
        (loader reference source).1 = .ok document ∧
        (navigator.navigate url loader source).2.1 = { navigator with
          table := navigator.table.withSettings target.index entry ⟨reference, document⟩ }

section Loading

variable {table after : Table} {loader : Loader σ} {source rest : σ} {cause : Error}

/-- A document that cannot be loaded leaves the table as it is. -/
theorem Table.eq_of_load_error {slot : Slot} {index : Nat} {reference : String}
    (h : table.load slot index reference loader source = (.error cause, after, rest)) :
    after = table := by
  rcases table.load_eq_or slot index reference loader source with
    ⟨result, further, heq⟩ | ⟨entry, answer, further, -, -, heq⟩
  · rw [heq] at h
    exact (Prod.mk.inj (Prod.mk.inj h).2).1.symm
  · rw [heq] at h
    exact absurd (Prod.mk.inj h).1 (by simp)

theorem Navigator.eq_of_loadReference_error {slot : Slot} {index : Nat} {reference : Option String}
    (h : loadReference table slot index reference loader source = (.error cause, after, rest)) :
    after = table := by
  cases reference with
  | none => exact absurd (Prod.mk.inj h).1 (by simp)
  | some reference =>
      rcases hload : table.load slot index reference loader source with
        ⟨failure | document, between, further⟩
      · simp only [loadReference, hload] at h
        have heq : between = after := (Prod.mk.inj (Prod.mk.inj h).2).1
        rw [← heq]
        exact Table.eq_of_load_error hload
      · simp only [loadReference, hload] at h
        exact absurd (Prod.mk.inj h).1 (by simp [Except.map])

/-- Of the documents of a target that cannot all be loaded, a table keeps at most the settings. -/
theorem Navigator.eq_or_withSettings_of_loadTarget_error {target : Target}
    (h : loadTarget table target loader source = (.error cause, after, rest)) :
    after = table ∨
      ∃ entry reference document, table.entries[target.index]? = some entry ∧
        target.settingsReference = some reference ∧
        (loader reference source).1 = .ok document ∧
        after = table.withSettings target.index entry ⟨reference, document⟩ := by
  unfold loadTarget at h
  rcases hsettings : loadReference table .settings target.index target.settingsReference loader
    source with ⟨_ | settings, between, further⟩
  · -- The settings fail.
    rw [hsettings] at h
    have heq : between = after := (Prod.mk.inj (Prod.mk.inj h).2).1
    left
    rw [← heq]
    exact Navigator.eq_of_loadReference_error hsettings
  · rw [hsettings] at h
    dsimp only at h
    rcases hextender : loadReference between .extender target.index target.extenderReference
      loader further with ⟨_ | extender, last, final⟩
    · -- The extender fails after the settings.
      rw [hextender] at h
      have heq : last = after := (Prod.mk.inj (Prod.mk.inj h).2).1
      have hlast : last = between := Navigator.eq_of_loadReference_error hextender
      rw [← heq, hlast]
      cases hreference : target.settingsReference with
      | none =>
          left
          rw [hreference] at hsettings
          exact (Prod.mk.inj (Prod.mk.inj hsettings).2).1.symm
      | some reference =>
          have hbetween : (table.load .settings target.index reference loader source).2.1 =
              between := by
            rw [hreference] at hsettings
            exact (Prod.mk.inj (Prod.mk.inj hsettings).2).1
          rw [← hbetween]
          rcases table.load_cases .settings target.index reference loader source with
            hkept | ⟨entry, document, hentry, hanswer, hstored⟩
          · exact .inl hkept
          · exact .inr ⟨entry, reference, document, hentry, rfl, hanswer, hstored⟩
    · rw [hextender] at h
      exact absurd (Prod.mk.inj h).1 (by simp)

end Loading

section Going

variable {navigator : Navigator} {loader : Loader σ} {source : σ} {url : String}

theorem Navigator.leaves_iff {target : Target} : navigator.leaves target = true ↔
    ∃ current, navigator.current = some current ∧ current.target.name ≠ target.name := by
  unfold leaves
  cases navigator.current <;> simp

theorem Navigator.stops_navigate (navigator : Navigator) (loader : Loader σ) (source : σ)
    (url : String) :
    navigator.Stops loader source url (navigator.navigate url loader source) := by
  unfold navigate
  rcases hresolve : navigator.table.resolve url with cause | ⟨location, _ | target⟩
  · exact .badUrl hresolve
  · exact .unrouted hresolve
  · dsimp only
    cases hleaves : navigator.leaves target with
    | true => exact .reload hresolve hleaves
    | false =>
        rw [if_neg Bool.false_ne_true]
        rcases hload : loadTarget navigator.table target loader source with
          ⟨cause | loaded, table, rest⟩
        · exact .notLoaded hresolve hleaves hload
        · exact .update hresolve hleaves hload

theorem Navigator.moves (navigator : Navigator) (loader : Loader σ) (source : σ) (url : String) :
    navigator.Moves loader source url where
  stops := navigator.stops_navigate loader source url
  reloads := by
    intro location target hroute
    have hsame : ∀ {elsewhere : Location} {other : Target},
        navigator.table.resolve url = .ok ⟨elsewhere, some other⟩ → other = target := by
      intro elsewhere other hresolve
      have heq := Except.ok.inj (hresolve.symm.trans hroute)
      exact Option.some.inj (Resolution.mk.inj heq).2
    have hstops := navigator.stops_navigate loader source url
    generalize navigator.navigate url loader source = outcome at hstops
    rw [← leaves_iff]
    cases hstops with
    | badUrl hresolve => exact absurd (hroute.symm.trans hresolve) (by simp)
    | unrouted hresolve => exact absurd (hroute.symm.trans hresolve) (by simp)
    | reload hresolve hleaves =>
        rw [← hsame hresolve]
        exact ⟨fun _ => hleaves, fun _ => ⟨_, rfl⟩⟩
    | notLoaded hresolve hleaves hload =>
        rw [← hsame hresolve, hleaves]
        simp
    | update hresolve hleaves hload =>
        rw [← hsame hresolve, hleaves]
        simp
  asksNothing := by
    intro visit asked hreload
    have hstops := navigator.stops_navigate loader source url
    generalize navigator.navigate url loader source = outcome at hstops hreload
    cases hstops with
    | badUrl hresolve => exact absurd hreload (by simp)
    | unrouted hresolve => exact absurd hreload (by simp)
    | reload hresolve hleaves =>
        obtain rfl := Navigation.reload.inj (Except.ok.inj hreload)
        simp only [navigate, hresolve, hleaves, if_true]
    | notLoaded hresolve hleaves hload => exact absurd hreload (by simp)
    | update hresolve hleaves hload => exact absurd hreload (by simp)
  fails := by
    intro cause hfails
    have hstops := navigator.stops_navigate loader source url
    generalize navigator.navigate url loader source = outcome at hstops hfails
    cases hstops with
    | badUrl hresolve => exact .inl rfl
    | unrouted hresolve => exact absurd hfails (by simp)
    | reload hresolve hleaves => exact absurd hfails (by simp)
    | notLoaded hresolve hleaves hload =>
        rcases eq_or_withSettings_of_loadTarget_error hload with
          rfl | ⟨entry, reference, document, hentry, hreference, hanswer, rfl⟩
        · exact .inl rfl
        · exact .inr ⟨_, _, entry, reference, document, hresolve, hentry, hreference, hanswer, rfl⟩
    | update hresolve hleaves hload => exact absurd hfails (by simp)

/-- After an action a navigator is where the action has led, if it has led anywhere. -/
theorem Action.current_next (loader : Loader σ) (state : Navigator × σ) (action : Action) :
    (action.next loader state).1.current =
      (action.arrival? loader state).or state.1.current := by
  cases action with
  | add route prepend =>
      rw [next]
      cases state.1.table.add route prepend <;> rfl
  | navigate url =>
      have hstops := state.1.stops_navigate loader state.2 url
      rw [next, arrival?]
      generalize state.1.navigate url loader state.2 = outcome at hstops
      cases hstops <;> rfl
  | resolve url => rfl

/-- After actions a navigator is where they have led last, if they have led anywhere. -/
theorem Action.current_foldl (loader : Loader σ) (state : Navigator × σ) (actions : List Action) :
    (actions.foldl (next loader) state).1.current =
      (arrivals loader state actions).getLast?.or state.1.current := by
  induction actions generalizing state with
  | nil => rfl
  | cons action actions ih =>
      rw [List.foldl_cons, ih, current_next, arrivals, List.getLast?_append, Option.or_assoc]
      cases action.arrival? loader state <;> rfl

/-- After any actions on a table a navigator is where the last navigation has led that was answered
with a route, and this is how it goes on from there. -/
theorem Action.current_and_moves_foldl (table : Table) (loader : Loader σ) (source : σ)
    (actions : List Action) :
    (actions.foldl (next loader) (.start table, source)).1.current =
        (arrivals loader (.start table, source) actions).getLast? ∧
      ∀ url, (actions.foldl (next loader) (.start table, source)).1.Moves loader
        (actions.foldl (next loader) (.start table, source)).2 url := by
  constructor
  · rw [current_foldl]
    exact Option.or_none
  · intro url
    exact Navigator.moves _ loader _ url

/-- The page of a user has settings, but its extender is nowhere to be found. -/
example :
    let answer : Loader Unit := fun reference source =>
      if reference = "settings" then (.ok .null, source) else (.error "not found", source)
    let user : RouteDefinition :=
      ⟨"User", ⟨.one "/:id", none, none, some "settings", some "extender", none⟩⟩
    let navigator := ([.add user false, .navigate "/1"].foldl (Action.next answer)
      (.start (.empty .standard), ())).1
    navigator.current.isNone = true ∧
      navigator.table.entries.map (fun entry => (entry.settings.isSome, entry.extender.isSome)) =
        [(true, false)] := by
  decide +kernel

end Going

end Waymark.Route
