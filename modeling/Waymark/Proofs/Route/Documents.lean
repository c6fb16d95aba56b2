import Waymark.Proofs.Except
import Waymark.Route.Navigation
/-!
Which documents a resolved URL carries.

An entry keeps a document together with the reference it was loaded from, and a navigation that loads
asks for the reference of the URL at hand. Resolving a URL hands out what the entry keeps without
asking: `fresh_iff_not_outdated` says when that is the document of the URL's own reference.
-/

namespace Waymark.Route

open Waymark.Json

/-- A loader whose documents depend on the reference alone. It may fail at any time. -/
structure Archive (σ : Type) where
  loader : Loader σ
  document : String → Value
  faithful : ∀ reference source answer,
    (loader reference source).1 = .ok answer → answer = document reference

/-- What is done with a navigator and its table. -/
inductive Action where
  | add (route : RouteDefinition) (prepend : Bool)
  | navigate (url : String)
  | resolve (url : String)

namespace Action

variable {σ : Type}

/-- The navigator and the source of documents after an action. -/
def next (loader : Loader σ) (state : Navigator × σ) : Action → Navigator × σ
  | .add route prepend =>
      match state.1.table.add route prepend with
      | .ok (_, table) => ({ state.1 with table }, state.2)
      | .error _ => state
  | .navigate url => (state.1.navigate url loader state.2).2
  | .resolve _ => state

/-- The navigator and the source of documents after actions on an empty table. -/
def run (loader : Loader σ) (options : Pattern.Options) (source : σ) (actions : List Action) :
    Navigator × σ :=
  actions.foldl (next loader) (.start (.empty options), source)

/-- The target that an action hands out as it was resolved, with nothing loaded for it. -/
def handedOut (loader : Loader σ) (state : Navigator × σ) : Action → Option Target
  | .add _ _ => none
  | .navigate url =>
      match (state.1.navigate url loader state.2).1 with
      | .ok (.reload visit) => some visit.target
      | _ => none
  | .resolve url =>
      match state.1.table.resolve url with
      | .ok resolution => resolution.target
      | .error _ => none

end Action

namespace Target

/-- The reference of a slot. -/
def reference? (target : Target) : Slot → Option String
  | .settings => target.settingsReference
  | .extender => target.extenderReference

/-- The document of a slot. -/
def document? (target : Target) : Slot → Option Value
  | .settings => target.settings
  | .extender => target.extender

/-- A document that a target carries in a slot is the one of the reference of the slot. -/
def Fresh (target : Target) (document : String → Value) (slot : Slot) : Prop :=
  ∀ held, target.document? slot = some held →
    ∃ reference, target.reference? slot = some reference ∧ held = document reference

end Target

/-- A reference is what the template of a slot says of the parameters of some URL. -/
def Entry.Refers (entry : Entry) (slot : Slot) (reference : String) : Prop :=
  ∃ url params template, entry.accept? url = some params ∧ entry.template? slot = some template ∧
    reference = interpolate template params

/-- The entry of a target keeps the document of another URL, and that is not the document of the
target's own reference. -/
def Table.Outdated (table : Table) (document : String → Value) (target : Target) (slot : Slot) :
    Prop :=
  ∃ entry loaded reference, table.entries[target.index]? = some entry ∧
    entry.loaded? slot = some loaded ∧ entry.Refers slot loaded.reference ∧
    target.reference? slot = some reference ∧
    document loaded.reference ≠ document reference

section Slots

variable {entry : Entry} {slot : Slot}

@[simp] theorem Entry.accept?_store (entry : Entry) (slot : Slot) (loaded : Loaded) (url : Url) :
    (entry.store slot loaded).accept? url = entry.accept? url := by
  cases slot <;> rfl

@[simp] theorem Entry.template?_store (entry : Entry) (slot other : Slot) (loaded : Loaded) :
    (entry.store slot loaded).template? other = entry.template? other := by
  cases slot <;> cases other <;> rfl

theorem Entry.refers_store_iff {loaded : Loaded} {other : Slot} {reference : String} :
    (entry.store slot loaded).Refers other reference ↔ entry.Refers other reference := by
  simp [Entry.Refers]

theorem Target.document?_ofEntry (index : Nat) (entry : Entry) (params : Pattern.Params)
    (slot : Slot) :
    (Target.ofEntry index entry params).document? slot =
      (entry.loaded? slot).map (·.document) := by
  cases slot <;> rfl

theorem Target.reference?_ofEntry (index : Nat) (entry : Entry) (params : Pattern.Params)
    (slot : Slot) :
    (Target.ofEntry index entry params).reference? slot =
      (entry.template? slot).map fun template => interpolate template params := by
  cases slot <;> rfl

end Slots

section Keeping

variable {σ : Type} {document : String → Value}

/-- What an entry keeps are the documents of references to it. -/
def Entry.Keeps (document : String → Value) (entry : Entry) : Prop :=
  ∀ slot loaded, entry.loaded? slot = some loaded →
    entry.Refers slot loaded.reference ∧ loaded.document = document loaded.reference

/-- A new entry has the matcher of its route, and nothing has been loaded for it. -/
theorem Entry.exists_of_ofRoute {options : Pattern.Options} {route : RouteDefinition}
    {entry : Entry} (h : Entry.ofRoute options route = .ok entry) :
    ∃ matcher origin, Pattern.Matcher.compile options route.spec.path.pathway = .ok matcher ∧
      entry = ⟨route, matcher, origin, none, none⟩ := by
  obtain ⟨matcher, hmatcher, h⟩ := bind_eq_ok_iff.1 h
  rw [mapError_eq_ok_iff] at hmatcher
  dsimp only at h
  split at h
  · exact ⟨matcher, _, hmatcher, (Except.ok.inj h).symm⟩
  · split at h
    · exact ⟨matcher, _, hmatcher, (Except.ok.inj h).symm⟩
    · exact absurd h (by simp [throw, throwThe, MonadExceptOf.throw, bind, Except.bind])

theorem Entry.loaded?_of_ofRoute {options : Pattern.Options} {route : RouteDefinition}
    {entry : Entry} (h : Entry.ofRoute options route = .ok entry) (slot : Slot) :
    entry.loaded? slot = none := by
  obtain ⟨matcher, origin, -, rfl⟩ := Entry.exists_of_ofRoute h
  cases slot <;> rfl

theorem Entry.keeps_of_ofRoute {options : Pattern.Options} {route : RouteDefinition}
    {entry : Entry} (h : Entry.ofRoute options route = .ok entry) : entry.Keeps document := by
  intro slot loaded hloaded
  rw [Entry.loaded?_of_ofRoute h slot] at hloaded
  cases hloaded

theorem Entry.Keeps.store {entry : Entry} (h : entry.Keeps document) {slot : Slot}
    {reference : String} (hrefers : entry.Refers slot reference) :
    (entry.store slot ⟨reference, document reference⟩).Keeps document := by
  intro other loaded hloaded
  rw [Entry.refers_store_iff]
  by_cases hslot : slot = other
  · subst hslot
    rw [Entry.loaded?_store_self] at hloaded
    obtain rfl := Option.some.inj hloaded
    exact ⟨hrefers, rfl⟩
  · rw [Entry.loaded?_store_of_ne entry _ hslot] at hloaded
    exact h other loaded hloaded

/-- Every entry of a table keeps documents of references to it. -/
def Table.Keeps (document : String → Value) (table : Table) : Prop :=
  ∀ entry ∈ table.entries, entry.Keeps document

/-- The entry at an index refers by a reference. -/
def Table.Refers (table : Table) (index : Nat) (slot : Slot) (reference : String) : Prop :=
  ∀ entry, table.entries[index]? = some entry → entry.Refers slot reference

theorem Table.position_le (table : Table) (prepend : Bool) :
    table.position prepend ≤ table.entries.length := by
  unfold position
  split
  · exact Nat.le_refl _
  · exact Nat.sub_le _ _

theorem Table.keeps_add {table table' : Table} {route : RouteDefinition} {prepend : Bool}
    {index : Nat} (h : table.Keeps document) (hadd : table.add route prepend = .ok (index, table')) :
    table'.Keeps document := by
  obtain ⟨entry, hentry, hadd⟩ := bind_eq_ok_iff.1 hadd
  obtain ⟨-, rfl⟩ := Prod.mk.inj (Except.ok.inj hadd)
  intro other hother
  rcases List.mem_insertIdx (table.position_le prepend) |>.1 hother with rfl | hother
  · exact Entry.keeps_of_ofRoute hentry
  · exact h other hother

/-- Loading leaves a table as it is, or stores the answer of the loader in one entry. -/
theorem Table.load_eq_or (table : Table) (slot : Slot) (index : Nat) (reference : String)
    (loader : Loader σ) (source : σ) :
    (∃ result rest, table.load slot index reference loader source = (result, table, rest)) ∨
      ∃ entry answer rest, table.entries[index]? = some entry ∧
        (loader reference source).1 = .ok answer ∧
        table.load slot index reference loader source = (.ok answer,
          { table with entries := table.entries.set index (entry.store slot ⟨reference, answer⟩) },
          rest) := by
  unfold Table.load
  cases hentry : table.entries[index]? with
  | none => exact .inl ⟨_, _, rfl⟩
  | some entry =>
      rcases hask : loader reference source with ⟨_ | answer, rest⟩
      · left
        dsimp only
        split
        · split <;> exact ⟨_, _, rfl⟩
        · exact ⟨_, _, rfl⟩
      · dsimp only
        split
        · split
          · exact .inl ⟨_, _, rfl⟩
          · exact .inr ⟨entry, answer, rest, rfl, rfl, rfl⟩
        · exact .inr ⟨entry, answer, rest, rfl, rfl, rfl⟩

theorem Table.load_cases (table : Table) (slot : Slot) (index : Nat) (reference : String)
    (loader : Loader σ) (source : σ) :
    (table.load slot index reference loader source).2.1 = table ∨
      ∃ entry answer, table.entries[index]? = some entry ∧
        (loader reference source).1 = .ok answer ∧
        (table.load slot index reference loader source).2.1 =
          { table with entries := table.entries.set index (entry.store slot ⟨reference, answer⟩) } := by
  rcases table.load_eq_or slot index reference loader source with
    ⟨result, rest, heq⟩ | ⟨entry, answer, rest, hentry, hanswer, heq⟩
  · left
    rw [heq]
  · right
    rw [heq]
    exact ⟨entry, answer, hentry, hanswer, rfl⟩

theorem Table.keeps_load (archive : Archive σ) {table : Table} (h : table.Keeps archive.document)
    {slot : Slot} {index : Nat} {reference : String} (hrefers : table.Refers index slot reference)
    (source : σ) :
    (table.load slot index reference archive.loader source).2.1.Keeps archive.document := by
  rcases table.load_cases slot index reference archive.loader source with
    heq | ⟨entry, answer, hentry, hanswer, heq⟩
  · rw [heq]
    exact h
  · rw [heq, archive.faithful reference source answer hanswer]
    intro other hother
    rcases List.mem_or_eq_of_mem_set hother with hother | rfl
    · exact h other hother
    · exact (h entry (List.mem_of_getElem? hentry)).store (hrefers entry hentry)

/-- Loading does not change how entries refer. -/
theorem Table.Refers.load {table : Table} {index : Nat} {slot other : Slot}
    {reference asked : String} (h : table.Refers index other reference) (loader : Loader σ)
    (source : σ) : (table.load slot index asked loader source).2.1.Refers index other reference := by
  rcases table.load_cases slot index asked loader source with
    heq | ⟨entry, answer, hentry, -, heq⟩
  · rw [heq]
    exact h
  · rw [heq]
    intro stored hstored
    have hlt : index < table.entries.length := (List.getElem?_eq_some_iff.1 hentry).1
    rw [List.getElem?_set_self hlt] at hstored
    obtain rfl := Option.some.inj hstored
    exact Entry.refers_store_iff.2 (h entry hentry)

end Keeping

section Resolving

variable {table : Table}

/-- A URL goes to an entry that accepts it. -/
theorem Table.find?_eq_some {url : Url} {index : Nat} {entry : Entry} {params : Pattern.Params}
    (h : table.find? url = some (index, entry, params)) :
    table.entries[index]? = some entry ∧ entry.accept? url = some params := by
  obtain ⟨⟨found, position⟩, hmem, hfound⟩ := List.exists_of_findSome?_eq_some h
  obtain ⟨accepted, haccepted, heq⟩ := Option.map_eq_some_iff.1 hfound
  obtain ⟨rfl, rfl, rfl⟩ : position = index ∧ found = entry ∧ accepted = params := by
    simpa using heq
  exact ⟨List.mem_zipIdx_iff_getElem?.1 (List.mem_reverse.1 hmem), haccepted⟩

theorem Table.target_of_resolve {text : String} {resolution : Resolution} {target : Target}
    (h : table.resolve text = .ok resolution) (htarget : resolution.target = some target) :
    ∃ index entry url params, table.entries[index]? = some entry ∧
      entry.accept? url = some params ∧ target = Target.ofEntry index entry params := by
  obtain ⟨url, -, h⟩ := bind_eq_ok_iff.1 h
  obtain rfl := Except.ok.inj h
  obtain ⟨⟨index, entry, params⟩, hfind, rfl⟩ := Option.map_eq_some_iff.1 htarget
  obtain ⟨hentry, haccept⟩ := Table.find?_eq_some hfind
  exact ⟨index, entry, url, params, hentry, haccept, rfl⟩

/-- The references of a target are those of its entry. -/
theorem Table.refers_of_resolve {text : String} {resolution : Resolution} {target : Target}
    (h : table.resolve text = .ok resolution) (htarget : resolution.target = some target)
    {slot : Slot} {reference : String} (hreference : target.reference? slot = some reference) :
    table.Refers target.index slot reference := by
  obtain ⟨index, entry, url, params, hentry, haccept, rfl⟩ := Table.target_of_resolve h htarget
  rw [Target.reference?_ofEntry] at hreference
  obtain ⟨template, htemplate, rfl⟩ := Option.map_eq_some_iff.1 hreference
  intro other hother
  obtain rfl : entry = other := Option.some.inj (hentry.symm.trans hother)
  exact ⟨url, params, template, haccept, htemplate, rfl⟩

end Resolving

section Running

variable {σ : Type} (archive : Archive σ)

theorem Navigator.keeps_loadReference {table : Table} (h : table.Keeps archive.document)
    {slot : Slot} {index : Nat} {reference : Option String}
    (hrefers : ∀ asked, reference = some asked → table.Refers index slot asked) (source : σ) :
    (loadReference table slot index reference archive.loader source).2.1.Keeps
      archive.document := by
  cases reference with
  | none => exact h
  | some asked => exact Table.keeps_load archive h (hrefers asked rfl) source

theorem Navigator.refers_loadReference {table : Table} {slot other : Slot} {index : Nat}
    {reference : String} (h : table.Refers index other reference) (asked : Option String)
    (source : σ) :
    (loadReference table slot index asked archive.loader source).2.1.Refers index other
      reference := by
  cases asked with
  | none => exact h
  | some asked => exact h.load archive.loader source

theorem Navigator.keeps_loadTarget {table : Table} (h : table.Keeps archive.document)
    {target : Target}
    (hrefers : ∀ slot reference, target.reference? slot = some reference →
      table.Refers target.index slot reference) (source : σ) :
    (loadTarget table target archive.loader source).2.1.Keeps archive.document := by
  have hsettings := keeps_loadReference archive h (hrefers .settings) source
  have hextender : ∀ reference, target.extenderReference = some reference →
      (loadReference table .settings target.index target.settingsReference archive.loader
        source).2.1.Refers target.index .extender reference := by
    intro reference hreference
    exact refers_loadReference archive (hrefers .extender reference hreference) _ source
  unfold loadTarget
  rcases hload : loadReference table .settings target.index target.settingsReference
    archive.loader source with ⟨_ | settings, between, rest⟩
  · rw [Target.reference?, hload] at hsettings
    exact hsettings
  · rw [Target.reference?, hload] at hsettings
    rw [hload] at hextender
    have hboth := keeps_loadReference archive hsettings hextender rest
    dsimp only at hboth ⊢
    rcases hagain : loadReference between .extender target.index target.extenderReference
      archive.loader rest with ⟨_ | extender, last, final⟩
    · rw [hagain] at hboth
      exact hboth
    · rw [hagain] at hboth
      exact hboth

theorem Navigator.keeps_navigate {navigator : Navigator}
    (h : navigator.table.Keeps archive.document) (url : String) (source : σ) :
    (navigator.navigate url archive.loader source).2.1.table.Keeps archive.document := by
  unfold navigate
  rcases hresolve : navigator.table.resolve url with _ | ⟨location, _ | target⟩
  · exact h
  · exact h
  · dsimp only
    split
    · exact h
    · have hload := keeps_loadTarget archive h
        (fun slot reference => Table.refers_of_resolve hresolve rfl) source
      rcases heq : loadTarget navigator.table target archive.loader source with
        ⟨_ | loaded, table, rest⟩
      · rw [heq] at hload
        exact hload
      · rw [heq] at hload
        exact hload

theorem Action.keeps_next {state : Navigator × σ} (h : state.1.table.Keeps archive.document)
    (action : Action) : (action.next archive.loader state).1.table.Keeps archive.document := by
  cases action with
  | add route prepend =>
      rw [next]
      rcases hadd : state.1.table.add route prepend with _ | ⟨index, table⟩
      · exact h
      · exact Table.keeps_add h hadd
  | navigate url => exact Navigator.keeps_navigate archive h url state.2
  | resolve url => exact h

/-- However a table came about, its entries keep documents of references to them. -/
theorem Action.keeps_run (options : Pattern.Options) (source : σ) (actions : List Action) :
    (run archive.loader options source actions).1.table.Keeps archive.document := by
  unfold run
  have hstart : (Navigator.start (.empty options)).table.Keeps archive.document := by
    intro entry hentry
    exact absurd hentry List.not_mem_nil
  generalize Navigator.start (.empty options) = navigator at hstart
  induction actions generalizing navigator source with
  | nil => exact hstart
  | cons action actions ih => exact ih _ _ (keeps_next archive hstart action)

/-- What an action hands out was resolved against the table as it is. -/
theorem Action.exists_resolve {loader : Loader σ} {state : Navigator × σ} {action : Action}
    {target : Target} (h : action.handedOut loader state = some target) :
    ∃ url resolution, state.1.table.resolve url = .ok resolution ∧
      resolution.target = some target := by
  cases action with
  | add route prepend => exact absurd h (by simp [handedOut])
  | resolve url =>
      rw [handedOut] at h
      rcases hresolve : state.1.table.resolve url with _ | resolution
      · rw [hresolve] at h
        exact absurd h (by simp)
      · rw [hresolve] at h
        exact ⟨url, resolution, hresolve, h⟩
  | navigate url =>
      rw [handedOut, Navigator.navigate] at h
      rcases hresolve : state.1.table.resolve url with _ | ⟨location, _ | found⟩
      · rw [hresolve] at h
        exact absurd h (by simp)
      · rw [hresolve] at h
        exact absurd h (by simp)
      · rw [hresolve] at h
        dsimp only at h
        by_cases hleaves : state.1.leaves found = true
        · rw [if_pos hleaves] at h
          exact ⟨url, _, hresolve, h⟩
        · rw [if_neg hleaves] at h
          -- Documents are loaded, so the answer is no reload.
          rcases hload : Navigator.loadTarget state.1.table found loader state.2 with
            ⟨_ | loaded, table, rest⟩
          · rw [hload] at h
            exact absurd h (by simp)
          · rw [hload] at h
            exact absurd h (by simp)

/-- A target that is handed out as it was resolved carries the document of its own reference, unless
its entry keeps that of another URL. -/
theorem Action.fresh_iff_not_outdated {options : Pattern.Options} {source : σ}
    {actions : List Action} {action : Action} {target : Target}
    (h : action.handedOut archive.loader (run archive.loader options source actions) = some target)
    (slot : Slot) :
    target.Fresh archive.document slot ↔
      ¬ (run archive.loader options source actions).1.table.Outdated archive.document target
        slot := by
  obtain ⟨url, resolution, hresolve, htarget⟩ := exists_resolve h
  obtain ⟨index, entry, accepted, params, hentry, haccept, rfl⟩ :=
    Table.target_of_resolve hresolve htarget
  have hkeeps := keeps_run archive options source actions entry (List.mem_of_getElem? hentry)
  constructor
  · rintro hfresh ⟨other, loaded, reference, hother, hloaded, -, hreference, hne⟩
    obtain rfl : entry = other := Option.some.inj (hentry.symm.trans hother)
    obtain ⟨-, hdocument⟩ := hkeeps slot loaded hloaded
    have hheld : (Target.ofEntry index entry params).document? slot = some loaded.document := by
      rw [Target.document?_ofEntry, hloaded]
      rfl
    obtain ⟨own, hown, heq⟩ := hfresh loaded.document hheld
    obtain rfl : own = reference := Option.some.inj (hown.symm.trans hreference)
    exact hne (hdocument.symm.trans heq)
  · intro hcurrent held hheld
    rw [Target.document?_ofEntry] at hheld
    obtain ⟨loaded, hloaded, rfl⟩ := Option.map_eq_some_iff.1 hheld
    obtain ⟨hrefers, hdocument⟩ := hkeeps slot loaded hloaded
    -- What the entry keeps was loaded by way of its template, so the target has a reference too.
    obtain ⟨_, _, template, -, htemplate, -⟩ := id hrefers
    have hreference : (Target.ofEntry index entry params).reference? slot =
        some (interpolate template params) := by
      rw [Target.reference?_ofEntry, htemplate]
      rfl
    refine ⟨_, hreference, ?_⟩
    refine Classical.byContradiction fun hne => hcurrent ?_
    refine ⟨entry, loaded, _, hentry, hloaded, hrefers, hreference, ?_⟩
    rw [← hdocument]
    exact hne

end Running

section Users

/-- Each reference has its own name as its document. -/
def ownNames : Archive Unit where
  loader reference source := (.ok (.string reference), source)
  document := .string
  faithful _ _ _ h := (Except.ok.inj h).symm

/-- A route for users whose settings depend on the user. -/
def userRoute : RouteDefinition :=
  ⟨"User", ⟨.one "/:id", none, none, some "$\x7bid\x7d", none, none⟩⟩

/-- Once the page of one user has been visited, the next user is handed that user's settings. -/
theorem not_fresh_nextUser :
    ∃ target, Action.handedOut ownNames.loader
        (Action.run ownNames.loader .standard () [.add userRoute false, .navigate "/1"])
        (.resolve "/2") = some target ∧ ¬ target.Fresh ownNames.document .settings := by
  let state := Action.run ownNames.loader .standard () [.add userRoute false, .navigate "/1"]
  have hhanded : (Action.handedOut ownNames.loader state (.resolve "/2")).map
      (fun target => (target.index, target.settingsReference)) = some (0, some "2") := by
    decide +kernel
  have hkept : (state.1.table.entries[0]?.bind (·.settings)).map (·.reference) = some "1" := by
    decide +kernel
  obtain ⟨target, htarget, hparts⟩ := Option.map_eq_some_iff.1 hhanded
  obtain ⟨hindex, hreference⟩ := Prod.mk.inj hparts
  obtain ⟨loaded, hloaded, hone⟩ := Option.map_eq_some_iff.1 hkept
  obtain ⟨entry, hentry, hsettings⟩ := Option.bind_eq_some_iff.1 hloaded
  obtain ⟨hrefers, -⟩ := Action.keeps_run ownNames .standard () _ entry
    (List.mem_of_getElem? hentry) .settings loaded hsettings
  refine ⟨target, htarget, fun hfresh => ?_⟩
  refine (Action.fresh_iff_not_outdated ownNames htarget .settings).1 hfresh ?_
  refine ⟨entry, loaded, "2", ?_, hsettings, hrefers, hreference, ?_⟩
  · rw [hindex]
    exact hentry
  · rw [hone]
    simp [ownNames]

end Users

end Waymark.Route
