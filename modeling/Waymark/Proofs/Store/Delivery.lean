import Waymark.Proofs.Store.Binding
/-!
Which elements a call of a bound store writes to, and in which order.

A call goes to the store at most once. What it changes there is told to the elements bound to the
keys that are concerned, key by key and in the order in which they have been bound, each of them
once and with the value now stored, of which it then holds what it makes of it. The element that a
change comes from is left out.
-/

namespace Waymark.Store.Bindable

open Waymark.Json

/-- The keys whose elements are to be told of a write. -/
def toldKeys (state : Bindable) (write : Write) (answer : Except Error Changes) : List String :=
  match answer with
  | .error _ => []
  | .ok changes =>
      if state.mode = .oneWayReverse then []
      else
        match write with
        | .set _ _ options =>
            if options.silent then [] else (Dict.keys state.bindings).filter changes.touches
        | .remove _ => (Dict.keys state.bindings).filter changes.touches
        | .merge _ => (Dict.keys state.bindings).filter changes.touches
        | .clear => Dict.keys state.bindings
        | .replace _ => Dict.keys state.bindings

/-- For each key, one tagged write of the value that a store holds there to each of the elements
bound to the key, apart from the source. -/
def shownEvents (state : Bindable) (store : Core) (keys : List String) (source : Option Nat) :
    List BindingEvent :=
  keys.flatMap fun key =>
    ((state.boundTo key).filter fun element => some element ≠ source).map fun element =>
      .shown element ((store.get? key).getD .null) true true

/-- A call writes to the store once and then to the elements that are concerned, and to no other.
Each of them holds afterwards what it makes of the value at its key, the others what they held. -/
structure Delivers (state : Bindable) (write : Write) (source : Option Nat)
    (answer : Except Error Changes) (after : Bindable) : Prop where
  answered : answer = ((state.final source write).apply state.store).1
  stored : after.store = ((state.final source write).apply state.store).2
  inKeyOrder : (Dict.keys state.bindings).Pairwise (· < ·)
  journal : ∃ front, (∀ event ∈ front, event.IsTransformed) ∧
    after.journal = state.journal ++ front ++ .stored (state.final source write) ::
      state.shownEvents after.store (state.toldKeys write answer) source
  shows : ∀ key ∈ state.toldKeys write answer, ∀ element ∈ state.boundTo key,
    some element ≠ source → ∃ e, state.elements[element]? = some e ∧
      after.elements[element]? =
        some { e with value := e.shown ((after.store.get? key).getD .null) }
  spared : ∀ element, (source = some element ∨
      ∀ key ∈ state.toldKeys write answer, element ∉ state.boundTo key) →
    after.elements[element]? = state.elements[element]?

/-- An element is bound to a key. -/
def BoundAt (state : Bindable) (key : String) (element : Nat) : Prop :=
  ∃ binding, Dict.get? state.bindings key = some binding ∧
    ∃ bound ∈ binding.elements, bound.element = element

/-- What a user does to an element goes to the key that it is bound to, with the element as source.
It stays with the element if it is tagged, if the element is not bound, or if the store does not
listen. -/
structure Takes (state : Bindable) (element : Nat) (value : Value) (fromStore : Bool)
    (after : Bindable) : Prop where
  unheard : (fromStore = true ∨ state.mode = .oneWay ∨ ∀ key, ¬state.BoundAt key element) →
    after = state.modify element fun e => { e with value }
  heard : ∀ key, fromStore = false → state.mode ≠ .oneWay → state.BoundAt key element →
    ∃ answer, (state.modify element fun e => { e with value }).Delivers
      (.set key value .standard) (some element) answer after

section Telling

variable {state : Bindable}

theorem toldKeys_final (state : Bindable) (source : Option Nat) (write : Write)
    (answer : Except Error Changes) :
    state.toldKeys (state.final source write) answer = state.toldKeys write answer := by
  cases write <;> rfl

/-- Where a store takes a new tree, or loses all fields, every key is told. -/
theorem toldChanges_clear {core : Core} {changes : Changes}
    (h : (Write.clear.apply core).1 = .ok changes) : changes = .everything := by
  cases core with
  | layered layers => cases h
  | plain store =>
      change (store.clear).1 = .ok changes at h
      rw [Store.clear, Store.ifWritable] at h
      split at h
      · cases h
      · exact (Except.ok.inj h).symm

theorem targets_of_isEmpty {changes : Changes} (h : changes.isEmpty = true) (source : Option Nat) :
    state.targets changes source = [] := by
  cases changes with
  | everything => cases h
  | keys values =>
      rw [List.isEmpty_iff.1 h, targets, List.filter_eq_nil_iff.2]
      · rfl
      · intro entry _ htouches
        cases htouches

/-- Where the store writes to elements, it writes to the targets of what is told. -/
theorem entailed_eq_targets (hwrites : state.mode.writesElements = true) (write : Write)
    (changes : Changes) (source : Option Nat) :
    state.entailed write (.ok changes) source =
      state.targets (toldChanges write changes) source := by
  rw [entailed]
  split
  · next hempty =>
    rw [targets_of_isEmpty (by simpa [hwrites] using hempty)]
  · rfl

/-- What is told of changes is told key by key. -/
theorem map_targets (state : Bindable) (changes : Changes) (source : Option Nat) :
    (state.targets changes source).map (fun (element, value) =>
        BindingEvent.shown element value true true) =
      state.shownEvents state.store ((Dict.keys state.bindings).filter changes.touches) source := by
  rw [targets, shownEvents, Dict.keys, List.filter_map, List.flatMap_map, List.map_flatMap]
  simp only [List.map_map]
  rfl

/-- The keys that are told are those that the changes touch which elements are told of. -/
theorem toldKeys_eq (state : Bindable) {write : Write} {core : Core} {changes : Changes}
    (hanswer : (write.apply core).1 = .ok changes) (hwrites : state.mode.writesElements = true) :
    state.toldKeys write (.ok changes) =
      (Dict.keys state.bindings).filter (toldChanges write changes).touches := by
  have hmode : state.mode ≠ .oneWayReverse := by simpa [BindingMode.writesElements] using hwrites
  have hall : (Dict.keys state.bindings).filter Changes.everything.touches =
      Dict.keys state.bindings := List.filter_eq_self.2 fun _ _ => rfl
  cases write with
  | set key value options =>
      simp only [toldKeys, if_neg hmode, toldChanges]
      cases options.silent with
      | false => rfl
      | true => exact (List.filter_eq_nil_iff.2 fun _ _ => by simp [Changes.touches, Changes.none]).symm
  | remove key => simp only [toldKeys, if_neg hmode, toldChanges]
  | merge value => simp only [toldKeys, if_neg hmode, toldChanges]
  | clear =>
      simp only [toldKeys, if_neg hmode, toldChanges]
      rw [toldChanges_clear hanswer, hall]
  | replace value =>
      simp only [toldKeys, if_neg hmode, toldChanges]
      exact hall.symm

/-- The writes to elements are those to the elements of the keys that are told. -/
theorem map_entailed (state : Bindable) {write : Write} {core : Core}
    {answer : Except Error Changes} (hanswer : (write.apply core).1 = answer)
    (source : Option Nat) :
    (state.entailed write answer source).map (fun (element, value) =>
        BindingEvent.shown element value true true) =
      state.shownEvents state.store (state.toldKeys write answer) source := by
  cases answer with
  | error error => rfl
  | ok changes =>
      cases hwrites : state.mode.writesElements with
      | false =>
          have hmode : state.mode = .oneWayReverse := by
            simpa [BindingMode.writesElements] using hwrites
          simp [entailed, toldKeys, hmode, shownEvents, BindingMode.writesElements]
      | true => rw [toldKeys_eq state hanswer hwrites, ← map_targets, entailed_eq_targets hwrites]

/-- What is written to elements is, for each key that is told, the value there to each element of
the key apart from the source. -/
theorem mem_entailed_iff (state : Bindable) {write : Write} {core : Core}
    {answer : Except Error Changes} (hanswer : (write.apply core).1 = answer)
    {source : Option Nat} {target : Nat × Value} :
    target ∈ state.entailed write answer source ↔
      ∃ key ∈ state.toldKeys write answer, target.1 ∈ state.boundTo key ∧
        some target.1 ≠ source ∧ target.2 = (state.store.get? key).getD .null := by
  have hevent : target ∈ state.entailed write answer source ↔
      .shown target.1 target.2 true true ∈
        state.shownEvents state.store (state.toldKeys write answer) source := by
    rw [← map_entailed state hanswer source, List.mem_map]
    constructor
    · exact fun htarget => ⟨target, htarget, rfl⟩
    · rintro ⟨other, hother, heq⟩
      obtain ⟨helement, hvalue, -, -⟩ := BindingEvent.shown.inj heq
      exact Prod.ext helement hvalue ▸ hother
  rw [hevent]
  simp only [shownEvents, List.mem_flatMap, List.mem_map, List.mem_filter, decide_eq_true_eq]
  constructor
  · rintro ⟨key, hkey, element, ⟨hbound, hsource⟩, heq⟩
    obtain ⟨rfl, hvalue, -, -⟩ := BindingEvent.shown.inj heq
    exact ⟨key, hkey, hbound, hsource, hvalue.symm⟩
  · rintro ⟨key, hkey, hbound, hsource, hvalue⟩
    exact ⟨key, hkey, target.1, ⟨hbound, hsource⟩, by rw [hvalue]⟩

end Telling

section Calls

variable {state : Bindable}

theorem mem_boundTo_iff {key : String} {element : Nat} :
    element ∈ state.boundTo key ↔ state.BoundAt key element ∧ state.isLive element = true := by
  rw [boundTo, BoundAt]
  cases hbinding : Dict.get? state.bindings key with
  | none => simp
  | some binding => simp

/-- An element is bound to a key where it has a place there. -/
theorem boundAt_iff (hsorted : Dict.Sorted state.bindings) {key : String} {element : Nat} :
    state.BoundAt key element ↔ ∃ bound, (key, bound) ∈ places state.bindings element := by
  constructor
  · rintro ⟨binding, hbinding, bound, hbound, helement⟩
    exact ⟨bound, mem_places_iff.2 ⟨binding, Dict.mem_of_get? hbinding, hbound, helement⟩⟩
  · rintro ⟨bound, hplace⟩
    obtain ⟨binding, hbinding, hbound, helement⟩ := mem_places_iff.1 hplace
    exact ⟨binding, Dict.get?_of_mem hsorted hbinding, bound, hbound, helement⟩

/-- A bound element has a place at its key, and only there. -/
theorem Coherent.exists_places_eq (h : Coherent state) {element : Nat} {key : String}
    (hbound : state.BoundAt key element) :
    ∃ bound, places state.bindings element = [(key, bound)] := by
  obtain ⟨bound, hplace⟩ := (boundAt_iff h.sorted).1 hbound
  have honce := h.once element
  cases hplaces : places state.bindings element with
  | nil =>
      rw [hplaces] at hplace
      exact absurd hplace List.not_mem_nil
  | cons place rest =>
      rw [hplaces] at hplace honce
      obtain rfl := List.length_eq_zero_iff.1 (Nat.le_zero.1 (Nat.le_of_succ_le_succ honce))
      obtain rfl := List.mem_singleton.1 hplace
      exact ⟨bound, rfl⟩

/-- An element is bound to one key at most. -/
theorem Coherent.key_unique (h : Coherent state) {element : Nat} {key other : String}
    (hbound : state.BoundAt key element) (hother : state.BoundAt other element) : other = key := by
  obtain ⟨bound, hplaces⟩ := h.exists_places_eq hbound
  obtain ⟨bound', hplaces'⟩ := h.exists_places_eq hother
  exact congrArg (·.1) (List.singleton_inj.1 (hplaces'.symm.trans hplaces))

/-- What is written to elements once a write has gone to the store. -/
theorem mem_entailed_stored_iff (state : Bindable) (write : Write) (source : Option Nat)
    {target : Nat × Value} :
    target ∈ (state.stored source write).entailed (state.final source write)
        ((state.final source write).apply state.store).1 source ↔
      ∃ key ∈ state.toldKeys write ((state.final source write).apply state.store).1,
        target.1 ∈ state.boundTo key ∧ some target.1 ≠ source ∧
          target.2 = ((state.stored source write).store.get? key).getD .null := by
  obtain ⟨front, -, hstored⟩ := exists_stored state source write
  rw [mem_entailed_iff _ rfl, ← toldKeys_final state source write, hstored]
  rfl

/-- Every write of a store whose elements pass tags on delivers. -/
theorem Coherent.exists_delivers (h : Coherent state) (depth : Nat) (write : Write)
    (source : Option Nat) :
    ∃ answer after, state.writeWithin depth write source = some (answer, after) ∧
      state.Delivers write source answer after := by
  obtain ⟨front, htransformed, hstored⟩ := exists_stored state source write
  refine ⟨_, _, write_eq h.passTags (intake depth) write source, rfl, ?_, ?_, ?_, ?_, ?_⟩
  · rw [store_showAll, hstored]
  · exact List.pairwise_map.2 h.sorted
  · refine ⟨front, htransformed, ?_⟩
    rw [journal_showAll, map_entailed _ rfl, store_showAll, ← toldKeys_final state source write,
      hstored, List.append_assoc _ [_]]
    rfl
  · intro key hkey element hbound hsource
    obtain ⟨hplace, hlive⟩ := mem_boundTo_iff.1 hbound
    obtain ⟨e, he, -⟩ := exists_of_isLive hlive
    have hkept : (state.stored source write).elements[element]? = some e := by
      rw [hstored]
      exact he
    refine ⟨e, he, ?_⟩
    rw [store_showAll]
    apply getElem?_showAll_of_mem hkept
    · exact (mem_entailed_stored_iff state write source).2 ⟨key, hkey, hbound, hsource, rfl⟩
    · rintro target htarget rfl
      obtain ⟨other, -, hother, -, hvalue⟩ :=
        (mem_entailed_stored_iff state write source).1 htarget
      -- An element is told of one key only, so all it is told is the value there.
      obtain rfl := h.key_unique hplace (mem_boundTo_iff.1 hother).1
      exact hvalue
  · intro element hspared
    rw [getElem?_showAll, hstored]
    rintro target htarget rfl
    obtain ⟨key, hkey, hbound, hsource, -⟩ :=
      (mem_entailed_stored_iff state write source).1 htarget
    rcases hspared with hsame | hnowhere
    · exact hsource hsame.symm
    · exact hnowhere key hkey hbound

/-- Where the store listens, a bound element has one listener, and it takes changes to the key that
the element is bound to. -/
theorem Coherent.exists_listener (h : Coherent state) {element : Nat} {key : String} {e : Element}
    (he : state.elements[element]? = some e) (hbound : state.BoundAt key element)
    (hmode : state.mode ≠ .oneWay) : ∃ listener, e.listeners = [(listener, key)] := by
  obtain ⟨bound, hplaces⟩ := h.exists_places_eq hbound
  have hlistens := h.listens element (key, bound) (hplaces ▸ List.mem_singleton_self _)
  rw [show state.mode.listens = true by simpa [BindingMode.listens] using hmode] at hlistens
  obtain ⟨listener, hlistener⟩ := Option.isSome_iff_exists.1 hlistens
  refine ⟨listener, ?_⟩
  have hlistener' : bound.listener = some listener := hlistener
  rw [h.listeners element e he, hplaces]
  simp [listenerOf, hlistener']

/-- Where the store does not listen, or an element is not bound, nothing hears its changes. -/
theorem Coherent.listeners_eq_nil (h : Coherent state) {element : Nat} {e : Element}
    (he : state.elements[element]? = some e)
    (hunheard : state.mode = .oneWay ∨ ∀ key, ¬state.BoundAt key element) : e.listeners = [] := by
  rw [h.listeners element e he]
  apply List.filterMap_eq_nil_iff.2
  intro place hplace
  rcases hunheard with hmode | hunbound
  · have hlistens := h.listens element place hplace
    rw [show state.mode.listens = false by simp [BindingMode.listens, hmode]] at hlistens
    have hnone : place.2.listener = none := by simpa using hlistens
    rw [listenerOf, hnone, Option.map_none]
  · exact absurd ((boundAt_iff h.sorted).2 ⟨place.2, hplace⟩) (hunbound place.1)

/-- Every user's change of a live element is taken. -/
theorem Coherent.exists_takes (h : Coherent state) (depth : Nat) {element : Nat}
    (hlive : state.isLive element = true) (value : Value) (fromStore : Bool) :
    ∃ after, state.input (depth + 1) element value fromStore = some after ∧
      state.Takes element value fromStore after := by
  obtain ⟨e, he, -⟩ := exists_of_isLive hlive
  -- Nothing hears a change that is tagged, of a store that does not listen or an unbound element.
  by_cases hunheard : fromStore = true ∨ state.mode = .oneWay ∨ ∀ key, ¬state.BoundAt key element
  · refine ⟨_, input_eq_of_unheard (depth + 1) state element value ?_, fun _ => rfl, ?_⟩
    · refine hunheard.imp id fun hunheard other hother => ?_
      exact h.listeners_eq_nil hother hunheard
    · intro key hheard hmode hbound
      rcases hunheard with htagged | hmode' | hunbound
      · rw [htagged] at hheard
        cases hheard
      · exact absurd hmode' hmode
      · exact absurd hbound (hunbound key)
  · obtain ⟨huntagged, hheard⟩ := not_or.1 hunheard
    obtain ⟨hmode, hbound⟩ := not_or.1 hheard
    obtain ⟨key, hbound⟩ := Classical.not_forall.1 hbound
    have hbound := Classical.not_not.1 hbound
    obtain ⟨listener, hlisteners⟩ := h.exists_listener he hbound hmode
    have hchanged : Coherent (state.modify element fun e => { e with value }) :=
      h.of_alike (alike_modify state element fun _ => rfl)
    obtain ⟨answer, after, hwrite, hdelivers⟩ :=
      hchanged.exists_delivers depth (.set key value .standard) (some element)
    have hinput := input_eq depth state he hlisteners value
    rw [← writeWithin, hwrite] at hinput
    rw [Bool.not_eq_true] at huntagged
    subst huntagged
    refine ⟨after, hinput, fun h => absurd h hunheard, ?_⟩
    intro other _ _ hother
    obtain rfl := h.key_unique hbound hother
    exact ⟨answer, hdelivers⟩

/-- In every state that is reached, every write and every user's change goes to the store once at
most and from there to exactly the elements that are concerned. -/
theorem delivers_of_reachable {Proper : Value → Prop} (h : Reachable Proper state) :
    (∀ (depth : Nat) (write : Write) (source : Option Nat), ∃ answer after,
      state.writeWithin depth write source = some (answer, after) ∧
        state.Delivers write source answer after) ∧
    ∀ (depth element : Nat) (value : Value) (fromStore : Bool), state.isLive element = true →
      ∃ after, state.input (depth + 1) element value fromStore = some after ∧
        state.Takes element value fromStore after :=
  ⟨h.coherent.exists_delivers, fun depth _ value fromStore hlive =>
    h.coherent.exists_takes depth hlive value fromStore⟩

end Calls

/-- A store with two elements at one of its keys. -/
def twins : Bindable :=
  let unbound := start (.plain ⟨.object [("a", .string "x")], false⟩) .twoWay
    [.plain .null, .plain .null]
  ((unbound.bindTo "a" 0 none).2.bindTo "a" 1 none).2

theorem reachable_twins : Reachable (fun _ => True) twins := by
  have hstore : (Core.plain ⟨.object [("a", .string "x")], false⟩).Holds fun _ => True := by
    refine ⟨fun _ _ _ => trivial, fun store hplain => ?_⟩
    rw [← Core.plain.inj hplain]
    rfl
  have hfresh : ∀ element ∈ [Element.plain .null, .plain .null], element.Fresh fun _ => True := by
    intro element helement
    simp only [List.mem_cons, List.not_mem_nil, or_false, or_self] at helement
    rw [helement]
    exact ⟨trivial, fun _ _ => trivial, rfl, rfl⟩
  have hstart := Reachable.start .twoWay hstore hfresh
  exact (hstart.bind rfl "a" (by simp)).bind rfl "a" (by simp)

/-- What a user does to one of two elements is shown by the other one, once. -/
theorem delivers_twins :
    ∃ after, twins.input 1 0 (.string "y") false = some after ∧
      twins.Takes 0 (.string "y") false after ∧
      after.journal = twins.journal ++
        [.stored (.set "a" (.string "y") .standard), .shown 1 (.string "y") true true] := by
  obtain ⟨after, hinput, htakes⟩ :=
    (delivers_of_reachable reachable_twins).2 0 0 (.string "y") false rfl
  have hjournal : (twins.input 1 0 (.string "y") false).map (·.journal) = some (twins.journal ++
      [.stored (.set "a" (.string "y") .standard), .shown 1 (.string "y") true true]) := by
    rfl
  rw [hinput] at hjournal
  exact ⟨after, hinput, htakes, Option.some.inj hjournal⟩

end Waymark.Store.Bindable
