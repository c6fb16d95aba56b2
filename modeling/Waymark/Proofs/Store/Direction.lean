import Waymark.Proofs.Store.Delivery
/-!
The direction of a binding over whole runs.

The mode of a store decides in three places which way values go: where an element is bound, where it
gets the value there is, and where it is told of a write. Whatever is called, the journal of a store
has only events that its mode allows (`Reachable.follows`). An element is bound where it has been put
and not been taken off since, and what a user does to it is set once at the key that it is bound to or
stays with it (`directed_of_reachable`).
-/

namespace Waymark.Store

open Waymark.Json

/-- The mode allows the event: elements are written to only where values go to elements, and listened
to only where values come from elements. -/
def BindingEvent.Follows (mode : BindingMode) : BindingEvent → Prop
  | .shown .. => mode ≠ .oneWayReverse
  | .listened .. => mode ≠ .oneWay
  | _ => True

/-- The event tells that the store is written to. -/
def BindingEvent.isStored : BindingEvent → Bool
  | .stored _ => true
  | _ => false

namespace Bindable

/-- The values that the elements hold. -/
def values (state : Bindable) : List Value :=
  state.elements.map (·.value)

/-- What is set at a key where a user gives an element a value: the value itself, or what the
transform of the key makes of it. -/
def taken (state : Bindable) (key : String) (value : Value) : Value :=
  match (Dict.get? state.bindings key).bind (·.transform) with
  | none => value
  | some transform => transform.apply value key (some value)

/-- Between two states a store has been written to once. -/
structure StoresOnce (state : Bindable) (write : Write) (after : Bindable) : Prop where
  journal : ∃ events, after.journal = state.journal ++ events ∧
    events.filter (·.isStored) = [.stored write]
  store : after.store = (write.apply state.store).2

/-- Binding puts an element at a key and moves no other. It is refused where the key is blank or the
element is marked, and then nothing changes. -/
structure Binds (state : Bindable) (key : String) (element : Nat) (answer : Except Error Bool)
    (after : Bindable) : Prop where
  answered : answer = .ok true ↔ (Unicode.trim key).isEmpty = false ∧
    ∀ e, state.elements[element]? = some e → e.marked = false
  puts : answer = .ok true → ∀ other index,
    after.BoundAt other index ↔ state.BoundAt other index ∨ other = key ∧ index = element
  refused : answer ≠ .ok true → after = state

/-- Unbinding takes an element off its key and moves no other. At a key that the element is not bound
to, nothing changes. -/
structure Unbinds (state : Bindable) (key : String) (element : Nat) (answer : Bool)
    (after : Bindable) : Prop where
  answered : answer = true ↔ state.BoundAt key element
  takesOff : answer = true → ∀ other index,
    after.BoundAt other index ↔ state.BoundAt other index ∧ index ≠ element
  refused : answer = false → after = state

/-- Values go between a store and its elements only the way its mode says. An element is bound by
binding it and until it is unbound, and what a user does to it meanwhile is set at its key, or else
stays with the element. -/
structure Directed (state : Bindable) : Prop where
  unwritten : state.mode = .oneWayReverse → ∀ element value triggers fromStore,
    .shown element value triggers fromStore ∉ state.journal
  unmoved : state.mode = .oneWayReverse →
    (∀ key element transform, (state.bindTo key element transform).2.values = state.values) ∧
    ∀ depth write source answer after,
      state.writeWithin depth write source = some (answer, after) → after.values = state.values
  unheard : state.mode = .oneWay →
    (∀ element listener, .listened element listener ∉ state.journal) ∧
    ∀ element ∈ state.elements, element.listeners = []
  binds : ∀ key element transform, state.isLive element = true →
    state.Binds key element (state.bindTo key element transform).1
      (state.bindTo key element transform).2
  unbinds : ∀ key element, state.isLive element = true →
    state.Unbinds key element (state.unbind key element).1 (state.unbind key element).2
  stays : ∀ depth element value fromStore, state.isLive element = true →
    (fromStore = true ∨ state.mode = .oneWay ∨ ∀ key, ¬state.BoundAt key element) →
    state.input depth element value fromStore = some (state.modify element fun e => { e with value })
  sets : ∀ depth element key value, state.isLive element = true → state.mode ≠ .oneWay →
    state.BoundAt key element →
    ∃ after, state.input (depth + 1) element value false = some after ∧
      state.StoresOnce (.set key (state.taken key value) .standard) after

section Journal

variable {state after : Bindable}

/-- All that has happened is allowed by the mode. -/
def Follows (state : Bindable) : Prop :=
  ∀ event ∈ state.journal, event.Follows state.mode

/-- A step that keeps the mode adds events that it allows. -/
structure Proceeds (state after : Bindable) : Prop where
  mode : after.mode = state.mode
  journal : ∃ events, after.journal = state.journal ++ events ∧
    ∀ event ∈ events, event.Follows state.mode

theorem Proceeds.refl (state : Bindable) : Proceeds state state :=
  ⟨rfl, [], by simp, by simp⟩

theorem Proceeds.trans {last : Bindable} (h : Proceeds state after) (hnext : Proceeds after last) :
    Proceeds state last := by
  obtain ⟨events, hevents, hfollow⟩ := h.journal
  obtain ⟨others, hothers, hfollow'⟩ := hnext.journal
  refine ⟨hnext.mode.trans h.mode, events ++ others, ?_, ?_⟩
  · rw [hothers, hevents, List.append_assoc]
  · intro event hevent
    rcases List.mem_append.1 hevent with hfirst | hsecond
    · exact hfollow event hfirst
    · rw [← h.mode]
      exact hfollow' event hsecond

/-- An event may be entered after what is neither seen in the mode nor in the journal. -/
theorem proceeds_record {changed : Bindable} {event : BindingEvent}
    (hmode : changed.mode = state.mode) (hjournal : changed.journal = state.journal)
    (hevent : event.Follows state.mode) : Proceeds state (changed.record event) := by
  refine ⟨hmode, [event], ?_, by simpa using hevent⟩
  rw [← hjournal]
  rfl

theorem Follows.of_proceeds (h : Follows state) (hproceeds : Proceeds state after) :
    Follows after := by
  obtain ⟨events, hevents, hfollow⟩ := hproceeds.journal
  intro event hevent
  rw [hevents] at hevent
  rw [hproceeds.mode]
  rcases List.mem_append.1 hevent with hbefore | hnew
  · exact h event hbefore
  · exact hfollow event hnew

theorem proceeds_mark (state : Bindable) (element : Nat) (bound : Bool) :
    Proceeds state (state.mark element bound) :=
  proceeds_record rfl rfl trivial

/-- A listener is put on an element only where the store listens. -/
theorem proceeds_listen (key : String) (element : Nat) (hmode : state.mode.listens = true) :
    Proceeds state (state.listen key element).2 := by
  rw [Bindable.listen]
  cases state.elements[element]? with
  | none => exact Proceeds.refl state
  | some e =>
      have hlistens : state.mode ≠ .oneWay := of_decide_eq_true hmode
      exact proceeds_record rfl rfl hlistens

/-- An element is written to only where the store writes to elements. -/
theorem proceeds_put (element : Nat) (value : Value) (triggers fromStore : Bool)
    (hmode : state.mode.writesElements = true) :
    Proceeds state (state.put element value triggers fromStore) := by
  have hwrites : state.mode ≠ .oneWayReverse := of_decide_eq_true hmode
  exact proceeds_record rfl rfl hwrites

theorem values_modify (state : Bindable) (element : Nat) {change : Element → Element}
    (h : ∀ e, (change e).value = e.value) : (state.modify element change).values = state.values :=
  map_modify_of_eq (fun e : Element => e.value) change h state.elements element

theorem values_listen (state : Bindable) (key : String) (element : Nat) :
    (state.listen key element).2.values = state.values := by
  rw [Bindable.listen]
  cases state.elements[element]? with
  | none => rfl
  | some e => exact values_modify state element fun _ => rfl

/-- Binding does nothing, or does all but give the element the value there is, which changes no
value, and then gives it. -/
theorem exists_bound (state : Bindable) (key : String) (element : Nat)
    (transform : Option Transform) :
    (state.bindTo key element transform).2 = state ∨
      ∃ bound, Proceeds state bound ∧ bound.values = state.values ∧
        (state.bindTo key element transform).2 = match bound.store.get? key with
          | some value => if bound.mode.writesElements then bound.put element value false true else bound
          | none => bound := by
  rw [Bindable.bindTo]
  split
  · exact .inl rfl
  split
  · exact .inl rfl
  have hmark := proceeds_mark state element true
  have hvalues : (state.mark element true).values = state.values :=
    values_modify state element fun _ => rfl
  dsimp only
  generalize hheard : (if (state.mark element true).mode.listens = true then
    (state.mark element true).listen key element else (none, state.mark element true)) = heard
  have hboth : Proceeds state heard.2 ∧ heard.2.values = state.values := by
    rw [← hheard]
    split
    · next hlistens =>
      exact ⟨hmark.trans (proceeds_listen key element hlistens),
        (values_listen _ key element).trans hvalues⟩
    · exact ⟨hmark, hvalues⟩
  let old := (Dict.get? heard.2.bindings key).getD ⟨[], none⟩
  let binding : Binding := ⟨old.elements ++ [⟨element, heard.1⟩], transform.or old.transform⟩
  exact .inr ⟨{ heard.2 with bindings := Dict.insert heard.2.bindings key binding },
    ⟨hboth.1.mode, hboth.1.journal⟩, hboth.2, rfl⟩

theorem proceeds_bindTo (state : Bindable) (key : String) (element : Nat)
    (transform : Option Transform) : Proceeds state (state.bindTo key element transform).2 := by
  rcases exists_bound state key element transform with hsame | ⟨bound, hbound, -, heq⟩
  · rw [hsame]
    exact Proceeds.refl state
  · rw [heq]
    split
    · split
      · next hwrites => exact hbound.trans (proceeds_put element _ false true hwrites)
      · exact hbound
    · exact hbound

theorem proceeds_unbind (state : Bindable) (key : String) (element : Nat) :
    Proceeds state (state.unbind key element).2 := by
  rw [Bindable.unbind]
  split
  · exact Proceeds.refl state
  split
  · exact Proceeds.refl state
  · dsimp only
    apply Proceeds.trans _ (proceeds_mark _ element false)
    split
    · exact proceeds_record rfl rfl trivial
    · exact ⟨rfl, [], (List.append_nil _).symm, by simp⟩

theorem proceeds_stored (state : Bindable) (source : Option Nat) (write : Write) :
    Proceeds state (state.stored source write) := by
  obtain ⟨front, htransformed, hstored⟩ := exists_stored state source write
  refine ⟨congrArg (·.mode) hstored, front ++ [.stored (state.final source write)], ?_, ?_⟩
  · rw [hstored, List.append_assoc]
  · intro event hevent
    rcases List.mem_append.1 hevent with hfront | hlast
    · obtain ⟨name, key, value, hasSource, rfl⟩ := htransformed event hfront
      trivial
    · rw [List.mem_singleton.1 hlast]
      trivial

theorem proceeds_showAll (hmode : state.mode.writesElements = true) (targets : List (Nat × Value)) :
    Proceeds state (state.showAll targets) := by
  induction targets generalizing state with
  | nil => exact Proceeds.refl state
  | cons target targets ih =>
      exact (proceeds_put target.1 target.2 true true hmode).trans (ih hmode)

/-- Where the store does not write to elements, nothing is entailed. -/
theorem entailed_eq_nil (hmode : state.mode = .oneWayReverse) (write : Write)
    (answer : Except Error Changes) (source : Option Nat) :
    state.entailed write answer source = [] := by
  cases answer with
  | error error => rfl
  | ok changes =>
      apply if_pos
      simp [hmode, BindingMode.writesElements]

/-- Elements are told of a write only where the store writes to elements. -/
theorem proceeds_write (hpass : state.PassTags) {intake : Intake} {write : Write}
    {source : Option Nat} {answer : Except Error Changes}
    (h : Bindable.write intake state write source = some (answer, after)) :
    Proceeds state after := by
  rw [write_eq hpass] at h
  obtain ⟨-, rfl⟩ := Prod.mk.inj (Option.some.inj h)
  have hstored := proceeds_stored state source write
  apply hstored.trans
  by_cases hmode : (state.stored source write).mode = .oneWayReverse
  · rw [entailed_eq_nil hmode]
    exact Proceeds.refl _
  · exact proceeds_showAll (by simpa [BindingMode.writesElements] using hmode) _

/-- By induction on how often the listeners of the element make the store write. -/
theorem proceeds_input (hpass : state.PassTags) {depth element : Nat} {value : Value}
    {fromStore : Bool} (h : state.input depth element value fromStore = some after) :
    Proceeds state after := by
  have halike : Alike state (state.modify element fun e => { e with value }) :=
    alike_modify state element fun _ => rfl
  have hchanged : Proceeds state (state.modify element fun e => { e with value }) :=
    ⟨rfl, [], (List.append_nil _).symm, by simp⟩
  have hkept : after.PassTags ∧ Proceeds state after := by
    refine @input_induction state (fun next => next.PassTags ∧ Proceeds state next) depth element
      value fromStore after ?_ ⟨halike.passTags hpass, hchanged⟩ h
    rintro current next intake e key answer ⟨hpass, hproceeds⟩ - hwrite
    exact ⟨(alike_write hpass _ _ _ hwrite).passTags hpass,
      hproceeds.trans (proceeds_write hpass hwrite)⟩
  exact hkept.2

/-- Whatever is called, the mode allows all that happens. -/
theorem Reachable.follows {Proper : Value → Prop} (h : Reachable Proper state) :
    Follows state := by
  induction h with
  | start mode _ _ => exact fun _ hevent => absurd hevent List.not_mem_nil
  | bind _ _ key _ ih => exact ih.of_proceeds (proceeds_bindTo _ key _ _)
  | unbind _ _ key ih => exact ih.of_proceeds (proceeds_unbind _ key _)
  | write hreached _ hwrite ih =>
      exact ih.of_proceeds (proceeds_write hreached.coherent.passTags hwrite)
  | input hreached _ _ hinput ih =>
      exact ih.of_proceeds (proceeds_input hreached.coherent.passTags hinput)
  | drop _ _ ih => exact ih
  | mark _ _ ih => exact ih.of_proceeds (proceeds_mark _ _ _)
  | relayer _ _ _ ih => exact ih

end Journal

section Binding

variable {state : Bindable} {element : Nat}

theorem bindTo_eq_ok_true_iff (state : Bindable) (key : String) (element : Nat)
    (transform : Option Transform) :
    (state.bindTo key element transform).1 = .ok true ↔
      (Unicode.trim key).isEmpty = false ∧
        ∀ e, state.elements[element]? = some e → e.marked = false := by
  rw [Bindable.bindTo]
  split
  · next hblank => simp [hblank]
  · next hkey =>
    cases state.elements[element]? with
    | none => simp [hkey]
    | some e => cases hmarked : e.marked <;> simp [hkey, hmarked]

theorem unbind_eq_true_iff (state : Bindable) (key : String) (element : Nat) :
    (state.unbind key element).1 = true ↔ state.BoundAt key element := by
  rw [Bindable.unbind, BoundAt]
  cases Dict.get? state.bindings key with
  | none => simp
  | some binding =>
      have hfound : (binding.elements.find? (·.element = element)).isSome ↔
          ∃ bound ∈ binding.elements, bound.element = element := by
        simp
      cases hbound : binding.elements.find? (·.element = element) with
      | none => simpa [hbound] using hfound
      | some bound => simpa [hbound] using hfound

theorem Alike.boundAt_iff {after : Bindable} (h : Alike state after) {key : String} :
    after.BoundAt key element ↔ state.BoundAt key element := by
  rw [BoundAt, BoundAt, h.bindings]

/-- An element that is attached is bound to its key, and the others are bound as before. -/
theorem Attaches.boundAt_iff {after : Bindable} {key : String} {listener : Option Nat}
    {e held : Element} (h : state.Attaches after key element listener e held)
    (hsorted : Dict.Sorted state.bindings) (hnone : places state.bindings element = [])
    {other : String} {index : Nat} :
    after.BoundAt other index ↔ state.BoundAt other index ∨ other = key ∧ index = element := by
  rw [Bindable.boundAt_iff hsorted, Bindable.boundAt_iff (h.sorted hsorted)]
  by_cases heq : index = element
  · subst heq
    rw [h.places_self hsorted hnone, hnone]
    simp
  · rw [h.places_of_ne hsorted heq]
    simp [heq]

/-- An element that is detached is bound to no key, and the others are bound as before. -/
theorem Detaches.boundAt_iff {after : Bindable} {key : String} {binding : Binding} {bound : Bound}
    {e held : Element} (h : state.Detaches after key binding bound e held)
    (hsorted : Dict.Sorted state.bindings)
    (honce : (places state.bindings bound.element).length ≤ 1) {other : String} {index : Nat} :
    after.BoundAt other index ↔ state.BoundAt other index ∧ index ≠ bound.element := by
  rw [Bindable.boundAt_iff hsorted, Bindable.boundAt_iff (h.sorted hsorted)]
  by_cases heq : index = bound.element
  · subst heq
    rw [(h.places_self hsorted honce).2]
    simp
  · rw [h.places_of_ne hsorted heq]
    simp [heq]

theorem Coherent.binds (h : Coherent state) (hlive : state.isLive element = true) (key : String)
    (transform : Option Transform) :
    state.Binds key element (state.bindTo key element transform).1
      (state.bindTo key element transform).2 := by
  obtain ⟨e, he, -⟩ := exists_of_isLive hlive
  refine ⟨bindTo_eq_ok_true_iff state key element transform, ?_, ?_⟩
  · intro hanswer other index
    rcases bindTo_cases he key transform with
      ⟨hrefused, -⟩ | ⟨-, hmarked, _, _, _, hattach, halike⟩
    · exact absurd hanswer hrefused
    · rw [halike.boundAt_iff]
      exact hattach.boundAt_iff h.sorted (h.marked element e he hmarked)
  · intro hrefused
    rcases bindTo_cases he key transform with ⟨-, hsame⟩ | ⟨hanswer, -⟩
    · exact hsame
    · exact absurd hanswer hrefused

theorem Coherent.unbinds (h : Coherent state) (hlive : state.isLive element = true)
    (key : String) :
    state.Unbinds key element (state.unbind key element).1 (state.unbind key element).2 := by
  obtain ⟨e, he, -⟩ := exists_of_isLive hlive
  have hanswered := unbind_eq_true_iff state key element
  refine ⟨hanswered, ?_, ?_⟩
  · intro hanswer other index
    rcases unbind_cases he key with ⟨hrefused, -⟩ | ⟨binding, bound, held, rfl, hdetach⟩
    · rw [hrefused] at hanswer
      cases hanswer
    · exact hdetach.boundAt_iff h.sorted (h.once bound.element)
  · intro hrefused
    rcases unbind_cases he key with ⟨-, hsame⟩ | ⟨binding, bound, held, rfl, hdetach⟩
    · exact hsame
    · rw [hanswered.2 ⟨binding, hdetach.lookup, bound, hdetach.mem, rfl⟩] at hrefused
      cases hrefused

end Binding

section Direction

variable {state after : Bindable}

/-- A store that does not write to elements changes no value where an element is bound. -/
theorem values_bindTo (hmode : state.mode = .oneWayReverse) (key : String) (element : Nat)
    (transform : Option Transform) :
    (state.bindTo key element transform).2.values = state.values := by
  rcases exists_bound state key element transform with hsame | ⟨bound, hbound, hvalues, heq⟩
  · rw [hsame]
  · have hwrites : bound.mode.writesElements = false := by
      rw [hbound.mode, hmode]
      rfl
    rw [heq, ← hvalues]
    split
    · rw [hwrites]
      rfl
    · rfl

/-- A store that does not write to elements changes no value where it is written to. -/
theorem values_write (hpass : state.PassTags) (hmode : state.mode = .oneWayReverse)
    {intake : Intake} {write : Write} {source : Option Nat} {answer : Except Error Changes}
    (h : Bindable.write intake state write source = some (answer, after)) :
    after.values = state.values := by
  rw [write_eq hpass] at h
  obtain ⟨-, rfl⟩ := Prod.mk.inj (Option.some.inj h)
  obtain ⟨front, -, hstored⟩ := exists_stored state source write
  have hmode' : (state.stored source write).mode = .oneWayReverse :=
    (congrArg (·.mode) hstored).trans hmode
  rw [entailed_eq_nil hmode', showAll_nil, hstored]
  rfl

/-- A delivered write is the only write to the store. -/
theorem Delivers.storesOnce {write : Write} {source : Option Nat} {answer : Except Error Changes}
    (h : state.Delivers write source answer after) :
    state.StoresOnce (state.final source write) after := by
  obtain ⟨front, htransformed, hjournal⟩ := h.journal
  refine ⟨⟨_, by rw [hjournal, List.append_assoc], ?_⟩, h.stored⟩
  have hfront : front.filter (·.isStored) = [] := by
    apply List.filter_eq_nil_iff.2
    intro event hevent
    obtain ⟨name, key, value, hasSource, rfl⟩ := htransformed event hevent
    simp [BindingEvent.isStored]
  have hshown : ∀ keys, (state.shownEvents after.store keys source).filter (·.isStored) = [] := by
    intro keys
    apply List.filter_eq_nil_iff.2
    intro event hevent
    obtain ⟨key, -, hevent⟩ := List.mem_flatMap.1 hevent
    obtain ⟨element, -, rfl⟩ := List.mem_map.1 hevent
    simp [BindingEvent.isStored]
  rw [List.filter_append, hfront, List.nil_append, List.filter_cons_of_pos rfl, hshown]

/-- What a live element brings to its key is its value after the transform of the key. -/
theorem final_modify {element : Nat} {e : Element} (he : state.elements[element]? = some e)
    (key : String) (value : Value) :
    (state.modify element fun e => { e with value }).final (some element)
      (.set key value .standard) = .set key (state.taken key value) .standard := by
  have hvalue : (some element).bind (fun index =>
      (state.modify element fun e => { e with value }).elements[index]?.map (·.value)) =
        some value := by
    rw [Option.bind_some, getElem?_modify_of_eq_some he, Option.map_some]
  have hbindings : (state.modify element fun e => { e with value }).bindings = state.bindings := rfl
  rw [final, prepared, transformed, taken, hvalue, hbindings]
  cases (Dict.get? state.bindings key).bind (·.transform) with
  | none => rfl
  | some transform => rfl

/-- What a user does to a bound element of a store that listens is set at the key of the element. -/
theorem Coherent.exists_storesOnce (h : Coherent state) (depth : Nat) {element : Nat} {key : String}
    (hlive : state.isLive element = true) (hmode : state.mode ≠ .oneWay)
    (hbound : state.BoundAt key element) (value : Value) :
    ∃ after, state.input (depth + 1) element value false = some after ∧
      state.StoresOnce (.set key (state.taken key value) .standard) after := by
  obtain ⟨e, he, -⟩ := exists_of_isLive hlive
  obtain ⟨after, hinput, htakes⟩ := h.exists_takes depth hlive value false
  obtain ⟨answer, hdelivers⟩ := htakes.heard key rfl hmode hbound
  have honce := hdelivers.storesOnce
  rw [final_modify he] at honce
  exact ⟨after, hinput, honce.journal, honce.store⟩

/-- In every state that is reached, values go only the way the mode says. Where the store does not
write to elements none has been written to, where it does not listen nothing is listened to, binding
and unbinding put an element at its key and take it off, and what a user does to an element is set
once at its key or changes nothing but the element. -/
theorem directed_of_reachable {Proper : Value → Prop} (h : Reachable Proper state) :
    Directed state where
  unwritten hmode element value triggers fromStore hevent := h.follows _ hevent hmode
  unmoved hmode :=
    ⟨values_bindTo hmode, fun _ _ _ _ _ hwrite => values_write h.coherent.passTags hmode hwrite⟩
  unheard hmode := by
    refine ⟨fun element listener hevent => h.follows _ hevent hmode, fun element helement => ?_⟩
    obtain ⟨index, hindex⟩ := List.getElem?_of_mem helement
    exact h.coherent.listeners_eq_nil hindex (.inl hmode)
  binds key _ transform hlive := h.coherent.binds hlive key transform
  unbinds key _ hlive := h.coherent.unbinds hlive key
  stays depth element value fromStore hlive hunheard := by
    apply input_eq_of_unheard
    apply hunheard.imp id
    exact fun hunheard e he => h.coherent.listeners_eq_nil he hunheard
  sets depth element key value hlive hmode hbound :=
    h.coherent.exists_storesOnce depth hlive hmode hbound value

end Direction

/-- The transform that makes null of everything. -/
def blank : Transform := ⟨"blank", fun _ _ _ => .null⟩

/-- A store that takes values from its element only, and null for each of them. The element has been
asked to leave a key that it is not bound to. -/
def inward : Bindable :=
  let unbound := start (.plain ⟨.object [("a", .string "x")], false⟩) .oneWayReverse [.plain .null]
  ((unbound.bindTo "a" 0 (some blank)).2.unbind "b" 0).2

theorem reachable_inward : Reachable (fun _ => True) inward := by
  have hstore : (Core.plain ⟨.object [("a", .string "x")], false⟩).Holds fun _ => True := by
    refine ⟨fun _ _ _ => trivial, fun store hplain => ?_⟩
    rw [← Core.plain.inj hplain]
    rfl
  have hfresh : ∀ element ∈ [Element.plain .null], element.Fresh fun _ => True := by
    intro element helement
    rw [List.mem_singleton.1 helement]
    exact ⟨trivial, fun _ _ => trivial, rfl, rfl⟩
  have hstart := Reachable.start .oneWayReverse hstore hfresh
  have hblank : ∀ change ∈ some blank, change.Keeps fun _ => True :=
    fun _ _ _ _ _ _ _ => trivial
  exact (hstart.bind rfl "a" hblank).unbind rfl "b"

/-- Nothing has been written to the element, and what a user does to it is set once. -/
theorem directed_inward :
    Directed inward ∧ ∃ after, inward.input 1 0 (.string "y") false = some after ∧
      inward.StoresOnce (.set "a" .null .standard) after := by
  have hdirected := directed_of_reachable reachable_inward
  have hbound : inward.BoundAt "a" 0 :=
    ⟨⟨[⟨0, some 0⟩], some blank⟩, rfl, ⟨0, some 0⟩, by simp, rfl⟩
  exact ⟨hdirected, hdirected.sets 0 0 "a" (.string "y") rfl (by decide) hbound⟩

end Bindable

end Waymark.Store
