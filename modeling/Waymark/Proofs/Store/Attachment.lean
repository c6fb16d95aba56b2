import Waymark.Proofs.Store.Binding
/-!
What binding and unbinding keep in step.

The mark of an element, the listener on it, the listener noted at its place and the place among the
elements of a key are set one after another. Where the marks are left to the store, elements may do
with tags what they like: after any calls the four agree (`attached_of_handled`).
-/

namespace Waymark.Store

/-- An element that is neither marked nor heard. -/
structure Element.Unbound (element : Element) : Prop where
  marked : element.marked = false
  listeners : element.listeners = []

/-- The places of an element, what the store hears of it and its mark agree. -/
structure Element.Attached (mode : BindingMode) (places : List (String × Bound))
    (element : Element) : Prop where
  once : places.length ≤ 1
  listens : ∀ place ∈ places, place.2.listener.isSome = mode.listens
  listeners : element.listeners = places.filterMap Bindable.listenerOf
  marked : element.marked = true ↔ places ≠ []

namespace Bindable

/-- The states of a bound store that alone sets marks. Binding and unbinding may fail, writes may be
refused and elements may answer what is written to them. -/
inductive Handled : Bindable → Prop
  | start {elements : List Element} (store : Core) (mode : BindingMode)
      (helements : ∀ element ∈ elements, element.Unbound) : Handled (.start store mode elements)
  | bind {state : Bindable} {element : Nat} (h : Handled state)
      (hlive : state.isLive element = true) (key : String) (transform : Option Transform) :
      Handled (state.bindTo key element transform).2
  | unbind {state : Bindable} {element : Nat} (h : Handled state)
      (hlive : state.isLive element = true) (key : String) : Handled (state.unbind key element).2
  | write {state after : Bindable} {write : Write} {source : Option Nat} {depth : Nat}
      {answer : Except Error Changes} (h : Handled state)
      (hwrite : state.writeWithin depth write source = some (answer, after)) : Handled after
  | input {state after : Bindable} {element depth : Nat} {value : Json.Value} {fromStore : Bool}
      (h : Handled state) (hlive : state.isLive element = true)
      (hinput : state.input depth element value fromStore = some after) : Handled after
  | drop {state : Bindable} (h : Handled state) (element : Nat) : Handled (state.drop element)

/-- Everything said of elements holds of each by itself. -/
structure Settled (state : Bindable) : Prop where
  sorted : Dict.Sorted state.bindings
  attached : ∀ (index : Nat) (element : Element), state.elements[index]? = some element →
    element.Attached state.mode (places state.bindings index)

/-- The elements at all keys, in order, each as often as it is bound. -/
def boundElements (bindings : Dict Binding) : List Nat :=
  bindings.flatMap fun (_, binding) => binding.elements.map (·.element)

section Steps

variable {state after : Bindable} {key : String} {element : Nat} {e held : Element}

theorem settled_start {elements : List Element} (store : Core) (mode : BindingMode)
    (helements : ∀ element ∈ elements, element.Unbound) :
    Settled (.start store mode elements) := by
  refine ⟨List.Pairwise.nil, fun index element helement => ?_⟩
  have hunbound := helements element (List.mem_of_getElem? helement)
  refine ⟨Nat.zero_le 1, fun _ hplace => absurd hplace List.not_mem_nil, hunbound.listeners, ?_⟩
  rw [hunbound.marked]
  exact ⟨fun h => absurd h (by simp), fun h => absurd rfl h⟩

theorem Settled.of_alike (h : Settled state) (halike : Alike state after) : Settled after := by
  refine ⟨halike.bindings ▸ h.sorted, fun index element helement => ?_⟩
  obtain ⟨e, he, hframe⟩ := halike.exists_getElem? helement
  have hmarked : e.marked = element.marked := congrArg (·.marked) hframe
  have hlisteners : e.listeners = element.listeners := congrArg (·.listeners) hframe
  obtain ⟨honce, hlistens, hheard, hmark⟩ := h.attached index e he
  rw [halike.bindings, halike.mode]
  exact ⟨honce, hlistens, hlisteners ▸ hheard, hmarked ▸ hmark⟩

/-- One element and its places change. -/
theorem Settled.of_change (h : Settled state) (hsorted : Dict.Sorted after.bindings)
    (hmode : after.mode = state.mode)
    (hothers : ∀ other, other ≠ element →
      after.elements[other]? = state.elements[other]? ∧
        places after.bindings other = places state.bindings other)
    (hheld : after.elements[element]? = some held)
    (hattached : held.Attached state.mode (places after.bindings element)) : Settled after := by
  refine ⟨hsorted, fun index found hfound => ?_⟩
  rw [hmode]
  by_cases heq : index = element
  · subst heq
    obtain rfl := Option.some.inj (hheld.symm.trans hfound)
    exact hattached
  · obtain ⟨hsame, hplaces⟩ := hothers index heq
    rw [hsame] at hfound
    rw [hplaces]
    exact h.attached index found hfound

theorem Settled.bindTo (h : Settled state) (hlive : state.isLive element = true) (key : String)
    (transform : Option Transform) : Settled (state.bindTo key element transform).2 := by
  obtain ⟨e, he, -⟩ := exists_of_isLive hlive
  rcases bindTo_cases he key transform with
    ⟨-, hsame⟩ | ⟨-, hmarked, _, listener, held, hattach, halike⟩
  · rw [hsame]
    exact h
  · obtain ⟨-, -, hlisteners, hmark⟩ := h.attached element e he
    have hnone : places state.bindings element = [] := by
      refine Classical.byContradiction fun hplaced => ?_
      rw [hmark.2 hplaced] at hmarked
      cases hmarked
    have hsilent : e.listeners = [] := by
      rw [hlisteners, hnone]
      rfl
    refine Settled.of_alike ?_ halike
    refine h.of_change (hattach.sorted h.sorted) hattach.mode
      (fun other hne => ⟨hattach.others other hne, hattach.places_of_ne h.sorted hne⟩)
      hattach.holds ?_
    rw [hattach.places_self h.sorted hnone]
    refine ⟨Nat.le_refl 1, fun place hplace => ?_, hattach.listeners_eq hsilent, ?_⟩
    · rw [List.mem_singleton.1 hplace]
      exact hattach.listens
    · exact ⟨fun _ => List.cons_ne_nil _ _, fun _ => hattach.marked⟩

theorem Settled.unbind (h : Settled state) (hlive : state.isLive element = true) (key : String) :
    Settled (state.unbind key element).2 := by
  obtain ⟨e, he, -⟩ := exists_of_isLive hlive
  rcases unbind_cases he key with ⟨-, hsame⟩ | ⟨binding, bound, held, rfl, hdetach⟩
  · rw [hsame]
    exact h
  · obtain ⟨honce, -, hlisteners, -⟩ := h.attached bound.element e he
    obtain ⟨hplaces, hgone⟩ := hdetach.places_self h.sorted honce
    rw [hplaces] at hlisteners
    refine h.of_change (hdetach.sorted h.sorted) hdetach.mode
      (fun other hne => ⟨hdetach.others other hne, hdetach.places_of_ne h.sorted hne⟩)
      hdetach.holds ?_
    rw [hgone]
    refine ⟨Nat.zero_le 1, fun _ hplace => absurd hplace List.not_mem_nil,
      hdetach.listeners_eq hlisteners, ?_⟩
    rw [hdetach.marked]
    exact ⟨fun hset => absurd hset (by simp), fun hplaced => absurd rfl hplaced⟩

theorem Handled.settled (h : Handled state) : Settled state := by
  induction h with
  | start store mode helements => exact settled_start store mode helements
  | bind _ hlive key transform ih => exact ih.bindTo hlive key transform
  | unbind _ hlive key ih => exact ih.unbind hlive key
  | write _ hwrite ih => exact ih.of_alike (alike_nested (gentle_intake _) hwrite)
  | input _ _ hinput ih => exact ih.of_alike (alike_input hinput)
  | drop _ element ih => exact ih.of_alike (alike_modify _ element fun _ => rfl)

end Steps

theorem count_boundElements (bindings : Dict Binding) (element : Nat) :
    (boundElements bindings).count element = (places bindings element).length := by
  induction bindings with
  | nil => rfl
  | cons entry bindings ih =>
      obtain ⟨key, binding⟩ := entry
      have hhead : (binding.elements.map (·.element)).count element =
          (binding.elements.filter (·.element = element)).length := by
        rw [List.count_eq_length_filter, List.filter_map, List.length_map]
        rfl
      simp only [boundElements, places, List.flatMap_cons, List.count_append, List.length_append,
        List.length_map] at ih ⊢
      rw [ih, hhead]

theorem mem_boundElements_iff {bindings : Dict Binding} {element : Nat} :
    element ∈ boundElements bindings ↔ places bindings element ≠ [] := by
  rw [← List.count_pos_iff, count_boundElements, List.length_pos_iff]

/-- After any calls of a store that alone sets marks, an element is bound at one place at most, is
marked if and only if it is bound, and carries the listener of its place and no other: one if it is
bound and the store listens to elements, and else none. -/
theorem attached_of_handled {state : Bindable} (h : Handled state) {index : Nat}
    {element : Element} (helement : state.elements[index]? = some element) :
    (boundElements state.bindings).count index ≤ 1 ∧
      (element.marked = true ↔ index ∈ boundElements state.bindings) ∧
      element.listeners = (places state.bindings index).filterMap listenerOf ∧
      element.listeners.length =
        if index ∈ boundElements state.bindings ∧ state.mode ≠ .oneWay then 1 else 0 := by
  obtain ⟨honce, hlistens, hlisteners, hmarked⟩ := h.settled.attached index element helement
  refine ⟨?_, hmarked.trans mem_boundElements_iff.symm, hlisteners, ?_⟩
  · rw [count_boundElements]
    exact honce
  · simp only [hlisteners, mem_boundElements_iff]
    cases hplaces : places state.bindings index with
    | nil => simp
    | cons place rest =>
        rw [hplaces] at honce hlistens
        obtain rfl : rest = [] := List.length_eq_zero_iff.1 (by simpa using honce)
        have hheard := hlistens place List.mem_cons_self
        cases hlistener : place.2.listener <;> cases hmode : state.mode <;>
          simp_all [listenerOf, BindingMode.listens]

/-- An element that stays empty and tells a change by the store like any other. -/
def answering : Element :=
  { Element.plain .null with passesTags := false, shown := fun _ => .null }

/-- A store whose answering element is bound to a key, refused at a second one and not taken off that.
Another element of the key has been destroyed. -/
def restless : Bindable :=
  let unbound := start (.plain ⟨.object [], false⟩) .twoWay [answering, .plain .null]
  let bound := ((unbound.bindTo "a" 0 none).2.bindTo "a" 1 none).2
  (((bound.bindTo "b" 0 none).2.unbind "b" 0).2.drop 1)

theorem handled_restless : Handled restless := by
  have hunbound : ∀ element ∈ [answering, Element.plain .null], element.Unbound := by
    intro element helement
    simp only [List.mem_cons, List.not_mem_nil, or_false] at helement
    rcases helement with rfl | rfl <;> exact ⟨rfl, rfl⟩
  have hstart := Handled.start (.plain ⟨.object [], false⟩) .twoWay hunbound
  exact ((((hstart.bind rfl "a" none).bind rfl "a" none).bind rfl "b" none).unbind rfl "b").drop 1

/-- The element keeps its mark, its one place and its one listener while the store is written to. -/
theorem attached_restless :
    ∃ answer after element, restless.writeWithin 2 (.set "a" (.string "x") .standard) none =
        some (answer, after) ∧
      after.elements[0]? = some element ∧ boundElements after.bindings = [0, 1] ∧
      (boundElements after.bindings).count 0 ≤ 1 ∧ element.marked = true ∧
      element.listeners.length = 1 ∧ after.store.get? "a" = some .null := by
  have hwritten : ((restless.writeWithin 2 (.set "a" (.string "x") .standard) none).map
      fun result => (boundElements result.2.bindings, result.2.elements.length, result.2.mode)) =
        some ([0, 1], 2, .twoWay) := by
    rfl
  have hanswered : ((restless.writeWithin 2 (.set "a" (.string "x") .standard) none).bind
      fun result => result.2.store.get? "a") = some .null := by
    rfl
  obtain ⟨⟨answer, after⟩, hwrite, hparts⟩ := Option.map_eq_some_iff.1 hwritten
  simp only [Prod.mk.injEq] at hparts
  obtain ⟨hbound, hlength, hmode⟩ := hparts
  rw [hwrite] at hanswered
  have hlt : 0 < after.elements.length := by omega
  obtain ⟨honce, hmarked, -, hcount⟩ := attached_of_handled (handled_restless.write hwrite)
    (List.getElem?_eq_getElem hlt)
  have hmem : 0 ∈ boundElements after.bindings := by simp [hbound]
  refine ⟨answer, after, after.elements[0], hwrite, List.getElem?_eq_getElem hlt, hbound, honce,
    hmarked.2 hmem, ?_, hanswered⟩
  rw [hcount, if_pos ⟨hmem, by simp [hmode]⟩]

end Bindable

end Waymark.Store
