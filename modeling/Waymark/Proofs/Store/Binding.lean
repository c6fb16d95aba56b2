import Waymark.Proofs.Dict
import Waymark.Proofs.Store.Elements
/-!
What is reached with a store that is bound to elements.

An element is bound at one place at most, and carries the listener of that place and no other
(`Coherent`). The mark of an element keeps it from a second place, so this asks that the marks of
bound elements are left to the store; those of others may change at any time.
-/

namespace Waymark.Store

open Waymark.Json

/-- The document that a write brings along is as asked for. -/
def Write.Brings (Proper : Value → Prop) : Write → Prop
  | .set _ value _ => Proper value
  | .merge value => Proper value
  | .replace value => Proper value
  | .remove _ => True
  | .clear => True

/-- A transform keeps documents as asked for. -/
def Transform.Keeps (Proper : Value → Prop) (transform : Transform) : Prop :=
  ∀ value key source, Proper value → (∀ held ∈ source, Proper held) →
    Proper (transform.apply value key source)

/-- What a store holds is as asked for, and a plain store has an object at its root. -/
structure Core.Holds (Proper : Value → Prop) (core : Core) : Prop where
  reads : ∀ path value, core.get? path = some value → Proper value
  rooted : ∀ store, core = .plain store → store.tree.isObject = true

/-- An element that passes tags on, that no store listens to yet, and whose values are as asked
for. -/
structure Element.Fresh (Proper : Value → Prop) (element : Element) : Prop where
  proper : Proper element.value
  shows : ∀ value, Proper value → Proper (element.shown value)
  passesTags : element.passesTags = true
  listeners : element.listeners = []

namespace Bindable

/-- The places among bindings where an element is bound. -/
def places (bindings : Dict Binding) (element : Nat) : List (String × Bound) :=
  bindings.flatMap fun (key, binding) =>
    (binding.elements.filter (·.element = element)).map fun bound => (key, bound)

/-- The states of a bound store whose elements pass tags on and into which only documents come that
are as asked for. -/
inductive Reachable (Proper : Value → Prop) : Bindable → Prop
  | start {store : Core} {elements : List Element} (mode : BindingMode)
      (hstore : store.Holds Proper) (helements : ∀ element ∈ elements, element.Fresh Proper) :
      Reachable Proper (.start store mode elements)
  | bind {state : Bindable} {element : Nat} {transform : Option Transform}
      (h : Reachable Proper state) (hlive : state.isLive element = true) (key : String)
      (htransform : ∀ change ∈ transform, change.Keeps Proper) :
      Reachable Proper (state.bindTo key element transform).2
  | unbind {state : Bindable} {element : Nat} (h : Reachable Proper state)
      (hlive : state.isLive element = true) (key : String) :
      Reachable Proper (state.unbind key element).2
  | write {state after : Bindable} {write : Write} {source : Option Nat} {depth : Nat}
      {answer : Except Error Changes} (h : Reachable Proper state) (hbrings : write.Brings Proper)
      (hwrite : state.writeWithin depth write source = some (answer, after)) :
      Reachable Proper after
  | input {state after : Bindable} {element depth : Nat} {value : Value} {fromStore : Bool}
      (h : Reachable Proper state) (hlive : state.isLive element = true) (hproper : Proper value)
      (hinput : state.input depth element value fromStore = some after) : Reachable Proper after
  | drop {state : Bindable} (h : Reachable Proper state) (element : Nat) :
      Reachable Proper (state.drop element)
  /-- Another store, or whoever else, marks an element, and takes the mark off those that are not
  bound here. -/
  | mark {state : Bindable} {element : Nat} {marked : Bool} (h : Reachable Proper state)
      (hunbound : marked = false → places state.bindings element = []) :
      Reachable Proper (state.mark element marked)
  /-- The layers of a store are written to from outside. -/
  | relayer {state : Bindable} {layers others : List Core} (h : Reachable Proper state)
      (hstore : state.store = .layered layers) (hothers : (Core.layered others).Holds Proper) :
      Reachable Proper { state with store := .layered others }

/-- The key and the number of the listener at a place. -/
def listenerOf (place : String × Bound) : Option (Nat × String) :=
  place.2.listener.map fun listener => (listener, place.1)

/-- Elements are bound at one place at most, where the store listens to them if it does at all. -/
structure Coherent (state : Bindable) : Prop where
  sorted : Dict.Sorted state.bindings
  passTags : state.PassTags
  once : ∀ element, (places state.bindings element).length ≤ 1
  listens : ∀ element, ∀ place ∈ places state.bindings element,
    place.2.listener.isSome = state.mode.listens
  listeners : ∀ (index : Nat) (element : Element), state.elements[index]? = some element →
    element.listeners = (places state.bindings index).filterMap listenerOf
  marked : ∀ (index : Nat) (element : Element), state.elements[index]? = some element →
    element.marked = false → places state.bindings index = []

section Places

variable {bindings : Dict Binding} {key : String} {element : Nat}

/-- The elements bound to a key with what stands before and after them. -/
theorem exists_places_insert (h : Dict.Sorted bindings) (key : String) (binding : Binding)
    (element : Nat) :
    ∃ front back,
      places (Dict.insert bindings key binding) element =
        front ++ (binding.elements.filter (·.element = element)).map (fun bound => (key, bound)) ++
          back ∧
      places bindings element =
        front ++ (((Dict.get? bindings key).getD ⟨[], none⟩).elements.filter
          (·.element = element)).map (fun bound => (key, bound)) ++ back := by
  obtain ⟨front, back, hinsert, hbefore⟩ := Dict.exists_insert h key binding
  refine ⟨places front element, places back element, ?_, ?_⟩
  · rw [hinsert]
    simp [places]
  · rcases hbefore with ⟨hnone, hbindings⟩ | ⟨old, hold, hbindings⟩
    · rw [hnone, hbindings]
      simp [places]
    · rw [hold, hbindings]
      simp [places]

/-- Binding one element leaves the places of the others as they are. -/
theorem places_insert_of_filter_eq (h : Dict.Sorted bindings) {binding : Binding}
    (heq : binding.elements.filter (·.element = element) =
      ((Dict.get? bindings key).getD ⟨[], none⟩).elements.filter (·.element = element)) :
    places (Dict.insert bindings key binding) element = places bindings element := by
  obtain ⟨front, back, hinsert, hbefore⟩ := exists_places_insert h key binding element
  rw [hinsert, hbefore, heq]

theorem mem_places_iff {place : String × Bound} :
    place ∈ places bindings element ↔
      ∃ binding, (place.1, binding) ∈ bindings ∧ place.2 ∈ binding.elements ∧
        place.2.element = element := by
  obtain ⟨name, bound⟩ := place
  simp only [places, List.mem_flatMap, List.mem_map, List.mem_filter, decide_eq_true_eq]
  constructor
  · rintro ⟨⟨other, binding⟩, hmem, found, ⟨hfound, helement⟩, heq⟩
    obtain ⟨rfl, rfl⟩ := Prod.mk.inj heq
    exact ⟨binding, hmem, hfound, helement⟩
  · rintro ⟨binding, hmem, hfound, helement⟩
    exact ⟨(name, binding), hmem, bound, ⟨hfound, helement⟩, rfl⟩

end Places

section Steps

variable {state after : Bindable}

/-- What is coherent stays so where only values change and elements are destroyed. -/
theorem Coherent.of_alike (h : Coherent state) (halike : Alike state after) : Coherent after := by
  have hsame : ∀ (index : Nat) (element : Element), after.elements[index]? = some element →
      ∃ e, state.elements[index]? = some e ∧ e.listeners = element.listeners ∧
        e.marked = element.marked := by
    intro index element helement
    obtain ⟨e, he, heq⟩ := halike.exists_getElem? helement
    exact ⟨e, he, congrArg (·.listeners) heq, congrArg (·.marked) heq⟩
  constructor
  · rw [halike.bindings]
    exact h.sorted
  · exact halike.passTags h.passTags
  · rw [halike.bindings]
    exact h.once
  · rw [halike.bindings, halike.mode]
    exact h.listens
  · intro index element helement
    obtain ⟨e, he, hlisteners, -⟩ := hsame index element helement
    rw [halike.bindings, ← hlisteners]
    exact h.listeners index e he
  · intro index element helement hmarked
    obtain ⟨e, he, -, hmark⟩ := hsame index element helement
    rw [halike.bindings]
    exact h.marked index e he (hmark.trans hmarked)

theorem coherent_start {Proper : Value → Prop} {elements : List Element} (store : Core)
    (mode : BindingMode) (helements : ∀ element ∈ elements, element.Fresh Proper) :
    Coherent (.start store mode elements) where
  sorted := List.Pairwise.nil
  passTags element helement := (helements element helement).passesTags
  once _ := Nat.zero_le 1
  listens _ _ hplace := absurd hplace List.not_mem_nil
  listeners _ element helement := (helements element (List.mem_of_getElem? helement)).listeners
  marked _ _ _ _ := rfl

/-- What a state becomes where the element at an index and its places change: everything said of
other elements stays. -/
theorem Coherent.of_change (h : Coherent state) {index : Nat} {element : Element}
    (hsorted : Dict.Sorted after.bindings) (hmode : after.mode = state.mode)
    (hothers : ∀ other, other ≠ index →
      after.elements[other]? = state.elements[other]? ∧
        places after.bindings other = places state.bindings other)
    (helement : after.elements[index]? = some element) (hpasses : element.passesTags = true)
    (honce : (places after.bindings index).length ≤ 1)
    (hlistens : ∀ place ∈ places after.bindings index,
      place.2.listener.isSome = state.mode.listens)
    (hlisteners : element.listeners = (places after.bindings index).filterMap listenerOf)
    (hmarked : element.marked = false → places after.bindings index = []) : Coherent after := by
  have hat : ∀ e, after.elements[index]? = some e → e = element := by
    intro e he
    exact Option.some.inj (he.symm.trans helement)
  constructor
  · exact hsorted
  · intro e he
    obtain ⟨other, hother⟩ := List.getElem?_of_mem he
    by_cases heq : other = index
    · subst heq
      rw [hat e hother]
      exact hpasses
    · rw [(hothers other heq).1] at hother
      exact h.passTags e (List.mem_of_getElem? hother)
  · intro other
    by_cases heq : other = index
    · subst heq
      exact honce
    · rw [(hothers other heq).2]
      exact h.once other
  · intro other
    by_cases heq : other = index
    · subst heq
      rw [hmode]
      exact hlistens
    · rw [(hothers other heq).2, hmode]
      exact h.listens other
  · intro other e he
    by_cases heq : other = index
    · subst heq
      rw [hat e he]
      exact hlisteners
    · rw [(hothers other heq).1] at he
      rw [(hothers other heq).2]
      exact h.listeners other e he
  · intro other e he
    by_cases heq : other = index
    · subst heq
      rw [hat e he]
      exact hmarked
    · rw [(hothers other heq).1] at he
      rw [(hothers other heq).2]
      exact h.marked other e he

theorem exists_of_isLive {element : Nat} (h : state.isLive element = true) :
    ∃ e, state.elements[element]? = some e ∧ e.alive = true := by
  obtain ⟨e, he⟩ := Option.isSome_iff_exists.1 h
  exact ⟨e, Option.filter_eq_some_iff.1 he⟩

/-- A new place of an element that has none comes last at its key. -/
theorem places_insert_append {element : Nat} (hsorted : Dict.Sorted state.bindings)
    (hnone : places state.bindings element = []) (key : String) (listener : Option Nat)
    (transform : Option Transform) :
    places (Dict.insert state.bindings key
      ⟨((Dict.get? state.bindings key).getD ⟨[], none⟩).elements ++ [⟨element, listener⟩],
        transform⟩) element = [(key, ⟨element, listener⟩)] := by
  obtain ⟨front, back, hinsert, hbefore⟩ := exists_places_insert hsorted key
    ⟨((Dict.get? state.bindings key).getD ⟨[], none⟩).elements ++ [⟨element, listener⟩],
      transform⟩ element
  rw [hnone] at hbefore
  obtain ⟨hfront, hback⟩ := List.append_eq_nil_iff.1 hbefore.symm
  obtain ⟨rfl, hheld⟩ := List.append_eq_nil_iff.1 hfront
  rw [hinsert, hback]
  dsimp only
  rw [List.filter_append, List.map_append, hheld]
  simp

/-- A state in which an element has been marked, is heard at a key if the store listens, and comes
last at the key. -/
structure Attaches (state after : Bindable) (key : String) (element : Nat) (listener : Option Nat)
    (e held : Element) : Prop where
  mode : after.mode = state.mode
  bindings : ∃ transform, after.bindings = Dict.insert state.bindings key
    ⟨((Dict.get? state.bindings key).getD ⟨[], none⟩).elements ++ [⟨element, listener⟩], transform⟩
  others : ∀ other, other ≠ element → after.elements[other]? = state.elements[other]?
  holds : after.elements[element]? = some held
  passesTags : held.passesTags = e.passesTags
  listens : listener.isSome = state.mode.listens
  listeners : held.listeners = e.listeners ++ (listener.map fun number => (number, key)).toList
  marked : held.marked = true

/-- Giving an element the value there is changes nothing else about it. -/
theorem alike_given (state : Bindable) (element : Nat) (value : Option Value) (writes : Bool) :
    Alike state (match value with
      | some value => if writes then state.put element value false true else state
      | none => state) := by
  cases value with
  | none => exact Alike.refl state
  | some value =>
      cases writes with
      | false => exact Alike.refl state
      | true => exact alike_put state element value false true

/-- Binding does nothing, or attaches an element that is not marked and gives it the value there
is. -/
theorem bindTo_cases {element : Nat} {e : Element} (he : state.elements[element]? = some e)
    (key : String) (transform : Option Transform) :
    ((state.bindTo key element transform).1 ≠ .ok true ∧
        (state.bindTo key element transform).2 = state) ∨
      (state.bindTo key element transform).1 = .ok true ∧ e.marked = false ∧
        ∃ between listener held,
          state.Attaches between key element listener e held ∧
            Alike between (state.bindTo key element transform).2 := by
  rw [Bindable.bindTo]
  split
  · exact .inl ⟨by simp, rfl⟩
  · rw [he, Option.any_some]
    cases hmarked : e.marked with
    | true => exact .inl ⟨by simp, rfl⟩
    | false =>
        have hmark : (state.mark element true).elements[element]? =
            some { e with marked := true } :=
          getElem?_modify_of_eq_some he _
        have hothers : ∀ other, other ≠ element →
            (state.mark element true).elements[other]? = state.elements[other]? :=
          fun other hne => getElem?_modify_of_ne state hne _
        rw [if_neg (by simp)]
        dsimp only
        cases hlistens : (state.mark element true).mode.listens with
        | false =>
            rw [if_neg (by simp)]
            refine .inr ⟨rfl, rfl, _, none, { e with marked := true }, ?_,
              alike_given _ element _ _⟩
            exact ⟨rfl, ⟨_, rfl⟩, hothers, hmark, rfl, hlistens.symm, (List.append_nil _).symm, rfl⟩
        | true =>
            rw [if_pos rfl, listen, hmark]
            have hlistened : ((state.mark element true).modify element
                (·.listen key)).elements[element]? =
                  some (Element.listen { e with marked := true } key) :=
              getElem?_modify_of_eq_some hmark _
            refine .inr ⟨rfl, rfl, _, some e.nextListener,
              Element.listen { e with marked := true } key, ?_, alike_given _ element _ _⟩
            exact ⟨rfl, ⟨_, rfl⟩,
              fun other hne => (getElem?_modify_of_ne _ hne _).trans (hothers other hne),
              hlistened, rfl, hlistens.symm, rfl, rfl⟩

section Attaching

variable {key : String} {element : Nat} {listener : Option Nat} {e held : Element}

theorem Attaches.sorted (h : state.Attaches after key element listener e held)
    (hsorted : Dict.Sorted state.bindings) : Dict.Sorted after.bindings := by
  obtain ⟨transform, hbindings⟩ := h.bindings
  exact hbindings ▸ hsorted.insert key _

/-- An element that was bound nowhere has the one place. -/
theorem Attaches.places_self (h : state.Attaches after key element listener e held)
    (hsorted : Dict.Sorted state.bindings) (hnone : places state.bindings element = []) :
    places after.bindings element = [(key, ⟨element, listener⟩)] := by
  obtain ⟨transform, hbindings⟩ := h.bindings
  rw [hbindings]
  exact places_insert_append hsorted hnone key listener transform

theorem Attaches.places_of_ne (h : state.Attaches after key element listener e held)
    (hsorted : Dict.Sorted state.bindings) {other : Nat} (hne : other ≠ element) :
    places after.bindings other = places state.bindings other := by
  obtain ⟨transform, hbindings⟩ := h.bindings
  rw [hbindings]
  apply places_insert_of_filter_eq hsorted
  rw [List.filter_append, List.filter_cons_of_neg (by simpa using Ne.symm hne)]
  exact List.append_nil _

/-- The listener of the one place is the one that the element has got. -/
theorem Attaches.listeners_eq (h : state.Attaches after key element listener e held)
    (hsilent : e.listeners = []) :
    held.listeners = [(key, ⟨element, listener⟩)].filterMap listenerOf := by
  rw [h.listeners, hsilent]
  cases listener <;> rfl

/-- What is coherent stays so where an element that is bound nowhere gets a place. -/
theorem Coherent.of_attached (h : Coherent state)
    (hattach : state.Attaches after key element listener e held)
    (he : state.elements[element]? = some e) (hmarked : e.marked = false) : Coherent after := by
  have hnone := h.marked element e he hmarked
  have hsilent := h.listeners element e he
  rw [hnone, List.filterMap_nil] at hsilent
  have hplaces := hattach.places_self h.sorted hnone
  refine h.of_change (hattach.sorted h.sorted) hattach.mode
    (fun other hne => ⟨hattach.others other hne, hattach.places_of_ne h.sorted hne⟩) hattach.holds
    (hattach.passesTags.trans (h.passTags e (List.mem_of_getElem? he))) ?_ ?_ ?_ ?_
  · rw [hplaces]
    exact Nat.le_refl 1
  · rw [hplaces]
    intro place hplace
    rw [List.mem_singleton.1 hplace]
    exact hattach.listens
  · rw [hplaces]
    exact hattach.listeners_eq hsilent
  · intro hunmarked
    rw [hattach.marked] at hunmarked
    cases hunmarked

end Attaching

theorem Coherent.bindTo (h : Coherent state) {element : Nat} (hlive : state.isLive element = true)
    (key : String) (transform : Option Transform) :
    Coherent (state.bindTo key element transform).2 := by
  obtain ⟨e, he, -⟩ := exists_of_isLive hlive
  rcases bindTo_cases he key transform with ⟨-, hsame⟩ | ⟨-, hmarked, _, _, _, hattach, halike⟩
  · rw [hsame]
    exact h
  · exact (h.of_attached hattach he hmarked).of_alike halike

/-- The place of an element that is bound at one place is gone when its binding is undone. -/
theorem places_insert_erase {element : Nat} {key : String} {binding : Binding} {bound : Bound}
    (hsorted : Dict.Sorted state.bindings) (honce : (places state.bindings element).length ≤ 1)
    (hbinding : Dict.get? state.bindings key = some binding) (hbound : bound ∈ binding.elements)
    (helement : bound.element = element) :
    places state.bindings element = [(key, bound)] ∧
      places (Dict.insert state.bindings key
        { binding with elements := binding.elements.erase bound }) element = [] := by
  obtain ⟨front, back, hinsert, hbefore⟩ := exists_places_insert hsorted key
    { binding with elements := binding.elements.erase bound } element
  rw [hbinding, Option.getD_some] at hbefore
  have hmem : bound ∈ binding.elements.filter (·.element = element) :=
    List.mem_filter.2 ⟨hbound, by simpa using helement⟩
  rw [← List.erase_filter] at hinsert
  cases hheld : binding.elements.filter (·.element = element) with
  | nil =>
      rw [hheld] at hmem
      exact absurd hmem List.not_mem_nil
  | cons first rest =>
      rw [hheld] at hmem hinsert hbefore
      rw [hbefore] at honce
      simp only [List.length_append, List.length_map, List.length_cons] at honce
      have hfront : front = [] := List.length_eq_zero_iff.1 (by omega)
      have hrest : rest = [] := List.length_eq_zero_iff.1 (by omega)
      have hback : back = [] := List.length_eq_zero_iff.1 (by omega)
      subst hfront hrest hback
      obtain rfl := List.mem_singleton.1 hmem
      exact ⟨hbefore, by rw [hinsert]; simp⟩

/-- A state in which an element has lost a place at a key, the listener of the place and its mark. -/
structure Detaches (state after : Bindable) (key : String) (binding : Binding) (bound : Bound)
    (e held : Element) : Prop where
  mode : after.mode = state.mode
  lookup : Dict.get? state.bindings key = some binding
  mem : bound ∈ binding.elements
  bindings : after.bindings = Dict.insert state.bindings key
    { binding with elements := binding.elements.erase bound }
  others : ∀ other, other ≠ bound.element → after.elements[other]? = state.elements[other]?
  holds : after.elements[bound.element]? = some held
  passesTags : held.passesTags = e.passesTags
  listeners : held.listeners = e.listeners.filter fun listener => some listener.1 ≠ bound.listener
  marked : held.marked = false

/-- Undoing a binding does nothing, or detaches the element. -/
theorem unbind_cases {element : Nat} {e : Element} (he : state.elements[element]? = some e)
    (key : String) :
    ((state.unbind key element).1 = false ∧ (state.unbind key element).2 = state) ∨
      ∃ binding bound held, bound.element = element ∧
        state.Detaches (state.unbind key element).2 key binding bound e held := by
  rw [Bindable.unbind]
  cases hbinding : Dict.get? state.bindings key with
  | none => exact .inl ⟨rfl, rfl⟩
  | some binding =>
      dsimp only
      cases hfound : binding.elements.find? (·.element = element) with
      | none => exact .inl ⟨rfl, rfl⟩
      | some bound =>
          have hbound := List.mem_of_find?_eq_some hfound
          obtain rfl : bound.element = element := by simpa using List.find?_some hfound
          dsimp only
          refine .inr ⟨binding, bound, ?_⟩
          cases hlistener : bound.listener with
          | none =>
              have hmark : (state.mark bound.element false).elements[bound.element]? =
                  some { e with marked := false } := getElem?_modify_of_eq_some he _
              exact ⟨_, rfl, rfl, hbinding, hbound, rfl,
                fun other hne => getElem?_modify_of_ne _ hne _, hmark, rfl,
                by simp [hlistener, List.filter_eq_self.2], rfl⟩
          | some listener =>
              have hmark : ((state.modify bound.element (·.unlisten listener)).mark bound.element
                  false).elements[bound.element]? = some { e.unlisten listener with marked := false } :=
                getElem?_modify_of_eq_some (getElem?_modify_of_eq_some he _) _
              exact ⟨_, rfl, rfl, hbinding, hbound, rfl,
                fun other hne => (getElem?_modify_of_ne _ hne _).trans (getElem?_modify_of_ne _ hne _),
                hmark, rfl, by simp [Element.unlisten, hlistener], rfl⟩

section Detaching

variable {key : String} {binding : Binding} {bound : Bound} {e held : Element}

theorem Detaches.sorted (h : state.Detaches after key binding bound e held)
    (hsorted : Dict.Sorted state.bindings) : Dict.Sorted after.bindings :=
  h.bindings ▸ hsorted.insert key _

/-- The place that is lost was the only one. -/
theorem Detaches.places_self (h : state.Detaches after key binding bound e held)
    (hsorted : Dict.Sorted state.bindings)
    (honce : (places state.bindings bound.element).length ≤ 1) :
    places state.bindings bound.element = [(key, bound)] ∧
      places after.bindings bound.element = [] := by
  rw [h.bindings]
  exact places_insert_erase hsorted honce h.lookup h.mem rfl

theorem Detaches.places_of_ne (h : state.Detaches after key binding bound e held)
    (hsorted : Dict.Sorted state.bindings) {other : Nat} (hne : other ≠ bound.element) :
    places after.bindings other = places state.bindings other := by
  rw [h.bindings]
  apply places_insert_of_filter_eq hsorted
  rw [h.lookup, Option.getD_some, ← List.erase_filter]
  apply List.erase_of_not_mem
  intro hmem
  have heq : bound.element = other := by simpa using (List.mem_filter.1 hmem).2
  exact hne heq.symm

/-- The listener of the only place was the only one. -/
theorem Detaches.listeners_eq (h : state.Detaches after key binding bound e held)
    (hlisteners : e.listeners = [(key, bound)].filterMap listenerOf) : held.listeners = [] := by
  rw [h.listeners, hlisteners]
  cases hlistener : bound.listener <;> simp [listenerOf, hlistener]

/-- What is coherent stays so where an element loses its place and its listener. -/
theorem Coherent.of_detached (h : Coherent state)
    (hdetach : state.Detaches after key binding bound e held)
    (he : state.elements[bound.element]? = some e) : Coherent after := by
  obtain ⟨hplaces, hgone⟩ := hdetach.places_self h.sorted (h.once bound.element)
  have hlisteners := h.listeners bound.element e he
  rw [hplaces] at hlisteners
  refine h.of_change (hdetach.sorted h.sorted) hdetach.mode
    (fun other hne => ⟨hdetach.others other hne, hdetach.places_of_ne h.sorted hne⟩) hdetach.holds
    (hdetach.passesTags.trans (h.passTags e (List.mem_of_getElem? he))) ?_ ?_ ?_ fun _ => hgone
  · rw [hgone]
    exact Nat.zero_le 1
  · rw [hgone]
    exact fun _ hplace => absurd hplace List.not_mem_nil
  · rw [hgone, List.filterMap_nil]
    exact hdetach.listeners_eq hlisteners

end Detaching

theorem Coherent.unbind (h : Coherent state) {element : Nat} (hlive : state.isLive element = true)
    (key : String) : Coherent (state.unbind key element).2 := by
  obtain ⟨e, he, -⟩ := exists_of_isLive hlive
  rcases unbind_cases he key with ⟨-, hsame⟩ | ⟨binding, bound, held, rfl, hdetach⟩
  · rw [hsame]
    exact h
  · exact h.of_detached hdetach he

/-- What is coherent stays so where the mark of an element changes that is not bound or keeps its
mark. -/
theorem Coherent.mark (h : Coherent state) {element : Nat} {marked : Bool}
    (hunbound : marked = false → places state.bindings element = []) :
    Coherent (state.mark element marked) := by
  cases he : state.elements[element]? with
  | none =>
      have hsame : (state.mark element marked).elements = state.elements := by
        rw [Bindable.mark]
        exact List.modify_eq_self (List.getElem?_eq_none_iff.1 he)
      exact h.of_alike ⟨rfl, rfl, congrArg (List.map frame) hsame⟩
  | some e =>
      have hmark : (state.mark element marked).elements[element]? = some { e with marked } :=
        getElem?_modify_of_eq_some he _
      exact h.of_change h.sorted rfl
        (fun other hne => ⟨getElem?_modify_of_ne _ hne _, rfl⟩) hmark
        (h.passTags e (List.mem_of_getElem? he)) (h.once element) (h.listens element)
        (h.listeners element e he) hunbound

theorem Reachable.coherent {Proper : Value → Prop} (h : Reachable Proper state) :
    Coherent state := by
  induction h with
  | start mode _ helements => exact coherent_start _ mode helements
  | bind _ hlive key _ ih => exact ih.bindTo hlive key _
  | unbind _ hlive key ih => exact ih.unbind hlive key
  | write _ _ hwrite ih => exact ih.of_alike (alike_write ih.passTags _ _ _ hwrite)
  | input _ _ _ hinput ih => exact ih.of_alike (alike_input hinput)
  | drop _ element ih => exact ih.of_alike (alike_modify _ element fun _ => rfl)
  | mark _ hunbound ih => exact ih.mark hunbound
  | relayer _ _ _ ih => exact ih.of_alike ⟨rfl, rfl, rfl⟩

end Steps

end Bindable

end Waymark.Store
