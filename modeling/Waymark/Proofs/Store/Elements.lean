import Waymark.Store.Bindable
/-!
What a call of a bound store does to its elements and to its journal.

Elements that pass tags on do not answer a write of the store, so a write goes to the store once and
then to the elements one after another (`write_eq`). Apart from the values they hold, elements stay
as they are (`Alike`).
-/

namespace Waymark.Store

open Waymark.Json

/-- The event tells that a value has been transformed. -/
def BindingEvent.IsTransformed (event : BindingEvent) : Prop :=
  ∃ name key value hasSource, event = .transformed name key value hasSource

namespace Bindable

/-- An element apart from its value and from whether it has been destroyed. -/
def frame (element : Element) : Element :=
  { element with value := .null, alive := true }

/-- States with the same bindings, whose elements differ only in their values and in whether they
have been destroyed. -/
structure Alike (state other : Bindable) : Prop where
  mode : other.mode = state.mode
  bindings : other.bindings = state.bindings
  elements : other.elements.map frame = state.elements.map frame

/-- Every element tells its listeners whether a change comes from a store. -/
def PassTags (state : Bindable) : Prop :=
  ∀ element ∈ state.elements, element.passesTags = true

section Alike

variable {state other last : Bindable}

theorem Alike.refl (state : Bindable) : Alike state state :=
  ⟨rfl, rfl, rfl⟩

theorem Alike.trans (h : Alike state other) (hnext : Alike other last) : Alike state last where
  mode := hnext.mode.trans h.mode
  bindings := hnext.bindings.trans h.bindings
  elements := hnext.elements.trans h.elements

theorem map_modify_of_eq {α β : Type} (f : α → β) (change : α → α)
    (h : ∀ item, f (change item) = f item) (items : List α) (index : Nat) :
    (items.modify index change).map f = items.map f := by
  induction items generalizing index with
  | nil => simp
  | cons item items ih =>
      cases index with
      | zero => simp [h]
      | succ index => simp [ih]

theorem alike_modify (state : Bindable) (element : Nat) {change : Element → Element}
    (h : ∀ e, frame (change e) = frame e) : Alike state (state.modify element change) :=
  ⟨rfl, rfl, map_modify_of_eq frame change h state.elements element⟩

theorem getElem?_modify_self (state : Bindable) (element : Nat) (change : Element → Element) :
    (state.modify element change).elements[element]? = state.elements[element]?.map change :=
  List.getElem?_modify_eq change element state.elements

theorem getElem?_modify_of_eq_some {element : Nat} {e : Element}
    (h : state.elements[element]? = some e) (change : Element → Element) :
    (state.modify element change).elements[element]? = some (change e) := by
  rw [getElem?_modify_self, h, Option.map_some]

theorem getElem?_modify_of_ne (state : Bindable) {element other : Nat} (hne : other ≠ element)
    (change : Element → Element) :
    (state.modify element change).elements[other]? = state.elements[other]? :=
  List.getElem?_modify_ne change state.elements (Ne.symm hne)

theorem alike_put (state : Bindable) (element : Nat) (value : Value) (triggers fromStore : Bool) :
    Alike state (state.put element value triggers fromStore) :=
  ⟨rfl, rfl, map_modify_of_eq frame (fun e => { e with value := e.shown value }) (fun _ => rfl)
    state.elements element⟩

/-- What holds of an element apart from its value holds of it in a state alike. -/
theorem Alike.exists_getElem? (h : Alike state other) {index : Nat} {element : Element}
    (helement : other.elements[index]? = some element) :
    ∃ e, state.elements[index]? = some e ∧ frame e = frame element := by
  have hframe : (other.elements.map frame)[index]? = some (frame element) := by
    rw [List.getElem?_map, helement]
    rfl
  rw [h.elements, List.getElem?_map] at hframe
  obtain ⟨e, he, heq⟩ := Option.map_eq_some_iff.1 hframe
  exact ⟨e, he, heq⟩

theorem Alike.passTags (h : Alike state other) (hpass : state.PassTags) : other.PassTags := by
  intro element helement
  obtain ⟨index, hindex⟩ := List.getElem?_of_mem helement
  obtain ⟨e, he, heq⟩ := h.exists_getElem? hindex
  have htags : e.passesTags = element.passesTags := congrArg (·.passesTags) heq
  rw [← htags]
  exact hpass e (List.mem_of_getElem? he)

end Alike

section Showing

/-- Write values to elements one after another. -/
def showAll (state : Bindable) (targets : List (Nat × Value)) : Bindable :=
  targets.foldl (fun state (element, value) => state.put element value true true) state

@[simp] theorem showAll_nil (state : Bindable) : state.showAll [] = state := rfl

theorem showAll_cons (state : Bindable) (target : Nat × Value) (targets : List (Nat × Value)) :
    state.showAll (target :: targets) =
      (state.put target.1 target.2 true true).showAll targets := rfl

theorem alike_showAll (state : Bindable) (targets : List (Nat × Value)) :
    Alike state (state.showAll targets) := by
  induction targets generalizing state with
  | nil => exact Alike.refl state
  | cons target targets ih => exact (alike_put state target.1 target.2 true true).trans (ih _)

@[simp] theorem store_showAll (state : Bindable) (targets : List (Nat × Value)) :
    (state.showAll targets).store = state.store := by
  induction targets generalizing state with
  | nil => rfl
  | cons target targets ih => exact ih _

theorem journal_showAll (state : Bindable) (targets : List (Nat × Value)) :
    (state.showAll targets).journal = state.journal ++
      targets.map fun (element, value) => .shown element value true true := by
  induction targets generalizing state with
  | nil => exact (List.append_nil _).symm
  | cons target targets ih =>
      rw [showAll_cons, ih, List.map_cons]
      exact List.append_assoc _ [_] _

variable {state : Bindable}

/-- An element that nothing is written to stays as it is. -/
theorem getElem?_showAll {element : Nat} {targets : List (Nat × Value)}
    (h : ∀ target ∈ targets, target.1 ≠ element) :
    (state.showAll targets).elements[element]? = state.elements[element]? := by
  induction targets generalizing state with
  | nil => rfl
  | cons target targets ih =>
      rw [showAll_cons, ih fun other hother => h other (List.mem_cons_of_mem _ hother)]
      exact getElem?_modify_of_ne state (h target List.mem_cons_self).symm _

/-- An element that is told of one value only holds what it makes of this value. -/
theorem getElem?_showAll_of_mem {element : Nat} {e : Element} {value : Value}
    {targets : List (Nat × Value)} (he : state.elements[element]? = some e)
    (hmem : (element, value) ∈ targets)
    (hall : ∀ target ∈ targets, target.1 = element → target.2 = value) :
    (state.showAll targets).elements[element]? = some { e with value := e.shown value } := by
  induction targets generalizing state e with
  | nil => exact absurd hmem List.not_mem_nil
  | cons target targets ih =>
      obtain ⟨hfirst, hrest⟩ := List.forall_mem_cons.1 hall
      rw [showAll_cons]
      by_cases heq : target.1 = element
      · have hput : (state.put target.1 target.2 true true).elements[element]? =
            some { e with value := e.shown value } := by
          rw [heq, hfirst heq]
          exact getElem?_modify_of_eq_some he _
        by_cases hagain : (element, value) ∈ targets
        · have hlast := ih hput hagain hrest
          exact hlast
        · rw [← hput]
          apply getElem?_showAll
          intro other hother hsame
          have hother' : other = (element, value) := Prod.ext hsame (hrest other hother hsame)
          exact hagain (hother' ▸ hother)
      · have hkept : (state.put target.1 target.2 true true).elements[element]? = some e :=
          (getElem?_modify_of_ne state (Ne.symm heq) _).trans he
        rcases List.mem_cons.1 hmem with hsame | hmem
        · exact absurd (congrArg (·.1) hsame).symm heq
        · exact ih hkept hmem hrest

/-- An element that passes tags on takes what it is shown and does nothing else. -/
theorem display_eq (hpass : state.PassTags) (intake : Intake) (element : Nat) (value : Value) :
    display intake state element value = some (state.put element value true true) := by
  have htags : (state.elements[element]?).all (·.passesTags) = true := by
    cases helement : state.elements[element]? with
    | none => rfl
    | some e => exact hpass e (List.mem_of_getElem? helement)
  rw [display, htags]
  rfl

theorem foldlM_display (hpass : state.PassTags) (intake : Intake) (targets : List (Nat × Value)) :
    targets.foldlM (fun state (element, value) => display intake state element value) state =
      some (state.showAll targets) := by
  induction targets generalizing state with
  | nil => rfl
  | cons target targets ih =>
      obtain ⟨element, value⟩ := target
      rw [List.foldlM_cons]
      dsimp only
      rw [display_eq hpass]
      exact ih ((alike_put state element value true true).passTags hpass)

end Showing

section Writing

variable {state : Bindable}

/-- The writes to elements that a write to the store entails. -/
def entailed (state : Bindable) (write : Write) (answer : Except Error Changes)
    (source : Option Nat) : List (Nat × Value) :=
  match answer with
  | .error _ => []
  | .ok changes =>
      let told := toldChanges write changes
      if told.isEmpty || !state.mode.writesElements then [] else state.targets told source

theorem mem_targets_iff {changes : Changes} {source : Option Nat} {target : Nat × Value} :
    target ∈ state.targets changes source ↔
      ∃ key ∈ Dict.keys state.bindings, changes.touches key = true ∧
        target.1 ∈ state.boundTo key ∧ some target.1 ≠ source ∧
        target.2 = (state.store.get? key).getD .null := by
  obtain ⟨element, value⟩ := target
  simp only [targets, Dict.keys, List.mem_flatMap, List.mem_map, List.mem_filter,
    decide_eq_true_eq]
  constructor
  · rintro ⟨⟨key, binding⟩, ⟨hmem, htouches⟩, other, ⟨hbound, hsource⟩, heq⟩
    obtain ⟨rfl, rfl⟩ := Prod.mk.inj heq
    exact ⟨key, ⟨_, hmem, rfl⟩, htouches, hbound, hsource, rfl⟩
  · rintro ⟨_, ⟨⟨key, binding⟩, hmem, rfl⟩, htouches, hbound, hsource, rfl⟩
    exact ⟨(key, binding), ⟨hmem, htouches⟩, element, ⟨hbound, hsource⟩, rfl⟩

/-- What is written to elements are targets of what is told. -/
theorem mem_targets_of_mem_entailed {write : Write} {answer : Except Error Changes}
    {source : Option Nat} {target : Nat × Value} (h : target ∈ state.entailed write answer source) :
    ∃ changes, target ∈ state.targets changes source := by
  cases answer with
  | error error => exact absurd h List.not_mem_nil
  | ok changes =>
      rw [entailed] at h
      split at h
      · exact absurd h List.not_mem_nil
      · exact ⟨_, h⟩

/-- A write as it goes to the store. -/
def final (state : Bindable) (source : Option Nat) (write : Write) : Write :=
  (state.prepared source write).1

/-- A state after a write has gone to the store, and before elements are told. -/
def stored (state : Bindable) (source : Option Nat) (write : Write) : Bindable :=
  { (state.prepared source write).2 with
    store := ((state.final source write).apply state.store).2 }.record
      (.stored (state.final source write))

/-- What is set is prepared by the transform of its key, and that is all that happens. -/
theorem exists_prepared (state : Bindable) (source : Option Nat) (write : Write) :
    ∃ front, (∀ event ∈ front, event.IsTransformed) ∧
      (state.prepared source write).2 = { state with journal := state.journal ++ front } := by
  cases write with
  | set key value options =>
      rw [prepared, transformed]
      cases (Dict.get? state.bindings key).bind (·.transform) with
      | none => exact ⟨[], by simp, by simp⟩
      | some transform =>
          refine ⟨[.transformed transform.name key value source.isSome], ?_, rfl⟩
          intro event hevent
          rw [List.mem_singleton.1 hevent]
          exact ⟨transform.name, key, value, source.isSome, rfl⟩
  | _ => exact ⟨[], by simp, by simp [prepared]⟩

theorem exists_stored (state : Bindable) (source : Option Nat) (write : Write) :
    ∃ front, (∀ event ∈ front, event.IsTransformed) ∧
      state.stored source write =
        { state with
          store := ((state.final source write).apply state.store).2
          journal := state.journal ++ front ++ [.stored (state.final source write)] } := by
  obtain ⟨front, htransformed, heq⟩ := exists_prepared state source write
  refine ⟨front, htransformed, ?_⟩
  rw [stored, heq]
  rfl

theorem alike_stored (state : Bindable) (source : Option Nat) (write : Write) :
    Alike state (state.stored source write) := by
  obtain ⟨front, -, heq⟩ := exists_stored state source write
  rw [heq]
  exact ⟨rfl, rfl, rfl⟩

/-- A write goes to the store once, and then to elements. -/
theorem write_eq (hpass : state.PassTags) (intake : Intake) (write : Write) (source : Option Nat) :
    Bindable.write intake state write source =
      let answer := ((state.final source write).apply state.store).1
      some (answer, (state.stored source write).showAll
        ((state.stored source write).entailed (state.final source write) answer source)) := by
  have hpassed := (alike_stored state source write).passTags hpass
  obtain ⟨front, -, hprepared⟩ := exists_prepared state source write
  have hstore : (state.prepared source write).2.store = state.store :=
    congrArg (·.store) hprepared
  rw [Bindable.write]
  dsimp only
  rw [hstore]
  change (match ((state.final source write).apply state.store).1 with
    | .error error => some (Except.error error, state.stored source write)
    | .ok changes =>
        (push intake (toldChanges (state.final source write) changes) source
          (state.stored source write)).map fun state => (Except.ok changes, state)) = _
  cases hanswer : ((state.final source write).apply state.store).1 with
  | error error => rfl
  | ok changes =>
      dsimp only
      rw [push, entailed]
      dsimp only
      split
      · rfl
      · rw [foldlM_display hpassed]
        rfl

/-- A write changes nothing about elements but their values. -/
theorem alike_write (hpass : state.PassTags) (intake : Intake) (write : Write)
    (source : Option Nat) {answer : Except Error Changes} {after : Bindable}
    (h : Bindable.write intake state write source = some (answer, after)) : Alike state after := by
  rw [write_eq hpass] at h
  obtain ⟨-, rfl⟩ := Prod.mk.inj (Option.some.inj h)
  exact (alike_stored state source write).trans (alike_showAll _ _)

/-- A user's change of an element that has one listener is set at the key of the listener. -/
theorem input_eq (depth : Nat) (state : Bindable) {element listener : Nat} {e : Element}
    {key : String} (helement : state.elements[element]? = some e)
    (hlisteners : e.listeners = [(listener, key)]) (value : Value) :
    state.input (depth + 1) element value false =
      (Bindable.write (intake depth) (state.modify element fun e => { e with value })
        (.set key value .standard) (some element)).map (·.2) := by
  have hchanged : (state.modify element fun e => { e with value }).elements[element]? =
      some { e with value } := by
    rw [getElem?_modify_self, helement]
    rfl
  rw [input, fire, hchanged]
  simp only [Bool.false_eq_true, ↓reduceIte, Option.map_some, Option.getD_some, hlisteners,
    List.foldlM_cons, List.foldlM_nil, intake, hchanged, Option.bind_eq_bind]
  cases (Bindable.write (intake depth) (state.modify element fun e => { e with value })
    (.set key value .standard) (some element)).map (·.2) <;> rfl

/-- A user's change that is tagged, or of an element without listeners, goes no further. -/
theorem input_eq_of_unheard (depth : Nat) (state : Bindable) (element : Nat) (value : Value)
    {fromStore : Bool}
    (h : fromStore = true ∨ ∀ e, state.elements[element]? = some e → e.listeners = []) :
    state.input depth element value fromStore =
      some (state.modify element fun e => { e with value }) := by
  rw [input, fire]
  cases fromStore with
  | true => rfl
  | false =>
      have hunheard := h.resolve_left (by simp)
      rw [if_neg (by simp), getElem?_modify_self]
      cases helement : state.elements[element]? with
      | none => rfl
      | some e =>
          simp only [Option.map_some, Option.getD_some, hunheard e helement]
          rfl

/-- What holds where a user has changed an element, and is kept where the value of an element is set,
holds after the user's change. -/
theorem input_induction {Kept : Bindable → Prop} {depth element : Nat} {value : Value}
    {fromStore : Bool} {after : Bindable}
    (hset : ∀ {state next : Bindable} {intake : Intake} {e : Element} {key : String}
      {answer : Except Error Changes}, Kept state → state.elements[element]? = some e →
        Bindable.write intake state (.set key e.value .standard) (some element) =
          some (answer, next) → Kept next)
    (hchanged : Kept (state.modify element fun e => { e with value }))
    (h : state.input depth element value fromStore = some after) : Kept after := by
  have hintake : ∀ {state next : Bindable} {key : String}, Kept state →
      intake depth element key state = some next → Kept next := by
    intro state next key hkept hnext
    cases depth with
    | zero => cases hnext
    | succ depth =>
        simp only [intake] at hnext
        split at hnext
        · exact Option.some.inj hnext ▸ hkept
        · next e helement =>
          obtain ⟨⟨answer, last⟩, hwrite, rfl⟩ := Option.map_eq_some_iff.1 hnext
          exact hset hkept helement hwrite
  have hlisteners : ∀ (listeners : List (Nat × String)) {state : Bindable}, Kept state →
      listeners.foldlM (fun state listener => intake depth element listener.2 state) state =
        some after → Kept after := by
    intro listeners
    induction listeners with
    | nil => exact fun hkept hnext => Option.some.inj hnext ▸ hkept
    | cons listener listeners ih =>
        intro state hkept hnext
        rw [List.foldlM_cons] at hnext
        obtain ⟨next, hfirst, hrest⟩ := Option.bind_eq_some_iff.1 hnext
        exact ih (hintake hkept hfirst) hrest
  rw [input, fire] at h
  split at h
  · exact Option.some.inj h ▸ hchanged
  · exact hlisteners _ hchanged h

end Writing

section Nesting

variable {state after : Bindable} {intake : Intake}

/-- Taking the value of an element to a key changes nothing about elements but their values. -/
def Intake.Gentle (intake : Intake) : Prop :=
  ∀ element key state after, intake element key state = some after → Alike state after

theorem alike_foldlM {α : Type} {step : Bindable → α → Option Bindable}
    (hstep : ∀ state item after, step state item = some after → Alike state after)
    {items : List α} (h : items.foldlM step state = some after) : Alike state after := by
  induction items generalizing state with
  | nil => exact Option.some.inj h ▸ Alike.refl state
  | cons item items ih =>
      rw [List.foldlM_cons] at h
      obtain ⟨next, hfirst, hrest⟩ := Option.bind_eq_some_iff.1 h
      exact (hstep _ _ _ hfirst).trans (ih hrest)

theorem alike_fire (hintake : intake.Gentle) {element : Nat} {fromStore : Bool}
    (h : fire intake element fromStore state = some after) : Alike state after := by
  rw [fire] at h
  split at h
  · exact Option.some.inj h ▸ Alike.refl state
  · exact alike_foldlM (fun state listener after hnext => hintake _ _ _ _ hnext) h

theorem alike_push (hintake : intake.Gentle) {changes : Changes} {source : Option Nat}
    (h : push intake changes source state = some after) : Alike state after := by
  rw [push] at h
  split at h
  · exact Option.some.inj h ▸ Alike.refl state
  · refine alike_foldlM (fun state target after hshown => ?_) h
    simp only [display] at hshown
    exact (alike_put state target.1 target.2 true true).trans (alike_fire hintake hshown)

/-- A write changes nothing about elements but their values, also where it makes the store write
again. -/
theorem alike_nested (hintake : intake.Gentle) {write : Write} {source : Option Nat}
    {answer : Except Error Changes}
    (h : Bindable.write intake state write source = some (answer, after)) : Alike state after := by
  have hstored := alike_stored state source write
  obtain ⟨front, -, hprepared⟩ := exists_prepared state source write
  have hstore : (state.prepared source write).2.store = state.store :=
    congrArg (·.store) hprepared
  rw [Bindable.write] at h
  dsimp only at h
  rw [hstore] at h
  split at h
  · obtain ⟨-, rfl⟩ := Prod.mk.inj (Option.some.inj h)
    exact hstored
  · obtain ⟨last, hpush, heq⟩ := Option.map_eq_some_iff.1 h
    obtain ⟨-, rfl⟩ := Prod.mk.inj heq
    exact hstored.trans (alike_push hintake hpush)

/-- By induction on how deep writes nest. -/
theorem gentle_intake (depth : Nat) : (Bindable.intake depth).Gentle := by
  induction depth with
  | zero => exact fun _ _ _ _ h => nomatch h
  | succ depth ih =>
      intro element key state after h
      simp only [Bindable.intake] at h
      split at h
      · exact Option.some.inj h ▸ Alike.refl state
      · obtain ⟨⟨answer, last⟩, hwrite, rfl⟩ := Option.map_eq_some_iff.1 h
        exact alike_nested ih hwrite

/-- A user's change changes nothing about elements but their values. -/
theorem alike_input {depth element : Nat} {value : Value} {fromStore : Bool}
    (h : state.input depth element value fromStore = some after) : Alike state after := by
  have halike : Alike state (state.modify element fun e => { e with value }) :=
    alike_modify state element fun _ => rfl
  rw [input] at h
  exact halike.trans (alike_fire (gentle_intake depth) h)

end Nesting

end Bindable

end Waymark.Store
