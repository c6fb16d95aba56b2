import Waymark.Proofs.Store.Overlooking
/-!
Fields stay in key order.

Documents come into a bound store with their fields in key order, and neither writes to the store
nor what elements and transforms do to values changes that (`Reachable.keeping`).
-/

namespace Waymark.Store

open Waymark.Json
open Waymark.Json.Value (Ordered)

section Plain

variable {store after : Store} {write : Write}

/-- A store that is read-only is left as it is. -/
theorem eq_of_ifWritable_error {operation : Operation} {written : Written Store} {error : Error}
    (hwritten : written = (.error error, after) → after = store)
    (h : store.ifWritable operation written = (.error error, after)) : after = store := by
  rw [Store.ifWritable] at h
  split at h
  · exact (Prod.mk.inj h).2.symm
  · exact hwritten h

/-- A write that fails leaves a store as it is. -/
theorem applyTo_of_error (hordered : Ordered store.tree) {error : Error}
    (h : write.applyTo store = (.error error, after)) : after = store := by
  cases write with
  | set path value options =>
      rw [Write.applyTo, Edit.set_eq hordered] at h
      refine eq_of_ifWritable_error (fun hwritten => ?_) h
      split at hwritten
      · exact (Prod.mk.inj hwritten).2.symm
      · simp only [Edit.rewrite] at hwritten
        split at hwritten
        · exact absurd hwritten (by simp)
        · split at hwritten
          · exact absurd hwritten (by simp)
          · exact (Prod.mk.inj hwritten).2.symm
  | remove path =>
      refine eq_of_ifWritable_error (fun hwritten => ?_) h
      split at hwritten
      · exact absurd hwritten (by simp)
      · exact absurd hwritten (by simp)
  | merge value =>
      rw [Write.applyTo, Store.merge] at h
      split at h
      · refine eq_of_ifWritable_error (fun hwritten => ?_) h
        dsimp only at hwritten
        split at hwritten
        · exact absurd hwritten (by simp)
        · exact (Prod.mk.inj hwritten).2.symm
      · exact (Prod.mk.inj h).2.symm
  | clear => exact eq_of_ifWritable_error (fun hwritten => absurd hwritten (by simp)) h
  | replace value =>
      refine eq_of_ifWritable_error (fun hwritten => ?_) h
      cases value with
      | object fields => exact absurd hwritten (by simp)
      | _ => exact (Prod.mk.inj hwritten).2.symm

/-- A write keeps fields in key order and an object at the root. -/
theorem ordered_applyTo (hordered : Ordered store.tree) (hobject : store.tree.isObject = true)
    (hbrings : write.Brings Ordered) {answer : Except Error Changes}
    (happly : write.applyTo store = (answer, after)) :
    Ordered after.tree ∧ after.tree.isObject = true := by
  cases answer with
  | error error =>
      rw [applyTo_of_error hordered happly]
      exact ⟨hordered, hobject⟩
  | ok changes =>
      cases write with
      | set path value options =>
          rcases Edit.effect_of_set hordered hbrings happly with rfl | ⟨new, heffect, hroot⟩
          · exact ⟨hordered, hobject⟩
          · exact ⟨ordered_put hordered heffect.ordered heffect.written,
              isObject_put hobject hroot heffect.written⟩
      | merge value =>
          have hmerge : (Edit.merge value).apply store = (.ok changes, after) := happly
          have hvalue : Ordered (Edit.merge value).value := hbrings
          rcases Edit.effect_of_apply hordered hvalue trivial hmerge with rfl | ⟨new, heffect⟩
          · exact ⟨hordered, hobject⟩
          · exact ⟨ordered_put hordered heffect.ordered heffect.written,
              isObject_put hobject (fun _ => heffect.rooted rfl) heffect.written⟩
      | remove path =>
          rcases of_remove_ok happly with ⟨removed, tree, htaken, -, rfl⟩ | ⟨-, -, rfl⟩
          · exact ⟨ordered_takeOut hordered htaken, isObject_takeOut hobject htaken⟩
          · exact ⟨hordered, hobject⟩
      | clear =>
          obtain ⟨-, rfl⟩ := Prod.mk.inj (of_ifWritable_ok happly)
          exact ⟨⟨List.Pairwise.nil, trivial⟩, rfl⟩
      | replace value =>
          have hwritten := of_ifWritable_ok happly
          cases value with
          | object fields =>
              obtain ⟨-, rfl⟩ := Prod.mk.inj hwritten
              exact ⟨hbrings, rfl⟩
          | _ => exact absurd hwritten (by simp)

theorem Core.Holds.ordered (h : (Core.plain store).Holds Ordered) : Ordered store.tree :=
  h.reads "" store.tree rfl

theorem Core.Holds.apply {core : Core} (h : core.Holds Ordered) (hbrings : write.Brings Ordered) :
    (write.apply core).2.Holds Ordered := by
  cases core with
  | layered layers =>
      obtain ⟨error, heq⟩ := write.exists_apply_layered layers
      rw [heq]
      exact h
  | plain store =>
      obtain ⟨hordered, hobject⟩ :=
        ordered_applyTo h.ordered (h.rooted store rfl) hbrings (Prod.eta (write.applyTo store))
      rw [write.apply_plain store]
      constructor
      · exact fun path value hvalue => ordered_lookup hordered hvalue
      · intro other hother
        rw [← Core.plain.inj hother]
        exact hobject

end Plain

/-- An element holds a document in key order, and shows such documents as others. -/
structure Element.Keeps (element : Element) : Prop where
  value : Ordered element.value
  shows : ∀ value, Ordered value → Ordered (element.shown value)

namespace Bindable

/-- All documents in a bound store have their fields in key order. -/
structure Keeping (state : Bindable) : Prop where
  store : state.store.Holds Ordered
  elements : ∀ element ∈ state.elements, element.Keeps
  transforms : ∀ entry ∈ state.bindings, ∀ transform ∈ entry.2.transform, transform.Keeps Ordered

variable {state after : Bindable}

theorem forall_mem_modify {α : Type} {P : α → Prop} {items : List α} {change : α → α} (index : Nat)
    (h : ∀ item ∈ items, P item) (hchange : ∀ item, P item → P (change item)) :
    ∀ item ∈ items.modify index change, P item := by
  induction items generalizing index with
  | nil => simp
  | cons item items ih =>
      obtain ⟨hitem, hitems⟩ := List.forall_mem_cons.1 h
      cases index with
      | zero =>
        exact List.forall_mem_cons.2 ⟨hchange item hitem, hitems⟩
      | succ index => exact List.forall_mem_cons.2 ⟨hitem, ih index hitems⟩

theorem Keeping.modify (h : Keeping state) (element : Nat) (change : Element → Element)
    (hchange : ∀ e, e.Keeps → (change e).Keeps) : Keeping (state.modify element change) :=
  ⟨h.store, forall_mem_modify element h.elements hchange, h.transforms⟩

theorem Keeping.record (h : Keeping state) (event : BindingEvent) : Keeping (state.record event) :=
  ⟨h.store, h.elements, h.transforms⟩

theorem Keeping.put (h : Keeping state) (element : Nat) {value : Value} (hvalue : Ordered value)
    (triggers fromStore : Bool) : Keeping (state.put element value triggers fromStore) :=
  (h.modify element (fun e => { e with value := e.shown value }) fun _ he =>
    ⟨he.shows value hvalue, he.shows⟩).record _

theorem Keeping.mark (h : Keeping state) (element : Nat) (bound : Bool) :
    Keeping (state.mark element bound) :=
  (h.modify element (fun e => { e with marked := bound }) fun _ he => ⟨he.value, he.shows⟩).record _

theorem Keeping.showAll (h : Keeping state) {targets : List (Nat × Value)}
    (htargets : ∀ target ∈ targets, Ordered target.2) : Keeping (state.showAll targets) := by
  induction targets generalizing state with
  | nil => exact h
  | cons target targets ih =>
      obtain ⟨htarget, htargets⟩ := List.forall_mem_cons.1 htargets
      exact ih (h.put target.1 htarget true true) htargets

/-- A write comes out of its transform in key order. -/
theorem Keeping.brings (h : Keeping state) (source : Option Nat) {write : Write}
    (hbrings : write.Brings Ordered) : (state.final source write).Brings Ordered := by
  cases write with
  | set key value options =>
      change Ordered (state.transformed key value source).1
      rw [transformed]
      cases htransform : (Dict.get? state.bindings key).bind (·.transform) with
      | none => exact hbrings
      | some transform =>
          obtain ⟨binding, hbinding, hof⟩ := Option.bind_eq_some_iff.1 htransform
          refine h.transforms _ (Dict.mem_of_get? hbinding) transform hof value key _ hbrings ?_
          intro held hheld
          obtain ⟨element, -, hheld⟩ := Option.bind_eq_some_iff.1 hheld
          obtain ⟨e, he, rfl⟩ := Option.map_eq_some_iff.1 hheld
          exact (h.elements e (List.mem_of_getElem? he)).value
  | _ => exact hbrings

theorem Keeping.stored (h : Keeping state) (source : Option Nat) {write : Write}
    (hbrings : write.Brings Ordered) : Keeping (state.stored source write) := by
  obtain ⟨front, -, heq⟩ := exists_stored state source write
  rw [heq]
  exact ⟨h.store.apply (h.brings source hbrings), h.elements, h.transforms⟩

theorem ordered_of_mem_entailed (h : Keeping state) {write : Write}
    {answer : Except Error Changes} {source : Option Nat} {target : Nat × Value}
    (htarget : target ∈ state.entailed write answer source) : Ordered target.2 := by
  obtain ⟨changes, htarget⟩ := mem_targets_of_mem_entailed htarget
  obtain ⟨key, -, -, -, -, hvalue⟩ := mem_targets_iff.1 htarget
  rw [hvalue]
  cases hget : state.store.get? key with
  | none => trivial
  | some value => exact h.store.reads key value hget

theorem Keeping.write (h : Keeping state) (hpass : state.PassTags) (intake : Intake)
    {write : Write} (hbrings : write.Brings Ordered) {source : Option Nat}
    {answer : Except Error Changes}
    (hwrite : Bindable.write intake state write source = some (answer, after)) : Keeping after := by
  rw [write_eq hpass] at hwrite
  obtain ⟨-, rfl⟩ := Prod.mk.inj (Option.some.inj hwrite)
  exact (h.stored source hbrings).showAll fun target htarget =>
    ordered_of_mem_entailed (h.stored source hbrings) htarget

theorem Keeping.insert (h : Keeping state) (key : String) {binding : Binding}
    (hbinding : ∀ transform ∈ binding.transform, transform.Keeps Ordered) :
    Keeping { state with bindings := Dict.insert state.bindings key binding } := by
  refine ⟨h.store, h.elements, fun entry hentry => ?_⟩
  rcases Dict.mem_insert hentry with rfl | hentry
  · exact hbinding
  · exact h.transforms entry hentry

theorem Keeping.listen (h : Keeping state) (key : String) (element : Nat) :
    Keeping (state.listen key element).2 := by
  rw [Bindable.listen]
  split
  · exact h
  · exact (h.modify element (·.listen key) fun _ he => ⟨he.value, he.shows⟩).record _

theorem Keeping.given (h : Keeping state) (key : String) (element : Nat) :
    Keeping (match state.store.get? key with
      | some value => if state.mode.writesElements then state.put element value false true else state
      | none => state) := by
  split
  · next value hvalue =>
    split
    · exact h.put element (h.store.reads key value hvalue) false true
    · exact h
  · exact h

theorem Keeping.bindTo (h : Keeping state) (key : String) (element : Nat)
    {transform : Option Transform} (htransform : ∀ change ∈ transform, change.Keeps Ordered) :
    Keeping (state.bindTo key element transform).2 := by
  rw [Bindable.bindTo]
  split
  · exact h
  · split
    · exact h
    · have hlistened : Keeping (if (state.mark element true).mode.listens then
          (state.mark element true).listen key element else (none, state.mark element true)).2 := by
        split
        · exact (h.mark element true).listen key element
        · exact h.mark element true
      refine Keeping.given (hlistened.insert key fun change hchange => ?_) key element
      rcases Option.or_eq_some_iff.1 hchange with hchange | ⟨-, hchange⟩
      · exact htransform change hchange
      · cases hbinding : Dict.get? (if (state.mark element true).mode.listens then
            (state.mark element true).listen key element
          else (none, state.mark element true)).2.bindings key with
        | none =>
            rw [hbinding] at hchange
            cases hchange
        | some binding =>
            rw [hbinding] at hchange
            exact hlistened.transforms _ (Dict.mem_of_get? hbinding) change hchange

theorem Keeping.unbind (h : Keeping state) (key : String) (element : Nat) :
    Keeping (state.unbind key element).2 := by
  rw [Bindable.unbind]
  cases hbinding : Dict.get? state.bindings key with
  | none => exact h
  | some binding =>
      dsimp only
      cases hfound : binding.elements.find? (·.element = element) with
      | none => exact h
      | some bound =>
          have htransforms := h.transforms (key, binding) (Dict.mem_of_get? hbinding)
          let erased : Binding := ⟨binding.elements.erase bound, binding.transform⟩
          have hinserted : Keeping { state with
              bindings := Dict.insert state.bindings key erased } := h.insert key htransforms
          apply Keeping.mark
          split
          · next listener _ =>
            exact (hinserted.modify element (·.unlisten listener) fun _ he =>
              ⟨he.value, he.shows⟩).record _
          · exact hinserted

theorem Keeping.input (h : Keeping state) (hpass : state.PassTags) {depth element : Nat}
    {value : Value} {fromStore : Bool} (hvalue : Ordered value)
    (hinput : state.input depth element value fromStore = some after) : Keeping after := by
  have hchanged : Keeping (state.modify element fun e => { e with value }) :=
    h.modify element (fun e => { e with value }) fun _ he => ⟨hvalue, he.shows⟩
  have halike : Alike state (state.modify element fun e => { e with value }) :=
    alike_modify state element fun _ => rfl
  have hboth : Keeping (state.modify element fun e => { e with value }) ∧
      (state.modify element fun e => { e with value }).PassTags :=
    ⟨hchanged, halike.passTags hpass⟩
  have hkept : Keeping after ∧ after.PassTags := by
    refine @input_induction state (fun state => Keeping state ∧ state.PassTags) depth element value
      fromStore after ?_ hboth hinput
    rintro state next intake e key answer ⟨hkeeping, hpass⟩ he hwrite
    have hbrings : (Write.set key e.value .standard).Brings Ordered :=
      (hkeeping.elements e (List.mem_of_getElem? he)).value
    exact ⟨hkeeping.write hpass intake hbrings hwrite,
      (alike_write hpass intake _ _ hwrite).passTags hpass⟩
  exact hkept.1

theorem Reachable.keeping (h : Reachable Ordered state) : Keeping state := by
  induction h with
  | start mode hstore helements =>
      refine ⟨hstore, fun element helement => ?_, fun _ hentry => absurd hentry List.not_mem_nil⟩
      exact ⟨(helements element helement).proper, (helements element helement).shows⟩
  | bind h hlive key htransform ih => exact ih.bindTo key _ htransform
  | unbind h hlive key ih => exact ih.unbind key _
  | write h hbrings hwrite ih => exact ih.write h.coherent.passTags _ hbrings hwrite
  | input h hlive hproper hinput ih => exact ih.input h.coherent.passTags hproper hinput
  | drop h element ih =>
      exact ih.modify element (fun e => { e with alive := false }) fun _ he => ⟨he.value, he.shows⟩
  | mark h hunbound ih => exact ih.mark _ _
  | relayer h hstore hothers ih => exact ⟨hothers, ih.elements, ih.transforms⟩

end Bindable

end Waymark.Store
