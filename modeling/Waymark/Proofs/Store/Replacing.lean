import Waymark.Proofs.Store.Effective
/-!
Whom a replaced tree is told to.

Observers may name a key in their options and be told of the changes that touch it. When the whole
tree is replaced, the fields of the new tree are told of. So an observer is called if and only if
one of these fields overlaps its key, and not when its key is gone with a field that the new tree
lacks (`called_iff_not_dropped`).
-/

namespace Waymark.Store

open Waymark.Json
open Waymark.Json.Value (Differs)

/-- The key that an observer names in its options. -/
def watched? (options : Value) : Option String :=
  match options with
  | .object fields =>
      match Dict.get? fields "key" with
      | some (.string key) => some key
      | _ => none
  | _ => none

/-- The filter that delivers to observers the changes that touch their keys. -/
def watching : Filter := fun notification =>
  (watched? notification.options).any notification.changes.touches

/-- A script that neither writes nor fails, nor asks for a cycle. -/
inductive Script.Peaceful : Script → Prop
  | done : Peaceful .done
  | pause {rest : Script} (h : rest.Peaceful) : Peaceful (.pause rest)
  | look {rest : View → Script} (h : ∀ view, (rest view).Peaceful) : Peaceful (.look rest)
  | remark {note : Value} {rest : Script} (h : rest.Peaceful) : Peaceful (.remark note rest)
  | subscribe {id : String} {options : Value} {handler : Notification → Script} {rest : Script}
      (h : rest.Peaceful) : Peaceful (.subscribe id options handler rest)
  | unsubscribe {id : String} {rest : Bool → Script} (h : ∀ existed, (rest existed).Peaceful) :
      Peaceful (.unsubscribe id rest)
  | setFilter {accepts : Option Filter} {rest : Script} (h : rest.Peaceful) :
      Peaceful (.setFilter accepts rest)
  | setMuted {muted : Bool} {rest : Script} (h : rest.Peaceful) : Peaceful (.setMuted muted rest)

namespace Observable

section Peace

variable {within : Cycle} {state : Observable} {observers : List Observer}

/-- A peaceful script comes to its end and leaves the store as it is. -/
theorem exists_advance_of_peaceful {script : Script} (h : script.Peaceful) (id : Option String) :
    ∃ after, advance within true id script state = some (.finished, after) ∧
      after.store = state.store := by
  induction h generalizing state with
  | done => exact ⟨state, rfl, rfl⟩
  | pause _ ih => exact ih
  | look _ ih => exact ih state.view
  | remark _ ih => exact ih
  | subscribe _ ih => exact ih
  | unsubscribe _ ih => exact ih _
  | setFilter _ ih => exact ih
  | setMuted _ ih => exact ih

/-- Telling peaceful observers comes to its end and leaves the store as it is. -/
theorem exists_tellAll_of_peaceful (filter : Option Filter) (changes : Changes)
    (args : List Value)
    (h : ∀ observer ∈ observers, ∀ notification, (observer.handler notification).Peaceful) :
    ∃ after, tellAll within filter changes args observers state = some (.ok (), after) ∧
      after.store = state.store := by
  induction observers generalizing state with
  | nil => exact ⟨state, rfl, rfl⟩
  | cons observer observers ih =>
      obtain ⟨hobserver, hobservers⟩ := List.forall_mem_cons.1 h
      rw [tellAll]
      rcases hasked : state.consult filter (observer.notification changes args) with
        ⟨accepted, asked⟩
      have hstore : asked.store = state.store := by
        cases filter <;> exact congrArg (·.2.store) hasked.symm
      rw [← hstore]
      cases accepted with
      | false => exact ih hobservers
      | true =>
          let notification := observer.notification changes args
          obtain ⟨ended, hended, hkept⟩ := @exists_advance_of_peaceful within
            (asked.call notification) _ (hobserver notification) (some observer.id)
          obtain ⟨after, hafter, hstore⟩ := @ih (ended.record (.finished observer.id)) hobservers
          refine ⟨after, ?_, hstore.trans hkept⟩
          have hrun : advance within true (some observer.id) (observer.handler notification)
              ((asked.record (.called notification)).record (.started observer.id)) =
                some (.finished, ended) := hended
          dsimp only
          rw [if_pos rfl, hrun]
          exact hafter

end Peace

/-- The value at a key is gone, and no field of the new tree overlaps the key. -/
structure Dropped (store : Store) (fields : Dict Value) (key : String) : Prop where
  held : (store.get? key).isSome = true
  gone : lookup (.object fields) (segments key) = none
  unrelated : ∀ name ∈ Dict.keys fields, overlap name key = false

section Replacing

variable {state : Observable} {store : Store} {fields : Dict Value} {key : String}

theorem accepts_watching_iff {observer : Observer} (hkey : watched? observer.options = some key)
    (args : List Value) :
    accepts (some watching) (.keys fields) args observer = true ↔
      ∃ name ∈ Dict.keys fields, overlap name key = true := by
  rw [← touches_keys_iff]
  have hoptions : (observer.notification (.keys fields) args).options = observer.options := rfl
  rw [accepts, Option.all_some, watching, hoptions, hkey, Option.any_some]
  rfl

/-- The first segment of a key where a tree has a value is a field of the tree. -/
theorem exists_overlap_of_lookup (hkey : Canonical key)
    (hfound : (lookup (.object fields) (segments key)).isSome = true) :
    ∃ name ∈ Dict.keys fields, overlap name key = true := by
  obtain ⟨name, rest, hsegments⟩ := List.exists_cons_of_ne_nil (segments_ne_nil hkey)
  have hplain : Plain name := plain_of_mem_segments (hsegments ▸ List.mem_cons_self)
  refine ⟨name, ?_, ?_⟩
  · rw [hsegments, lookup_cons, child?] at hfound
    rw [Dict.mem_keys_iff]
    cases hget : Dict.get? fields name with
    | none =>
        rw [hget] at hfound
        cases hfound
    | some value => rfl
  · rw [overlap_iff hplain.1 hkey.1]
    refine .inr ?_
    rw [Within, parts_of_plain hplain, parts_eq_of_canonical hkey, hsegments]
    exact List.prefix_append [name.toList] (rest.map String.toList)

/-- A key that reads differently is dropped unless a field of the new tree overlaps it. -/
theorem overlaps_iff_not_dropped (hkey : Canonical key)
    (hdiffers : Differs (store.get? key) (lookup (.object fields) (segments key))) :
    (∃ name ∈ Dict.keys fields, overlap name key = true) ↔ ¬ Dropped store fields key := by
  constructor
  · rintro ⟨name, hname, hoverlap⟩ hdropped
    rw [hdropped.unrelated name hname] at hoverlap
    cases hoverlap
  · intro hkept
    refine Classical.byContradiction fun hnone => hkept ?_
    have hgone : lookup (.object fields) (segments key) = none := by
      cases hfound : lookup (.object fields) (segments key) with
      | none => rfl
      | some value => exact absurd (exists_overlap_of_lookup hkey (by rw [hfound]; rfl)) hnone
    refine ⟨?_, hgone, fun name hname => ?_⟩
    · rw [hgone] at hdiffers
      exact Value.isSome_of_differs_none_right hdiffers
    · exact Bool.not_eq_true _ ▸ fun hoverlap => hnone ⟨name, hname, hoverlap⟩

/-- The observers that a replacement calls: in order, those whose keys a field of the new tree
overlaps. Of those whose keys read differently, that leaves out the ones whose keys are dropped. -/
structure Informs (store : Store) (fields : Dict Value) (observers called : List Observer) :
    Prop where
  inOrder : called.Sublist observers
  overlaps : ∀ observer ∈ observers, ∀ key, watched? observer.options = some key →
    (observer ∈ called ↔ ∃ name ∈ Dict.keys fields, overlap name key = true)
  dropped : ∀ observer ∈ observers, ∀ key, watched? observer.options = some key → Canonical key →
    Differs (store.get? key) (lookup (.object fields) (segments key)) →
      (observer ∈ called ↔ ¬ Dropped store fields key)

theorem informs_filter (store : Store) (fields : Dict Value) (observers : List Observer) :
    Informs store fields observers
      (observers.filter (accepts (some watching) (.keys fields) [])) := by
  have hoverlaps : ∀ observer ∈ observers, ∀ key, watched? observer.options = some key →
      (observer ∈ observers.filter (accepts (some watching) (.keys fields) []) ↔
        ∃ name ∈ Dict.keys fields, overlap name key = true) := by
    intro observer hobserver key hkey
    rw [List.mem_filter, accepts_watching_iff hkey]
    exact and_iff_right hobserver
  refine ⟨List.filter_sublist, hoverlaps, fun observer hobserver key hkey hcanonical hdiffers => ?_⟩
  rw [hoverlaps observer hobserver key hkey]
  exact overlaps_iff_not_dropped hcanonical hdiffers

/-- In a store that tells its observers at once of the changes that touch their keys, a replacement
calls an observer if and only if a field of the new tree overlaps its key. One whose key reads
differently is called if and only if the key is not dropped. Observers that neither write nor fail
do not keep the replacement from its end. -/
theorem called_iff_not_dropped (hstore : state.store = .plain store)
    (hwritable : store.readOnly = false) (hsync : state.dispatch = .sync)
    (hunmuted : state.muted = false) (hfilter : state.filter = some watching)
    (fields : Dict Value) (depth : Nat) :
    ((∀ observer ∈ state.observers, ∀ notification, (observer.handler notification).Peaceful) →
      ∃ final, Observable.write (notify depth) state (.replace (.object fields)) =
          some (.ok (.keys fields), final) ∧
        final.store = .plain ⟨.object fields, false⟩) ∧
    ∀ changes final, Observable.write (notify depth) state (.replace (.object fields)) =
        some (.ok changes, final) →
      ∃ round called,
        Cycled (inner depth) (.keys fields) []
          (state.wrote ⟨.object fields, false⟩ (.keys fields)) round (.ok ()) final ∧
        round.calls = called.map (fun observer => (observer.id, observer.options, none)) ∧
        Informs store fields state.observers called := by
  have happly : (Write.replace (.object fields)).applyTo store =
      (.ok (.keys fields), ⟨.object fields, false⟩) := by
    rw [Write.applyTo, Store.replace, ifWritable, hwritable]
    rfl
  let replaced := state.wrote ⟨.object fields, false⟩ (.keys fields)
  have htells : (Write.replace (.object fields)).isTold (.keys fields) = true := rfl
  have hreplaced : replaced.dispatch = .sync ∧ replaced.muted = false := ⟨hsync, hunmuted⟩
  rw [write_eq_of_ok hstore happly, if_pos htells]
  constructor
  · intro hpeaceful
    obtain ⟨told, htold, hkept⟩ := @exists_tellAll_of_peaceful (inner depth) replaced.enter
      state.observers replaced.filter (.keys fields) [] hpeaceful
    refine ⟨told.leave, ?_, hkept⟩
    rw [notify_eq, tell_eq_of_sync hreplaced.1 hreplaced.2,
      show replaced.observers = state.observers from rfl, htold]
    rfl
  · intro changes final hfinal
    obtain ⟨⟨answer, last⟩, hnotify, hlast⟩ := Option.map_eq_some_iff.1 hfinal
    obtain ⟨hanswer, rfl⟩ := Prod.mk.inj hlast
    obtain ⟨round, hcycled⟩ :=
      (((notify_iff_cycled hreplaced.1 depth (.keys fields) []).2 hreplaced.2).1 answer last).1
        hnotify
    cases answer with
    | error error => cases hanswer
    | ok done =>
        refine ⟨round, _, hcycled, ?_, informs_filter store fields state.observers⟩
        have hvisits := hcycled.visits
        rw [show replaced.filter = some watching from hfilter] at hvisits
        cases hvisits with
        | all hasked hcalled => exact hcalled

/-- A store with one field, and somebody who observes it. -/
def watchedField : Observable where
  store := .plain (.ofValue (.object [("a", .null)]))
  observers := [⟨"watcher", .object [("key", .string "a")], fun _ => .done⟩]
  filter := some watching
  muted := false
  inFlight := 0
  dispatch := .sync
  hasRuntime := false
  tasks := []
  journal := []

/-- The observer is not called when a tree without the field takes the place of the other one. -/
theorem not_called_watchedField :
    ∃ final round, Observable.write (notify 0) watchedField (.replace (.object [("b", .null)])) =
        some (.ok (.keys [("b", .null)]), final) ∧
      Cycled (inner 0) (.keys [("b", .null)]) []
        (watchedField.wrote ⟨.object [("b", .null)], false⟩ (.keys [("b", .null)])) round
        (.ok ()) final ∧
      Differs ((Store.ofValue (.object [("a", .null)])).get? "a")
        (lookup (.object [("b", .null)]) (segments "a")) ∧
      round.calls = [] := by
  have hstore : watchedField.store = .plain (.ofValue (.object [("a", .null)])) := rfl
  obtain ⟨hends, hcalls⟩ := called_iff_not_dropped hstore rfl rfl rfl rfl [("b", .null)] 0
  have hpeaceful : ∀ observer ∈ watchedField.observers, ∀ notification,
      (observer.handler notification).Peaceful := by
    intro observer hobserver notification
    rw [List.mem_singleton.1 hobserver]
    exact .done
  obtain ⟨final, hwrite, -⟩ := hends hpeaceful
  obtain ⟨round, called, hcycled, hround, hinforms⟩ := hcalls _ final hwrite
  refine ⟨final, round, hwrite, hcycled, trivial, ?_⟩
  have hdropped : Dropped (Store.ofValue (.object [("a", .null)])) [("b", .null)] "a" := by
    refine ⟨rfl, rfl, fun name hname => ?_⟩
    rw [List.mem_singleton.1 hname]
    decide
  have hnobody : called = [] := by
    refine List.eq_nil_iff_forall_not_mem.2 fun observer hobserver => ?_
    have hmem := hinforms.inOrder.subset hobserver
    have hkey : watched? observer.options = some "a" := by
      rw [List.mem_singleton.1 hmem]
      rfl
    exact (hinforms.dropped observer hmem "a" hkey ⟨by decide, by decide⟩ trivial).1 hobserver
      hdropped
  rw [hround, hnobody]
  rfl

end Replacing

end Observable

end Waymark.Store
