import Waymark.Proofs.Store.Cycles
import Waymark.Proofs.Store.Failing
/-!
Which writes observers hear of.

A write that compares trees, which all do that do not replace the whole of it, reports no change if
and only if the trees before and after it are the same (`isEmpty_iff_same`). So a cycle tells of a
write if and only if the write has changed the tree (`starts_cycle_iff_differs`).
-/

namespace Waymark.Store

open Waymark.Json
open Waymark.Json.Value (Differs Ordered)

/-- Whether a write is told of only if it has changed something. -/
def Write.isCompared : Write → Bool
  | .set _ _ _ => true
  | .remove _ => true
  | .merge _ => true
  | .clear => false
  | .replace _ => false

section Compared

variable {tree after value removed : Value} {path : List String} {segment : String}

/-- Nothing is reported if and only if there was the same tree before. -/
theorem isEmpty_diff_iff (key : String) {old : Option Value} (hold : ∀ tree ∈ old, Ordered tree)
    (hvalue : Ordered value) :
    (diff key old value []).isEmpty = true ↔ old.any (Value.same · value) = true := by
  constructor
  · intro hempty
    refine Classical.byContradiction fun hdiffers => ?_
    obtain ⟨reported, hreported, -⟩ := reports_diff key [] hold hvalue hdiffers
    rw [List.isEmpty_iff.1 hempty] at hreported
    exact absurd hreported List.not_mem_nil
  · intro hsame
    rw [diff_of_same key [] hsame]
    rfl

/-- What is put in place of something else makes a difference. -/
theorem any_same_of_put (h : put value tree path = .ok after) (hsame : tree.same after = true) :
    (lookup tree path).any (Value.same · value) = true := by
  have hlookup := not_differs_lookup hsame path
  rw [lookup_put h] at hlookup
  cases hfound : lookup tree path with
  | none => exact absurd (by rw [hfound]; trivial) hlookup
  | some old =>
      rw [hfound, Differs, Bool.not_eq_false] at hlookup
      exact hlookup

theorem not_same_of_child {below : Value} (h : Differs (child? tree segment) (some below))
    (hafter : child? after segment = some below) : ¬ tree.same after = true := by
  intro hsame
  rw [← hafter] at h
  exact not_differs_child? hsame segment h

/-- A tree that has lost a leaf is not the same. -/
theorem not_same_of_lost (hordered : Ordered tree)
    (h : takeOut tree [segment] = some (removed, after)) : ¬ tree.same after = true := by
  intro hsame
  cases tree with
  | object fields =>
      have hlessened := lessened_of_takeOut h
      refine not_differs_child? hsame segment ?_
      rw [hlessened.held, hlessened.gone (by simp) hordered]
      trivial
  | array items =>
      obtain ⟨index, -, h⟩ := Option.bind_eq_some_iff.1 h
      obtain ⟨item, hitem, h⟩ := Option.bind_eq_some_iff.1 h
      obtain ⟨-, rfl⟩ := Prod.mk.inj (Option.some.inj h)
      have hindex : index < items.length := (List.getElem?_eq_some_iff.1 hitem).1
      have hlast : (items.eraseIdx index)[items.length - 1]? = none :=
        List.getElem?_eq_none (Nat.le_of_eq (List.length_eraseIdx_of_lt hindex))
      refine Value.not_differs_getElem? hsame (items.length - 1) ?_
      rw [hlast, List.getElem?_eq_getElem (by omega)]
      trivial
  | _ => cases h

/-- A tree that something has been taken out of is not the same. -/
theorem not_same_of_takeOut (hordered : Ordered tree)
    (h : takeOut tree path = some (removed, after)) : ¬ tree.same after = true := by
  induction path generalizing tree after with
  | nil => cases h
  | cons first path ih =>
      rcases takeOut_cases h with ⟨segment, hpath, -⟩ |
        ⟨segment, rest, child, below, hpath, -, hchild, hbelow, hrenewed⟩
      · obtain ⟨rfl, rfl⟩ := List.cons.inj hpath
        exact not_same_of_lost hordered h
      · obtain ⟨rfl, rfl⟩ := List.cons.inj hpath
        refine not_same_of_child ?_ hrenewed.held
        rw [hchild, Differs, ← Bool.not_eq_true]
        exact ih (ordered_child? hordered hchild) hbelow

theorem isEmpty_removedLeaves (key : String) (value : Value) :
    (removedLeaves key value []).isEmpty = false := by
  obtain ⟨reported, hreported, -⟩ := reports_removedLeaves key value []
  cases hleaves : removedLeaves key value [] with
  | nil =>
      rw [hleaves] at hreported
      exact absurd hreported List.not_mem_nil
  | cons leaf leaves => rfl

end Compared

section Effective

variable {store after : Store} {write : Write} {changes : Changes}

/-- A value that is set was there already, or it is put in and the difference is reported. -/
theorem rewrite_cases {path : String} {new : Value} (hordered : Ordered store.tree)
    (hnew : Ordered new) (h : Edit.rewrite store path new = (.ok changes, after)) :
    ((lookup store.tree (segments path)).any (Value.same · new) = true ∧ changes = .none ∧
      after = store) ∨
    (put new store.tree (segments path) = .ok after.tree ∧ after.readOnly = store.readOnly ∧
      changes = .keys (diff path (lookup store.tree (segments path)) new [])) := by
  rcases Edit.of_rewrite_ok h with ⟨hempty, rfl, rfl⟩ | ⟨-, hput, hreadOnly, rfl⟩
  · have hold : ∀ old ∈ lookup after.tree (segments path), Ordered old :=
      fun old hfound => ordered_lookup hordered hfound
    exact .inl ⟨(isEmpty_diff_iff path hold hnew).1 (List.isEmpty_iff.2 hempty), rfl, rfl⟩
  · exact .inr ⟨hput, hreadOnly, rfl⟩

/-- A value that is set is reported if and only if it makes a difference. -/
theorem isEmpty_rewrite_iff {path : String} {new : Value}
    (h : Edit.rewrite store path new = (.ok changes, after)) :
    changes.isEmpty = true ↔ store.tree.same after.tree = true := by
  rcases Edit.of_rewrite_ok h with ⟨-, rfl, rfl⟩ | ⟨hreported, hput, -, rfl⟩
  · exact ⟨fun _ => Value.same_refl after.tree, fun _ => rfl⟩
  · refine ⟨fun hempty => absurd (List.isEmpty_iff.1 hempty) hreported, fun hsame => ?_⟩
    exact absurd (diff_of_same path [] (any_same_of_put hput hsame)) hreported

/-- A write that compares trees reports nothing if and only if they are the same. -/
theorem isEmpty_iff_same (hordered : Ordered store.tree) (hcompared : write.isCompared = true)
    (hbrings : write.Brings Ordered) (happly : write.applyTo store = (.ok changes, after)) :
    changes.isEmpty = true ↔ store.tree.same after.tree = true := by
  cases write with
  | set path value options =>
      rw [Write.applyTo, Edit.set_eq hordered] at happly
      have hwritten := of_ifWritable_ok happly
      split at hwritten
      · cases (Prod.mk.inj hwritten).1
      · exact isEmpty_rewrite_iff hwritten
  | remove path =>
      rcases of_remove_ok happly with ⟨removed, tree, htaken, rfl, rfl⟩ | ⟨-, rfl, rfl⟩
      · rw [Changes.isEmpty, isEmpty_removedLeaves]
        exact ⟨fun h => absurd h (by simp), fun h => absurd h (not_same_of_takeOut hordered htaken)⟩
      · exact ⟨fun _ => Value.same_refl after.tree, fun _ => rfl⟩
  | merge value =>
      obtain ⟨-, rfl, rfl⟩ := of_merge_ok happly
      rw [diffTrees, Changes.isEmpty,
        isEmpty_diff_iff "" (fun tree htree => ?_)
          (ordered_deepMerge store.tree value hordered hbrings)]
      · rfl
      · obtain rfl := Option.mem_some.1 htree
        exact hordered
  | clear => cases hcompared
  | replace value => cases hcompared

end Effective

namespace Observable

/-- What a store with observers is after a write that has left a plain store. -/
def wrote (state : Observable) (after : Store) (changes : Changes) : Observable :=
  { state with store := .plain after }.record (.wrote changes)

/-- A write starts no cycle: it comes to the same whatever would run one. -/
def StartsNone (state : Observable) (write : Write) : Prop :=
  ∃ result, ∀ cycle : Cycle, Observable.write cycle state write = some result

/-- In the journal, a write is followed by the beginning of a cycle and then by given entries. -/
def Started (state final : Observable) (changes : Changes) (next : List Entry) : Prop :=
  ∃ rest, final.journal = state.journal ++ ⟨.wrote changes, state.inFlight⟩ ::
    ⟨.opened, state.inFlight + 1⟩ :: (next ++ rest)

section Writing

variable {state final : Observable} {store after : Store} {write : Write} {changes : Changes}
  {args : List Value} {answer : Except Error Changes} {first : Observer} {rest : List Observer}

theorem isTold_of_compared (hcompared : write.isCompared = true) (hloud : write.isSilent = false) :
    write.isTold changes = !changes.isEmpty := by
  cases write with
  | set path value options =>
      rw [Write.isTold, show options.silent = false from hloud]
      rfl
  | remove path => rfl
  | merge value => rfl
  | clear => cases hcompared
  | replace value => cases hcompared

theorem isTold_of_isSilent (hsilent : write.isSilent = true) : write.isTold changes = false := by
  cases write with
  | set path value options =>
      rw [Write.isTold, show options.silent = true from hsilent]
      rfl
  | _ => cases hsilent

theorem write_eq_of_ok (hstore : state.store = .plain store)
    (happly : write.applyTo store = (.ok changes, after)) (cycle : Cycle) :
    Observable.write cycle state write =
      if write.isTold changes then
        (cycle changes [] (state.wrote after changes)).map fun (answer, state) =>
          (answer.map fun _ => changes, state)
      else some (.ok changes, state.wrote after changes) := by
  rw [Observable.write, hstore, Write.apply_plain, happly]
  rfl

theorem startsNone_of_error {error : Error} (hstore : state.store = .plain store)
    (happly : write.applyTo store = (.error error, after)) : StartsNone state write := by
  refine ⟨(.error error, { state with store := .plain after }), fun cycle => ?_⟩
  rw [Observable.write, hstore, Write.apply_plain, happly]

/-- A write starts no cycle if and only if it fails or is not to be told of. -/
theorem startsNone_iff (hstore : state.store = .plain store)
    (happly : write.applyTo store = (.ok changes, after)) :
    StartsNone state write ↔ write.isTold changes = false := by
  constructor
  · rintro ⟨result, hresult⟩
    by_cases htold : write.isTold changes = true
    · have hnone := hresult fun _ _ _ => none
      rw [write_eq_of_ok hstore happly, if_pos htold] at hnone
      cases hnone
    · exact Bool.not_eq_true _ ▸ htold
  · intro htold
    refine ⟨(.ok changes, state.wrote after changes), fun cycle => ?_⟩
    rw [write_eq_of_ok hstore happly, htold]
    rfl

/-- Without a filter, the handlers of all observers are called in order. -/
theorem leaves_spawnAll (changes : Changes) (args : List Value) (observers : List Observer)
    (state : Observable) :
    state.Leaves (spawnAll none changes args observers state) (observers.map fun observer =>
      ⟨.called (observer.notification changes args), state.inFlight⟩) := by
  induction observers generalizing state with
  | nil => exact .refl state
  | cons observer observers ih =>
      let notification := observer.notification changes args
      let task : Task := ⟨observer.id, true, observer.handler notification⟩
      let called := state.record (.called notification)
      have hcalled : state.Leaves { called with tasks := called.tasks ++ [task] }
          [⟨.called notification, state.inFlight⟩] := ⟨rfl, rfl, rfl⟩
      exact hcalled.trans (ih { called with tasks := called.tasks ++ [task] })

/-- Without a filter, the first observer is called at once. -/
theorem Goes.exists_called {within : Cycle} {round : Round} {state after : Observable}
    {answer : Except Error Unit}
    (h : Goes within none changes args state (first :: rest) round answer after) :
    ∃ script failure others, round = .called first.id first.options script failure others := by
  cases h with
  | passedOver hasked hrest => cases (Prod.mk.inj hasked).1
  | finished hasked hran hrest => exact ⟨_, _, _, rfl⟩
  | failed hasked hran => exact ⟨_, _, _, rfl⟩

/-- A cycle in a store without a filter begins with the call of the first observer, unless handlers
cannot be left to run later. -/
theorem exists_journal_notify (hunmuted : state.muted = false) (hfilter : state.filter = none)
    (hobservers : state.observers = first :: rest) {depth : Nat} {answer : Except Error Unit}
    (h : notify depth changes args state = some (answer, final)) :
    ∃ next tail, final.journal =
        state.journal ++ ⟨.opened, state.inFlight + 1⟩ :: (next ++ tail) ∧
      (state.dispatch = .sync ∨ state.hasRuntime = true →
        next = [⟨.called (first.notification changes args), state.inFlight + 1⟩]) := by
  rw [notify_eq] at h
  cases hdispatch : state.dispatch with
  | sync =>
      obtain ⟨round, ⟨last, hgoes, -⟩, -, hjournal⟩ :=
        (tell_iff_cycled (rounds_inner depth) hdispatch hunmuted).1 h
      rw [hfilter, hobservers] at hgoes
      obtain ⟨script, failure, others, rfl⟩ := hgoes.exists_called
      exact ⟨[⟨.called (first.notification changes args), state.inFlight + 1⟩], _, hjournal,
        fun _ => rfl⟩
  | async =>
      rw [tell, hunmuted, hdispatch, hfilter, hobservers] at h
      dsimp only at h
      rw [if_neg Bool.false_ne_true] at h
      obtain ⟨⟨told, last⟩, htold, hlast⟩ := Option.map_eq_some_iff.1 h
      obtain ⟨-, rfl⟩ := Prod.mk.inj hlast
      split at htold
      · obtain ⟨-, rfl⟩ := Prod.mk.inj (Option.some.inj htold)
        have hcycle := (leaves_spawnAll changes args (first :: rest) state.enter).cycle
        exact ⟨[⟨.called (first.notification changes args), state.inFlight + 1⟩], _,
          hcycle.journal, fun _ => rfl⟩
      · next hruntime =>
        obtain ⟨-, rfl⟩ := Prod.mk.inj (Option.some.inj htold)
        refine ⟨[], _, (Leaves.refl state.enter).cycle.journal, fun hruns => ?_⟩
        rcases hruns with hsync | hruns
        · cases hsync
        · exact absurd hruns hruntime

/-- A write that is told of is followed by a cycle in the journal. -/
theorem exists_started (hstore : state.store = .plain store)
    (happly : write.applyTo store = (.ok changes, after)) (htold : write.isTold changes = true)
    (hunmuted : state.muted = false) (hfilter : state.filter = none)
    (hobservers : state.observers = first :: rest) {depth : Nat}
    (h : Observable.write (notify depth) state write = some (answer, final)) :
    ∃ next, Started state final changes next ∧
      (state.dispatch = .sync ∨ state.hasRuntime = true →
        next = [⟨.called (first.notification changes []), state.inFlight + 1⟩]) := by
  rw [write_eq_of_ok hstore happly, if_pos htold] at h
  obtain ⟨⟨told, last⟩, hnotify, hlast⟩ := Option.map_eq_some_iff.1 h
  obtain ⟨-, rfl⟩ := Prod.mk.inj hlast
  have hloud : (state.wrote after changes).muted = false := hunmuted
  have hopen : (state.wrote after changes).filter = none := hfilter
  have hobserved : (state.wrote after changes).observers = first :: rest := hobservers
  obtain ⟨next, tail, hjournal, hnext⟩ := exists_journal_notify hloud hopen hobserved hnotify
  refine ⟨next, ⟨tail, ?_⟩, hnext⟩
  rw [hjournal]
  simp [wrote, record]

/-- A write that is not told of is the last thing in the journal. -/
theorem not_started (hstore : state.store = .plain store)
    (happly : write.applyTo store = (.ok changes, after)) (htold : write.isTold changes = false)
    {cycle : Cycle} (h : Observable.write cycle state write = some (answer, final))
    (next : List Entry) : ¬ Started state final changes next := by
  rw [write_eq_of_ok hstore happly, htold] at h
  obtain ⟨-, rfl⟩ := Prod.mk.inj (Option.some.inj h)
  rintro ⟨tail, hjournal⟩
  have hentries := List.append_cancel_left
    (show state.journal ++ [⟨.wrote changes, state.inFlight⟩] = _ from hjournal)
  exact absurd (List.cons.inj hentries).2 (by simp)

/-- A cycle tells of a write that leaves the tree different, and of no other one that compares
trees: not of one that leaves the tree the same, or fails, or is to be kept silent. It begins with
the call of the first observer. -/
theorem starts_cycle_iff_differs (hstore : state.store = .plain store) (hreached : store.Reached)
    (hunmuted : state.muted = false) (hfilter : state.filter = none)
    (hobservers : state.observers = first :: rest) (hcompared : write.isCompared = true)
    (hbrings : write.Brings Ordered) :
    (∀ changes after, write.applyTo store = (.ok changes, after) → write.isSilent = false →
      (StartsNone state write ↔ store.tree.same after.tree = true) ∧
      ∀ depth answer final, Observable.write (notify depth) state write = some (answer, final) →
        ((∃ next, Started state final changes next) ↔ store.tree.same after.tree = false) ∧
        (store.tree.same after.tree = false → state.dispatch = .sync ∨ state.hasRuntime = true →
          Started state final changes
            [⟨.called (first.notification changes []), state.inFlight + 1⟩])) ∧
    (∀ error after, write.applyTo store = (.error error, after) → StartsNone state write) ∧
    (write.isSilent = true → StartsNone state write) := by
  obtain ⟨hordered, -⟩ := hreached.ordered
  refine ⟨fun changes after happly hloud => ?_, fun error after happly => ?_, fun hsilent => ?_⟩
  · have hempty := isEmpty_iff_same hordered hcompared hbrings happly
    have htold : write.isTold changes = !changes.isEmpty := isTold_of_compared hcompared hloud
    refine ⟨?_, fun depth answer final hwrite => ?_⟩
    · rw [startsNone_iff hstore happly, htold, Bool.not_eq_false', hempty]
    · cases hsame : store.tree.same after.tree with
      | true =>
          rw [hempty.2 hsame] at htold
          have hnone := not_started hstore happly htold hwrite
          exact ⟨⟨fun ⟨next, hnext⟩ => absurd hnext (hnone next), fun h => by cases h⟩,
            fun h => by cases h⟩
      | false =>
          have hreported : changes.isEmpty = false := by
            rw [← Bool.not_eq_true, hempty, hsame]
            exact Bool.false_ne_true
          rw [hreported] at htold
          obtain ⟨next, hnext, hcalled⟩ :=
            exists_started hstore happly htold hunmuted hfilter hobservers hwrite
          exact ⟨⟨fun _ => rfl, fun _ => ⟨next, hnext⟩⟩, fun _ hruns => hcalled hruns ▸ hnext⟩
  · exact startsNone_of_error hstore happly
  · rcases happly : write.applyTo store with ⟨answer, after⟩
    cases answer with
    | error error => exact startsNone_of_error hstore happly
    | ok changes => exact (startsNone_iff hstore happly).2 (isTold_of_isSilent hsilent)

end Writing

/-- A store of a list with two equal items, and somebody who observes it. -/
def observedTwins : Observable where
  store := .plain (.ofValue (.object [("list", .array [.null, .null])]))
  observers := [⟨"first", .null, fun _ => .done⟩]
  filter := none
  muted := false
  inFlight := 0
  dispatch := .sync
  hasRuntime := false
  tasks := []
  journal := []

/-- The observer is told when one of the items is removed, although an equal one takes its place. -/
theorem started_observedTwins :
    ∃ final, Observable.write (notify 0) observedTwins (.remove "list.0") =
        some (.ok (.keys [("list.0", .null)]), final) ∧
      Started observedTwins final (.keys [("list.0", .null)])
        [⟨.called ⟨"first", .null, .keys [("list.0", .null)], []⟩, 1⟩] := by
  obtain ⟨final, hwrite⟩ : ∃ final,
      Observable.write (notify 0) observedTwins (.remove "list.0") =
        some (.ok (.keys [("list.0", .null)]), final) := ⟨_, rfl⟩
  have hvalue : Ordered (.object [("list", .array [.null, .null])]) :=
    ⟨List.pairwise_singleton _ _, ⟨trivial, trivial, trivial⟩, trivial⟩
  have hstore : observedTwins.store =
      .plain (.ofValue (.object [("list", .array [.null, .null])])) := rfl
  have happly : (Write.remove "list.0").applyTo
      (.ofValue (.object [("list", .array [.null, .null])])) =
        (.ok (.keys [("list.0", .null)]), ⟨.object [("list", .array [.null])], false⟩) := by rfl
  have hbrings : (Write.remove "list.0").Brings Ordered := trivial
  have hstarts := (starts_cycle_iff_differs hstore (.ofValue hvalue) rfl rfl rfl rfl hbrings).1
    _ _ happly rfl
  exact ⟨final, hwrite, (hstarts.2 0 _ final hwrite).2 (by decide) (.inl rfl)⟩

end Observable

end Waymark.Store
