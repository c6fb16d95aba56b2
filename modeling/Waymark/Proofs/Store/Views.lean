import Waymark.Proofs.Store.Delivery
import Waymark.Proofs.Store.Keeping
/-!
When elements show what is in the store.

A bound element that shows the value at its key does so after a write if and only if the write tells
of a change at the key or leaves the value there as it is (`shows_iff_told_or_same`). It is left with
an old value only where the write overlooks what it changes.
-/

namespace Waymark.Store.Bindable

open Waymark.Json
open Waymark.Json.Value (Differs Ordered)

/-- What the elements of a key are to show: the value there, or null. -/
def view (state : Bindable) (key : String) : Value :=
  (state.store.get? key).getD .null

/-- An element shows what there is at a key. -/
def Shows (state : Bindable) (element : Nat) (key : String) : Prop :=
  ∃ e, state.elements[element]? = some e ∧ e.value.same (state.view key) = true

section Writing

variable {state after : Bindable} {write : Write} {source : Option Nat} {changes : Changes}
  {element : Nat} {key : String} {e : Element}

@[simp] theorem path_final (state : Bindable) (source : Option Nat) (write : Write) :
    (state.final source write).path = write.path := by
  cases write <;> rfl

@[simp] theorem isSilent_final (state : Bindable) (source : Option Nat) (write : Write) :
    (state.final source write).isSilent = write.isSilent := by
  cases write <;> rfl

@[simp] theorem toldChanges_final (state : Bindable) (source : Option Nat) (write : Write)
    (changes : Changes) :
    toldChanges (state.final source write) changes = toldChanges write changes := by
  cases write <;> rfl

@[simp] theorem view_showAll (state : Bindable) (targets : List (Nat × Value)) (key : String) :
    (state.showAll targets).view key = state.view key := by
  rw [view, view, store_showAll]

/-- A write that succeeds leaves an element with the new value at its key where that is told of, and
as it is otherwise. -/
theorem Coherent.getElem?_write (h : Coherent state) (hmode : state.mode.writesElements = true)
    {depth : Nat} (hwrite : state.writeWithin depth write source = some (.ok changes, after))
    (he : state.elements[element]? = some e) (hbound : element ∈ state.boundTo key)
    (hsource : some element ≠ source) :
    after.elements[element]? =
      some (if (toldChanges write changes).touches key then
        { e with value := e.shown (after.view key) } else e) := by
  obtain ⟨answer, last, hwritten, hdelivers⟩ := h.exists_delivers depth write source
  obtain ⟨rfl, rfl⟩ := Prod.mk.inj (Option.some.inj (hwrite.symm.trans hwritten))
  have htold : state.toldKeys write (.ok changes) =
      (Dict.keys state.bindings).filter (toldChanges write changes).touches := by
    rw [← toldKeys_final state source, toldKeys_eq state hdelivers.answered.symm hmode,
      toldChanges_final]
  obtain ⟨hplace, -⟩ := mem_boundTo_iff.1 hbound
  split
  · next htouches =>
    have hkey : key ∈ state.toldKeys write (.ok changes) := by
      obtain ⟨binding, hbinding, -⟩ := hplace
      rw [htold, List.mem_filter, Dict.mem_keys_iff, hbinding]
      exact ⟨rfl, htouches⟩
    obtain ⟨found, hfound, hshown⟩ := hdelivers.shows key hkey element hbound hsource
    obtain rfl := Option.some.inj (he.symm.trans hfound)
    exact hshown
  · next htouches =>
    rw [← he]
    apply hdelivers.spared
    refine .inr fun other hother hmem => ?_
    obtain rfl := h.key_unique hplace (mem_boundTo_iff.1 hmem).1
    rw [htold] at hother
    exact htouches (List.mem_filter.1 hother).2

theorem differs_of_view {before after : Option Value}
    (h : (before.getD .null).same (after.getD .null) = false) : Differs before after := by
  cases before with
  | none =>
      cases after with
      | none => cases h
      | some value => trivial
  | some value =>
      cases after with
      | none => trivial
      | some other => exact h

/-- What a write changes in the view of a key and does not tell of is overlooked. -/
theorem Reachable.told_or_overlooked (h : Reachable Ordered state) (hbrings : write.Brings Ordered)
    (hloud : write.isSilent = false) {depth : Nat}
    (hwrite : state.writeWithin depth write source = some (.ok changes, after))
    (hkey : Canonical key) (hdiffers : (state.view key).same (after.view key) = false) :
    (toldChanges write changes).touches key = true ∨
      ∃ before rest, state.store = .plain before ∧ after.store = .plain rest ∧
        Overlooked write.path before rest key := by
  rw [writeWithin, write_eq h.coherent.passTags] at hwrite
  obtain ⟨hanswer, rfl⟩ := Prod.mk.inj (Option.some.inj hwrite)
  obtain ⟨front, -, hstored⟩ := exists_stored state source write
  have hstore : (state.stored source write).store =
      ((state.final source write).apply state.store).2 := by
    rw [hstored]
  rw [view_showAll, view, view, hstore] at hdiffers
  rw [store_showAll, hstore]
  cases hcore : state.store with
  | layered layers =>
      obtain ⟨error, heq⟩ := (state.final source write).exists_apply_layered layers
      rw [hcore, heq] at hanswer
      cases hanswer
  | plain before =>
      have hholds := h.keeping.store
      rw [hcore] at hanswer hdiffers hholds
      rw [Write.apply_plain] at hanswer hdiffers ⊢
      have htold := touches_or_overlooked hholds.ordered (h.keeping.brings source hbrings)
        (hholds.rooted before rfl) (by rw [isSilent_final, hloud]) (Prod.ext hanswer rfl) hkey
        (differs_of_view hdiffers)
      rw [toldChanges_final, path_final] at htold
      exact htold.imp_right fun hoverlooked => ⟨before, _, rfl, rfl, hoverlooked⟩

/-- In every state that is reached, after every write that succeeds and is told of, a bound element
that has shown what was at its key shows what is there if and only if the write tells of a change
there or what is there is the same. It shows something else only where the write goes to a path with
empty parts, where it goes through the same array as the key, or where an array gave way to an
object. -/
theorem shows_iff_told_or_same (h : Reachable Ordered state)
    (hmode : state.mode.writesElements = true) (hbrings : write.Brings Ordered)
    (hloud : write.isSilent = false) {depth : Nat}
    (hwrite : state.writeWithin depth write source = some (.ok changes, after))
    (he : state.elements[element]? = some e) (hshown : e.shown = id)
    (hbound : element ∈ state.boundTo key) (hsource : some element ≠ source)
    (hshows : state.Shows element key) :
    (after.Shows element key ↔ (toldChanges write changes).touches key = true ∨
      (state.view key).same (after.view key) = true) ∧
    (Canonical key → ¬ after.Shows element key →
      ∃ before rest, state.store = .plain before ∧ after.store = .plain rest ∧
        Overlooked write.path before rest key) := by
  have hafter := h.coherent.getElem?_write hmode hwrite he hbound hsource
  obtain ⟨e', he', hsame⟩ := hshows
  obtain rfl : e = e' := Option.some.inj (he.symm.trans he')
  have hiff : after.Shows element key ↔ (toldChanges write changes).touches key = true ∨
      (state.view key).same (after.view key) = true := by
    rw [Shows, hafter]
    split
    · next htouches =>
      refine ⟨fun _ => .inl htouches, fun _ => ⟨_, rfl, ?_⟩⟩
      rw [hshown]
      exact Value.same_refl _
    · next htouches =>
      constructor
      · rintro ⟨e', heq, hshows⟩
        rw [← Option.some.inj heq] at hshows
        exact .inr (Value.same_trans (Value.same_symm hsame) hshows)
      · intro hview
        exact ⟨e, rfl, Value.same_trans hsame (hview.resolve_left htouches)⟩
  refine ⟨hiff, fun hkey hnot => ?_⟩
  obtain ⟨hsilent, hdiffers⟩ := not_or.1 fun htold => hnot (hiff.2 htold)
  have hview : (state.view key).same (after.view key) = false := Bool.eq_false_iff.2 hdiffers
  exact (h.told_or_overlooked hbrings hloud hwrite hkey hview).resolve_left hsilent

end Writing

/-- A store with an element that shows the second of two items. -/
def following : Bindable :=
  ((start (.plain ⟨.object [("list", .array [.string "a", .string "b"])], false⟩) .twoWay
    [.plain .null]).bindTo "list.1" 0 none).2

theorem reachable_following : Reachable Ordered following := by
  have hordered : Ordered (.object [("list", .array [.string "a", .string "b"])]) :=
    ⟨List.pairwise_singleton _ _, ⟨trivial, trivial, trivial⟩, trivial⟩
  have hstore : (Core.plain ⟨.object [("list", .array [.string "a", .string "b"])], false⟩).Holds
      Ordered := by
    refine ⟨fun path value hvalue => ordered_lookup hordered hvalue, fun store hplain => ?_⟩
    rw [← Core.plain.inj hplain]
    rfl
  have hfresh : ∀ element ∈ [Element.plain .null], element.Fresh Ordered := by
    intro element helement
    rw [List.mem_singleton.1 helement]
    exact ⟨trivial, fun _ hvalue => hvalue, rfl, rfl⟩
  exact (Reachable.start .twoWay hstore hfresh).bind rfl "list.1" (by simp)

/-- An element keeps the value of an item that has moved up, although its key holds nothing any
more. -/
theorem not_shows_movedItem :
    following.Shows 0 "list.1" ∧ ∃ changes after,
      following.writeWithin 0 (.remove "list.0") none = some (.ok changes, after) ∧
        ¬ after.Shows 0 "list.1" := by
  have hshows : following.Shows 0 "list.1" := ⟨_, rfl, rfl⟩
  obtain ⟨after, hwrite, hview⟩ : ∃ after,
      following.writeWithin 0 (.remove "list.0") none =
        some (.ok (.keys [("list.0", .null)]), after) ∧ after.view "list.1" = .null :=
    ⟨_, rfl, rfl⟩
  refine ⟨hshows, _, after, hwrite, fun hafter => ?_⟩
  have hbrings : (Write.remove "list.0").Brings Ordered := trivial
  have hbound : 0 ∈ following.boundTo "list.1" := by decide
  have hiff := (shows_iff_told_or_same reachable_following rfl hbrings rfl hwrite rfl rfl hbound
    (by simp) hshows).1
  rcases hiff.1 hafter with htold | hsame
  · exact absurd htold (by decide)
  · rw [hview] at hsame
    exact absurd hsame (by decide)

end Waymark.Store.Bindable
