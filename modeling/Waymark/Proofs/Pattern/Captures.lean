import Waymark.Proofs.Pattern.Language
/-!
What the groups of the parameters capture.

A match of the item of a parameter either passes it over, where it may be absent, or captures its
values with the text between them in the group of the parameter (`Key.captured_of_runs`). It leaves
the groups of all other parameters alone.
-/

namespace Waymark.Pattern

open Regex (Between Expr State row)
open Regex.Expr (RunsAll runsAll_append runsAll_singleton runs_row)

variable {options : Options} {text : Array Char}

section Groups

theorem groups_textItems (options : Options) (written : List Char) :
    (options.textItems written).flatMap Expr.groups = [] := by
  rw [Options.textItems, List.flatMap_map]
  exact List.flatMap_eq_nil_iff.2 fun _ _ => rfl

theorem groups_quantifiedItem (quantifier : Option Quantifier) (item : Expr) :
    (quantifiedItem quantifier item).groups = item.groups := by
  cases quantifier <;> rfl

theorem Key.groups_inside (options : Options) (key : Key) :
    (row (key.insideItems options)).groups = [] := by
  rw [Expr.groups_row]
  unfold insideItems
  split
  · split
    · rw [List.flatMap_singleton, groups_quantifiedItem]
      rfl
    · simp only [List.flatMap_cons, List.flatMap_nil, groups_quantifiedItem, Expr.groups_row,
        List.flatMap_append, groups_textItems]
      rfl
  · rfl

theorem Key.groups_item (options : Options) (key : Key) (index : Nat) :
    (key.item options index).groups = [index + 1] := by
  have hgroup : (key.groupItem options index).groups = [index + 1] := by
    rw [groupItem, Expr.groups, groups_inside]
  rw [item, groups_quantifiedItem]
  unfold framedItem
  split
  · exact hgroup
  · simp [Expr.groups_row, groups_textItems, hgroup]

/-- The groups of segments are numbered from left to right. -/
theorem Segment.groups_allItems (options : Options) (segments : List Segment) (index : Nat) :
    (allItems options index segments).flatMap Expr.groups =
      List.range' (index + 1) (allGroups segments) := by
  induction segments generalizing index with
  | nil => rfl
  | cons segment segments ih =>
      rw [allItems, List.flatMap_append, ih]
      cases segment with
      | literal written => simp [items, groups_textItems, allGroups, groups]
      | key parameter =>
          simp [items, Key.groups_item, allGroups, groups, Nat.add_comm 1, List.range'_succ]
      | group before after quantifier =>
          simp [items, groups_quantifiedItem, Expr.groups_row, groups_textItems, allGroups, groups]

end Groups

namespace Key

variable {key : Key}

theorem captured_of_runs_group {index : Nat} {s t : State}
    (h : (key.groupItem options index).Runs text s t) :
    ∃ w, key.Inside options w ∧ Between text s.position w t.position ∧
      t.span? (index + 1) = some (s.position, t.position) := by
  obtain ⟨m, hm, rfl⟩ := h
  obtain ⟨w, hw, hbetween⟩ := (denotes_inside options key text s m.position).1 ⟨m, hm, rfl⟩
  exact ⟨w, hw, hbetween, State.span?_capture_self m (index + 1) s.position⟩

/-- The text around a group stands around what it captures. -/
theorem captured_of_runs_framed {index : Nat} {s t : State}
    (h : (key.framedItem options index).Runs text s t) :
    ∃ b w a p q, options.Spells key.before b ∧ key.Inside options w ∧
      options.Spells key.after a ∧ Between text s.position b p ∧ Between text p w q ∧
      Between text q a t.position ∧ t.span? (index + 1) = some (p, q) := by
  unfold framedItem at h
  split at h
  · next hbare =>
    simp only [isBare, Bool.and_eq_true, List.isEmpty_iff] at hbare
    obtain ⟨w, hw, hbetween, hspan⟩ := captured_of_runs_group h
    refine ⟨[], w, [], s.position, t.position, ?_, hw, ?_, rfl, hbetween, rfl, hspan⟩
    · rw [hbare.1]
      exact trivial
    · rw [hbare.2]
      exact trivial
  · obtain ⟨m, hm, hafter⟩ := runsAll_append.1 (runs_row.1 h)
    obtain ⟨l, hbefore, hgroup⟩ := runsAll_append.1 hm
    obtain ⟨w, hw, hbetween, hspan⟩ := captured_of_runs_group (runsAll_singleton.1 hgroup)
    obtain ⟨b, hb, hfront⟩ :=
      (denoteAll_textItems options key.before text s l.position).1 ⟨l, hbefore, rfl⟩
    obtain ⟨a, ha, hback⟩ :=
      (denoteAll_textItems options key.after text m t.position).1 ⟨t, hafter, rfl⟩
    refine ⟨b, w, a, l.position, m.position, hb, hw, ha, hfront, hbetween, hback, ?_⟩
    rw [Expr.span?_eq_of_runsAll hafter (by simp [groups_textItems]), hspan]

/-- A parameter is passed over, or its group captures its values. -/
theorem captured_of_runs {index : Nat} {s t : State}
    (h : (key.item options index).Runs text s t) :
    (key.mayBeAbsent = true ∧ t = s) ∨
      ∃ b w a p q, options.Spells key.before b ∧ key.Inside options w ∧
        options.Spells key.after a ∧ Between text s.position b p ∧ Between text p w q ∧
        Between text q a t.position ∧ t.span? (index + 1) = some (p, q) := by
  rw [item] at h
  cases houter : key.outer with
  | none =>
      rw [houter] at h
      exact .inr (captured_of_runs_framed h)
  | some quantifier =>
      rw [houter] at h
      obtain ⟨habsent, rfl⟩ : key.mayBeAbsent = true ∧ quantifier = .optional := by
        unfold outer at houter
        split at houter
        · exact absurd houter (by simp)
        · split at houter
          · next habsent => exact ⟨habsent, (Option.some.inj houter).symm⟩
          · exact absurd houter (by simp)
      obtain ⟨count, ⟨-, hcount⟩, hrepeats⟩ := h
      cases hrepeats with
      | zero => exact .inl ⟨habsent, rfl⟩
      | succ hfirst hrest =>
          cases hrest with
          | zero => exact .inr (captured_of_runs_framed hfirst)
          | succ => exact absurd hcount (by simp)

end Key

end Waymark.Pattern
