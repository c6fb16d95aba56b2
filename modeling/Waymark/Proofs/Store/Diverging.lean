import Waymark.Proofs.Store.InPlace
/-!
Paths as the trees on their way take them.

An array takes a segment as an index, however it is spelled, and every other tree takes it as a key.
Two paths diverge if, taken so, neither leads to or through the other's end. What is put in along a
path leaves what diverges from it as it was, but for the indexes that an array is padded at
(`lookup_put_of_diverge`), and so does what is taken out, but for the items that move up
(`lookup_takeOut_of_diverge`).
-/

namespace Waymark.Store

open Waymark.Json
open Waymark.Json.Value (Ordered)

/-- A segment as a tree takes it. -/
inductive Step where
  | index (index : Nat)
  | key (segment : String)
deriving DecidableEq, Repr

/-- How a tree takes a segment. -/
def stepAt (tree : Value) (segment : String) : Step :=
  match tree with
  | .array _ => (index? segment).elim (.key segment) .index
  | _ => .key segment

/-- A path as the trees on its way take it. Where nothing stands, segments are keys. -/
def steps : Value → List String → List Step
  | _, [] => []
  | tree, segment :: path => stepAt tree segment :: steps ((child? tree segment).getD .null) path

/-- Neither of two paths is the beginning of the other, as a tree takes them. -/
def Diverge (tree : Value) (path key : List String) : Prop :=
  ¬ steps tree path <+: steps tree key ∧ ¬ steps tree key <+: steps tree path

section Steps

variable {tree after child : Value} {items : List Value} {segment other : String}
  {path key : List String} {index position : Nat}

theorem stepAt_array (hindex : index? segment = some index) (items : List Value) :
    stepAt (.array items) segment = .index index := by
  rw [stepAt, hindex]
  rfl

/-- Only an array takes different segments alike. -/
theorem eq_of_stepAt (h : stepAt tree segment = stepAt tree other) :
    segment = other ∨ ∃ items index, tree = .array items ∧ index? segment = some index ∧
      index? other = some index := by
  cases tree with
  | array items =>
      cases hsegment : index? segment with
      | none =>
          cases hother : index? other with
          | none => exact .inl (by simpa [stepAt, hsegment, hother] using h)
          | some position => exact absurd h (by simp [stepAt, hsegment, hother])
      | some index =>
          cases hother : index? other with
          | none => exact absurd h (by simp [stepAt, hsegment, hother])
          | some position =>
              rw [stepAt_array hsegment, stepAt_array hother] at h
              obtain rfl := Step.index.inj h
              exact .inr ⟨items, index, rfl, rfl, rfl⟩
  | _ => exact .inl (Step.key.inj h)

theorem ne_of_stepAt (h : stepAt tree segment ≠ stepAt tree other) : other ≠ segment :=
  fun heq => h (by rw [heq])

theorem index?_ne_of_stepAt (h : stepAt (.array items) segment ≠ stepAt (.array items) other)
    (hindex : index? segment = some index) : index? other ≠ some index :=
  fun hother => h (by rw [stepAt_array hindex, stepAt_array hother])

/-- What is taken alike leads to the same place, also in the tree that a write leaves. -/
theorem child?_congr (h : stepAt tree segment = stepAt tree other)
    (hafter : ∀ items, tree = .array items → ∃ items, after = .array items) :
    child? after segment = child? after other := by
  rcases eq_of_stepAt h with rfl | ⟨items, index, htree, hsegment, hother⟩
  · rfl
  · obtain ⟨items, rfl⟩ := hafter items htree
    rw [child?, child?, hsegment, hother]

theorem child?_eq_of_stepAt (h : stepAt tree segment = stepAt tree other) :
    child? tree segment = child? tree other :=
  child?_congr h fun items htree => ⟨items, htree⟩

theorem not_diverge_nil (tree : Value) (key : List String) : ¬ Diverge tree [] key :=
  fun h => h.1 List.nil_prefix

theorem not_diverge_nil_right (tree : Value) (path : List String) : ¬ Diverge tree path [] :=
  fun h => h.2 List.nil_prefix

/-- Paths diverge where they take different steps, or further on. -/
theorem diverge_cons_iff : Diverge tree (segment :: path) (other :: key) ↔
    stepAt tree segment ≠ stepAt tree other ∨ stepAt tree segment = stepAt tree other ∧
      Diverge ((child? tree segment).getD .null) path key := by
  by_cases hstep : stepAt tree segment = stepAt tree other
  · simp [Diverge, steps, hstep, child?_eq_of_stepAt hstep]
  · have hne : stepAt tree other ≠ stepAt tree segment := Ne.symm hstep
    simp [Diverge, steps, hstep, hne]

end Steps

/-- A path leads to an index that an array is padded at so that a value can be put in: there is no
item yet, and the value goes further on. -/
inductive PaddedAt : Value → List String → List String → Prop where
  | here {items : List Value} {segment other : String} {rest : List String} {index position : Nat}
      (hindex : index? segment = some index) (hposition : index? other = some position)
      (hend : items.length ≤ position) (hlt : position < index) :
      PaddedAt (.array items) (segment :: rest) [other]
  | further {tree child : Value} {segment other : String} {path key : List String}
      (hstep : stepAt tree segment = stepAt tree other) (hchild : child? tree segment = some child)
      (h : PaddedAt child path key) : PaddedAt tree (segment :: path) (other :: key)

section Put

variable {tree value after : Value} {segment other : String} {path key rest : List String}

theorem getElem?_padTo {items : List Value} {index position : Nat} :
    (padTo items index)[position]? =
      if items.length ≤ position ∧ position ≤ index then some .null else items[position]? := by
  rw [padTo, List.getElem?_append, List.getElem?_replicate]
  split
  · next hlt => rw [if_neg (by omega)]
  · next hlt =>
    rw [List.getElem?_eq_none (Nat.not_lt.1 hlt)]
    by_cases hle : position ≤ index
    · rw [if_pos (by omega), if_pos (by omega)]
    · rw [if_neg (by omega), if_neg (by omega)]

/-- Where another step is taken, a tree holds what it held, or a null that it was padded with. -/
theorem child?_of_put (h : put value tree (segment :: rest) = .ok after)
    (hstep : stepAt tree segment ≠ stepAt tree other) :
    (PaddedAt tree (segment :: rest) [other] ∧ child? after other = some .null) ∨
      child? after other = child? tree other := by
  by_cases harray : ∃ items, tree = .array items
  · obtain ⟨items, rfl⟩ := harray
    obtain ⟨index, below, hindex, -, rfl⟩ := exists_array_of_put h
    have hne := index?_ne_of_stepAt hstep hindex
    simp only [child?]
    cases hposition : index? other with
    | none => exact .inr rfl
    | some position =>
        have hother : index ≠ position := by
          rintro rfl
          exact hne hposition
        simp only [Option.bind_eq_bind, Option.bind_some, List.getElem?_set_ne hother,
          getElem?_padTo]
        split
        · next hpadded =>
          exact .inl ⟨.here hindex hposition hpadded.1 (by omega), rfl⟩
        · exact .inr rfl
  · obtain ⟨below, -, hrenewed⟩ := renewed_of_put h
    exact .inr (hrenewed.others (fun items htree => harray ⟨items, htree⟩) other
      (ne_of_stepAt hstep))

theorem child?_of_put_of_stepAt (h : put value tree (segment :: rest) = .ok after)
    (hstep : stepAt tree segment = stepAt tree other) :
    child? after segment = child? after other := by
  refine child?_congr hstep ?_
  rintro items rfl
  obtain ⟨index, below, -, -, rfl⟩ := exists_array_of_put h
  exact ⟨_, rfl⟩

/-- The indexes that an array is padded at hold null. -/
theorem lookup_put_of_paddedAt (h : put value tree path = .ok after)
    (hpadded : PaddedAt tree path key) : lookup after key = some .null := by
  induction hpadded generalizing after with
  | @here items segment other rest index position hindex hposition hend hlt =>
      obtain ⟨index', below, hindex', -, rfl⟩ := exists_array_of_put h
      obtain rfl := Option.some.inj (hindex.symm.trans hindex')
      rw [lookup_cons, child?, hposition]
      simp only [Option.bind_eq_bind, Option.bind_some, List.getElem?_set_ne (Nat.ne_of_gt hlt),
        getElem?_padTo]
      rw [if_pos ⟨hend, Nat.le_of_lt hlt⟩]
      rfl
  | @further tree child segment other path key hstep hchild hpadded ih =>
      obtain ⟨below, hbelow, hrenewed⟩ := renewed_of_put h
      rw [hchild] at hbelow
      rw [lookup_cons, ← child?_of_put_of_stepAt h hstep, hrenewed.held]
      exact ih hbelow

/-- Where an array is padded, neither the value nor what it is padded with has been there. -/
theorem PaddedAt.lookup_eq_none (h : PaddedAt tree path key) :
    lookup tree path = none ∧ lookup tree key = none := by
  induction h with
  | @here items segment other rest index position hindex hposition hend hlt =>
      have hvalue : items[index]? = none := List.getElem?_eq_none (by omega)
      have hbetween : items[position]? = none := List.getElem?_eq_none hend
      simp [lookup_cons, child?, hindex, hposition, hvalue, hbetween]
  | further hstep hchild h ih =>
      rw [lookup_cons, lookup_cons, ← child?_eq_of_stepAt hstep, hchild, Option.bind_some,
        Option.bind_some]
      exact ih

theorem not_paddedAt_null (path key : List String) : ¬ PaddedAt .null path key := by
  intro h
  cases h with
  | further hstep hchild h => cases hchild

/-- What is put in leaves what diverges from it, but for the indexes that an array is padded at. -/
theorem lookup_put_of_diverge (h : put value tree path = .ok after)
    (hdiverge : Diverge tree path key) (hpadded : ¬ PaddedAt tree path key) :
    lookup after key = lookup tree key := by
  induction path generalizing tree after key with
  | nil => exact absurd hdiverge (not_diverge_nil tree key)
  | cons segment path ih =>
      obtain _ | ⟨other, key⟩ := key
      · exact absurd hdiverge (not_diverge_nil_right tree _)
      rw [lookup_cons, lookup_cons]
      rcases diverge_cons_iff.1 hdiverge with hstep | ⟨hstep, hfurther⟩
      · rcases child?_of_put h hstep with ⟨hother, hnull⟩ | hsame
        · have hne : key ≠ [] := by
            rintro rfl
            exact hpadded hother
          have hnone : child? tree other = none := by
            simpa [lookup] using hother.lookup_eq_none.2
          rw [hnull, hnone, Option.bind_some, lookup_null hne]
          rfl
        · rw [hsame]
      · obtain ⟨below, hbelow, hrenewed⟩ := renewed_of_put h
        rw [← child?_of_put_of_stepAt h hstep, hrenewed.held,
          ← child?_eq_of_stepAt hstep, Option.bind_some]
        cases hchild : child? tree segment with
        | some child =>
            rw [hchild] at hbelow hfurther
            exact ih hbelow hfurther fun h => hpadded (.further hstep hchild h)
        | none =>
            rw [hchild] at hbelow hfurther
            have hne : key ≠ [] := by
              rintro rfl
              exact not_diverge_nil_right _ _ hfurther
            rw [ih hbelow hfurther (not_paddedAt_null path key)]
            exact lookup_null hne

end Put

/-- A path leads to or below an index of an array from which on items move up when one is taken out,
and there stands one index further what is given. -/
inductive MovesUp : Value → List String → List String → Option Value → Prop where
  | here {items : List Value} {segment other : String} {rest : List String} {index position : Nat}
      (hindex : index? segment = some index) (hposition : index? other = some position)
      (hle : index ≤ position) :
      MovesUp (.array items) [segment] (other :: rest)
        (items[position + 1]?.bind fun item => lookup item rest)
  | further {tree child : Value} {segment other : String} {path key : List String}
      {found : Option Value} (hstep : stepAt tree segment = stepAt tree other)
      (hchild : child? tree segment = some child) (h : MovesUp child path key found) :
      MovesUp tree (segment :: path) (other :: key) found

section TakeOut

variable {tree removed after : Value} {items : List Value} {segment other : String}
  {path key rest : List String} {found : Option Value}

theorem MovesUp.ne_nil (h : MovesUp tree path key found) : path ≠ [] := by
  cases h with
  | here => exact List.cons_ne_nil _ _
  | further => exact List.cons_ne_nil _ _

theorem exists_of_takeOut_item (h : takeOut (.array items) [segment] = some (removed, after)) :
    ∃ index, index? segment = some index ∧ items[index]? = some removed ∧
      after = .array (items.eraseIdx index) := by
  obtain ⟨index, hindex, h⟩ := Option.bind_eq_some_iff.1 h
  obtain ⟨item, hitem, h⟩ := Option.bind_eq_some_iff.1 h
  obtain ⟨rfl, rfl⟩ := Prod.mk.inj (Option.some.inj h)
  exact ⟨index, hindex, hitem, rfl⟩

/-- An array stays an array where something is taken out below it. -/
theorem exists_array_of_takeOut (hne : rest ≠ [])
    (h : takeOut (.array items) (segment :: rest) = some (removed, after)) :
    ∃ index below, index? segment = some index ∧ after = .array (items.set index below) := by
  obtain ⟨next, rest, rfl⟩ := List.exists_cons_of_ne_nil hne
  obtain ⟨index, hindex, h⟩ := Option.bind_eq_some_iff.1 h
  obtain ⟨child, hchild, h⟩ := Option.bind_eq_some_iff.1 h
  obtain ⟨⟨taken, below⟩, -, h⟩ := Option.bind_eq_some_iff.1 h
  obtain ⟨-, rfl⟩ := Prod.mk.inj (Option.some.inj h)
  exact ⟨index, below, hindex, rfl⟩

theorem child?_of_takeOut_of_stepAt (hne : rest ≠ [])
    (h : takeOut tree (segment :: rest) = some (removed, after))
    (hstep : stepAt tree segment = stepAt tree other) :
    child? after segment = child? after other := by
  refine child?_congr hstep ?_
  rintro items rfl
  obtain ⟨index, below, -, rfl⟩ := exists_array_of_takeOut hne h
  exact ⟨_, rfl⟩

/-- Where another step is taken, a tree holds what it held, unless items have moved up there. -/
theorem child?_of_takeOut_leaf (h : takeOut tree [segment] = some (removed, after))
    (hstep : stepAt tree segment ≠ stepAt tree other)
    (hmoves : ∀ found, ¬ MovesUp tree [segment] (other :: key) found) :
    child? after other = child? tree other := by
  by_cases harray : ∃ items, tree = .array items
  · obtain ⟨items, rfl⟩ := harray
    obtain ⟨index, hindex, -, rfl⟩ := exists_of_takeOut_item h
    simp only [child?]
    cases hposition : index? other with
    | none => rfl
    | some position =>
        have hlt : position < index := Nat.lt_of_not_le fun hle =>
          hmoves _ (.here hindex hposition hle)
        simp only [Option.bind_eq_bind, Option.bind_some]
        rw [List.getElem?_eraseIdx_of_lt hlt]
  · exact (lessened_of_takeOut h).others (fun items htree => harray ⟨items, htree⟩) other
      (ne_of_stepAt hstep)

theorem child?_of_takeOut (hne : rest ≠ [])
    (h : takeOut tree (segment :: rest) = some (removed, after))
    (hstep : stepAt tree segment ≠ stepAt tree other) : child? after other = child? tree other := by
  by_cases harray : ∃ items, tree = .array items
  · obtain ⟨items, rfl⟩ := harray
    obtain ⟨index, below, hindex, rfl⟩ := exists_array_of_takeOut hne h
    have hother := index?_ne_of_stepAt hstep hindex
    simp only [child?]
    cases hposition : index? other with
    | none => rfl
    | some position =>
        have hindexes : index ≠ position := by
          rintro rfl
          exact hother hposition
        simp only [Option.bind_eq_bind, Option.bind_some, List.getElem?_set_ne hindexes]
  · obtain ⟨child, below, -, -, hrenewed⟩ := renewed_of_takeOut hne h
    exact hrenewed.others (fun items htree => harray ⟨items, htree⟩) other (ne_of_stepAt hstep)

/-- What has moved up is found one index before. -/
theorem lookup_takeOut_of_movesUp (h : takeOut tree path = some (removed, after))
    (hmoves : MovesUp tree path key found) : lookup after key = found := by
  induction hmoves generalizing after with
  | @here items segment other rest index position hindex hposition hle =>
      obtain ⟨index', hindex', -, rfl⟩ := exists_of_takeOut_item h
      obtain rfl := Option.some.inj (hindex.symm.trans hindex')
      rw [lookup_cons, child?, hposition]
      simp only [Option.bind_eq_bind, Option.bind_some, List.getElem?_eraseIdx_of_ge hle]
  | @further tree child segment other path key found hstep hchild hmoves ih =>
      obtain ⟨child', below, hchild', hbelow, hrenewed⟩ := renewed_of_takeOut hmoves.ne_nil h
      obtain rfl := Option.some.inj (hchild.symm.trans hchild')
      rw [lookup_cons, ← child?_of_takeOut_of_stepAt hmoves.ne_nil h hstep, hrenewed.held]
      exact ih hbelow

/-- What is taken out leaves what diverges from it, but for the items that move up. -/
theorem lookup_takeOut_of_diverge (h : takeOut tree path = some (removed, after))
    (hdiverge : Diverge tree path key) (hmoves : ∀ found, ¬ MovesUp tree path key found) :
    lookup after key = lookup tree key := by
  induction path generalizing tree after key with
  | nil => exact absurd hdiverge (not_diverge_nil tree key)
  | cons segment path ih =>
      obtain _ | ⟨other, key⟩ := key
      · exact absurd hdiverge (not_diverge_nil_right tree _)
      rw [lookup_cons, lookup_cons]
      rcases diverge_cons_iff.1 hdiverge with hstep | ⟨hstep, hfurther⟩
      · by_cases hne : path = []
        · subst hne
          rw [child?_of_takeOut_leaf h hstep hmoves]
        · rw [child?_of_takeOut hne h hstep]
      · have hne : path ≠ [] := by
          rintro rfl
          exact not_diverge_nil _ _ hfurther
        obtain ⟨child, below, hchild, hbelow, hrenewed⟩ := renewed_of_takeOut hne h
        rw [hchild] at hfurther
        rw [← child?_of_takeOut_of_stepAt hne h hstep, hrenewed.held,
          ← child?_eq_of_stepAt hstep, hchild, Option.bind_some, Option.bind_some]
        exact ih hbelow hfurther fun found h => hmoves found (.further hstep hchild h)

/-- Where something was taken out nothing is left, or what has moved up. -/
theorem lookup_takeOut_self (hordered : Ordered tree)
    (h : takeOut tree path = some (removed, after)) :
    lookup after path = none ∨
      ∃ item, MovesUp tree path path (some item) ∧ lookup after path = some item := by
  induction path generalizing tree after with
  | nil => cases h
  | cons segment path ih =>
      rw [lookup_cons]
      by_cases hne : path = []
      · subst hne
        by_cases harray : ∃ items, tree = .array items
        · obtain ⟨items, rfl⟩ := harray
          obtain ⟨index, hindex, -, rfl⟩ := exists_of_takeOut_item h
          have hmoves : MovesUp (.array items) [segment] [segment] _ :=
            .here hindex hindex (Nat.le_refl index)
          have hfound := lookup_takeOut_of_movesUp h hmoves
          rw [lookup_cons] at hfound
          rw [hfound]
          cases hnext : items[index + 1]? with
          | none => exact .inl rfl
          | some item =>
              rw [hnext] at hmoves
              exact .inr ⟨item, hmoves, rfl⟩
        · have hgone := (lessened_of_takeOut h).gone (fun items htree => harray ⟨items, htree⟩)
            hordered
          rw [hgone]
          exact .inl rfl
      · obtain ⟨child, below, hchild, hbelow, hrenewed⟩ := renewed_of_takeOut hne h
        rw [hrenewed.held]
        rcases ih (ordered_child? hordered hchild) hbelow with hnone | ⟨item, hmoves, hitem⟩
        · exact .inl hnone
        · exact .inr ⟨item, .further rfl hchild hmoves, hitem⟩

/-- What stands along a path can be taken out. -/
theorem exists_takeOut_of_lookup (hne : path ≠ []) (h : lookup tree path = some removed) :
    ∃ after, takeOut tree path = some (removed, after) := by
  induction path generalizing tree with
  | nil => exact absurd rfl hne
  | cons segment path ih =>
      rw [lookup_cons] at h
      obtain ⟨child, hchild, hrest⟩ := Option.bind_eq_some_iff.1 h
      by_cases hnil : path = []
      · subst hnil
        obtain rfl := Option.some.inj hrest
        cases tree with
        | object fields =>
            rw [child?] at hchild
            exact ⟨_, by rw [takeOut, hchild]; rfl⟩
        | array items =>
            obtain ⟨index, hindex, hitem⟩ := Option.bind_eq_some_iff.1 hchild
            exact ⟨.array (items.eraseIdx index), by simp [takeOut, hindex, hitem]⟩
        | _ => cases hchild
      · obtain ⟨below, hbelow⟩ := ih hnil hrest
        obtain ⟨next, rest, rfl⟩ := List.exists_cons_of_ne_nil hnil
        cases tree with
        | object fields =>
            rw [child?] at hchild
            exact ⟨.object (Dict.insert fields segment below), by simp [takeOut, hchild, hbelow]⟩
        | array items =>
            obtain ⟨index, hindex, hitem⟩ := Option.bind_eq_some_iff.1 hchild
            exact ⟨.array (items.set index below), by simp [takeOut, hindex, hitem, hbelow]⟩
        | _ => cases hchild

end TakeOut

end Waymark.Store
