import Waymark.Proofs.Store.Trees
/-!
Merging three trees.

Merging takes the shape of the tree that is merged in. Trees merge in either order of brackets unless
an object or an array comes back after something else has stood in its place (`deepMerge_assoc`), and
where that happens it is seen along the keys of the place only (`agreeAlong_deepMerge_assoc`).
-/

namespace Waymark.Store

open Waymark.Json
open Waymark.Json.Value (Ordered OrderedFields OrderedItems)

/-- What merging tells apart. -/
inductive Shape where
  | object
  | array
  | scalar
deriving DecidableEq

/-- The shape of a tree. -/
def shape : Value → Shape
  | .object _ => .object
  | .array _ => .array
  | _ => .scalar

/-- What stands under a key of a tree. Arrays are not entered. -/
def field? : Value → String → Option Value
  | .object fields, key => Dict.get? fields key
  | _, _ => none

/-- What stands in a tree along keys. -/
def under? (keys : List String) (tree : Value) : Option Value :=
  keys.foldlM field? tree

/-- What stands under a key of merged objects, given what stands there in each of them. -/
def mergeFound : Option Value → Option Value → Option Value
  | some left, some right => some (deepMerge left right)
  | some left, none => some left
  | none, right => right

/-- Along some keys two trees have the same shapes, and at their end they are the same. -/
def AgreeAlong : List String → Value → Value → Prop
  | [], left, right => left = right
  | key :: keys, left, right =>
      shape left = shape right ∧
        Option.Rel (AgreeAlong keys) (field? left key) (field? right key)

/-- At the end of some keys, two trees have objects, or two arrays, and a tree between them has
something else there. -/
def Clash (keys : List String) (first second third : Value) : Prop :=
  ∃ left middle right, under? keys first = some left ∧ under? keys second = some middle ∧
    under? keys third = some right ∧ shape left = shape right ∧ shape left ≠ .scalar ∧
    shape middle ≠ shape left

/-- One list of keys begins with the other. -/
def Comparable (keys others : List String) : Prop :=
  keys <+: others ∨ others <+: keys

section Fields

variable {target source : Dict Value} {left right : Value}

theorem shape_deepMerge (left right : Value) : shape (deepMerge left right) = shape right := by
  cases right with
  | object => cases left <;> rfl
  | array => cases left <;> rfl
  | _ => cases left <;> rfl

/-- What is merged in replaces anything of another shape. -/
theorem deepMerge_of_shape_ne (h : shape left ≠ shape right) : deepMerge left right = right := by
  cases right with
  | object =>
      cases left with
      | object => exact absurd rfl h
      | _ => rfl
  | array =>
      cases left with
      | array => exact absurd rfl h
      | _ => rfl
  | _ => cases left <;> rfl

theorem deepMerge_of_scalar (h : shape right = .scalar) : deepMerge left right = right := by
  cases right with
  | object => cases h
  | array => cases h
  | _ => cases left <;> rfl

/-- A field of merged fields is merged from the two fields of its key. -/
theorem get?_mergeFields (hsource : Dict.Sorted source) (target : Dict Value) (key : String) :
    Dict.get? (mergeFields target source) key =
      mergeFound (Dict.get? target key) (Dict.get? source key) := by
  induction source generalizing target with
  | nil =>
      rw [mergeFields, Dict.get?_nil]
      cases Dict.get? target key <;> rfl
  | cons field source ih =>
      obtain ⟨name, value⟩ := field
      obtain ⟨hfirst, hrest⟩ := List.pairwise_cons.1 hsource
      rw [mergeFields, ih hrest, Dict.get?_cons]
      by_cases hname : name = key
      · subst hname
        rw [if_pos rfl, Dict.get?_insert_self, Dict.get?_eq_none_of_lt hfirst]
        cases Dict.get? target name <;> rfl
      · rw [if_neg hname, Dict.get?_insert_of_ne _ _ hname]

theorem field?_deepMerge (hleft : shape left = .object) (hright : shape right = .object)
    (hordered : Ordered right) (key : String) :
    field? (deepMerge left right) key = mergeFound (field? left key) (field? right key) := by
  cases right with
  | object source =>
      cases left with
      | object target => exact get?_mergeFields hordered.1 target key
      | _ => cases hleft
  | _ => cases hright

theorem field?_eq_none (h : shape left ≠ .object) (key : String) : field? left key = none := by
  cases left with
  | object => exact absurd rfl h
  | _ => rfl

theorem ordered_field? (h : Ordered left) {key : String} (hfield : field? left key = some right) :
    Ordered right := by
  cases left with
  | object fields => exact ordered_of_get? h hfield
  | _ => cases hfield

theorem eq_of_rel_eq {found other : Option Value} (h : Option.Rel (· = ·) found other) :
    found = other := by
  cases h with
  | none => rfl
  | some heq => exact congrArg some heq

theorem rel_refl {R : Value → Value → Prop} (hrefl : ∀ value, R value value)
    (found : Option Value) : Option.Rel R found found := by
  cases found with
  | none => exact .none
  | some value => exact .some (hrefl value)

theorem rel_trans {R : Value → Value → Prop}
    (htrans : ∀ left middle right, R left middle → R middle right → R left right)
    {found between other : Option Value} (h : Option.Rel R found between)
    (hnext : Option.Rel R between other) : Option.Rel R found other := by
  cases h with
  | none => exact hnext
  | some h =>
      cases hnext with
      | some hnext => exact .some (htrans _ _ _ h hnext)

theorem bind_eq_of_rel {R : Value → Value → Prop} {read : Value → Option Value}
    (h : ∀ left right, R left right → read left = read right) {found other : Option Value}
    (hrel : Option.Rel R found other) : found.bind read = other.bind read := by
  cases hrel with
  | none => rfl
  | some hrel => exact h _ _ hrel

/-- Merging options keeps them related where merging what they hold does. -/
theorem rel_mergeFound {R : Value → Value → Prop} {left left' right right' : Option Value}
    (hleft : Option.Rel R left left') (hright : Option.Rel R right right')
    (h : ∀ x x' y y', right = some y → right' = some y' → R x x' → R y y' →
      R (deepMerge x y) (deepMerge x' y')) :
    Option.Rel R (mergeFound left right) (mergeFound left' right') := by
  cases hleft with
  | none => exact hright
  | some hleft =>
      cases hright with
      | none => exact .some hleft
      | some hright => exact .some (h _ _ _ _ rfl rfl hleft hright)

/-- Merging options brackets either way where merging what they hold does. -/
theorem rel_mergeFound_assoc {R : Value → Value → Prop} (hrefl : ∀ value, R value value)
    {first second third : Option Value}
    (h : ∀ left middle right, first = some left → second = some middle → third = some right →
      R (deepMerge left (deepMerge middle right)) (deepMerge (deepMerge left middle) right)) :
    Option.Rel R (mergeFound first (mergeFound second third))
      (mergeFound (mergeFound first second) third) := by
  cases first with
  | none => exact rel_refl hrefl _
  | some left =>
      cases second with
      | none => exact rel_refl hrefl _
      | some middle =>
          cases third with
          | none => exact rel_refl hrefl _
          | some right => exact .some (h left middle right rfl rfl rfl)

end Fields

section Associating

variable {first second third : Value}

theorem under?_cons (key : String) (keys : List String) (tree : Value) :
    under? (key :: keys) tree = (field? tree key).bind (under? keys) :=
  rfl

theorem Clash.cons {keys : List String} {key : String} {left middle right : Value}
    (h : Clash keys left middle right) (hfirst : field? first key = some left)
    (hsecond : field? second key = some middle) (hthird : field? third key = some right) :
    Clash (key :: keys) first second third := by
  obtain ⟨x, y, z, hx, hy, hz, hshapes⟩ := h
  refine ⟨x, y, z, ?_, ?_, ?_, hshapes⟩
  · rw [under?_cons, hfirst]
    exact hx
  · rw [under?_cons, hsecond]
    exact hy
  · rw [under?_cons, hthird]
    exact hz

/-- Brackets do not matter where the second tree gives way to the third, unless the shape of the
first comes back. -/
theorem deepMerge_assoc_of_gives_way (hclash : ¬Clash [] first second third)
    (h : shape second ≠ shape third) :
    deepMerge first (deepMerge second third) = deepMerge (deepMerge first second) third := by
  have hleft : deepMerge (deepMerge first second) third = third := by
    apply deepMerge_of_shape_ne
    rw [shape_deepMerge]
    exact h
  rw [hleft, deepMerge_of_shape_ne h]
  by_cases hscalar : shape third = .scalar
  · exact deepMerge_of_scalar hscalar
  · have hfirst : shape first ≠ shape third := by
      intro hsame
      exact hclash ⟨first, second, third, rfl, rfl, rfl, hsame, hsame ▸ hscalar, hsame ▸ h⟩
    exact deepMerge_of_shape_ne hfirst

/-- Brackets do not matter where the first tree gives way to the second. -/
theorem deepMerge_assoc_of_replaced (h : shape second = shape third)
    (hfirst : shape first ≠ shape second) :
    deepMerge first (deepMerge second third) = deepMerge (deepMerge first second) third := by
  rw [deepMerge_of_shape_ne hfirst]
  apply deepMerge_of_shape_ne
  rw [shape_deepMerge, ← h]
  exact hfirst

/-- Trees of one shape merge in either order of brackets, if fields do. -/
theorem deepMerge_assoc_of_shape_eq (h : shape second = shape third)
    (hfirst : shape first = shape second) (hobject : shape third ≠ .object) :
    deepMerge first (deepMerge second third) = deepMerge (deepMerge first second) third := by
  by_cases hscalar : shape third = .scalar
  · have hright : ∀ left, deepMerge left third = third := fun _ => deepMerge_of_scalar hscalar
    rw [hright, hright, hright]
  cases third with
  | object => exact absurd rfl hobject
  | array items =>
      cases second with
      | array others =>
          cases first with
          | array last => exact congrArg Value.array (List.append_assoc last others items).symm
          | _ => cases hfirst
      | _ => cases h
  | _ => exact absurd rfl hscalar

/-- Unless three objects meet, brackets matter only where a shape comes back. -/
theorem deepMerge_assoc_of_not_objects (hclash : ¬Clash [] first second third)
    (h : ¬(shape first = .object ∧ shape second = .object ∧ shape third = .object)) :
    deepMerge first (deepMerge second third) = deepMerge (deepMerge first second) third := by
  by_cases hsecond : shape second = shape third
  · by_cases hfirst : shape first = shape second
    · apply deepMerge_assoc_of_shape_eq hsecond hfirst
      intro hthird
      exact h ⟨hfirst.trans (hsecond.trans hthird), hsecond.trans hthird, hthird⟩
    · exact deepMerge_assoc_of_replaced hsecond hfirst
  · exact deepMerge_assoc_of_gives_way hclash hsecond

theorem eq_of_field? {left right : Value} (hleft : shape left = .object)
    (hright : shape right = .object) (hordered : Ordered left) (hordered' : Ordered right)
    (h : ∀ key, field? left key = field? right key) : left = right := by
  cases left with
  | object fields =>
      cases right with
      | object others => exact congrArg Value.object (hordered.1.eq_of_get? hordered'.1 h)
      | _ => cases hright
  | _ => cases hleft

theorem sizeOf_field?_lt {tree value : Value} {key : String} (h : field? tree key = some value) :
    sizeOf value < sizeOf tree := by
  cases tree with
  | object fields => exact sizeOf_lt_of_mem (Dict.mem_of_get? h)
  | _ => cases h

/-- A field of three merged objects, with the brackets either way. -/
theorem rel_field?_deepMerge_assoc {R : Value → Value → Prop} (hrefl : ∀ value, R value value)
    (hobjects : shape first = .object ∧ shape second = .object ∧ shape third = .object)
    (hsecond : Ordered second) (hthird : Ordered third) {key : String}
    (h : ∀ left middle right, field? first key = some left → field? second key = some middle →
      field? third key = some right →
        R (deepMerge left (deepMerge middle right)) (deepMerge (deepMerge left middle) right)) :
    Option.Rel R (field? (deepMerge first (deepMerge second third)) key)
      (field? (deepMerge (deepMerge first second) third) key) := by
  obtain ⟨hf, hs, ht⟩ := hobjects
  have hleft : shape (deepMerge first second) = .object := (shape_deepMerge _ _).trans hs
  have hright : shape (deepMerge second third) = .object := (shape_deepMerge _ _).trans ht
  rw [field?_deepMerge hleft ht hthird, field?_deepMerge hf hs hsecond,
    field?_deepMerge hf hright (ordered_deepMerge _ _ hsecond hthird),
    field?_deepMerge hs ht hthird]
  exact rel_mergeFound_assoc hrefl h

/-- Trees merge in either order of brackets unless a shape comes back somewhere. -/
theorem deepMerge_assoc (first second third : Value) (hfirst : Ordered first)
    (hsecond : Ordered second) (hthird : Ordered third)
    (hclash : ∀ keys, ¬Clash keys first second third) :
    deepMerge first (deepMerge second third) = deepMerge (deepMerge first second) third := by
  by_cases hobjects : shape first = .object ∧ shape second = .object ∧ shape third = .object
  · have hfields : ∀ key, field? (deepMerge first (deepMerge second third)) key =
        field? (deepMerge (deepMerge first second) third) key := by
      intro key
      have hrel : Option.Rel (· = ·) (field? (deepMerge first (deepMerge second third)) key)
          (field? (deepMerge (deepMerge first second) third) key) := by
        apply rel_field?_deepMerge_assoc (fun _ => rfl) hobjects hsecond hthird
        intro left middle right hleft hmiddle hright
        exact deepMerge_assoc left middle right (ordered_field? hfirst hleft)
          (ordered_field? hsecond hmiddle) (ordered_field? hthird hright)
          fun keys h => hclash (key :: keys) (h.cons hleft hmiddle hright)
      exact eq_of_rel_eq hrel
    have hboth := ordered_deepMerge _ _ hfirst hsecond
    have hboth' := ordered_deepMerge _ _ hsecond hthird
    apply eq_of_field? _ _ (ordered_deepMerge _ _ hfirst hboth')
      (ordered_deepMerge _ _ hboth hthird) hfields
    · exact (shape_deepMerge _ _).trans ((shape_deepMerge _ _).trans hobjects.2.2)
    · exact (shape_deepMerge _ _).trans hobjects.2.2
  · exact deepMerge_assoc_of_not_objects (hclash []) hobjects
termination_by sizeOf third
decreasing_by exact sizeOf_field?_lt hright

end Associating

section Along

variable {keys : List String} {left right left' right' : Value}

theorem AgreeAlong.refl (keys : List String) (tree : Value) : AgreeAlong keys tree tree := by
  induction keys generalizing tree with
  | nil => rfl
  | cons key keys ih => exact ⟨rfl, rel_refl ih (field? tree key)⟩

theorem AgreeAlong.of_eq (h : left = right) : AgreeAlong keys left right :=
  h ▸ AgreeAlong.refl keys left

theorem AgreeAlong.trans {other : Value} (h : AgreeAlong keys left right)
    (hnext : AgreeAlong keys right other) : AgreeAlong keys left other := by
  induction keys generalizing left right other with
  | nil => exact Eq.trans h hnext
  | cons key keys ih =>
      refine ⟨h.1.trans hnext.1, ?_⟩
      apply rel_trans _ h.2 hnext.2
      intro _ _ _ hfield hfield'
      exact ih hfield hfield'

/-- Trees that agree along keys hold the same at their end. -/
theorem AgreeAlong.under?_eq (h : AgreeAlong keys left right) :
    under? keys left = under? keys right := by
  induction keys generalizing left right with
  | nil => exact congrArg some h
  | cons key keys ih => exact bind_eq_of_rel (fun _ _ hxy => ih hxy) h.2

/-- Merging keeps trees in agreement. -/
theorem AgreeAlong.deepMerge (h : AgreeAlong keys left left') (h' : AgreeAlong keys right right')
    (hright : Ordered right) (hright' : Ordered right') :
    AgreeAlong keys (deepMerge left right) (deepMerge left' right') := by
  induction keys generalizing left left' right right' with
  | nil =>
      obtain rfl : left = left' := h
      obtain rfl : right = right' := h'
      rfl
  | cons key keys ih =>
      obtain ⟨hshape, hfields⟩ := h
      obtain ⟨hshape', hfields'⟩ := h'
      refine ⟨by rw [shape_deepMerge, shape_deepMerge, hshape'], ?_⟩
      by_cases hobject : shape right = .object
      · by_cases hsame : shape left = .object
        · rw [field?_deepMerge hsame hobject hright,
            field?_deepMerge (hshape ▸ hsame) (hshape' ▸ hobject) hright']
          apply rel_mergeFound hfields hfields'
          intro x x' y y' hy hy' hx hxy
          exact ih hx hxy (ordered_field? hright hy) (ordered_field? hright' hy')
        · rw [deepMerge_of_shape_ne (hobject ▸ hsame),
            deepMerge_of_shape_ne (hshape' ▸ hobject ▸ hshape ▸ hsame)]
          exact hfields'
      · rw [field?_eq_none (by rw [shape_deepMerge]; exact hobject),
          field?_eq_none (by rw [shape_deepMerge, ← hshape']; exact hobject)]
        exact .none

/-- Trees merge in either order of brackets along keys, unless a shape comes back above or below
them. -/
theorem agreeAlong_deepMerge_assoc {first second third : Value} (hfirst : Ordered first)
    (hsecond : Ordered second) (hthird : Ordered third)
    (hclash : ∀ others, Comparable keys others → ¬Clash others first second third) :
    AgreeAlong keys (Store.deepMerge first (Store.deepMerge second third))
      (Store.deepMerge (Store.deepMerge first second) third) := by
  induction keys generalizing first second third with
  | nil =>
      apply deepMerge_assoc first second third hfirst hsecond hthird
      exact fun others => hclash others (.inl others.nil_prefix)
  | cons key keys ih =>
      by_cases hobjects : shape first = .object ∧ shape second = .object ∧ shape third = .object
      · refine ⟨by simp only [shape_deepMerge], ?_⟩
        apply rel_field?_deepMerge_assoc (AgreeAlong.refl keys) hobjects hsecond hthird
        intro left middle right hleft hmiddle hright
        apply ih (ordered_field? hfirst hleft) (ordered_field? hsecond hmiddle)
          (ordered_field? hthird hright)
        intro others hothers h
        apply hclash (key :: others) _ (h.cons hleft hmiddle hright)
        exact hothers.imp (List.prefix_cons_inj key).2 (List.prefix_cons_inj key).2
      · apply AgreeAlong.of_eq
        exact deepMerge_assoc_of_not_objects (hclash [] (.inr (List.nil_prefix))) hobjects

/-- What stands in a merged tree has its shape from the tree merged in, or stands in the first tree. -/
theorem under?_deepMerge (hright : Ordered right) {value : Value}
    (h : under? keys (Store.deepMerge left right) = some value) :
    (∃ found, under? keys right = some found ∧ shape found = shape value) ∨
      under? keys left = some value := by
  induction keys generalizing left right with
  | nil =>
      obtain rfl := Option.some.inj h
      exact .inl ⟨right, rfl, (shape_deepMerge _ _).symm⟩
  | cons key keys ih =>
      by_cases hsame : shape left = shape right
      · rw [under?_cons] at h
        by_cases hobject : shape right = .object
        · rw [field?_deepMerge (hsame.trans hobject) hobject hright] at h
          rw [under?_cons, under?_cons]
          cases hleft : field? left key with
          | none =>
              rw [hleft] at h
              exact .inl ⟨value, h, rfl⟩
          | some below =>
              rw [hleft] at h
              cases hfield : field? right key with
              | none =>
                  rw [hfield] at h
                  exact .inr h
              | some other =>
                  rw [hfield] at h
                  exact ih (ordered_field? hright hfield) h
        · rw [field?_eq_none (by rw [shape_deepMerge]; exact hobject)] at h
          cases h
      · rw [deepMerge_of_shape_ne hsame] at h
        exact .inl ⟨value, h, rfl⟩

end Along

end Waymark.Store
