import Waymark.Proofs.Json.Scanning
import Waymark.Proofs.Json.Value
/-!
The normal form of a document.

A text may name a field of an object twice and its fields in any order. What is read holds each name
once, with its last value, in key order: `normal` says so of the whole document, and a document in
order is its own normal form.
-/

namespace Waymark.Json

namespace Value

/-- What holds of atoms, and of lists and objects whose members it holds of, holds of all
documents. -/
theorem induct {P : Value → Prop} (null : P .null) (bool : ∀ value, P (.bool value))
    (number : ∀ value, P (.number value)) (string : ∀ text, P (.string text))
    (array : ∀ items, (∀ item ∈ items, P item) → P (.array items))
    (object : ∀ fields, (∀ field ∈ fields, P field.2) → P (.object fields)) (value : Value) :
    P value :=
  @Value.rec P (fun items => ∀ item ∈ items, P item) (fun fields => ∀ field ∈ fields, P field.2)
    (fun field => P field.2) null bool number string array object nofun
    (fun _ _ hitem hitems => List.forall_mem_cons.2 ⟨hitem, hitems⟩) nofun
    (fun _ _ hfield hfields => List.forall_mem_cons.2 ⟨hfield, hfields⟩) (fun _ _ h => h) value

mutual

/-- A document with the fields of its objects in key order, of each name the last one. -/
def normal : Value → Value
  | .array items => .array (normalItems items)
  | .object fields => .object (normalFields [] fields)
  | atom => atom

/-- Items in normal form. -/
def normalItems : List Value → List Value
  | [] => []
  | item :: items => normal item :: normalItems items

/-- Fields in normal form, gathered into those before them. -/
def normalFields : Dict Value → List (String × Value) → Dict Value
  | done, [] => done
  | done, (name, value) :: fields => normalFields (Dict.insert done name (normal value)) fields

end

section Normal

theorem mem_normalItems {items : List Value} {item : Value} (h : item ∈ normalItems items) :
    ∃ source ∈ items, item = normal source := by
  induction items with
  | nil => exact absurd h List.not_mem_nil
  | cons first items ih =>
      rcases List.mem_cons.1 h with rfl | h
      · exact ⟨first, List.mem_cons_self, rfl⟩
      · obtain ⟨source, hsource, heq⟩ := ih h
        exact ⟨source, List.mem_cons_of_mem first hsource, heq⟩

theorem mem_normalFields {done : Dict Value} {fields : List (String × Value)}
    {field : String × Value} (h : field ∈ normalFields done fields) :
    field ∈ done ∨ ∃ source ∈ fields, field.2 = normal source.2 := by
  induction fields generalizing done with
  | nil => exact .inl h
  | cons first fields ih =>
      obtain ⟨name, value⟩ := first
      rcases ih h with h | ⟨source, hsource, heq⟩
      · rcases Dict.mem_insert h with rfl | h
        · exact .inr ⟨(name, value), List.mem_cons_self, rfl⟩
        · exact .inl h
      · exact .inr ⟨source, List.mem_cons_of_mem _ hsource, heq⟩

theorem sorted_normalFields {done : Dict Value} (h : Dict.Sorted done)
    (fields : List (String × Value)) : Dict.Sorted (normalFields done fields) := by
  induction fields generalizing done with
  | nil => exact h
  | cons field fields ih => exact ih (h.insert field.1 (normal field.2))

theorem ordered_normal (value : Value) : (normal value).Ordered := by
  induction value using induct with
  | null | bool | number | string => trivial
  | array items ih =>
      refine orderedItems_iff.2 fun item hitem => ?_
      obtain ⟨source, hsource, rfl⟩ := mem_normalItems hitem
      exact ih source hsource
  | object fields ih =>
      refine ⟨sorted_normalFields List.Pairwise.nil fields, orderedFields_iff.2 fun field hfield => ?_⟩
      rcases mem_normalFields hfield with hfield | ⟨source, hsource, heq⟩
      · exact absurd hfield List.not_mem_nil
      · rw [heq]
        exact ih source hsource

theorem Fits.normal {kind : Number → Prop} {room : Nat} {value : Value} (h : value.Fits kind room) :
    value.normal.Fits kind room := by
  induction h with
  | null => exact .null
  | bool value => exact .bool value
  | number h => exact .number h
  | string text => exact .string text
  | array _ ih =>
      refine .array fun item hitem => ?_
      obtain ⟨source, hsource, rfl⟩ := mem_normalItems hitem
      exact ih source hsource
  | object _ ih =>
      refine .object fun field hfield => ?_
      rcases mem_normalFields hfield with hfield | ⟨source, hsource, heq⟩
      · exact absurd hfield List.not_mem_nil
      · rw [heq]
        exact ih source hsource

theorem normalItems_eq_self {items : List Value} (h : ∀ item ∈ items, normal item = item) :
    normalItems items = items := by
  induction items with
  | nil => rfl
  | cons item items ih =>
      obtain ⟨hitem, hitems⟩ := List.forall_mem_cons.1 h
      rw [normalItems, hitem, ih hitems]

theorem normalFields_eq_append {done fields : List (String × Value)}
    (hsorted : Dict.Sorted (done ++ fields)) (h : ∀ field ∈ fields, normal field.2 = field.2) :
    normalFields done fields = done ++ fields := by
  induction fields generalizing done with
  | nil => exact (List.append_nil done).symm
  | cons field fields ih =>
      obtain ⟨name, value⟩ := field
      obtain ⟨hvalue, hfields⟩ := List.forall_mem_cons.1 h
      -- in key order each field comes after all that have been gathered
      have hbefore : ∀ entry ∈ done, entry.1 < name := fun entry hentry =>
        (List.pairwise_append.1 hsorted).2.2 entry hentry _ List.mem_cons_self
      rw [normalFields, hvalue, Dict.insert_of_forall_lt hbefore, ih _ hfields, List.append_assoc]
      · rfl
      · rwa [List.append_assoc]

/-- A document in order is its own normal form. -/
theorem normal_eq_self {value : Value} (h : value.Ordered) : value.normal = value := by
  induction value using induct with
  | null | bool | number | string => rfl
  | array items ih =>
      have hitems := normalItems_eq_self fun item hitem => ih item hitem (orderedItems_iff.1 h item hitem)
      rw [normal, hitems]
  | object fields ih =>
      have hfields := @normalFields_eq_append [] fields h.1 fun field hfield =>
        ih field hfield (orderedFields_iff.1 h.2 field hfield)
      rw [normal, hfields, List.nil_append]

theorem normal_ne_null {value : Value} (h : value ≠ .null) : value.normal ≠ .null := by
  cases value with
  | null => exact absurd rfl h
  | bool | number | string | array | object => exact nofun

end Normal

end Value

end Waymark.Json
