import Waymark.Dict
/-!
Which keys a dictionary holds, and what the order of its keys tells.
-/

namespace Waymark.Dict

universe u

variable {α : Type u} {dict : Dict α} {key other : String} {value : α}

theorem mem_of_get? (h : get? dict key = some value) : (key, value) ∈ dict := by
  induction dict with
  | nil => exact absurd h (by simp)
  | cons entry rest ih =>
      obtain ⟨k, v⟩ := entry
      rw [get?_cons] at h
      by_cases hk : k = key
      · rw [if_pos hk] at h
        rw [hk, Option.some.inj h]
        exact List.mem_cons_self
      · rw [if_neg hk] at h
        exact List.mem_cons_of_mem _ (ih h)

theorem get?_eq_none_of_forall_ne (h : ∀ entry ∈ dict, entry.1 ≠ key) : get? dict key = none := by
  cases hget : get? dict key with
  | none => rfl
  | some value => exact absurd rfl (h _ (mem_of_get? hget))

theorem mem_keys_iff : key ∈ keys dict ↔ (get? dict key).isSome := by
  induction dict with
  | nil => simp [keys]
  | cons entry rest ih =>
      obtain ⟨k, v⟩ := entry
      rw [keys, List.map_cons, List.mem_cons, ← keys, ih, get?_cons]
      by_cases hk : k = key
      · simp [hk]
      · simp [hk, Ne.symm hk]

theorem mem_keys_insert : other ∈ keys (insert dict key value) ↔ other = key ∨ other ∈ keys dict := by
  rw [mem_keys_iff, mem_keys_iff, get?_insert]
  by_cases hk : key = other
  · simp [hk]
  · simp [hk, Ne.symm hk]

theorem mem_insert {entry : String × α} (h : entry ∈ insert dict key value) :
    entry = (key, value) ∨ entry ∈ dict := by
  induction dict with
  | nil => exact .inl (List.mem_singleton.1 h)
  | cons first rest ih =>
      obtain ⟨k, v⟩ := first
      rw [insert] at h
      split at h
      · exact List.mem_cons.1 h
      · split at h
        · rcases List.mem_cons.1 h with h | h
          · exact .inl h
          · exact .inr (List.mem_cons_of_mem _ h)
        · rcases List.mem_cons.1 h with rfl | h
          · exact .inr List.mem_cons_self
          · exact (ih h).imp_right (List.mem_cons_of_mem _)

theorem insert_insert (dict : Dict α) (key : String) (value other : α) :
    insert (insert dict key value) key other = insert dict key other := by
  induction dict with
  | nil => simp [insert]
  | cons first rest ih =>
      obtain ⟨k, v⟩ := first
      by_cases hlt : key < k
      · simp [insert, hlt]
      · by_cases heq : key = k
        · subst heq
          simp [insert]
        · simp [insert, hlt, heq, ih]

/-- A key after all others is inserted at the end. -/
theorem insert_of_forall_lt (h : ∀ entry ∈ dict, entry.1 < key) :
    insert dict key value = dict ++ [(key, value)] := by
  induction dict with
  | nil => rfl
  | cons first rest ih =>
      obtain ⟨k, v⟩ := first
      obtain ⟨hfirst, hrest⟩ := List.forall_mem_cons.1 h
      have hne : key ≠ k := by
        rintro rfl
        exact String.lt_irrefl key hfirst
      rw [insert, if_neg (String.lt_asymm hfirst), if_neg hne, ih hrest, List.cons_append]

section Sorted

theorem lt_of_not_lt_of_ne {left right : String} (hlt : ¬ left < right) (hne : left ≠ right) :
    right < left := by
  by_cases h : right < left
  · exact h
  · exact absurd (String.le_antisymm (String.not_lt.1 h) (String.not_lt.1 hlt)) hne

theorem Sorted.insert (h : Sorted dict) (key : String) (value : α) :
    Sorted (Dict.insert dict key value) := by
  induction dict with
  | nil => exact List.pairwise_singleton _ _
  | cons first rest ih =>
      obtain ⟨k, v⟩ := first
      obtain ⟨hfirst, hrest⟩ := List.pairwise_cons.1 h
      rw [Dict.insert]
      split
      · next hlt =>
        refine List.pairwise_cons.2 ⟨fun entry hentry => ?_, h⟩
        rcases List.mem_cons.1 hentry with rfl | hentry
        · exact hlt
        · exact String.lt_trans hlt (hfirst entry hentry)
      · next hlt =>
        split
        · next heq =>
          subst heq
          exact List.pairwise_cons.2 ⟨hfirst, hrest⟩
        · next hne =>
          refine List.pairwise_cons.2 ⟨fun entry hentry => ?_, ih hrest⟩
          rcases mem_insert hentry with rfl | hentry
          · exact lt_of_not_lt_of_ne hlt hne
          · exact hfirst entry hentry

theorem get?_eq_none_of_lt (h : ∀ entry ∈ dict, key < entry.1) : get? dict key = none :=
  get?_eq_none_of_forall_ne fun entry hentry heq =>
    String.lt_irrefl key (heq ▸ h entry hentry)

/-- An entry is inserted at a place where the entries before and after it stay as they are. -/
theorem exists_insert (h : Sorted dict) (key : String) (value : α) :
    ∃ front back, insert dict key value = front ++ (key, value) :: back ∧
      ((get? dict key = none ∧ dict = front ++ back) ∨
        ∃ old, get? dict key = some old ∧ dict = front ++ (key, old) :: back) := by
  induction dict with
  | nil => exact ⟨[], [], rfl, .inl ⟨rfl, rfl⟩⟩
  | cons first rest ih =>
      obtain ⟨k, v⟩ := first
      obtain ⟨hfirst, hrest⟩ := List.pairwise_cons.1 h
      rw [insert]
      by_cases hlt : key < k
      · rw [if_pos hlt]
        refine ⟨[], (k, v) :: rest, rfl, .inl ⟨get?_eq_none_of_lt fun entry hentry => ?_, rfl⟩⟩
        rcases List.mem_cons.1 hentry with rfl | hentry
        · exact hlt
        · exact String.lt_trans hlt (hfirst entry hentry)
      · rw [if_neg hlt]
        by_cases heq : key = k
        · subst heq
          rw [if_pos rfl]
          exact ⟨[], rest, rfl, .inr ⟨v, if_pos rfl, rfl⟩⟩
        · rw [if_neg heq, get?_cons, if_neg (Ne.symm heq)]
          obtain ⟨front, back, hinsert, hbefore⟩ := ih hrest
          refine ⟨(k, v) :: front, back, by rw [hinsert, List.cons_append], ?_⟩
          rcases hbefore with ⟨hnone, rfl⟩ | ⟨old, hold, rfl⟩
          · exact .inl ⟨hnone, rfl⟩
          · exact .inr ⟨old, hold, rfl⟩

/-- A key that is given the value it has leaves everything as it is. -/
theorem insert_of_get? (h : Sorted dict) (hget : get? dict key = some value) :
    insert dict key value = dict := by
  obtain ⟨front, back, hinsert, hbefore⟩ := exists_insert h key value
  rcases hbefore with ⟨hnone, -⟩ | ⟨old, hold, hdict⟩
  · exact absurd (hget.symm.trans hnone) (by simp)
  · obtain rfl := Option.some.inj (hget.symm.trans hold)
    rw [hinsert, hdict]

theorem get?_of_mem (h : Sorted dict) (hmem : (key, value) ∈ dict) : get? dict key = some value := by
  induction dict with
  | nil => exact absurd hmem List.not_mem_nil
  | cons first rest ih =>
      obtain ⟨k, v⟩ := first
      obtain ⟨hfirst, hrest⟩ := List.pairwise_cons.1 h
      rw [get?_cons]
      rcases List.mem_cons.1 hmem with heq | hmem
      · obtain ⟨rfl, rfl⟩ := Prod.mk.inj heq
        exact if_pos rfl
      · rw [if_neg, ih hrest hmem]
        rintro rfl
        exact String.lt_irrefl k (hfirst _ hmem)

theorem erase_sublist (dict : Dict α) (key : String) : (erase dict key).Sublist dict := by
  induction dict with
  | nil => exact .slnil
  | cons first rest ih =>
      obtain ⟨k, v⟩ := first
      rw [erase]
      split
      · exact List.sublist_cons_self _ _
      · exact ih.cons_cons _

theorem Sorted.erase (h : Sorted dict) (key : String) : Sorted (Dict.erase dict key) :=
  List.Pairwise.sublist (erase_sublist dict key) h

theorem get?_erase_self (h : Sorted dict) (key : String) : get? (Dict.erase dict key) key = none := by
  induction dict with
  | nil => rfl
  | cons first rest ih =>
      obtain ⟨k, v⟩ := first
      obtain ⟨hfirst, hrest⟩ := List.pairwise_cons.1 h
      rw [Dict.erase]
      by_cases heq : k = key
      · subst heq
        rw [if_pos rfl]
        exact get?_eq_none_of_lt hfirst
      · rw [if_neg heq, get?_cons, if_neg heq]
        exact ih hrest

/-- A dictionary is known by what it holds under each key. -/
theorem Sorted.eq_of_get? {others : Dict α} (h : Sorted dict) (hothers : Sorted others)
    (heq : ∀ key, get? dict key = get? others key) : dict = others := by
  have hmem : ∀ entry, entry ∈ dict ↔ entry ∈ others := by
    rintro ⟨key, value⟩
    constructor
    · intro hentry
      exact mem_of_get? ((heq key).symm.trans (get?_of_mem h hentry))
    · intro hentry
      exact mem_of_get? ((heq key).trans (get?_of_mem hothers hentry))
  have hnodup : ∀ {entries : Dict α}, Sorted entries → entries.Nodup := by
    intro entries hsorted
    apply List.Pairwise.imp _ hsorted
    rintro left _ hlt rfl
    exact String.lt_irrefl _ hlt
  apply List.Perm.eq_of_pairwise _ h hothers
  · exact (List.perm_ext_iff_of_nodup (hnodup h) (hnodup hothers)).2 hmem
  · intro left right _ _ hlt hgt
    exact absurd (String.lt_trans hlt hgt) (String.lt_irrefl _)

end Sorted

end Waymark.Dict
