import Waymark.Json.Decoder
import Waymark.Proofs.Json.Normal
/-!
What decoders take of the events of a document.

`Reads` says that a decoder takes certain events and no more, whatever follows them. So a document is
read from its events, alone or inside another one: as its normal form (`reads_value`), or as the
events themselves (`reads_buffered`).
-/

namespace Waymark.Json

namespace Decoder

variable {α β σ : Type}

section Runs

variable {decoder : Decoder α} {failure : Failure} {events rest : List Event} {value : α}

/-- A decoder makes a value of the events at the front, and leaves others. -/
def Gives (decoder : Decoder α) (failure : Failure) (events : List Event) (value : α)
    (rest : List Event) : Prop :=
  (decoder.run failure).run events = .ok (value, rest)

theorem gives_bind_iff {next : α → Decoder β} {result : β} :
    (decoder >>= next).Gives failure events result rest ↔
      ∃ first middle, decoder.Gives failure events first middle ∧
        (next first).Gives failure middle result rest := by
  have hbind : ((decoder >>= next).run failure).run events =
      (decoder.run failure).run events >>= fun (first, middle) =>
        ((next first).run failure).run middle := rfl
  rw [Gives, hbind, bind_eq_ok_iff, Prod.exists]
  rfl

theorem Gives.unique {other : α} {left : List Event}
    (h : decoder.Gives failure events value rest)
    (hother : decoder.Gives failure events other left) : other = value ∧ left = rest :=
  Prod.mk.inj (Except.ok.inj (hother.symm.trans h))

theorem gives_pure_iff {other : α} :
    (pure other : Decoder α).Gives failure events value rest ↔ value = other ∧ rest = events := by
  constructor
  · intro h
    obtain ⟨rfl, rfl⟩ := Prod.mk.inj (Except.ok.inj h)
    exact ⟨rfl, rfl⟩
  · rintro ⟨rfl, rfl⟩
    rfl

theorem gives_next_iff {event : Event} :
    next.Gives failure events event rest ↔ events = event :: rest := by
  cases events with
  | nil => exact ⟨nofun, nofun⟩
  | cons first events =>
      constructor
      · intro h
        obtain ⟨rfl, rfl⟩ := Prod.mk.inj (Except.ok.inj h)
        rfl
      · rintro ⟨⟩
        rfl

theorem gives_peek_iff {event : Event} :
    peek.Gives failure events event rest ↔ ∃ more, events = event :: more ∧ rest = events := by
  cases events with
  | nil => exact ⟨nofun, nofun⟩
  | cons first events =>
      constructor
      · intro h
        obtain ⟨rfl, rfl⟩ := Prod.mk.inj (Except.ok.inj h)
        exact ⟨events, rfl, rfl⟩
      · rintro ⟨more, ⟨⟩, rfl⟩
        rfl

theorem gives_get_iff {left : List Event} :
    (get : Decoder (List Event)).Gives failure events left rest ↔ left = events ∧ rest = events := by
  constructor
  · intro h
    obtain ⟨rfl, rfl⟩ := Prod.mk.inj (Except.ok.inj h)
    exact ⟨rfl, rfl⟩
  · rintro ⟨rfl, rfl⟩
    rfl

theorem not_gives_mismatch : ¬ (mismatch : Decoder α).Gives failure events value rest :=
  nofun

end Runs

/-- A document is read if its text does not fail and its events give a value. -/
theorem decode_eq_ok_iff {decoder : Decoder α} {document : Events} {value : α} :
    decoder.decode document = .ok value ↔
      document.ending = none ∧ ∃ rest, decoder.Gives .mismatched document.events value rest := by
  obtain ⟨events, ending⟩ := document
  cases ending with
  | none =>
      simp only [decode, Gives, Option.getD_none, true_and]
      cases (decoder.run .mismatched).run events with
      | error failure => simp
      | ok result => simp [Prod.ext_iff]
  | some failure =>
      simp only [decode, Option.getD_some, reduceCtorEq, false_and, iff_false]
      cases (decoder.run failure).run events <;> exact nofun

section Reads

variable {decoder : Decoder α} {events others : List Event} {value : α}

/-- A decoder takes these events and no more, whatever follows them. -/
def Reads (decoder : Decoder α) (events : List Event) (value : α) : Prop :=
  ∀ failure rest, decoder.Gives failure (events ++ rest) value rest

theorem Reads.bind {next : α → Decoder β} {result : β} (h : decoder.Reads events value)
    (hnext : (next value).Reads others result) :
    (decoder >>= next).Reads (events ++ others) result := by
  intro failure rest
  rw [List.append_assoc]
  exact gives_bind_iff.2 ⟨value, others ++ rest, h failure _, hnext failure rest⟩

theorem reads_pure (value : α) : (pure value : Decoder α).Reads [] value :=
  fun _ _ => rfl

theorem Reads.bind_nil {next : α → Decoder β} {result : β} (h : decoder.Reads events value)
    (hnext : (next value).Reads [] result) : (decoder >>= next).Reads events result := by
  have hbind := h.bind hnext
  rwa [List.append_nil] at hbind

theorem Reads.map (h : decoder.Reads events value) (f : α → β) :
    (do return f (← decoder) : Decoder β).Reads events (f value) :=
  h.bind_nil (reads_pure (f value))

theorem Reads.next {event : Event} {following : Event → Decoder α}
    (h : (following event).Reads events value) :
    (Decoder.next >>= following).Reads (event :: events) value := by
  have hnext : Decoder.next.Reads [event] event := fun _ _ => rfl
  exact hnext.bind h

/-- As much fuel as there are events is enough where it is enough for the events that are taken. -/
theorem Reads.fuel (fueled : Nat → Decoder α)
    (h : ∀ fuel, events.length < fuel → (fueled fuel).Reads events value) :
    (do fueled ((← get).length + 1) : Decoder α).Reads events value := by
  intro failure rest
  refine gives_bind_iff.2 ⟨events ++ rest, events ++ rest, rfl, h _ ?_ failure rest⟩
  rw [List.length_append]
  omega

theorem reads_bool (value : Bool) : bool.Reads [.atom (.bool value)] value :=
  .next (reads_pure value)

theorem reads_string (text : String) : string.Reads [.atom (.string text)] text :=
  .next (reads_pure text)

theorem reads_optional_null (decoder : Decoder α) :
    (optional decoder).Reads [.atom .null] none :=
  fun _ _ => rfl

theorem Reads.optional {event : Event} (h : decoder.Reads (event :: events) value)
    (hnull : event ≠ .atom .null) : (optional decoder).Reads (event :: events) (some value) := by
  intro failure rest
  refine gives_bind_iff.2 ⟨event, event :: (events ++ rest), rfl, ?_⟩
  split
  · exact absurd rfl hnull
  · exact h.map some failure rest

theorem Reads.optional_of_ne {document : Value} (h : decoder.Reads document.events value)
    (hnull : document ≠ .null) :
    (Decoder.optional decoder).Reads document.events (some value) := by
  cases document with
  | null => exact absurd rfl hnull
  | bool | number | string | array | object => exact h.optional nofun

/-- What was taken before is read without taking more. -/
theorem Reads.within (h : decoder.Reads events value) : (within decoder events).Reads [] value := by
  intro failure rest
  have hgives := h .mismatched []
  rw [List.append_nil, Gives] at hgives
  rw [Decoder.within, hgives]
  rfl

theorem Reads.decode {document : Value} (h : decoder.Reads document.events value) :
    decoder.decode (Events.ofValue document) = .ok value := by
  have hgives := h .mismatched []
  rw [List.append_nil] at hgives
  exact decode_eq_ok_iff.2 ⟨rfl, [], hgives⟩

theorem length_le_itemEvents (items : List Value) : items.length ≤ (itemEvents items).length := by
  induction items with
  | nil => exact Nat.le_refl 0
  | cons item items ih =>
      simp only [itemEvents, List.cons_append, List.length_cons, List.length_append]
      omega

theorem length_le_fieldEvents (fields : List (String × Value)) :
    fields.length ≤ (fieldEvents fields).length := by
  induction fields with
  | nil => exact Nat.le_refl 0
  | cons field fields ih =>
      simp only [fieldEvents, List.cons_append, List.length_cons, List.length_append]
      omega

theorem reads_itemsUpTo {write : α → Value} {values : List α}
    (h : ∀ value ∈ values, decoder.Reads (write value).events value) {fuel : Nat}
    (hfuel : values.length < fuel) :
    (itemsUpTo decoder fuel).Reads (itemEvents (values.map write) ++ [.endArray]) values := by
  induction values generalizing fuel with
  | nil =>
      cases fuel with
      | zero => exact absurd hfuel (Nat.not_lt_zero _)
      | succ fuel => exact .next (reads_pure [])
  | cons value values ih =>
      cases fuel with
      | zero => exact absurd hfuel (Nat.not_lt_zero _)
      | succ fuel =>
          obtain ⟨hvalue, hvalues⟩ := List.forall_mem_cons.1 h
          have hrest := ih hvalues (Nat.lt_of_succ_lt_succ hfuel)
          rw [List.map_cons, itemEvents, List.cons_append, List.cons_append, List.append_assoc]
          exact .next (hvalue.bind (hrest.map (value :: ·)))

/-- Documents of which each is read as what it was written from are read as a list of these. -/
theorem reads_list {write : α → Value} {values : List α}
    (h : ∀ value ∈ values, decoder.Reads (write value).events value) :
    (list decoder).Reads (Value.array (values.map write)).events values := by
  rw [Value.events, List.cons_append]
  refine .next (.fuel (itemsUpTo decoder) fun fuel hfuel => reads_itemsUpTo h ?_)
  have hlength := length_le_itemEvents (values.map write)
  rw [List.length_append, List.length_singleton] at hfuel
  rw [List.length_map] at hlength
  omega

/-- Each field in a row takes its value and passes a state on to the next. -/
inductive Folds (field : String → σ → Decoder σ) : σ → List (String × Value) → σ → Prop
  | nil {state : σ} : Folds field state [] state
  | cons {state next result : σ} {name : String} {value : Value} {fields : List (String × Value)}
      (h : (field name state).Reads value.events next) (hrest : Folds field next fields result) :
      Folds field state ((name, value) :: fields) result

theorem Folds.reads {field : String → σ → Decoder σ} {start result : σ}
    {all : List (String × Value)} (h : Folds field start all result) :
    (fields start field).Reads (fieldEvents all ++ [.endObject]) result := by
  refine .fuel (fieldsUpTo field · start) fun fuel hfuel => ?_
  have hlength := length_le_fieldEvents all
  rw [List.length_append, List.length_singleton] at hfuel
  replace hfuel : all.length < fuel := by omega
  clear hlength
  induction h generalizing fuel with
  | nil =>
      cases fuel with
      | zero => exact absurd hfuel (Nat.not_lt_zero _)
      | succ fuel => exact .next (reads_pure _)
  | cons h _ ih =>
      cases fuel with
      | zero => exact absurd hfuel (Nat.not_lt_zero _)
      | succ fuel =>
          have hrest := ih fuel (Nat.lt_of_succ_lt_succ hfuel)
          rw [fieldEvents, List.cons_append, List.cons_append, List.append_assoc]
          exact .next (h.bind hrest)

theorem Folds.once {field : String → σ → Decoder σ} {start result : σ} {names seen : List String}
    {all : List (String × Value)} (h : Folds field start all result)
    (hnames : ∀ name ∈ all.map Prod.fst, name ∈ names ∧ name ∉ seen)
    (hnodup : (all.map Prod.fst).Nodup) :
    ∃ left, Folds (once names field) (seen, start) all (left, result) := by
  induction h generalizing seen with
  | nil => exact ⟨seen, .nil⟩
  | @cons state next result name value all h hrest ih =>
      obtain ⟨⟨hknown, hunseen⟩, hothers⟩ := List.forall_mem_cons.1 hnames
      obtain ⟨hfirst, hnodup⟩ := List.nodup_cons.1 hnodup
      have hseen : ∀ other ∈ all.map Prod.fst, other ∈ names ∧ other ∉ name :: seen := by
        intro other hother
        obtain ⟨hknown, hunseen⟩ := hothers other hother
        refine ⟨hknown, fun hmem => ?_⟩
        rcases List.mem_cons.1 hmem with rfl | hmem
        · exact hfirst hother
        · exact hunseen hmem
      obtain ⟨left, hleft⟩ := ih hseen hnodup
      refine ⟨left, .cons ?_ hleft⟩
      rw [Decoder.once, if_neg (by simp [hknown, hunseen])]
      exact h.map fun state => (name :: seen, state)

/-- An object is read as a record if its fields are some of the record's, each once. -/
theorem Folds.record {start result : σ} {names : List String} {field : String → σ → Decoder σ}
    {all : List (String × Value)} (h : Folds field start all result)
    (hnames : ∀ name ∈ all.map Prod.fst, name ∈ names) (hnodup : (all.map Prod.fst).Nodup) :
    (record start names field).Reads (Value.object all).events result := by
  obtain ⟨left, hfolds⟩ := @Folds.once _ _ _ _ _ [] _ h
    (fun name hname => ⟨hnames name hname, List.not_mem_nil⟩) hnodup
  rw [Value.events, List.cons_append]
  exact .next (hfolds.reads.map Prod.snd)

end Reads

section Documents

theorem exists_of_length_le {value : Value} {fuel : Nat} (h : value.events.length ≤ fuel) :
    ∃ less, fuel = less + 1 := by
  have hpos : 0 < value.events.length := by cases value <;> simp [Value.events]
  exact Nat.exists_eq_succ_of_ne_zero (Nat.ne_of_gt (Nat.lt_of_lt_of_le hpos h))

theorem reads_itemsWith {items : List Value}
    (h : ∀ item ∈ items, ∀ fuel, item.events.length ≤ fuel →
      (valueWith fuel).Reads item.events item.normal) {fuel : Nat}
    (hfuel : (itemEvents items).length < fuel) :
    (itemsWith fuel).Reads (itemEvents items ++ [.endArray]) (Value.normalItems items) := by
  obtain ⟨fuel, rfl⟩ := Nat.exists_eq_succ_of_ne_zero (Nat.ne_of_gt (Nat.zero_lt_of_lt hfuel))
  induction items generalizing fuel with
  | nil => exact .next (reads_pure [])
  | cons item items ih =>
      obtain ⟨hitem, hitems⟩ := List.forall_mem_cons.1 h
      simp only [itemEvents, List.cons_append, List.length_cons, List.length_append] at hfuel
      have hless : (itemEvents items).length < fuel := by omega
      obtain ⟨fuel, rfl⟩ := Nat.exists_eq_succ_of_ne_zero (Nat.ne_of_gt (Nat.zero_lt_of_lt hless))
      have hrest := ih hitems fuel hless
      rw [itemEvents, List.cons_append, List.cons_append, List.append_assoc]
      exact .next ((hitem _ (by omega)).bind (hrest.map (item.normal :: ·)))

theorem reads_fieldsWith {all : List (String × Value)}
    (h : ∀ entry ∈ all, ∀ fuel, entry.2.events.length ≤ fuel →
      (valueWith fuel).Reads entry.2.events entry.2.normal) {fuel : Nat}
    (hfuel : (fieldEvents all).length < fuel) (done : Dict Value) :
    (fieldsWith fuel done).Reads (fieldEvents all ++ [.endObject]) (Value.normalFields done all) := by
  obtain ⟨fuel, rfl⟩ := Nat.exists_eq_succ_of_ne_zero (Nat.ne_of_gt (Nat.zero_lt_of_lt hfuel))
  induction all generalizing fuel done with
  | nil => exact .next (reads_pure done)
  | cons entry all ih =>
      obtain ⟨name, value⟩ := entry
      obtain ⟨hvalue, hvalues⟩ := List.forall_mem_cons.1 h
      simp only [fieldEvents, List.cons_append, List.length_cons, List.length_append] at hfuel
      have hless : (fieldEvents all).length < fuel := by omega
      obtain ⟨fuel, rfl⟩ := Nat.exists_eq_succ_of_ne_zero (Nat.ne_of_gt (Nat.zero_lt_of_lt hless))
      have hfirst : value.events.length ≤ fuel + 1 := by omega
      have hrest := ih hvalues (Dict.insert done name value.normal) fuel hless
      rw [fieldEvents, List.cons_append, List.cons_append, List.append_assoc]
      exact .next ((hvalue _ hfirst).bind hrest)

/-- With as much fuel as it has events a document is read as its normal form. -/
theorem reads_valueWith {value : Value} {fuel : Nat} (hfuel : value.events.length ≤ fuel) :
    (valueWith fuel).Reads value.events value.normal := by
  induction value using Value.induct generalizing fuel with
  | null | bool | number | string =>
      obtain ⟨fuel, rfl⟩ := exists_of_length_le hfuel
      exact .next (reads_pure _)
  | array items ih =>
      obtain ⟨fuel, rfl⟩ := exists_of_length_le hfuel
      rw [Value.events, List.cons_append] at hfuel ⊢
      simp only [List.length_cons, List.length_append] at hfuel
      have hless : (itemEvents items).length < fuel := by omega
      have hitems := reads_itemsWith (fun item hitem fuel => @ih item hitem fuel) hless
      exact .next (hitems.map Value.array)
  | object all ih =>
      obtain ⟨fuel, rfl⟩ := exists_of_length_le hfuel
      rw [Value.events, List.cons_append] at hfuel ⊢
      simp only [List.length_cons, List.length_append] at hfuel
      have hless : (fieldEvents all).length < fuel := by omega
      have hfields := reads_fieldsWith (fun entry hentry fuel => @ih entry hentry fuel) hless []
      exact .next (hfields.map Value.object)

/-- A document is read as its normal form. -/
theorem reads_value (document : Value) : value.Reads document.events document.normal :=
  .fuel valueWith fun _ hfuel => reads_valueWith (Nat.le_of_lt hfuel)

/-- Inside a list or an object, events that are skipped leave it open. -/
def Skips (events : List Event) : Prop :=
  ∀ fuel depth done others result,
    (skipTo fuel (depth + 1) (events.reverse ++ done)).Reads others result →
      (skipTo (events.length + fuel) (depth + 1) done).Reads (events ++ others) result

theorem skips_nil : Skips [] := by
  intro fuel depth done others result h
  rwa [List.length_nil, Nat.zero_add]

theorem Skips.append {events others : List Event} (h : Skips events) (hothers : Skips others) :
    Skips (events ++ others) := by
  intro fuel depth done left result hleft
  rw [List.reverse_append, List.append_assoc] at hleft
  rw [List.length_append, Nat.add_assoc, List.append_assoc]
  exact h _ _ _ _ _ (hothers _ _ _ _ _ hleft)

theorem skips_atom (value : Value) : Skips [.atom value] := by
  intro fuel depth done others result h
  rw [List.length_singleton, Nat.add_comm]
  exact .next h

theorem skips_item : Skips [.item] := by
  intro fuel depth done others result h
  rw [List.length_singleton, Nat.add_comm]
  exact .next h

theorem skips_key (name : String) : Skips [.key name] := by
  intro fuel depth done others result h
  rw [List.length_singleton, Nat.add_comm]
  exact .next h

/-- The first and the last event of a list or of an object. -/
inductive Encloses : Event → Event → Prop
  | array : Encloses .beginArray .endArray
  | object : Encloses .beginObject .endObject

/-- A list or an object inside another is skipped if what it holds is. -/
theorem Skips.enclosed {events : List Event} {first last : Event} (h : Skips events)
    (hends : Encloses first last) : Skips (first :: (events ++ [last])) := by
  intro fuel depth done others result hleft
  have hclose : (skipTo (fuel + 1) (depth + 1 + 1) (events.reverse ++ first :: done)).Reads
      (last :: others) result := by
    cases hends <;> exact .next (by simpa using hleft)
  have hinside := h _ _ _ _ _ hclose
  have hlength : (first :: (events ++ [last])).length + fuel = events.length + (fuel + 1) + 1 := by
    simp only [List.length_cons, List.length_append, List.length_nil]
    omega
  rw [hlength, List.cons_append, List.append_assoc]
  cases hends <;> exact .next hinside

/-- A list or an object on its own is taken whole if what it holds is skipped. -/
theorem Skips.reads_buffered {events : List Event} {first last : Event} (h : Skips events)
    (hends : Encloses first last) :
    buffered.Reads (first :: (events ++ [last])) (first :: (events ++ [last])) := by
  refine .fuel (skipTo · 0 []) fun fuel hfuel => ?_
  simp only [List.length_cons, List.length_append, List.length_nil] at hfuel
  obtain ⟨left, rfl⟩ : ∃ left, fuel = events.length + (left + 1) + 1 :=
    ⟨fuel - events.length - 2, by omega⟩
  have hclose : (skipTo (left + 1) 1 (events.reverse ++ [first])).Reads [last]
      (first :: (events ++ [last])) := by
    have hresult : first :: (events ++ [last]) =
        (last :: (events.reverse ++ [first])).reverse := by simp
    rw [hresult]
    cases hends <;> exact .next (reads_pure _)
  have hinside := h _ _ _ _ _ hclose
  cases hends <;> exact .next hinside

theorem skips_itemEvents {items : List Value} (h : ∀ item ∈ items, Skips item.events) :
    Skips (itemEvents items) := by
  induction items with
  | nil => exact skips_nil
  | cons item items ih =>
      obtain ⟨hitem, hitems⟩ := List.forall_mem_cons.1 h
      exact skips_item.append (hitem.append (ih hitems))

theorem skips_fieldEvents {all : List (String × Value)}
    (h : ∀ entry ∈ all, Skips entry.2.events) : Skips (fieldEvents all) := by
  induction all with
  | nil => exact skips_nil
  | cons entry all ih =>
      obtain ⟨hvalue, hvalues⟩ := List.forall_mem_cons.1 h
      exact (skips_key entry.1).append (hvalue.append (ih hvalues))

theorem skips_events (value : Value) : Skips value.events := by
  induction value using Value.induct with
  | null | bool | number | string => exact skips_atom _
  | array items ih => exact (skips_itemEvents ih).enclosed .array
  | object all ih => exact (skips_fieldEvents ih).enclosed .object

/-- A document is taken whole. -/
theorem reads_buffered (document : Value) : buffered.Reads document.events document.events := by
  cases document with
  | null | bool | number | string =>
      exact .fuel (skipTo · 0 []) fun fuel hfuel => by
        obtain ⟨fuel, rfl⟩ := Nat.exists_eq_succ_of_ne_zero (Nat.ne_of_gt (Nat.zero_lt_of_lt hfuel))
        exact .next (reads_pure _)
  | array items => exact (skips_itemEvents fun item _ => skips_events item).reads_buffered .array
  | object all => exact (skips_fieldEvents fun entry _ => skips_events entry.2).reads_buffered .object

end Documents

end Decoder

end Waymark.Json
