import Waymark.Proofs.Json.Decoding
/-!
What decoders that succeed have made of a document.

`Takes` says of a decoder that, where it succeeds on a document that nests no deeper than a bound,
it has taken the whole document, and what it has made of it is good. Decoders of lists, of objects
and of records take whole documents if those of their members do.
-/

namespace Waymark.Json.Decoder

variable {α β σ : Type} {room : Nat}

/-- A decoder that succeeds on a document has taken all of it, and made something good of it. -/
def Takes (decoder : Decoder α) (room : Nat) (good : α → Prop) : Prop :=
  ∀ document : Value, document.Fits Number.InRange room → ∀ failure rest value after,
    decoder.Gives failure (document.events ++ rest) value after → after = rest ∧ good value

section Documents

variable {decoder : Decoder α} {good : α → Prop}

/-- A decoder that reads every document takes what it reads. -/
theorem takes_of_reads
    (h : ∀ document : Value, document.Fits Number.InRange room →
      ∃ value, decoder.Reads document.events value ∧ good value) : decoder.Takes room good := by
  intro document hfits failure rest value after hgives
  obtain ⟨read, hread, hgood⟩ := h document hfits
  obtain ⟨rfl, rfl⟩ := Gives.unique (hread failure rest) hgives
  exact ⟨rfl, hgood⟩

theorem Takes.map {f : α → β} {better : β → Prop} (h : decoder.Takes room good)
    (hf : ∀ value, good value → better (f value)) :
    (do return f (← decoder) : Decoder β).Takes room better := by
  intro document hfits failure rest value after hgives
  obtain ⟨first, middle, hfirst, hgives⟩ := gives_bind_iff.1 hgives
  obtain ⟨rfl, rfl⟩ := gives_pure_iff.1 hgives
  exact (h document hfits failure rest first _ hfirst).imp_right (hf first)

theorem takes_mismatch : (mismatch : Decoder α).Takes room good :=
  fun _ _ _ _ _ _ hgives => absurd hgives not_gives_mismatch

theorem takes_buffered :
    buffered.Takes room fun events =>
      ∃ document : Value, document.Fits Number.InRange room ∧ events = document.events :=
  takes_of_reads fun document hfits => ⟨document.events, reads_buffered document, document, hfits, rfl⟩

/-- Events that were taken before are read without taking more. -/
theorem gives_within {failure : Failure} {taken events rest : List Event} {value : α}
    (h : (within decoder taken).Gives failure events value rest) :
    rest = events ∧ ∃ left, decoder.Gives .mismatched taken value left := by
  unfold within at h
  split at h
  · next left hgives =>
    obtain ⟨rfl, rfl⟩ := gives_pure_iff.1 h
    exact ⟨rfl, left, hgives⟩
  · exact absurd h nofun

/-- Where a document begins with an atom it is the atom. -/
theorem events_of_append {document : Value} {rest middle : List Event} {atom : Value}
    (h : document.events ++ rest = .atom atom :: middle) : middle = rest := by
  cases document with
  | null | bool | number | string => exact (List.cons.inj h).2.symm
  | array | object => cases (List.cons.inj h).1

/-- Where a document begins with an array it is the array. -/
theorem exists_of_beginArray {document : Value} {rest middle : List Event}
    (hfits : document.Fits Number.InRange (room + 1))
    (h : document.events ++ rest = .beginArray :: middle) :
    ∃ items, (∀ item ∈ items, item.Fits Number.InRange room) ∧
      middle = itemEvents items ++ .endArray :: rest := by
  cases hfits with
  | array hitems =>
      rw [Value.events, List.cons_append, List.cons_append, List.append_assoc] at h
      exact ⟨_, hitems, (List.cons.inj h).2.symm⟩
  | null | bool | number | string | object => cases (List.cons.inj h).1

/-- Where a document begins with an object it is the object. -/
theorem exists_of_beginObject {document : Value} {rest middle : List Event}
    (hfits : document.Fits Number.InRange (room + 1))
    (h : document.events ++ rest = .beginObject :: middle) :
    ∃ all, (∀ entry ∈ all, entry.2.Fits Number.InRange room) ∧
      middle = fieldEvents all ++ .endObject :: rest := by
  cases hfits with
  | object hvalues =>
      rw [Value.events, List.cons_append, List.cons_append, List.append_assoc] at h
      exact ⟨_, hvalues, (List.cons.inj h).2.symm⟩
  | null | bool | number | string | array => cases (List.cons.inj h).1

theorem takes_bind_next {read : Event → Decoder α}
    (h : ∀ event failure events value rest, (read event).Gives failure events value rest →
      rest = events ∧ ∃ atom, event = .atom atom) :
    (next >>= read).Takes room fun _ => True := by
  intro document _ failure rest value after hgives
  obtain ⟨event, middle, hnext, hgives⟩ := gives_bind_iff.1 hgives
  obtain ⟨rfl, atom, rfl⟩ := h event failure middle value after hgives
  exact ⟨events_of_append (gives_next_iff.1 hnext), trivial⟩

theorem takes_bool : bool.Takes room fun _ => True := by
  refine takes_bind_next fun event failure events value rest h => ?_
  split at h
  · exact ⟨(gives_pure_iff.1 h).2, _, rfl⟩
  · exact absurd h not_gives_mismatch

theorem takes_string : string.Takes room fun _ => True := by
  refine takes_bind_next fun event failure events value rest h => ?_
  split at h
  · exact ⟨(gives_pure_iff.1 h).2, _, rfl⟩
  · exact absurd h not_gives_mismatch

/-- Null is taken as nothing, and any other document by the decoder. -/
theorem Takes.optional (h : decoder.Takes room good) :
    (Decoder.optional decoder).Takes room fun value => ∀ found, value = some found → good found := by
  intro document hfits failure rest value after hgives
  obtain ⟨event, middle, hpeek, hgives⟩ := gives_bind_iff.1 hgives
  obtain ⟨more, hevents, rfl⟩ := gives_peek_iff.1 hpeek
  split at hgives
  · obtain ⟨_, left, hnext, hgives⟩ := gives_bind_iff.1 hgives
    obtain ⟨rfl, rfl⟩ := gives_pure_iff.1 hgives
    obtain rfl := (List.cons.inj ((gives_next_iff.1 hnext).symm.trans hevents)).2
    exact ⟨events_of_append hevents, nofun⟩
  · obtain ⟨found, left, hfound, hgives⟩ := gives_bind_iff.1 hgives
    obtain ⟨rfl, rfl⟩ := gives_pure_iff.1 hgives
    obtain ⟨rfl, hgood⟩ := h document hfits failure rest found after hfound
    exact ⟨rfl, fun _ heq => Option.some.inj heq ▸ hgood⟩

section Members

variable {items : List Value} {all : List (String × Value)} {failure : Failure}
  {rest after : List Event} {fuel : Nat}

theorem Takes.itemsUpTo (h : decoder.Takes room good)
    (hfits : ∀ item ∈ items, item.Fits Number.InRange room) {values : List α}
    (hgives : (Decoder.itemsUpTo decoder fuel).Gives failure
      (itemEvents items ++ .endArray :: rest) values after) :
    after = rest ∧ ∀ value ∈ values, good value := by
  induction items generalizing fuel values with
  | nil =>
      cases fuel with
      | zero => exact absurd hgives not_gives_mismatch
      | succ fuel =>
          obtain ⟨event, middle, hnext, hgives⟩ := gives_bind_iff.1 hgives
          obtain ⟨rfl, rfl⟩ := List.cons.inj (gives_next_iff.1 hnext)
          obtain ⟨rfl, rfl⟩ := gives_pure_iff.1 hgives
          exact ⟨rfl, nofun⟩
  | cons item items ih =>
      obtain ⟨hitem, hitems⟩ := List.forall_mem_cons.1 hfits
      cases fuel with
      | zero => exact absurd hgives not_gives_mismatch
      | succ fuel =>
          rw [itemEvents, List.cons_append, List.cons_append, List.append_assoc] at hgives
          obtain ⟨event, middle, hnext, hgives⟩ := gives_bind_iff.1 hgives
          obtain ⟨rfl, rfl⟩ := List.cons.inj (gives_next_iff.1 hnext)
          obtain ⟨value, middle, hvalue, hgives⟩ := gives_bind_iff.1 hgives
          obtain ⟨rfl, hgood⟩ := h item hitem failure _ value middle hvalue
          obtain ⟨values, left, hvalues, hgives⟩ := gives_bind_iff.1 hgives
          obtain ⟨rfl, rfl⟩ := gives_pure_iff.1 hgives
          obtain ⟨rfl, hrest⟩ := ih hitems hvalues
          exact ⟨rfl, List.forall_mem_cons.2 ⟨hgood, hrest⟩⟩

/-- A list of items is taken whole if each item is. -/
theorem Takes.list (h : decoder.Takes room good) :
    (Decoder.list decoder).Takes (room + 1) fun values => ∀ value ∈ values, good value := by
  intro document hfits failure rest values after hgives
  obtain ⟨event, middle, hnext, hgives⟩ := gives_bind_iff.1 hgives
  split at hgives
  · obtain ⟨items, hitems, rfl⟩ := exists_of_beginArray hfits (gives_next_iff.1 hnext)
    obtain ⟨left, middle, hget, hgives⟩ := gives_bind_iff.1 hgives
    obtain ⟨rfl, rfl⟩ := gives_get_iff.1 hget
    exact h.itemsUpTo hitems hgives
  · exact absurd hgives not_gives_mismatch

variable {good : σ → Prop} {field : String → σ → Decoder σ} {start state : σ}

theorem takes_fieldsUpTo
    (h : ∀ name state, good state → (field name state).Takes room good) (hstart : good start)
    (hfits : ∀ entry ∈ all, entry.2.Fits Number.InRange room)
    (hgives : (fieldsUpTo field fuel start).Gives failure
      (fieldEvents all ++ .endObject :: rest) state after) : after = rest ∧ good state := by
  induction all generalizing fuel start with
  | nil =>
      cases fuel with
      | zero => exact absurd hgives not_gives_mismatch
      | succ fuel =>
          obtain ⟨event, middle, hnext, hgives⟩ := gives_bind_iff.1 hgives
          obtain ⟨rfl, rfl⟩ := List.cons.inj (gives_next_iff.1 hnext)
          obtain ⟨rfl, rfl⟩ := gives_pure_iff.1 hgives
          exact ⟨rfl, hstart⟩
  | cons entry all ih =>
      obtain ⟨hvalue, hvalues⟩ := List.forall_mem_cons.1 hfits
      cases fuel with
      | zero => exact absurd hgives not_gives_mismatch
      | succ fuel =>
          rw [fieldEvents, List.cons_append, List.cons_append, List.append_assoc] at hgives
          obtain ⟨event, middle, hnext, hgives⟩ := gives_bind_iff.1 hgives
          obtain ⟨rfl, rfl⟩ := List.cons.inj (gives_next_iff.1 hnext)
          obtain ⟨next, middle, hfield, hgives⟩ := gives_bind_iff.1 hgives
          obtain ⟨rfl, hnext⟩ := h _ start hstart entry.2 hvalue failure _ next middle hfield
          exact ih hnext hvalues hgives

/-- The fields of an object are taken whole if each is, and what holds of the state before a field
holds after it. -/
theorem takes_fields (h : ∀ name state, good state → (field name state).Takes room good)
    (hstart : good start) (hfits : ∀ entry ∈ all, entry.2.Fits Number.InRange room)
    (hgives : (fields start field).Gives failure
      (fieldEvents all ++ .endObject :: rest) state after) : after = rest ∧ good state := by
  obtain ⟨left, middle, hget, hgives⟩ := gives_bind_iff.1 hgives
  obtain ⟨rfl, rfl⟩ := gives_get_iff.1 hget
  exact takes_fieldsUpTo h hstart hfits hgives

theorem takes_once {names : List String} {name : String} {seen : List String × σ}
    (h : (field name seen.2).Takes room good) :
    (once names field name seen).Takes room fun seen => good seen.2 := by
  intro document hfits failure rest value after hgives
  rw [once] at hgives
  split at hgives
  · obtain ⟨_, _, hmismatch, -⟩ := gives_bind_iff.1 hgives
    exact absurd hmismatch not_gives_mismatch
  · obtain ⟨state, left, hstate, hgives⟩ := gives_bind_iff.1 hgives
    obtain ⟨rfl, rfl⟩ := gives_pure_iff.1 hgives
    exact h document hfits failure rest state _ hstate

theorem takes_inOrder (h : ∀ name state, good state → (field name state).Takes room good)
    (hstart : good start) (hfits : ∀ item ∈ items, item.Fits Number.InRange room)
    {names : List String}
    (hgives : (inOrder field names start).Gives failure
      (itemEvents items ++ .endArray :: rest) state after) : after = rest ∧ good state := by
  induction names generalizing items start with
  | nil =>
      obtain ⟨event, middle, hnext, hgives⟩ := gives_bind_iff.1 hgives
      cases items with
      | nil =>
          obtain ⟨rfl, rfl⟩ := List.cons.inj (gives_next_iff.1 hnext)
          obtain ⟨rfl, rfl⟩ := gives_pure_iff.1 hgives
          exact ⟨rfl, hstart⟩
      | cons item items =>
          obtain ⟨rfl, -⟩ := List.cons.inj (gives_next_iff.1 hnext)
          cases hgives
  | cons name names ih =>
      obtain ⟨event, middle, hnext, hgives⟩ := gives_bind_iff.1 hgives
      cases items with
      | nil =>
          obtain ⟨rfl, rfl⟩ := List.cons.inj (gives_next_iff.1 hnext)
          obtain ⟨rfl, rfl⟩ := gives_pure_iff.1 hgives
          exact ⟨rfl, hstart⟩
      | cons item items =>
          obtain ⟨hitem, hitems⟩ := List.forall_mem_cons.1 hfits
          rw [itemEvents, List.cons_append, List.cons_append, List.append_assoc] at hnext
          obtain ⟨rfl, rfl⟩ := List.cons.inj (gives_next_iff.1 hnext)
          obtain ⟨next, middle, hfield, hgives⟩ := gives_bind_iff.1 hgives
          obtain ⟨rfl, hnext⟩ := h name start hstart item hitem failure _ next middle hfield
          exact ih hnext hitems hgives

/-- A record is taken whole, as an object or as an array, if each of its fields is. -/
theorem takes_record {names : List String}
    (h : ∀ name state, good state → (field name state).Takes room good) (hstart : good start) :
    (record start names field).Takes (room + 1) good := by
  intro document hfits failure rest state after hgives
  obtain ⟨event, middle, hnext, hgives⟩ := gives_bind_iff.1 hgives
  split at hgives
  · obtain ⟨all, hvalues, rfl⟩ := exists_of_beginObject hfits (gives_next_iff.1 hnext)
    obtain ⟨⟨seen, last⟩, left, hfields, hgives⟩ := gives_bind_iff.1 hgives
    obtain ⟨rfl, rfl⟩ := gives_pure_iff.1 hgives
    have honce : ∀ name (seen : List String × σ), good seen.2 →
        (once names field name seen).Takes room fun seen => good seen.2 :=
      fun name seen hseen => takes_once (h name seen.2 hseen)
    exact @takes_fields _ _ _ _ _ _ (fun seen => good seen.2) _ _ _ honce hstart hvalues hfields
  · obtain ⟨items, hitems, rfl⟩ := exists_of_beginArray hfits (gives_next_iff.1 hnext)
    exact takes_inOrder h hstart hitems hgives
  · exact absurd hgives not_gives_mismatch

end Members

end Documents

end Waymark.Json.Decoder
