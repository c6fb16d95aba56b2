import Waymark.Proofs.Json.Numerals
/-!
Documents as texts hold them.

What a text is read as, up to its end, are the events of one document (`exists_of_scan`): its fields
stand in the order of the text and a name may stand twice, its whole numbers have 64 bits, and it
nests no deeper than a text may.
-/

namespace Waymark.Json

/-- A document has its numbers of a kind, and nests at most so deep. -/
inductive Value.Fits (kind : Number → Prop) : Nat → Value → Prop
  | null {room : Nat} : Fits kind room .null
  | bool {room : Nat} (value : Bool) : Fits kind room (.bool value)
  | number {room : Nat} {number : Number} (h : kind number) : Fits kind room (.number number)
  | string {room : Nat} (text : String) : Fits kind room (.string text)
  | array {room : Nat} {items : List Value} (h : ∀ item ∈ items, Fits kind room item) :
      Fits kind (room + 1) (.array items)
  | object {room : Nat} {fields : List (String × Value)}
      (h : ∀ field ∈ fields, Fits kind room field.2) : Fits kind (room + 1) (.object fields)

namespace Scan

variable {fuel : Nat} {frames : List Frame} {cs : List Char} {done : List Event}

/-- An atom is no list and no object, and its number is one that a text can hold. -/
theorem fits_of_atom {c : Char} {value : Value} {rest : List Char} (h : atom c cs = .ok (value, rest))
    (room : Nat) : value.Fits Number.InRange room ∧ value.events = [.atom value] := by
  unfold atom at h
  split at h
  · obtain ⟨_, -, heq⟩ := map_eq_ok_iff.1 h
    obtain ⟨rfl, -⟩ := Prod.mk.inj heq
    exact ⟨.null, rfl⟩
  · obtain ⟨_, -, heq⟩ := map_eq_ok_iff.1 h
    obtain ⟨rfl, -⟩ := Prod.mk.inj heq
    exact ⟨.bool true, rfl⟩
  · obtain ⟨_, -, heq⟩ := map_eq_ok_iff.1 h
    obtain ⟨rfl, -⟩ := Prod.mk.inj heq
    exact ⟨.bool false, rfl⟩
  · obtain ⟨⟨text, _⟩, -, heq⟩ := map_eq_ok_iff.1 h
    obtain ⟨rfl, -⟩ := Prod.mk.inj heq
    exact ⟨.string text, rfl⟩
  · obtain ⟨⟨number, _⟩, hnumber, heq⟩ := map_eq_ok_iff.1 h
    obtain ⟨rfl, -⟩ := Prod.mk.inj heq
    exact ⟨.number (inRange_of_number hnumber), rfl⟩
  · split at h
    · obtain ⟨⟨number, _⟩, hnumber, heq⟩ := map_eq_ok_iff.1 h
      obtain ⟨rfl, -⟩ := Prod.mk.inj heq
      exact ⟨.number (inRange_of_number hnumber), rfl⟩
    · exact absurd h nofun

/-- Where the reading of a text stands: what may come next, what is open, the text that is left, and
the events so far in reverse. -/
structure State where
  phase : Phase
  frames : List Frame
  text : List Char
  done : List Event

/-- The events of a text from a state onwards. -/
def State.run (state : State) (fuel : Nat) : Events :=
  Scan.run fuel state.phase state.frames state.text state.done

/-- One step through a text that is not refused. -/
inductive Step : State → State → Prop
  | openArray {frames : List Frame} {text rest : List Char} {done : List Event}
      (h : text.dropWhile isBlank = '[' :: rest) (hroom : frames.length < deepest) :
      Step ⟨.value, frames, text, done⟩ ⟨.firstItem, .array :: frames, rest, .beginArray :: done⟩
  | openObject {frames : List Frame} {text rest : List Char} {done : List Event}
      (h : text.dropWhile isBlank = '\x7b' :: rest) (hroom : frames.length < deepest) :
      Step ⟨.value, frames, text, done⟩ ⟨.firstKey, .object :: frames, rest, .beginObject :: done⟩
  | atom {frames : List Frame} {text middle rest : List Char} {done : List Event} {c : Char}
      {value : Value} (h : text.dropWhile isBlank = c :: middle)
      (hatom : Scan.atom c middle = .ok (value, rest)) :
      Step ⟨.value, frames, text, done⟩ ⟨.after, frames, rest, .atom value :: done⟩
  | firstItem {frames : List Frame} {text rest : List Char} {done : List Event} {c : Char}
      (h : text.dropWhile isBlank = c :: rest) (hend : c ≠ ']') :
      Step ⟨.firstItem, frames, text, done⟩ ⟨.value, frames, c :: rest, .item :: done⟩
  | emptyArray {frames : List Frame} {text rest : List Char} {done : List Event}
      (h : text.dropWhile isBlank = ']' :: rest) :
      Step ⟨.firstItem, frames, text, done⟩ ⟨.after, frames.tail, rest, .endArray :: done⟩
  | emptyObject {frames : List Frame} {text rest : List Char} {done : List Event}
      (h : text.dropWhile isBlank = '\x7d' :: rest) :
      Step ⟨.firstKey, frames, text, done⟩ ⟨.after, frames.tail, rest, .endObject :: done⟩
  | firstKey {frames : List Frame} {text middle rest : List Char} {done : List Event}
      {name : String} (h : text.dropWhile isBlank = '"' :: middle)
      (hname : string middle [] = .ok (name, rest)) :
      Step ⟨.firstKey, frames, text, done⟩ ⟨.colon, frames, rest, .key name :: done⟩
  | nextKey {frames : List Frame} {text middle rest : List Char} {done : List Event}
      {name : String} (h : text.dropWhile isBlank = '"' :: middle)
      (hname : string middle [] = .ok (name, rest)) :
      Step ⟨.nextKey, frames, text, done⟩ ⟨.colon, frames, rest, .key name :: done⟩
  | colon {frames : List Frame} {text rest : List Char} {done : List Event}
      (h : text.dropWhile isBlank = ':' :: rest) :
      Step ⟨.colon, frames, text, done⟩ ⟨.value, frames, rest, done⟩
  | nextItem {frames : List Frame} {text rest : List Char} {done : List Event}
      (h : text.dropWhile isBlank = ',' :: rest) :
      Step ⟨.after, .array :: frames, text, done⟩ ⟨.value, .array :: frames, rest, .item :: done⟩
  | endArray {frames : List Frame} {text rest : List Char} {done : List Event}
      (h : text.dropWhile isBlank = ']' :: rest) :
      Step ⟨.after, .array :: frames, text, done⟩ ⟨.after, frames, rest, .endArray :: done⟩
  | nextField {frames : List Frame} {text rest : List Char} {done : List Event}
      (h : text.dropWhile isBlank = ',' :: rest) :
      Step ⟨.after, .object :: frames, text, done⟩ ⟨.nextKey, .object :: frames, rest, done⟩
  | endObject {frames : List Frame} {text rest : List Char} {done : List Event}
      (h : text.dropWhile isBlank = '\x7d' :: rest) :
      Step ⟨.after, .object :: frames, text, done⟩ ⟨.after, frames, rest, .endObject :: done⟩

/-- The text ends after so many steps, with these events. -/
inductive Ends : Nat → State → List Event → Prop
  | stop {text : List Char} {done : List Event} (h : text.dropWhile isBlank = []) :
      Ends 0 ⟨.after, [], text, done⟩ done.reverse
  | step {count : Nat} {state next : State} {events : List Event} (h : Step state next)
      (hnext : Ends count next events) : Ends (count + 1) state events

theorem ne_of_atom {c : Char} {middle rest : List Char} {value : Value}
    (h : atom c middle = .ok (value, rest)) : c ≠ '[' ∧ c ≠ '\x7b' := by
  constructor
  · rintro rfl
    exact absurd h nofun
  · rintro rfl
    exact absurd h nofun

theorem Step.run_succ {state next : State} (h : Step state next) (fuel : Nat) :
    state.run (fuel + 1) = next.run fuel := by
  cases h with
  | openArray h hroom => simp [State.run, run, h, Nat.not_le.2 hroom]
  | openObject h hroom => simp [State.run, run, h, Nat.not_le.2 hroom]
  | atom h hatom =>
      obtain ⟨harray, hobject⟩ := ne_of_atom hatom
      simp [State.run, run, h, hatom]
  | firstItem h hend => simp [State.run, run, h]
  | firstKey h hname => simp [State.run, run, h, hname]
  | nextKey h hname => simp [State.run, run, h, hname]
  | _ h => simp [State.run, run, h]

/-- A reading that is not refused makes a step, or the text ends there. -/
theorem exists_step_or {state : State} {fuel : Nat} (h : (state.run (fuel + 1)).ending = none) :
    (∃ next, Step state next) ∨
      ∃ text done, state = ⟨.after, [], text, done⟩ ∧ text.dropWhile isBlank = [] := by
  obtain ⟨phase, frames, text, done⟩ := state
  simp only [State.run, run] at h
  split at h
  · next htext =>
    split at h
    · exact absurd h nofun
    · next hroom => exact .inl ⟨_, .openArray htext (Nat.lt_of_not_le hroom)⟩
  · next htext =>
    split at h
    · exact absurd h nofun
    · next hroom => exact .inl ⟨_, .openObject htext (Nat.lt_of_not_le hroom)⟩
  · next htext =>
    split at h
    · next hatom => exact .inl ⟨_, .atom htext hatom⟩
    · exact absurd h nofun
  · next htext => exact .inl ⟨_, .emptyArray htext⟩
  · next hend htext => exact .inl ⟨_, .firstItem htext hend⟩
  · next htext => exact .inl ⟨_, .emptyObject htext⟩
  · next htext =>
    split at h
    · next hname => exact .inl ⟨_, .firstKey htext hname⟩
    · exact absurd h nofun
  · next htext =>
    split at h
    · next hname => exact .inl ⟨_, .nextKey htext hname⟩
    · exact absurd h nofun
  · next htext => exact .inl ⟨_, .colon htext⟩
  · split at h
    · next htext => exact .inr ⟨text, done, rfl, htext⟩
    · next htext => exact .inl ⟨_, .nextItem htext⟩
    · next htext => exact .inl ⟨_, .endArray htext⟩
    · next htext => exact .inl ⟨_, .nextField htext⟩
    · next htext => exact .inl ⟨_, .endObject htext⟩
    · exact absurd h nofun
    · exact absurd h nofun
  · exact absurd h nofun
  · exact absurd h nofun

theorem exists_ends {state : State} {fuel : Nat} (h : (state.run fuel).ending = none) :
    ∃ count, Ends count state (state.run fuel).events := by
  induction fuel generalizing state with
  | zero => exact absurd h nofun
  | succ fuel ih =>
      rcases exists_step_or h with ⟨next, hstep⟩ | ⟨text, done, rfl, htext⟩
      · rw [hstep.run_succ] at h ⊢
        obtain ⟨count, hends⟩ := ih h
        exact ⟨count + 1, .step hstep hends⟩
      · have hrun : State.run ⟨.after, [], text, done⟩ (fuel + 1) = ⟨done.reverse, none⟩ := by
          simp [State.run, run, htext]
        rw [hrun]
        exact ⟨0, .stop htext⟩

theorem Ends.run_eq {count : Nat} {state : State} {events : List Event}
    (h : Ends count state events) {fuel : Nat} (hfuel : count < fuel) :
    state.run fuel = ⟨events, none⟩ := by
  induction h generalizing fuel with
  | stop htext =>
      cases fuel with
      | zero => exact absurd hfuel (Nat.not_lt_zero _)
      | succ fuel => simp [State.run, run, htext]
  | step hstep _ ih =>
      cases fuel with
      | zero => exact absurd hfuel (Nat.not_lt_zero _)
      | succ fuel => rw [hstep.run_succ, ih (Nat.lt_of_succ_lt_succ hfuel)]

/-- The blanks before a step do not matter. -/
theorem Step.of_dropWhile {phase : Phase} {text other : List Char} {next : State}
    (h : Step ⟨phase, frames, text, done⟩ next)
    (heq : other.dropWhile isBlank = text.dropWhile isBlank) :
    Step ⟨phase, frames, other, done⟩ next := by
  cases h with
  | openArray h hroom => exact .openArray (heq.trans h) hroom
  | openObject h hroom => exact .openObject (heq.trans h) hroom
  | atom h hatom => exact .atom (heq.trans h) hatom
  | firstItem h hend => exact .firstItem (heq.trans h) hend
  | emptyArray h => exact .emptyArray (heq.trans h)
  | emptyObject h => exact .emptyObject (heq.trans h)
  | firstKey h hname => exact .firstKey (heq.trans h) hname
  | nextKey h hname => exact .nextKey (heq.trans h) hname
  | colon h => exact .colon (heq.trans h)
  | nextItem h => exact .nextItem (heq.trans h)
  | endArray h => exact .endArray (heq.trans h)
  | nextField h => exact .nextField (heq.trans h)
  | endObject h => exact .endObject (heq.trans h)

theorem Ends.of_dropWhile {count : Nat} {phase : Phase} {text other : List Char} {all : List Event}
    (h : Ends count ⟨phase, frames, text, done⟩ all)
    (heq : other.dropWhile isBlank = text.dropWhile isBlank) :
    Ends count ⟨phase, frames, other, done⟩ all := by
  cases h with
  | stop h => exact .stop (heq.trans h)
  | step h hnext => exact .step (h.of_dropWhile heq) hnext

/-- A step keeps the events so far. -/
theorem Step.exists_done {state next : State} (h : Step state next) :
    ∃ events, next.done = events ++ state.done := by
  cases h with
  | colon | nextField => exact ⟨[], rfl⟩
  | _ => exact ⟨[_], rfl⟩

theorem Ends.exists_append {count : Nat} {state : State} {all : List Event}
    (h : Ends count state all) : ∃ events, all = state.done.reverse ++ events := by
  induction h with
  | stop => exact ⟨[], (List.append_nil _).symm⟩
  | step hstep _ ih =>
      obtain ⟨events, hdone⟩ := hstep.exists_done
      obtain ⟨more, rfl⟩ := ih
      exact ⟨events.reverse ++ more, by rw [hdone, List.reverse_append, List.append_assoc]⟩

/-- With nothing open, only the end of the text may follow a value. -/
theorem Ends.eq_reverse {count : Nat} {text : List Char} {done all : List Event}
    (h : Ends count ⟨.after, [], text, done⟩ all) :
    all = done.reverse ∧ text.dropWhile isBlank = [] := by
  cases h with
  | stop h => exact ⟨rfl, h⟩
  | step hstep => cases hstep

section Documents

/-- The text goes on after these events, and ends in fewer steps than before. -/
def Leads (count : Nat) (frames : List Frame) (events done all : List Event) : Prop :=
  ∃ less rest, less < count ∧ Ends less ⟨.after, frames, rest, events.reverse ++ done⟩ all

/-- Where a value may come next, a text that ends holds a document first. -/
def HoldsValue (count : Nat) : Prop :=
  ∀ frames text done all, Ends count ⟨.value, frames, text, done⟩ all →
    ∃ value : Value, value.Fits Number.InRange (deepest - frames.length) ∧
      Leads count frames value.events done all

/-- After a value in an array, a text that ends holds further items first. -/
def HoldsItems (count : Nat) : Prop :=
  ∀ frames text done all, Ends count ⟨.after, .array :: frames, text, done⟩ all →
    ∃ items : List Value,
      (∀ item ∈ items, item.Fits Number.InRange (deepest - (frames.length + 1))) ∧
        Leads count frames (itemEvents items ++ [.endArray]) done all

/-- After a value in an object, a text that ends holds further fields first. -/
def HoldsFields (count : Nat) : Prop :=
  ∀ frames text done all, Ends count ⟨.after, .object :: frames, text, done⟩ all →
    ∃ fields : List (String × Value),
      (∀ field ∈ fields, field.2.Fits Number.InRange (deepest - (frames.length + 1))) ∧
        Leads count frames (fieldEvents fields ++ [.endObject]) done all

variable {count : Nat} {text : List Char} {all : List Event}

/-- After the comma or the bracket before an item, a text that ends holds the item and further
ones. -/
theorem exists_items_of_value (hvalue : HoldsValue count)
    (hitems : ∀ less < count, HoldsItems less)
    (h : Ends count ⟨.value, .array :: frames, text, .item :: done⟩ all) :
    ∃ items : List Value,
      (∀ item ∈ items, item.Fits Number.InRange (deepest - (frames.length + 1))) ∧
        Leads count frames (itemEvents items ++ [.endArray]) done all := by
  obtain ⟨item, hitem, less, rest, hless, hends⟩ := hvalue _ _ _ _ h
  obtain ⟨items, hrest, less', rest', hless', hends⟩ := hitems less hless _ _ _ _ hends
  refine ⟨item :: items, List.forall_mem_cons.2 ⟨hitem, hrest⟩, less', rest', by omega, ?_⟩
  simpa [itemEvents] using hends

theorem Leads.mono {more : Nat} {events : List Event} (h : Leads count frames events done all)
    (hle : count ≤ more) : Leads more frames events done all := by
  obtain ⟨less, rest, hless, hends⟩ := h
  exact ⟨less, rest, Nat.lt_of_lt_of_le hless hle, hends⟩

theorem holdsItems_of_lt (hvalue : ∀ less < count, HoldsValue less)
    (hitems : ∀ less < count, HoldsItems less) : HoldsItems count := by
  intro frames text done all h
  cases h with
  | @step count _ _ _ hstep hnext =>
      cases hstep with
      | endArray htext => exact ⟨[], nofun, _, _, Nat.lt_succ_self count, hnext⟩
      | nextItem htext =>
          obtain ⟨items, hfits, hleads⟩ := exists_items_of_value
            (hvalue count (Nat.lt_succ_self count))
            (fun less hless => hitems less (Nat.lt_succ_of_lt hless)) hnext
          exact ⟨items, hfits, hleads.mono (Nat.le_succ count)⟩

/-- After the name of a field, a text that ends holds the value of the field and further fields. -/
theorem exists_fields_of_colon {name : String} (hvalue : ∀ less < count, HoldsValue less)
    (hfields : ∀ less < count, HoldsFields less)
    (h : Ends count ⟨.colon, .object :: frames, text, .key name :: done⟩ all) :
    ∃ fields : List (String × Value),
      (∀ field ∈ fields, field.2.Fits Number.InRange (deepest - (frames.length + 1))) ∧
        Leads count frames (fieldEvents fields ++ [.endObject]) done all := by
  cases h with
  | step hstep hnext =>
      cases hstep with
      | colon htext =>
          obtain ⟨value, hfits, less, rest, hless, hends⟩ :=
            hvalue _ (Nat.lt_succ_self _) _ _ _ _ hnext
          obtain ⟨fields, hrest, less', rest', hless', hends⟩ :=
            hfields less (Nat.lt_succ_of_lt hless) _ _ _ _ hends
          refine ⟨(name, value) :: fields, List.forall_mem_cons.2 ⟨hfits, hrest⟩, less', rest',
            by omega, ?_⟩
          simpa [fieldEvents] using hends

theorem holdsFields_of_lt (hvalue : ∀ less < count, HoldsValue less)
    (hfields : ∀ less < count, HoldsFields less) : HoldsFields count := by
  intro frames text done all h
  cases h with
  | step hstep hnext =>
      cases hstep with
      | endObject htext => exact ⟨[], nofun, _, _, Nat.lt_succ_self _, hnext⟩
      | nextField htext =>
          cases hnext with
          | step hstep hnext =>
              cases hstep with
              | nextKey htext hname =>
                  obtain ⟨fields, hfits, hleads⟩ := exists_fields_of_colon
                    (fun less hless => hvalue less (by omega))
                    (fun less hless => hfields less (by omega)) hnext
                  exact ⟨fields, hfits, hleads.mono (by omega)⟩

theorem fits_array {items : List Value} (hroom : frames.length < deepest)
    (h : ∀ item ∈ items, item.Fits Number.InRange (deepest - (frames.length + 1))) :
    (Value.array items).Fits Number.InRange (deepest - frames.length) := by
  have hsucc : deepest - frames.length = deepest - (frames.length + 1) + 1 := by omega
  rw [hsucc]
  exact .array h

theorem fits_object {fields : List (String × Value)} (hroom : frames.length < deepest)
    (h : ∀ field ∈ fields, field.2.Fits Number.InRange (deepest - (frames.length + 1))) :
    (Value.object fields).Fits Number.InRange (deepest - frames.length) := by
  have hsucc : deepest - frames.length = deepest - (frames.length + 1) + 1 := by omega
  rw [hsucc]
  exact .object h

/-- In an array that has just been opened, a text that ends holds items first. -/
theorem exists_of_firstItem (hvalue : ∀ less < count, HoldsValue less)
    (hitems : ∀ less < count, HoldsItems less)
    (h : Ends count ⟨.firstItem, .array :: frames, text, done⟩ all) :
    ∃ items : List Value,
      (∀ item ∈ items, item.Fits Number.InRange (deepest - (frames.length + 1))) ∧
        Leads count frames (itemEvents items ++ [.endArray]) done all := by
  cases h with
  | step hstep hnext =>
      cases hstep with
      | emptyArray htext => exact ⟨[], nofun, _, _, Nat.lt_succ_self _, hnext⟩
      | firstItem htext hend =>
          obtain ⟨items, hfits, hleads⟩ := exists_items_of_value (hvalue _ (Nat.lt_succ_self _))
            (fun less hless => hitems less (Nat.lt_succ_of_lt hless)) hnext
          exact ⟨items, hfits, hleads.mono (Nat.le_succ _)⟩

/-- In an object that has just been opened, a text that ends holds fields first. -/
theorem exists_of_firstKey (hvalue : ∀ less < count, HoldsValue less)
    (hfields : ∀ less < count, HoldsFields less)
    (h : Ends count ⟨.firstKey, .object :: frames, text, done⟩ all) :
    ∃ fields : List (String × Value),
      (∀ field ∈ fields, field.2.Fits Number.InRange (deepest - (frames.length + 1))) ∧
        Leads count frames (fieldEvents fields ++ [.endObject]) done all := by
  cases h with
  | step hstep hnext =>
      cases hstep with
      | emptyObject htext => exact ⟨[], nofun, _, _, Nat.lt_succ_self _, hnext⟩
      | firstKey htext hname =>
          obtain ⟨fields, hfits, hleads⟩ := exists_fields_of_colon
            (fun less hless => hvalue less (Nat.lt_succ_of_lt hless))
            (fun less hless => hfields less (Nat.lt_succ_of_lt hless)) hnext
          exact ⟨fields, hfits, hleads.mono (Nat.le_succ _)⟩

theorem holdsValue_of_lt (hvalue : ∀ less < count, HoldsValue less)
    (hitems : ∀ less < count, HoldsItems less) (hfields : ∀ less < count, HoldsFields less) :
    HoldsValue count := by
  intro frames text done all h
  cases h with
  | @step count _ _ _ hstep hnext =>
      have hbelow {P : Nat → Prop} (h : ∀ less < count + 1, P less) : ∀ less < count, P less :=
        fun less hless => h less (Nat.lt_succ_of_lt hless)
      cases hstep with
      | @atom _ _ _ rest _ _ value htext hatom =>
          obtain ⟨hfits, hevents⟩ := fits_of_atom hatom (deepest - frames.length)
          refine ⟨value, hfits, count, rest, Nat.lt_succ_self count, ?_⟩
          rw [hevents]
          exact hnext
      | openArray htext hroom =>
          obtain ⟨items, hfits, less, rest, hless, hends⟩ :=
            exists_of_firstItem (hbelow hvalue) (hbelow hitems) hnext
          refine ⟨.array items, fits_array hroom hfits, less, rest, Nat.lt_succ_of_lt hless, ?_⟩
          simpa [Value.events] using hends
      | openObject htext hroom =>
          obtain ⟨fields, hfits, less, rest, hless, hends⟩ :=
            exists_of_firstKey (hbelow hvalue) (hbelow hfields) hnext
          refine ⟨.object fields, fits_object hroom hfits, less, rest, Nat.lt_succ_of_lt hless, ?_⟩
          simpa [Value.events] using hends

theorem holds (count : Nat) : HoldsValue count ∧ HoldsItems count ∧ HoldsFields count := by
  -- what follows a member is read in fewer steps than the member and it, so the induction is on
  -- the steps to the end of the text and not on the text
  induction count using Nat.strongRecOn with
  | ind count ih =>
      have hvalue less hless := (ih less hless).1
      have hitems less hless := (ih less hless).2.1
      have hfields less hless := (ih less hless).2.2
      exact ⟨holdsValue_of_lt hvalue hitems hfields, holdsItems_of_lt hvalue hitems,
        holdsFields_of_lt hvalue hfields⟩

end Documents

end Scan

/-- A text that is read to its end holds one document. -/
theorem exists_of_scan {text : List Char} (h : (scan text).ending = none) :
    ∃ value : Value, value.Fits Number.InRange Scan.deepest ∧ scan text = Events.ofValue value := by
  obtain ⟨count, hends⟩ := @Scan.exists_ends ⟨.value, [], text, []⟩ _ h
  obtain ⟨value, hfits, less, rest, -, hlast⟩ := (Scan.holds count).1 _ _ _ _ hends
  have hevents : (scan text).events = value.events := by
    rw [List.append_nil] at hlast
    exact hlast.eq_reverse.1.trans (List.reverse_reverse _)
  exact ⟨value, hfits, by rw [Events.ofValue, ← hevents, ← h]⟩

end Waymark.Json
