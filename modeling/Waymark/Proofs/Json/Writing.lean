import Mathlib.Data.List.DropRight
import Waymark.Proofs.Json.Decoding
/-!
Reading documents that have been written.

Every string and every whole number that a text can hold is read back as it was written. So is every
document whose other numbers are and that nests no deeper than a text may (`scan_chars`).
-/

namespace Waymark.Json

namespace Scan

section Strings

theorem hexQuad?_hexDigit {code : Nat} (h : code < 0x20) :
    hexQuad? '0' '0' (hexDigit (code / 16)) (hexDigit (code % 16)) = some code := by
  decide +revert

/-- A character is read as itself, whether it is escaped or not. -/
theorem string_escapeChar (c : Char) (rest done : List Char) :
    string (escapeChar c ++ rest) done = string rest (c :: done) := by
  unfold escapeChar
  split
  case h_8 hquote hslash _ _ _ _ _ =>
    split
    · next hcontrol =>
      have hsurrogate : ¬ (0xDC00 ≤ c.toNat ∧ c.toNat ≤ 0xDFFF) := by omega
      have hpair : ¬ (0xD800 ≤ c.toNat ∧ c.toNat ≤ 0xDBFF) := by omega
      simp only [List.cons_append, List.nil_append, string, hexQuad?_hexDigit hcontrol,
        if_neg hsurrogate, if_neg hpair, Char.ofNat_toNat]
    · next hcontrol =>
      rw [List.singleton_append]
      rw [string]
      · exact if_neg hcontrol
      · exact hquote
      · exact fun _ _ _ _ _ h _ => hslash h
      · exact fun _ h _ => hslash h
      · exact fun h _ => hslash h
      · exact fun _ _ h _ => hslash h
  all_goals rfl

theorem string_quoted (text : String) (rest : List Char) :
    string (text.toList.flatMap escapeChar ++ '"' :: rest) [] = .ok (text, rest) := by
  have hread : ∀ cs done : List Char, string (cs.flatMap escapeChar ++ '"' :: rest) done =
      .ok (String.ofList (done.reverse ++ cs), rest) := by
    intro cs
    induction cs with
    | nil =>
        intro done
        rw [List.append_nil]
        rfl
    | cons c cs ih =>
        intro done
        rw [List.flatMap_cons, List.append_assoc, string_escapeChar, ih, List.reverse_cons,
          List.append_assoc, List.singleton_append]
  rw [hread, List.reverse_nil, List.nil_append, String.ofList_toList]

end Strings

section Numbers

variable {c : Char} {middle left rest : List Char} {number : Number}

theorem atom_of_isDigit (h : c.isDigit = true) (rest : List Char) :
    atom c rest = (Scan.number false (c :: rest)).map fun (value, rest) => (.number value, rest) := by
  unfold atom
  split
  case h_6 => exact if_pos h
  all_goals exact absurd h (by decide)

/-- A number is an atom that begins with its sign or a digit. -/
theorem exists_number_of_atom (h : atom c middle = .ok (.number number, left)) :
    ∃ negative digits, Scan.number negative digits = .ok (number, left) ∧
      ((c = '-' ∧ negative = true ∧ digits = middle) ∨
        (c.isDigit = true ∧ negative = false ∧ digits = c :: middle)) := by
  unfold atom at h
  split at h
  case h_5 =>
    obtain ⟨_, hnumber, heq⟩ := map_eq_ok_iff.1 h
    obtain ⟨⟨⟩, rfl⟩ := Prod.mk.inj heq
    exact ⟨true, middle, hnumber, .inl ⟨rfl, rfl, rfl⟩⟩
  case h_6 =>
    split at h
    · next hdigit =>
      obtain ⟨_, hnumber, heq⟩ := map_eq_ok_iff.1 h
      obtain ⟨⟨⟩, rfl⟩ := Prod.mk.inj heq
      exact ⟨false, c :: middle, hnumber, .inr ⟨hdigit, rfl, rfl⟩⟩
    · exact absurd h nofun
  all_goals
    obtain ⟨_, -, heq⟩ := map_eq_ok_iff.1 h
    exact absurd (Prod.mk.inj heq).1 nofun

theorem atom_append (h : atom c middle = .ok (.number number, left))
    (hrest : left = [] → Stops rest) :
    atom c (middle ++ rest) = .ok (.number number, left ++ rest) := by
  obtain ⟨negative, digits, hnumber, ⟨rfl, rfl, rfl⟩ | ⟨hdigit, rfl, rfl⟩⟩ :=
    exists_number_of_atom h
  · exact congrArg (Except.map _) (number_append hnumber hrest)
  · rw [atom_of_isDigit hdigit, ← List.cons_append, number_append hnumber hrest]
    rfl

theorem scan_of_readsBack (h : number.ReadsBack) :
    scan number.render = Events.ofValue (.number number) := by
  rw [Number.ReadsBack, parse, String.toList_ofList] at h
  obtain ⟨hending, rest, hgives⟩ := Decoder.decode_eq_ok_iff.1 h
  obtain ⟨document, -, hscan⟩ := exists_of_scan hending
  have hread := Decoder.reads_value document .mismatched []
  rw [List.append_nil] at hread
  rw [hscan] at hgives
  obtain ⟨hnormal, -⟩ := Decoder.Gives.unique hread hgives
  cases document with
  | number =>
      obtain rfl := Value.number.inj hnormal
      exact hscan
  | null | bool | string | array | object => exact absurd hnormal nofun

/-- A number that is read back is an atom, with blanks around it at most. -/
theorem exists_atom_of_readsBack (h : number.ReadsBack) :
    ∃ c middle left, number.render.dropWhile isBlank = c :: middle ∧
      atom c middle = .ok (.number number, left) ∧ left.dropWhile isBlank = [] := by
  have hscan := scan_of_readsBack h
  obtain ⟨count, hends⟩ := @exists_ends ⟨.value, [], number.render, []⟩ _
    (congrArg Events.ending hscan)
  rw [show State.run _ _ = scan number.render from rfl, hscan] at hends
  cases hends with
  | step hstep hnext =>
      cases hstep with
      | atom htext hatom =>
          obtain ⟨hall, hblank⟩ := hnext.eq_reverse
          obtain ⟨⟨⟩, -⟩ := List.cons.inj hall
          exact ⟨_, _, _, htext, hatom, hblank⟩
      | openArray | openObject =>
          -- the events of a number do not begin with those of a list or an object
          obtain ⟨_, hall⟩ := hnext.exists_append
          exact absurd (List.cons.inj hall).1 nofun

theorem readsBack_of_atom (htext : number.render = c :: middle) (hblank : isBlank c = false)
    (hatom : atom c middle = .ok (.number number, [])) : number.ReadsBack := by
  have hdrop : number.render.dropWhile isBlank = c :: middle := by
    rw [htext, List.dropWhile_cons_of_neg (by simp [hblank])]
  have hends : Ends 1 ⟨.value, [], number.render, []⟩ [.atom (.number number)] :=
    .step (.atom hdrop hatom) (.stop rfl)
  have hscan : scan number.render = Events.ofValue (.number number) :=
    hends.run_eq (by omega)
  rw [Number.ReadsBack, parse, String.toList_ofList, hscan]
  exact (Decoder.reads_value (.number number)).decode

theorem isBlank_of_isDigit (h : c.isDigit = true) : isBlank c = false := by
  cases hblank : isBlank c with
  | false => rfl
  | true =>
      simp only [isBlank, Bool.or_eq_true, beq_iff_eq] at hblank
      rcases hblank with ((rfl | rfl) | rfl) | rfl <;> exact absurd h (by decide)

/-- A whole number that a text can hold is read back. -/
theorem readsBack_integer {value : Int} (h : (Number.integer value).InRange) :
    (Number.integer value).ReadsBack := by
  obtain ⟨hlow, hhigh⟩ := h
  cases value with
  | ofNat size =>
      rw [Int.ofNat_eq_natCast] at hhigh
      have hread := @number_toDigits false [] size (by omega) nofun stops_nil
      rw [List.append_nil] at hread
      have hrender : (Number.integer (.ofNat size)).render = Nat.toDigits 10 size :=
        Nat.toList_repr
      obtain ⟨c, digits, hdigits⟩ := List.exists_cons_of_ne_nil (@Nat.toDigits_ne_nil size 10)
      have hdigit : c.isDigit = true :=
        Nat.isDigit_of_mem_toDigits (by decide) (by decide) (hdigits ▸ List.mem_cons_self)
      refine readsBack_of_atom (hrender.trans hdigits) (isBlank_of_isDigit hdigit) ?_
      rw [atom_of_isDigit hdigit, ← hdigits, hread]
      rfl
  | negSucc size =>
      rw [Int.negSucc_eq] at hlow
      have hlargest : Nat.pow 2 63 ≤ largest := by decide
      have hread := @number_toDigits true [] (size + 1) (by omega) (fun _ => by omega) stops_nil
      rw [List.append_nil] at hread
      have hrender : (Number.integer (.negSucc size)).render =
          '-' :: Nat.toDigits 10 (size + 1) := by
        have htext : (Number.integer (.negSucc size)).render =
            ("-" ++ Nat.repr (size + 1)).toList := rfl
        rw [htext, String.toList_append, Nat.toList_repr]
        rfl
      refine readsBack_of_atom hrender rfl ?_
      exact congrArg (Except.map _) hread

end Numbers

section Documents

variable {frames : List Frame} {rest : List Char} {done all : List Event} {less : Nat}

/-- The text of a value, before one that does not go on with a number, is read as the value, in at
most two steps for each of its characters. -/
def Rereads (value : Value) (frames : List Frame) : Prop :=
  ∀ rest done all less, Stops rest →
    Ends less ⟨.after, frames, rest, value.events.reverse ++ done⟩ all →
      ∃ count ≤ less + 2 * value.chars.length,
        Ends count ⟨.value, frames, value.chars ++ rest, done⟩ all

theorem rereads_atom {value : Value} {c : Char} {middle : List Char} (hchars : value.chars = c :: middle)
    (hblank : isBlank c = false) (hevents : value.events = [.atom value])
    (hatom : ∀ rest, atom c (middle ++ rest) = .ok (value, rest)) : Rereads value frames := by
  intro rest done all less _ hends
  rw [hevents] at hends
  refine ⟨less + 1, ?_, .step (.atom ?_ (hatom rest)) hends⟩
  · rw [hchars, List.length_cons]
    omega
  · rw [hchars, List.cons_append, List.dropWhile_cons_of_neg (by simp [hblank])]

theorem rereads_number {number : Number} (h : number.ReadsBack) :
    Rereads (.number number) frames := by
  intro rest done all less hrest hends
  obtain ⟨c, middle, left, htext, hatom, hblank⟩ := exists_atom_of_readsBack h
  -- blanks are allowed here, so that nothing has to be known of how a number is written
  have hdrop : (number.render ++ rest).dropWhile isBlank = c :: (middle ++ rest) := by
    rw [List.dropWhile_append, htext]
    rfl
  have hleft : (left ++ rest).dropWhile isBlank = rest.dropWhile isBlank := by
    rw [List.dropWhile_append, hblank]
    rfl
  have hpos : 0 < number.render.length := by
    apply List.length_pos_of_ne_nil
    intro hnil
    rw [hnil] at htext
    exact absurd htext nofun
  refine ⟨less + 1, ?_, .step (.atom hdrop (atom_append hatom fun _ => hrest))
    (hends.of_dropWhile hleft)⟩
  rw [Value.chars]
  omega

theorem rereads_string (text : String) : Rereads (.string text) frames := by
  refine @rereads_atom _ _ '"' (text.toList.flatMap escapeChar ++ ['"']) rfl rfl rfl fun rest => ?_
  rw [List.append_assoc, List.singleton_append]
  exact congrArg (Except.map _) (string_quoted text rest)

/-- Where the items of an array may come, the text of a value may too. -/
theorem Ends.firstItem {text : List Char}
    (h : Ends less ⟨.value, frames, text, .item :: done⟩ all) :
    Ends (less + 1) ⟨.firstItem, frames, text, done⟩ all := by
  have hstart : ∃ c rest, text.dropWhile isBlank = c :: rest ∧ c ≠ ']' := by
    cases h with
    | step hstep _ =>
        cases hstep with
        | openArray h => exact ⟨_, _, h, by decide⟩
        | openObject h => exact ⟨_, _, h, by decide⟩
        | atom h hatom =>
            refine ⟨_, _, h, ?_⟩
            rintro rfl
            exact absurd hatom nofun
  obtain ⟨c, rest, htext, hend⟩ := hstart
  refine .step (.firstItem htext hend) (h.of_dropWhile ?_)
  rw [← htext, List.dropWhile_idempotent]

theorem stops_moreItems (items : List Value) (rest : List Char) :
    Stops (Value.moreItems items ++ ']' :: rest) := by
  cases items <;> rintro c ⟨⟩ <;> decide

theorem stops_moreFields (fields : List (String × Value)) (rest : List Char) :
    Stops (Value.moreFields fields ++ '\x7d' :: rest) := by
  cases fields <;> rintro c ⟨⟩ <;> decide

theorem exists_ends_moreItems {items : List Value}
    (h : ∀ item ∈ items, Rereads item (.array :: frames))
    (hends : Ends less
      ⟨.after, frames, rest, (itemEvents items ++ [Event.endArray]).reverse ++ done⟩ all) :
    ∃ count ≤ less + 2 * (Value.moreItems items).length + 1,
      Ends count ⟨.after, .array :: frames, Value.moreItems items ++ ']' :: rest, done⟩ all := by
  induction items generalizing done less with
  | nil => exact ⟨less + 1, by omega, .step (.endArray rfl) hends⟩
  | cons item items ih =>
      obtain ⟨hitem, hitems⟩ := List.forall_mem_cons.1 h
      have hevents : (itemEvents (item :: items) ++ [Event.endArray]).reverse ++ done =
          (itemEvents items ++ [Event.endArray]).reverse ++
            (item.events.reverse ++ .item :: done) := by
        simp [itemEvents]
      rw [hevents] at hends
      obtain ⟨count, hcount, hends⟩ := ih hitems hends
      obtain ⟨count', hcount', hends⟩ := hitem _ _ _ _ (stops_moreItems items rest) hends
      refine ⟨count' + 1, ?_, .step (.nextItem ?_) hends⟩
      · simp only [Value.moreItems, List.cons_append, List.length_cons, List.length_append]
        omega
      · simp [Value.moreItems, isBlank]

/-- From the colon of a field on, its value is read, and what follows it. -/
theorem Rereads.colon {value : Value} (h : Rereads value frames) (hrest : Stops rest)
    (hends : Ends less ⟨.after, frames, rest, value.events.reverse ++ done⟩ all) :
    ∃ count ≤ less + 2 * value.chars.length + 1,
      Ends count ⟨.colon, frames, ':' :: (value.chars ++ rest), done⟩ all := by
  obtain ⟨count, hcount, hends⟩ := h _ _ _ _ hrest hends
  exact ⟨count + 1, by omega, .step (.colon rfl) hends⟩

theorem dropWhile_quote (name : String) (rest : List Char) :
    (quote name ++ rest).dropWhile isBlank =
      '"' :: (name.toList.flatMap escapeChar ++ '"' :: rest) := by
  simp [quote, isBlank]

theorem Ends.nextKey {name : String} (h : Ends less ⟨.colon, frames, rest, .key name :: done⟩ all) :
    Ends (less + 1) ⟨.nextKey, frames, quote name ++ rest, done⟩ all :=
  .step (.nextKey (dropWhile_quote name rest) (string_quoted name rest)) h

theorem Ends.firstKey {name : String} (h : Ends less ⟨.colon, frames, rest, .key name :: done⟩ all) :
    Ends (less + 1) ⟨.firstKey, frames, quote name ++ rest, done⟩ all :=
  .step (.firstKey (dropWhile_quote name rest) (string_quoted name rest)) h

theorem exists_ends_moreFields {fields : List (String × Value)}
    (h : ∀ field ∈ fields, Rereads field.2 (.object :: frames))
    (hends : Ends less
      ⟨.after, frames, rest, (fieldEvents fields ++ [Event.endObject]).reverse ++ done⟩ all) :
    ∃ count ≤ less + 2 * (Value.moreFields fields).length + 1,
      Ends count ⟨.after, .object :: frames, Value.moreFields fields ++ '\x7d' :: rest, done⟩ all := by
  induction fields generalizing done less with
  | nil => exact ⟨less + 1, by omega, .step (.endObject rfl) hends⟩
  | cons field fields ih =>
      obtain ⟨name, value⟩ := field
      obtain ⟨hvalue, hvalues⟩ := List.forall_mem_cons.1 h
      have hevents : (fieldEvents ((name, value) :: fields) ++ [Event.endObject]).reverse ++ done =
          (fieldEvents fields ++ [Event.endObject]).reverse ++
            (value.events.reverse ++ .key name :: done) := by
        simp [fieldEvents]
      rw [hevents] at hends
      obtain ⟨count, hcount, hends⟩ := ih hvalues hends
      obtain ⟨count', hcount', hends⟩ := hvalue.colon (stops_moreFields fields rest) hends
      dsimp only at hcount'
      refine ⟨count' + 2, ?_, .step (.nextField ?_) hends.nextKey⟩
      · simp only [Value.moreFields, quote, List.cons_append, List.length_cons, List.length_append,
          List.length_nil]
        omega
      · simp [Value.moreFields, isBlank]

theorem rereads_array {items : List Value} (hroom : frames.length < deepest)
    (h : ∀ item ∈ items, Rereads item (.array :: frames)) : Rereads (.array items) frames := by
  intro rest done all less _ hends
  cases items with
  | nil =>
      refine ⟨less + 2, ?_, .step (.openArray rfl hroom) (.step (.emptyArray rfl) hends)⟩
      simp [Value.chars]
  | cons item items =>
      obtain ⟨hitem, hitems⟩ := List.forall_mem_cons.1 h
      have hevents : (Value.array (item :: items)).events.reverse ++ done =
          (itemEvents items ++ [Event.endArray]).reverse ++
            (item.events.reverse ++ .item :: .beginArray :: done) := by
        simp [Value.events, itemEvents]
      rw [hevents] at hends
      obtain ⟨count, hcount, hends⟩ := exists_ends_moreItems hitems hends
      obtain ⟨count', hcount', hends⟩ := hitem _ _ _ _ (stops_moreItems items rest) hends
      refine ⟨count' + 2, ?_, .step (.openArray ?_ hroom) hends.firstItem⟩
      · simp only [Value.chars, List.cons_append, List.length_cons, List.length_append,
          List.length_nil]
        omega
      · simp [Value.chars, isBlank]

theorem rereads_object {fields : List (String × Value)} (hroom : frames.length < deepest)
    (h : ∀ field ∈ fields, Rereads field.2 (.object :: frames)) :
    Rereads (.object fields) frames := by
  intro rest done all less _ hends
  cases fields with
  | nil =>
      refine ⟨less + 2, ?_, .step (.openObject rfl hroom) (.step (.emptyObject rfl) hends)⟩
      simp [Value.chars]
  | cons field fields =>
      obtain ⟨name, value⟩ := field
      obtain ⟨hvalue, hvalues⟩ := List.forall_mem_cons.1 h
      have hevents : (Value.object ((name, value) :: fields)).events.reverse ++ done =
          (fieldEvents fields ++ [Event.endObject]).reverse ++
            (value.events.reverse ++ .key name :: .beginObject :: done) := by
        simp [Value.events, fieldEvents]
      rw [hevents] at hends
      obtain ⟨count, hcount, hends⟩ := exists_ends_moreFields hvalues hends
      obtain ⟨count', hcount', hends⟩ := hvalue.colon (stops_moreFields fields rest) hends
      dsimp only at hcount'
      refine ⟨count' + 2, ?_, .step (.openObject ?_ hroom) hends.firstKey⟩
      · simp only [Value.chars, quote, List.cons_append, List.length_cons, List.length_append,
          List.length_nil]
        omega
      · simp [Value.chars, isBlank]

theorem rereads {value : Value} {room : Nat} (h : value.Fits Number.ReadsBack room)
    (hroom : room + frames.length ≤ deepest) : Rereads value frames := by
  induction h generalizing frames with
  | null => exact @rereads_atom _ _ 'n' ['u', 'l', 'l'] rfl rfl rfl fun _ => rfl
  | bool value =>
      cases value with
      | true => exact @rereads_atom _ _ 't' ['r', 'u', 'e'] rfl rfl rfl fun _ => rfl
      | false => exact @rereads_atom _ _ 'f' ['a', 'l', 's', 'e'] rfl rfl rfl fun _ => rfl
  | number h => exact rereads_number h
  | string text => exact rereads_string text
  | array _ ih =>
      refine rereads_array (by omega) fun item hitem => ih item hitem ?_
      rw [List.length_cons]
      omega
  | object _ ih =>
      refine rereads_object (by omega) fun field hfield => ih field hfield ?_
      rw [List.length_cons]
      omega

end Documents

end Scan

/-- A document that has been written is read back, if its numbers are and it nests no deeper than a
text may. -/
theorem scan_chars {value : Value} (h : value.Fits Number.ReadsBack Scan.deepest) :
    scan value.chars = Events.ofValue value := by
  have hlast : Scan.Ends 0 ⟨.after, [], [], value.events.reverse ++ []⟩ value.events := by
    have hstop := @Scan.Ends.stop [] value.events.reverse rfl
    rwa [List.reverse_reverse, ← List.append_nil value.events.reverse] at hstop
  obtain ⟨count, hcount, hends⟩ := Scan.rereads h (Nat.le_refl _) _ _ _ _ Scan.stops_nil hlast
  rw [List.append_nil] at hends
  exact hends.run_eq (by omega)

namespace Value

mutual

/-- The numbers in a document. -/
def numbers : Value → List Number
  | .number value => [value]
  | .array items => itemNumbers items
  | .object fields => fieldNumbers fields
  | _ => []

/-- The numbers in items. -/
def itemNumbers : List Value → List Number
  | [] => []
  | item :: items => numbers item ++ itemNumbers items

/-- The numbers in fields. -/
def fieldNumbers : List (String × Value) → List Number
  | [] => []
  | (_, value) :: fields => numbers value ++ fieldNumbers fields

end

theorem mem_itemNumbers {items : List Value} {item : Value} {number : Number} (hitem : item ∈ items)
    (h : number ∈ item.numbers) : number ∈ itemNumbers items := by
  induction items with
  | nil => exact absurd hitem List.not_mem_nil
  | cons first items ih =>
      rw [itemNumbers, List.mem_append]
      rcases List.mem_cons.1 hitem with rfl | hitem
      · exact .inl h
      · exact .inr (ih hitem)

theorem mem_fieldNumbers {fields : List (String × Value)} {field : String × Value} {number : Number}
    (hfield : field ∈ fields) (h : number ∈ field.2.numbers) : number ∈ fieldNumbers fields := by
  induction fields with
  | nil => exact absurd hfield List.not_mem_nil
  | cons first fields ih =>
      rw [fieldNumbers, List.mem_append]
      rcases List.mem_cons.1 hfield with rfl | hfield
      · exact .inl h
      · exact .inr (ih hfield)

/-- The whole numbers that a text can hold are read back, so it is enough that the others are. -/
theorem Fits.readsBack {room : Nat} {value : Value} (h : value.Fits Number.InRange room)
    (hreal : ∀ real, .real real ∈ value.numbers → (Number.real real).ReadsBack) :
    value.Fits Number.ReadsBack room := by
  induction h with
  | null => exact .null
  | bool value => exact .bool value
  | @number _ number h =>
      cases number with
      | integer value => exact .number (Scan.readsBack_integer h)
      | real real => exact .number (hreal real List.mem_cons_self)
  | string text => exact .string text
  | array _ ih =>
      exact .array fun item hitem => ih item hitem fun real h => hreal real (mem_itemNumbers hitem h)
  | object _ ih =>
      exact .object fun field hfield =>
        ih field hfield fun real h => hreal real (mem_fieldNumbers hfield h)

end Value

end Waymark.Json
