import Waymark.Pattern.Expression
import Waymark.Proofs.Regex.Reading
/-!
How the text of an expression is read: escaped characters, classes of characters, and what is built
of them for the parts of a route pattern.
-/

namespace Waymark.Pattern

open Regex.Token (Item Piece Reads Anything firm_cons)

/-- The tokens of text that stands for itself. -/
def spelled (text : List Char) : List Regex.Token :=
  text.flatMap fun c => [.set (.single c)]

section Characters

theorem escape?_of_isMeta {c : Char} (hmeta : isMeta c = true) (inClass : Bool)
    (rest : List Char) : Regex.Token.escape? inClass (c :: rest) = some (.char c, rest) := by
  simp only [isMeta, List.contains_iff_mem, List.mem_cons, List.not_mem_nil, or_false] at hmeta
  rcases hmeta with rfl | rfl | rfl | rfl | rfl | rfl | rfl | rfl | rfl | rfl | rfl | rfl | rfl |
    rfl | rfl | rfl | rfl | rfl <;> cases inClass <;> rfl

theorem next?_backslash (place : Regex.Token.Place) (rest : List Char) {c : Char}
    (hmeta : isMeta c = true) :
    Regex.Token.next? place ('\\' :: c :: rest) = some (.set (.single c), rest) := by
  rw [Regex.Token.next?_of_quantifier?_eq_none (Regex.Token.quantifier?_cons (by decide) _)]
  simp [Regex.Token.next?, escape?_of_isMeta hmeta]

theorem ne_of_not_isMeta {c d : Char} (hc : isMeta c = false) (hd : isMeta d = true) : c ≠ d := by
  rintro rfl
  rw [hc] at hd
  exact absurd hd (by decide)

theorem next?_of_not_isMeta (place : Regex.Token.Place) (rest : List Char) {c : Char}
    (hmeta : isMeta c = false) :
    Regex.Token.next? place (c :: rest) = some (.set (.single c), rest) := by
  have hfirst : c ≠ '?' ∧ c ≠ '*' ∧ c ≠ '+' ∧ c ≠ '\x7b' :=
    ⟨ne_of_not_isMeta hmeta rfl, ne_of_not_isMeta hmeta rfl, ne_of_not_isMeta hmeta rfl,
      ne_of_not_isMeta hmeta rfl⟩
  have hsigns : Regex.Token.signs.all isMeta = true := rfl
  rw [Regex.Token.next?_of_quantifier?_eq_none (Regex.Token.quantifier?_cons hfirst _)]
  refine Regex.Token.next?_of_not_sign rfl fun hsign => ?_
  exact absurd (List.all_eq_true.1 hsigns c hsign) (by simp [hmeta])

/-- A character that stands for itself is one token. -/
theorem item_char (c : Char) :
    Item (if isMeta c then ['\\', c] else [c]) [.set (.single c)] := by
  cases hmeta : isMeta c with
  | true =>
      refine Item.single (firm_cons (by decide) [c]) (fun place hplain => ?_) fun _ => rfl
      exact Reads.single hplain.1 (by simp) (fun rest _ => Regex.Token.pass?_cons (by decide) _)
        fun rest _ => next?_backslash place rest hmeta
  | false =>
      have hopen : c ≠ '(' := ne_of_not_isMeta hmeta rfl
      have hfirm : c ≠ '(' ∧ c ≠ '?' ∧ c ≠ '+' :=
        ⟨hopen, ne_of_not_isMeta hmeta rfl, ne_of_not_isMeta hmeta rfl⟩
      refine Item.single (firm_cons hfirm []) (fun place hplain => ?_)
        fun _ => rfl
      exact Reads.single hplain.1 (by simp) (fun rest _ => Regex.Token.pass?_cons hopen rest)
        fun rest _ => next?_of_not_isMeta place rest hmeta

theorem piece_escape (text : List Char) : Piece (escape text) (spelled text) :=
  Piece.flatMap fun c _ => (item_char c).piece

end Characters

section Classes

/-- A character that stands for itself, as an item of a class. -/
def classItem (c : Char) : Regex.ClassItem :=
  if isMeta c then .escaped c else .plain c

/-- The set of some characters, or of all others. -/
def classSet (negated : Bool) (chars : List Char) : Regex.CharSet :=
  .bracket negated (chars.foldl (fun set c => .union set (.range c c)) .empty)

theorem classItem_ne_plain {c d : Char} (hmeta : isMeta d = true) : classItem c ≠ .plain d := by
  intro h
  cases hc : isMeta c with
  | true => simp [classItem, hc] at h
  | false =>
      simp only [classItem, hc, Bool.false_eq_true, ↓reduceIte, Regex.ClassItem.plain.injEq] at h
      exact ne_of_not_isMeta hc hmeta h

theorem itemSet_classItem (c : Char) :
    Regex.CharClass.itemSet (classItem c) = .range c c := by
  cases hc : isMeta c <;> simp [classItem, hc, Regex.CharClass.itemSet]

theorem length_le_escape (text : List Char) : text.length ≤ (escape text).length := by
  induction text with
  | nil => exact Nat.le_refl 0
  | cons c text ih =>
      rw [escape, List.flatMap_cons, ← escape, List.length_append, List.length_cons]
      cases isMeta c with
      | true =>
          simp only [↓reduceIte, List.length_cons, List.length_nil]
          omega
      | false =>
          simp only [Bool.false_eq_true, ↓reduceIte, List.length_cons, List.length_nil]
          omega

theorem exists_cons_escape {text : List Char} (hne : text ≠ []) :
    ∃ d cs, escape text = d :: cs ∧ d ≠ '^' ∧ d ≠ ']' := by
  obtain ⟨c, text, rfl⟩ := List.exists_cons_of_ne_nil hne
  cases hmeta : isMeta c with
  | true => exact ⟨'\\', c :: escape text, by simp [escape, hmeta], by decide, by decide⟩
  | false =>
      exact ⟨c, escape text, by simp [escape, hmeta], ne_of_not_isMeta hmeta rfl,
        ne_of_not_isMeta hmeta rfl⟩

/-- The items of a class up to its bracket. -/
theorem classItems_escape (chars rest : List Char) {fuel : Nat} (hfuel : chars.length < fuel) :
    Regex.Token.classItems fuel 1 (escape chars ++ ']' :: rest) =
      some (chars.map classItem ++ [.plain ']'], rest) := by
  induction chars generalizing fuel with
  | nil =>
      obtain ⟨fuel, rfl⟩ := Nat.exists_eq_succ_of_ne_zero (Nat.ne_of_gt hfuel)
      simp [escape, Regex.Token.classItems]
  | cons c chars ih =>
      obtain ⟨fuel, rfl⟩ := Nat.exists_eq_succ_of_ne_zero (Nat.ne_of_gt (Nat.zero_lt_of_lt hfuel))
      have hread := ih (Nat.lt_of_succ_lt_succ hfuel)
      cases hmeta : isMeta c with
      | true =>
          have htext : escape (c :: chars) = '\\' :: c :: escape chars := by
            simp [escape, hmeta]
          simp [htext, Regex.Token.classItems, escape?_of_isMeta hmeta, hread, classItem, hmeta]
      | false =>
          have htext : escape (c :: chars) = c :: escape chars := by
            simp [escape, hmeta]
          have hbackslash : c ≠ '\\' := ne_of_not_isMeta hmeta rfl
          have hopening : c ≠ '[' := ne_of_not_isMeta hmeta rfl
          have hclosing : c ≠ ']' := ne_of_not_isMeta hmeta rfl
          rw [htext, List.cons_append, Regex.Token.classItems]
          · simp [hread, classItem, hmeta]
          · simpa using hbackslash
          · simpa using hopening
          · simpa using hclosing

/-- A class of single characters is the union of them. -/
theorem read_classItems (negated : Bool) (chars : List Char) (done : Regex.CharSet) {fuel : Nat}
    (hfuel : chars.length < fuel) :
    Regex.CharClass.read fuel (chars.map classItem ++ [.plain ']']) done
        [.opened negated .empty] =
      some (.bracket negated (chars.foldl (fun set c => .union set (.range c c)) done)) := by
  induction chars generalizing done fuel with
  | nil =>
      obtain ⟨fuel, rfl⟩ := Nat.exists_eq_succ_of_ne_zero (Nat.ne_of_gt hfuel)
      simp [Regex.CharClass.read, Regex.CharClass.applyWaiting]
  | cons c chars ih =>
      obtain ⟨fuel, rfl⟩ := Nat.exists_eq_succ_of_ne_zero (Nat.ne_of_gt (Nat.zero_lt_of_lt hfuel))
      have hread := ih (.union done (.range c c)) (Nat.lt_of_succ_lt_succ hfuel)
      have hhyphen (rest : List Regex.ClassItem) :
          chars.map classItem ++ [.plain ']'] ≠ .plain '-' :: rest := by
        cases chars with
        | nil => simp
        | cons d chars =>
            intro h
            exact classItem_ne_plain (by decide) (List.cons.inj h).1
      rw [List.map_cons, List.cons_append, Regex.CharClass.read]
      · rw [itemSet_classItem, hread, List.foldl_cons]
      · exact classItem_ne_plain (by decide)
      · exact classItem_ne_plain (by decide)
      · exact fun _ h _ => classItem_ne_plain (by decide) h
      · exact fun _ h _ => classItem_ne_plain (by decide) h
      · exact fun _ h _ => classItem_ne_plain (by decide) h
      · exact hhyphen

theorem opening_classItems {chars : List Char} (hne : chars ≠ []) (negated : Bool) :
    Regex.CharClass.opening ((if negated then [.plain '^'] else []) ++
        (chars.map classItem ++ [.plain ']'])) =
      (negated, .empty, chars.map classItem ++ [.plain ']']) := by
  obtain ⟨c, chars, rfl⟩ := List.exists_cons_of_ne_nil hne
  have hhyphen : (classItem c == .plain '-') = false :=
    beq_eq_false_iff_ne.2 (classItem_ne_plain (by decide))
  have hclosing : classItem c ≠ .plain ']' := classItem_ne_plain (by decide)
  cases negated with
  | true => simp [Regex.CharClass.opening, hhyphen, hclosing]
  | false =>
      have hcaret : classItem c ≠ .plain '^' := classItem_ne_plain (by decide)
      simp [Regex.CharClass.opening, hhyphen, hclosing, hcaret]

theorem ofItems?_classItems {chars : List Char} (hne : chars ≠ []) (negated : Bool) :
    Regex.CharClass.ofItems? ((if negated then [.plain '^'] else []) ++
        (chars.map classItem ++ [.plain ']'])) = some (classSet negated chars) := by
  rw [Regex.CharClass.ofItems?, opening_classItems hne]
  refine read_classItems negated chars .empty ?_
  simp only [List.length_append, List.length_map, List.length_singleton]
  omega

/-- A class of some characters, or of all others, up to its bracket. -/
theorem readClass?_escape {chars : List Char} (hne : chars ≠ []) (negated : Bool)
    (rest : List Char) :
    Regex.Token.readClass? ((if negated then ['^'] else []) ++ (escape chars ++ ']' :: rest)) =
      some (classSet negated chars, rest) := by
  obtain ⟨d, cs, hcs, hcaret, hclosing⟩ := exists_cons_escape hne
  have hlength : chars.length < cs.length + (rest.length + 1) + 1 + 1 := by
    have hle := length_le_escape chars
    rw [hcs, List.length_cons] at hle
    omega
  have hread := classItems_escape chars rest hlength
  have hset := ofItems?_classItems hne negated
  rw [hcs] at hread ⊢
  cases negated with
  | true =>
      simp only [↓reduceIte, List.cons_append, List.nil_append] at hset hread ⊢
      simp [Regex.Token.readClass?, hclosing, hread, hset]
  | false =>
      simp only [Bool.false_eq_true, ↓reduceIte, List.nil_append, List.cons_append] at hset hread ⊢
      simp [Regex.Token.readClass?, hcaret, hclosing, hread, hset]

/-- A class is one token. -/
theorem item_class {text : List Char} {set : Regex.CharSet}
    (h : ∀ rest, Regex.Token.readClass? (text ++ rest) = some (set, rest)) :
    Item ('[' :: text) [.set set] := by
  refine Item.single (firm_cons (by decide) text) (fun place hplain => ?_) fun _ => rfl
  refine Reads.single hplain.1 (by simp) (fun rest _ => Regex.Token.pass?_cons (by decide) _)
    fun rest _ => ?_
  rw [List.cons_append,
    Regex.Token.next?_of_quantifier?_eq_none (Regex.Token.quantifier?_cons (by decide) _)]
  simp [Regex.Token.next?, h]

theorem item_classOf {chars : List Char} (hne : chars ≠ []) :
    Item (classOf chars) [.set (classSet false chars)] := by
  refine item_class fun rest => ?_
  change Regex.Token.readClass? (escape chars ++ [']'] ++ rest) = _
  rw [List.append_assoc]
  exact readClass?_escape hne false rest

/-- The characters that a value consists of where no expression is given. -/
def Options.valueSet (options : Options) : Regex.CharSet :=
  if options.delimiter.isEmpty then
    .bracket false (.union (.union .empty .blank) (.complement .blank))
  else classSet true options.delimiter

/-- The tokens of the expression that a value matches where none is given. -/
def Options.defaultTokens (options : Options) : List Regex.Token :=
  [.set options.valueSet, .quantifier 1 none true false]

theorem piece_defaultPattern (options : Options) :
    Piece options.defaultPattern options.defaultTokens := by
  have hlazy : ∀ place : Regex.Token.Place, place.Plain → place.afterItem = true →
      Reads Regex.Token.Fresh place ['+', '?'] [.quantifier 1 none true false] :=
    fun _ hplain => Regex.Token.reads_lazy hplain.1
  unfold Options.defaultPattern Options.defaultTokens Options.valueSet
  split
  · have hread : ∀ rest, Regex.Token.readClass? (['\\', 's', '\\', 'S', ']'] ++ rest) =
        some (.bracket false (.union (.union .empty .blank) (.complement .blank)), rest) :=
      fun rest => rfl
    exact (item_class hread).quantified hlazy
  · next hne =>
    have hclass : Item ('[' :: '^' :: (escape options.delimiter ++ [']']))
        [.set (classSet true options.delimiter)] := by
      refine item_class fun rest => ?_
      rw [List.cons_append, List.append_assoc]
      exact readClass?_escape (by simpa using hne) true rest
    have hpiece := hclass.quantified hlazy
    simpa using hpiece

end Classes

end Waymark.Pattern
