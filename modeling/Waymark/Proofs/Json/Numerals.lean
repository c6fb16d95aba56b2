import Mathlib.Data.List.Basic
import Waymark.Json.Decoder
import Waymark.Json.Writer
import Waymark.Proofs.Except
/-!
Numbers in a text.

A number ends where the text cannot go on with it, so what follows does not change how it is read
(`number_append`). A whole number of 64 bits is read as itself from its digits; a number with a
fraction need not be, as the reader rounds its digits and then their scaling.
-/

namespace Waymark.Json

/-- A number that a text can hold: the whole ones have 64 bits, with a sign or without. -/
def Number.InRange : Number → Prop
  | .integer value => -(Nat.pow 2 63 : Nat) ≤ value ∧ value ≤ Scan.largest
  | .real _ => True

/-- The number that is read from the text of a number is that number. -/
def Number.ReadsBack (number : Number) : Prop :=
  parse (String.ofList number.render) = .ok (.number number)

namespace Scan

/-- A number does not go on into a text. -/
def Stops (rest : List Char) : Prop :=
  ∀ c ∈ rest.head?, c.isDigit = false ∧ c ≠ '.' ∧ c ≠ 'e' ∧ c ≠ 'E'

theorem stops_nil : Stops [] :=
  nofun

section Digits

variable {cs ds left rest : List Char}

theorem digits_append (hrest : (digits cs).2 = [] → Stops rest) :
    digits (cs ++ rest) = ((digits cs).1, (digits cs).2 ++ rest) := by
  induction cs with
  | nil =>
      cases rest with
      | nil => rfl
      | cons c rest =>
          have hdigit : c.isDigit = false := (hrest rfl c rfl).1
          simp [digits, hdigit]
  | cons c cs ih =>
      by_cases hdigit : c.isDigit = true
      · have hcons (cs : List Char) : digits (c :: cs) = (c :: (digits cs).1, (digits cs).2) := by
          simp [digits, hdigit]
        rw [hcons] at hrest ⊢
        rw [List.cons_append, hcons, ih hrest]
      · simp [digits, hdigit]

theorem digits_of_forall (h : ∀ c ∈ ds, c.isDigit = true) (hrest : Stops rest) :
    digits (ds ++ rest) = (ds, rest) := by
  have hnone : digits rest = ([], rest) := @digits_append [] rest fun _ => hrest
  obtain ⟨htake, hdrop⟩ := Prod.mk.inj hnone
  rw [digits, List.takeWhile_append_of_pos h, List.dropWhile_append_of_pos h, htake, hdrop,
    List.append_nil]

theorem someDigits_eq_ok_iff :
    someDigits cs = .ok (ds, left) ↔ digits cs = (ds, left) ∧ ds ≠ [] := by
  unfold someDigits
  generalize digits cs = parts
  obtain ⟨whole, rest⟩ := parts
  cases whole with
  | nil =>
      have hnone : ([], rest) = (ds, left) → ds = [] := fun h => (Prod.mk.inj h).1.symm
      cases rest <;> exact ⟨nofun, fun h => absurd (hnone h.1) h.2⟩
  | cons c whole =>
      constructor
      · rintro ⟨⟩
        exact ⟨rfl, List.cons_ne_nil c whole⟩
      · rintro ⟨⟨⟩, -⟩
        rfl

theorem someDigits_append (h : someDigits cs = .ok (ds, left)) (hrest : left = [] → Stops rest) :
    someDigits (cs ++ rest) = .ok (ds, left ++ rest) := by
  obtain ⟨hdigits, hds⟩ := someDigits_eq_ok_iff.1 h
  refine someDigits_eq_ok_iff.2 ⟨?_, hds⟩
  rw [digits_append (by rwa [hdigits]), hdigits]

end Digits

section Parts

variable {cs left rest : List Char} {fraction : Option (List Char)} {exponent : Option Int}

theorem fractionPart_of_ne (h : cs.head? ≠ some '.') : fractionPart cs = .ok (none, cs) := by
  unfold fractionPart
  split
  · exact absurd rfl h
  · rfl

theorem fractionPart_append (h : fractionPart cs = .ok (fraction, left))
    (hrest : left = [] → Stops rest) :
    fractionPart (cs ++ rest) = .ok (fraction, left ++ rest) := by
  cases cs with
  | nil =>
      obtain ⟨rfl, rfl⟩ := Prod.mk.inj (Except.ok.inj h)
      exact fractionPart_of_ne fun hpoint => (hrest rfl _ hpoint).2.1 rfl
  | cons c cs =>
      by_cases hpoint : c = '.'
      · subst hpoint
        obtain ⟨⟨ds, mid⟩, hdigits, h⟩ := bind_eq_ok_iff.1 h
        obtain ⟨rfl, rfl⟩ := Prod.mk.inj (Except.ok.inj h)
        exact bind_eq_ok_iff.2 ⟨_, someDigits_append hdigits hrest, rfl⟩
      · have hnone (others : List Char) : (c :: others).head? ≠ some '.' := by simpa using hpoint
        rw [fractionPart_of_ne (hnone cs)] at h
        obtain ⟨rfl, rfl⟩ := Prod.mk.inj (Except.ok.inj h)
        exact fractionPart_of_ne (hnone (cs ++ rest))

theorem exponentSign_append (h : cs ≠ []) :
    exponentSign (cs ++ rest) = ((exponentSign cs).1, (exponentSign cs).2 ++ rest) := by
  cases cs with
  | nil => exact absurd rfl h
  | cons c cs =>
      by_cases hminus : c = '-'
      · subst hminus
        rfl
      · by_cases hplus : c = '+'
        · subst hplus
          rfl
        · simp [exponentSign, hminus, hplus]

theorem exponentPart_of_stops (h : Stops cs) : exponentPart cs = .ok (none, cs) := by
  cases cs with
  | nil => rfl
  | cons c cs =>
      obtain ⟨-, -, hsmall, hlarge⟩ := h c rfl
      simp [exponentPart, hsmall, hlarge, pure, Except.pure]

theorem exponentPart_append (h : exponentPart cs = .ok (exponent, left))
    (hrest : left = [] → Stops rest) :
    exponentPart (cs ++ rest) = .ok (exponent, left ++ rest) := by
  cases cs with
  | nil =>
      obtain ⟨rfl, rfl⟩ := Prod.mk.inj (Except.ok.inj h)
      exact exponentPart_of_stops (hrest rfl)
  | cons c cs =>
      rw [List.cons_append]
      simp only [exponentPart] at h ⊢
      split at h
      · next hletter =>
        obtain ⟨⟨ds, mid⟩, hdigits, h⟩ := bind_eq_ok_iff.1 h
        obtain ⟨rfl, rfl⟩ := Prod.mk.inj (Except.ok.inj h)
        -- a sign, or a digit, stands there: the letter alone is no exponent
        have hcs : cs ≠ [] := by
          rintro rfl
          obtain ⟨hnone, hsome⟩ := someDigits_eq_ok_iff.1 hdigits
          exact hsome (Prod.mk.inj hnone).1.symm
        rw [if_pos hletter, exponentSign_append hcs]
        exact bind_eq_ok_iff.2 ⟨_, someDigits_append hdigits hrest, rfl⟩
      · next hletter =>
        obtain ⟨rfl, rfl⟩ := Prod.mk.inj (Except.ok.inj h)
        rw [if_neg hletter]
        rfl

end Parts

section Number

variable {negative : Bool} {cs left rest : List Char} {value : Number}

/-- What a number is read from: digits without a needless zero, and the parts after them. -/
theorem number_eq_ok_iff :
    number negative cs = .ok (value, left) ↔
      ∃ whole fraction exponent middle last, someDigits cs = .ok (whole, middle) ∧
        ¬ (whole.head? = some '0' ∧ 1 < whole.length) ∧
        fractionPart middle = .ok (fraction, last) ∧ exponentPart last = .ok (exponent, left) ∧
        numberOf negative whole fraction exponent = some value := by
  constructor
  · intro h
    obtain ⟨⟨whole, middle⟩, hwhole, h⟩ := bind_eq_ok_iff.1 h
    dsimp only at h
    split at h
    · exact absurd h nofun
    · next hzero =>
      obtain ⟨⟨fraction, last⟩, hfraction, h⟩ := bind_eq_ok_iff.1 h
      obtain ⟨⟨exponent, after⟩, hexponent, h⟩ := bind_eq_ok_iff.1 h
      dsimp only at h
      split at h
      · next hvalue =>
        obtain ⟨rfl, rfl⟩ := Prod.mk.inj (Except.ok.inj h)
        exact ⟨whole, fraction, exponent, middle, last, hwhole, hzero, hfraction, hexponent, hvalue⟩
      · exact absurd h nofun
  · rintro ⟨whole, fraction, exponent, middle, last, hwhole, hzero, hfraction, hexponent, hvalue⟩
    refine bind_eq_ok_iff.2 ⟨_, hwhole, ?_⟩
    dsimp only
    rw [if_neg hzero]
    refine bind_eq_ok_iff.2 ⟨_, hfraction, bind_eq_ok_iff.2 ⟨_, hexponent, ?_⟩⟩
    dsimp only
    rw [hvalue]
    rfl

/-- What follows a number does not change how it is read. -/
theorem number_append (h : number negative cs = .ok (value, left))
    (hrest : left = [] → Stops rest) :
    number negative (cs ++ rest) = .ok (value, left ++ rest) := by
  obtain ⟨whole, fraction, exponent, middle, last, hwhole, hzero, hfraction, hexponent, hvalue⟩ :=
    number_eq_ok_iff.1 h
  -- a part that ends with the text leaves nothing for the parts after it
  have hlast : last = [] → Stops rest := by
    rintro rfl
    obtain ⟨-, rfl⟩ := Prod.mk.inj (Except.ok.inj hexponent)
    exact hrest rfl
  have hmiddle : middle = [] → Stops rest := by
    rintro rfl
    obtain ⟨-, rfl⟩ := Prod.mk.inj (Except.ok.inj hfraction)
    exact hlast rfl
  exact number_eq_ok_iff.2 ⟨whole, fraction, exponent, middle ++ rest, last ++ rest,
    someDigits_append hwhole hmiddle, hzero, fractionPart_append hfraction hlast,
    exponentPart_append hexponent hrest, hvalue⟩

theorem significand_le {start : Nat} (hstart : start ≤ largest) (ds : List Char) :
    (significand start ds).1 ≤ largest := by
  induction ds generalizing start with
  | nil => exact hstart
  | cons c ds ih =>
      rw [significand]
      split
      · next hnext => exact ih hnext
      · exact hstart

theorem le_ofDigitChars (ds : List Char) (start : Nat) : start ≤ Nat.ofDigitChars 10 ds start := by
  induction ds generalizing start with
  | nil => exact Nat.le_refl start
  | cons c ds ih =>
      have hnext := ih (10 * start + (c.toNat - '0'.toNat))
      have hstep : start ≤ 10 * start + (c.toNat - '0'.toNat) := by omega
      exact Nat.le_trans hstep hnext

theorem significand_of_le {ds : List Char} {start : Nat}
    (h : Nat.ofDigitChars 10 ds start ≤ largest) :
    significand start ds = (Nat.ofDigitChars 10 ds start, []) := by
  induction ds generalizing start with
  | nil => rfl
  | cons c ds ih =>
      have hstep : start * 10 + (c.toNat - 48) = 10 * start + (c.toNat - '0'.toNat) := by
        rw [Nat.mul_comm]
        rfl
      have hnext : start * 10 + (c.toNat - 48) ≤ largest := by
        rw [hstep]
        exact Nat.le_trans (le_ofDigitChars ds _) h
      rw [significand, if_pos hnext, hstep]
      exact ih h

theorem inRange_of_numberOf {whole : List Char} {fraction : Option (List Char)}
    {exponent : Option Int} (h : numberOf negative whole fraction exponent = some value) :
    value.InRange := by
  unfold numberOf at h
  have hle : (significand 0 whole).1 ≤ largest := significand_le (Nat.zero_le _) whole
  dsimp only at h
  split at h
  · next hwhole =>
    obtain rfl := Option.some.inj h
    have hnegative : negative → (significand 0 whole).1 ≤ Nat.pow 2 63 := fun hsign =>
      (hwhole.2.2.2 hsign).2
    cases negative <;> simp [Number.InRange] at hnegative ⊢ <;> omega
  · obtain ⟨real, -, rfl⟩ := Option.map_eq_some_iff.1 h
    trivial

theorem inRange_of_number (h : number negative cs = .ok (value, left)) : value.InRange := by
  obtain ⟨_, _, _, _, _, -, -, -, -, hvalue⟩ := number_eq_ok_iff.1 h
  exact inRange_of_numberOf hvalue

theorem head?_toDigits (n : Nat) (h : 1 < (Nat.toDigits 10 n).length) :
    (Nat.toDigits 10 n).head? ≠ some '0' := by
  induction n using Nat.strongRecOn with
  | ind n ih =>
      by_cases hsmall : n < 10
      · rw [Nat.toDigits_of_lt_base hsmall] at h
        exact absurd h (by simp)
      · have hfront : Nat.toDigits 10 (n / 10) ≠ [] := Nat.toDigits_ne_nil
        rw [Nat.toDigits_of_base_le (by decide) (by omega), List.head?_append_of_ne_nil _ hfront]
        by_cases hfew : n / 10 < 10
        · rw [Nat.toDigits_of_lt_base hfew]
          have hpos : 0 < n / 10 := by omega
          generalize n / 10 = digit at hfew hpos
          decide +revert
        · refine ih (n / 10) (by omega) ?_
          rw [Nat.toDigits_of_base_le (by decide) (by omega), List.length_append,
            List.length_singleton]
          have hback : Nat.toDigits 10 (n / 10 / 10) ≠ [] := Nat.toDigits_ne_nil
          have := List.length_pos_iff.2 hback
          omega

/-- Digits are read as the number that they are the digits of. -/
theorem number_toDigits {n : Nat} (hle : n ≤ largest)
    (hsign : negative = true → 0 < n ∧ n ≤ Nat.pow 2 63) (hrest : Stops rest) :
    number negative (Nat.toDigits 10 n ++ rest) =
      .ok (.integer (if negative then -(n : Int) else n), rest) := by
  have hdigits : ∀ c ∈ Nat.toDigits 10 n, c.isDigit = true := fun c hc =>
    Nat.isDigit_of_mem_toDigits (by decide) (by decide) hc
  have hpoint : rest.head? ≠ some '.' := fun h => (hrest _ h).2.1 rfl
  have hvalue : Nat.ofDigitChars 10 (Nat.toDigits 10 n) 0 = n :=
    Nat.ofDigitChars_toDigits (by decide) (by decide)
  refine number_eq_ok_iff.2 ⟨Nat.toDigits 10 n, none, none, rest, rest,
    someDigits_eq_ok_iff.2 ⟨digits_of_forall hdigits hrest, Nat.toDigits_ne_nil⟩, ?_,
    fractionPart_of_ne hpoint, exponentPart_of_stops hrest, ?_⟩
  · rintro ⟨hzero, hlength⟩
    exact head?_toDigits n hlength hzero
  · rw [numberOf, significand_of_le (by rwa [hvalue]), hvalue]
    exact if_pos ⟨rfl, rfl, rfl, hsign⟩

end Number

end Scan

end Waymark.Json
