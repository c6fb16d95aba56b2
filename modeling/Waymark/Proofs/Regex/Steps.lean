import Waymark.Proofs.Regex.Reading
/-!
What the readers of tokens consume.

A reader never ends between a backslash and the character after it. `Steps cs rest` says that one
comes from a text to its rest over single characters and over pairs of a backslash and the character
after it; every reader takes such steps (`Takes.steps`, `steps_pass?`), and a token takes at least
one of them.
-/

namespace Waymark.Regex.Token

/-- From a text to its rest over characters, a backslash together with the character after it. -/
inductive Steps : List Char → List Char → Prop where
  | refl (cs : List Char) : Steps cs cs
  | escaped {c : Char} {cs rest : List Char} (h : Steps cs rest) : Steps ('\\' :: c :: cs) rest
  | plain {c : Char} {cs rest : List Char} (hc : c ≠ '\\') (h : Steps cs rest) : Steps (c :: cs) rest

namespace Steps

variable {cs mid rest : List Char}

theorem trans (h : Steps cs mid) (hrest : Steps mid rest) : Steps cs rest := by
  induction h with
  | refl => exact hrest
  | escaped _ ih => exact .escaped (ih hrest)
  | plain hc _ ih => exact .plain hc (ih hrest)

theorem one {c : Char} (hc : c ≠ '\\') (rest : List Char) : Steps (c :: rest) rest :=
  .plain hc (.refl rest)

/-- Steps over a character other than a backslash. -/
theorem of_plain {c : Char} (hc : c ≠ '\\') (h : Steps (c :: cs) rest) :
    rest = c :: cs ∨ Steps cs rest := by
  cases h with
  | refl => exact .inl rfl
  | escaped _ => exact absurd rfl hc
  | plain _ h => exact .inr h

/-- Steps over a backslash and the character after it. -/
theorem of_escaped {c : Char} (h : Steps ('\\' :: c :: cs) rest) :
    rest = '\\' :: c :: cs ∨ Steps cs rest := by
  cases h with
  | refl => exact .inl rfl
  | escaped h => exact .inr h
  | plain hc _ => exact absurd rfl hc

theorem exists_append (h : Steps cs rest) : ∃ text, cs = text ++ rest := by
  induction h with
  | refl => exact ⟨[], rfl⟩
  | @escaped c cs rest _ ih =>
      obtain ⟨text, rfl⟩ := ih
      exact ⟨'\\' :: c :: text, rfl⟩
  | @plain c cs rest _ _ ih =>
      obtain ⟨text, rfl⟩ := ih
      exact ⟨c :: text, rfl⟩

theorem length_le (h : Steps cs rest) : rest.length ≤ cs.length := by
  obtain ⟨text, rfl⟩ := h.exists_append
  simp

/-- Any text is stepped over if no backslash ends it. -/
theorem across {c : Char} (hc : c ≠ '\\') :
    ∀ text rest : List Char, Steps (text ++ c :: rest) rest
  | [], rest => one hc rest
  | [d], rest => by
      by_cases hd : d = '\\'
      · subst hd
        exact .escaped (.refl rest)
      · exact .plain hd (one hc rest)
  | d :: e :: text, rest => by
      by_cases hd : d = '\\'
      · subst hd
        exact .escaped (across hc text rest)
      · exact .plain hd (across hc (e :: text) rest)

/-- Characters of a kind without the backslash. -/
theorem dropWhile {p : Char → Bool} (hp : p '\\' = false) (cs : List Char) :
    Steps cs (cs.dropWhile p) := by
  induction cs with
  | nil => exact .refl []
  | cons c cs ih =>
      rw [List.dropWhile_cons]
      split
      · next hc =>
        refine .plain ?_ ih
        rintro rfl
        rw [hp] at hc
        exact absurd hc (by decide)
      · exact .refl _

/-- A number of characters, none of them a backslash. -/
theorem drop {count : Nat} {cs : List Char} (h : ∀ c ∈ cs.take count, c ≠ '\\') :
    Steps cs (cs.drop count) := by
  induction count generalizing cs with
  | zero => exact .refl cs
  | succ count ih =>
      cases cs with
      | nil => exact .refl []
      | cons c cs =>
          obtain ⟨hc, hcs⟩ := List.forall_mem_cons.1 h
          exact .plain hc (ih hcs)

end Steps

/-- The lower bound of a repetition, zero where none is written. -/
def leastBound? (cs : List Char) : Option (Nat × List Char) :=
  match cs with
  | ',' :: _ => some (0, cs)
  | cs => decimal? cs

/-- The upper bound of a repetition, if one is written. -/
def mostBound (cs : List Char) : Option Nat × List Char :=
  match decimal? cs with
  | some (most, rest) => (some most, rest)
  | none => (none, cs)

/-- The bounds of a repetition whose lower bound has been read. -/
def boundsFrom? (verbose : Bool) (least : Nat) (cs : List Char) :
    Option (Nat × Option Nat × List Char) := do
  match ← pass? verbose .between cs with
  | '\x7d' :: rest => some (least, some least, rest)
  | ',' :: rest =>
      let rest ← pass? verbose .between rest
      match ← pass? verbose .between (mostBound rest).2 with
      | '\x7d' :: last => some (least, (mostBound rest).1, last)
      | _ => none
  | _ => none

theorem bounds?_eq (verbose : Bool) (cs : List Char) :
    bounds? verbose cs = (pass? verbose .between cs).bind fun first =>
      (leastBound? first).bind fun found => boundsFrom? verbose found.1 found.2 := by
  unfold bounds?
  refine congrArg (Option.bind (pass? verbose .between cs)) (funext fun first => ?_)
  simp only
  split
  · rfl
  · next hne =>
    have hleast : leastBound? first = decimal? first := by
      unfold leastBound?
      split
      · exact absurd rfl (hne _)
      · rfl
    rw [hleast]
    rfl

/-- The bounds of a repetition, part by part. -/
theorem bounds?_eq_some_iff {verbose : Bool} {cs rest : List Char} {least : Nat}
    {most : Option Nat} :
    bounds? verbose cs = some (least, most, rest) ↔
      ∃ first second third, pass? verbose .between cs = some first ∧
        leastBound? first = some (least, second) ∧
        pass? verbose .between second = some third ∧
        ((third = '\x7d' :: rest ∧ most = some least) ∨
          ∃ fourth fifth, third = ',' :: fourth ∧ pass? verbose .between fourth = some fifth ∧
            (mostBound fifth).1 = most ∧
            pass? verbose .between (mostBound fifth).2 = some ('\x7d' :: rest)) := by
  simp only [bounds?_eq, Option.bind_eq_some_iff, Prod.exists]
  constructor
  · rintro ⟨first, hfirst, low, second, hsecond, h⟩
    unfold boundsFrom? at h
    obtain ⟨third, hthird, h⟩ := Option.bind_eq_some_iff.1 h
    split at h
    · simp only [Option.some.injEq, Prod.mk.injEq] at h
      obtain ⟨rfl, rfl, rfl⟩ := h
      exact ⟨first, second, _, hfirst, hsecond, hthird, .inl ⟨rfl, rfl⟩⟩
    · next fourth =>
      obtain ⟨fifth, hfifth, h⟩ := Option.bind_eq_some_iff.1 h
      obtain ⟨last, hlast, h⟩ := Option.bind_eq_some_iff.1 h
      split at h
      · simp only [Option.some.injEq, Prod.mk.injEq] at h
        obtain ⟨rfl, hmost, rfl⟩ := h
        exact ⟨first, second, _, hfirst, hsecond, hthird,
          .inr ⟨fourth, fifth, rfl, hfifth, hmost, hlast⟩⟩
      · exact absurd h (by simp)
    · exact absurd h (by simp)
  · rintro ⟨first, second, third, hfirst, hsecond, hthird, h⟩
    refine ⟨first, hfirst, least, second, hsecond, ?_⟩
    refine Option.bind_eq_some_iff.2 ⟨third, hthird, ?_⟩
    rcases h with ⟨rfl, rfl⟩ | ⟨fourth, fifth, rfl, hfifth, rfl, hlast⟩
    · rfl
    · exact Option.bind_eq_some_iff.2 ⟨fifth, hfifth, Option.bind_eq_some_iff.2 ⟨_, hlast, rfl⟩⟩

/-- Whether a mark comes first, and what follows it. -/
def takeMark (mark : Char) (cs : List Char) : Bool × List Char :=
  match cs with
  | [] => (false, [])
  | c :: rest => if c = mark then (true, rest) else (false, c :: rest)

/-- A quantifier and its two marks. -/
theorem quantified_eq (verbose : Bool) (least : Nat) (most : Option Nat) (cs : List Char) :
    quantified verbose least most cs =
      let questioned := takeMark '?' ((pass? verbose .between cs).getD cs)
      let possessive := takeMark '+' questioned.2
      (.quantifier least most questioned.1 possessive.1, possessive.2) := by
  unfold quantified
  generalize (pass? verbose .between cs).getD cs = passed
  rcases passed with _ | ⟨c, passed⟩
  · rfl
  · by_cases hc : c = '?'
    · subst hc
      rcases passed with _ | ⟨d, passed⟩
      · rfl
      · by_cases hd : d = '+' <;> simp [takeMark, hd]
    · by_cases hd : c = '+' <;> simp [takeMark, hc, hd]

/-- The item of a class that an escape stands for. -/
def Escape.item? : Escape → Option ClassItem
  | .char c => some (.escaped c)
  | .set members => some (.set members)
  | _ => none

/-- The next item of a class that it does not end with, and how many brackets are open after it. -/
inductive NextItem : Nat → List Char → ClassItem → Nat → List Char → Prop where
  | escaped {nesting : Nat} {cs next : List Char} {escape : Escape} {item : ClassItem}
      (hescape : escape? true cs = some (escape, next)) (hitem : escape.item? = some item) :
      NextItem nesting ('\\' :: cs) item nesting next
  | opened {nesting : Nat} {next : List Char} :
      NextItem nesting ('[' :: next) (.plain '[') (nesting + 1) next
  | closed {nesting : Nat} {next : List Char} (hnesting : nesting ≠ 1) :
      NextItem nesting (']' :: next) (.plain ']') (nesting - 1) next
  | plain {nesting : Nat} {c : Char} {next : List Char} (hc : c ≠ '\\' ∧ c ≠ '[' ∧ c ≠ ']') :
      NextItem nesting (c :: next) (.plain c) nesting next

/-- The items of a class, the first one apart. -/
theorem classItems_succ_eq_some_iff {fuel nesting : Nat} {cs rest : List Char}
    {items : List ClassItem} :
    classItems (fuel + 1) nesting cs = some (items, rest) ↔
      (nesting = 1 ∧ cs = ']' :: rest ∧ items = [.plain ']']) ∨
        ∃ item depth next others, NextItem nesting cs item depth next ∧
          classItems fuel depth next = some (others, rest) ∧ items = item :: others := by
  constructor
  · intro h
    unfold classItems at h
    simp only at h
    split at h
    · exact absurd h (by simp)
    · next tail =>
      obtain ⟨⟨escape, next⟩, hescape, h⟩ := Option.bind_eq_some_iff.1 h
      have hitem : ∃ item, escape.item? = some item ∧
          (classItems fuel nesting next).map (fun found => (item :: found.1, found.2)) =
            some (items, rest) := by
        cases escape with
        | char c => exact ⟨.escaped c, rfl, h⟩
        | set members => exact ⟨.set members, rfl, h⟩
        | anchor | backref | namedBackref => exact absurd h (by simp)
      obtain ⟨item, hitem, h⟩ := hitem
      obtain ⟨⟨others, last⟩, hothers, h⟩ := Option.map_eq_some_iff.1 h
      simp only [Prod.mk.injEq] at h
      obtain ⟨rfl, rfl⟩ := h
      exact .inr ⟨item, nesting, next, others, .escaped hescape hitem, hothers, rfl⟩
    · obtain ⟨⟨others, last⟩, hothers, h⟩ := Option.map_eq_some_iff.1 h
      simp only [Prod.mk.injEq] at h
      obtain ⟨rfl, rfl⟩ := h
      exact .inr ⟨_, _, _, others, .opened, hothers, rfl⟩
    · split at h
      · next hnesting =>
        simp only [Option.some.injEq, Prod.mk.injEq] at h
        obtain ⟨rfl, rfl⟩ := h
        exact .inl ⟨hnesting, rfl, rfl⟩
      · next hnesting =>
        obtain ⟨⟨others, last⟩, hothers, h⟩ := Option.map_eq_some_iff.1 h
        simp only [Prod.mk.injEq] at h
        obtain ⟨rfl, rfl⟩ := h
        exact .inr ⟨_, _, _, others, .closed hnesting, hothers, rfl⟩
    · next c next hescape hopening hclosing =>
      obtain ⟨⟨others, last⟩, hothers, h⟩ := Option.map_eq_some_iff.1 h
      simp only [Prod.mk.injEq] at h
      obtain ⟨rfl, rfl⟩ := h
      exact .inr ⟨_, _, _, others, .plain ⟨hescape, hopening, hclosing⟩, hothers, rfl⟩
  · rintro (⟨rfl, rfl, rfl⟩ | ⟨item, depth, next, others, hnext, hothers, rfl⟩)
    · simp [classItems]
    · cases hnext with
      | escaped hescape hitem =>
          rw [classItems, hescape]
          unfold Escape.item? at hitem
          split at hitem <;> simp_all
      | opened => simp [classItems, hothers]
      | closed hnesting => simp [classItems, hothers, hnesting]
      | plain hc =>
          rw [classItems]
          · simp [hothers]
          all_goals simp_all

/-- The items of a class that do not count as brackets where they stand, and what follows them. -/
def classFront (cs : List Char) : List ClassItem × List Char :=
  match cs with
  | '^' :: ']' :: rest => ([.plain '^', .plain ']'], rest)
  | '^' :: rest => ([.plain '^'], rest)
  | ']' :: rest => ([.plain ']'], rest)
  | cs => ([], cs)

/-- A class from its items. -/
theorem readClass?_eq_some_iff {cs rest : List Char} {members : CharSet} :
    readClass? cs = some (members, rest) ↔
      ∃ items, classItems ((classFront cs).2.length + 1) 1 (classFront cs).2 = some (items, rest) ∧
        CharClass.ofItems? ((classFront cs).1 ++ items) = some members := by
  have hread : readClass? cs =
      (classItems ((classFront cs).2.length + 1) 1 (classFront cs).2).bind fun found =>
        (CharClass.ofItems? ((classFront cs).1 ++ found.1)).bind fun members =>
          some (members, found.2) := rfl
  simp only [hread, Option.bind_eq_some_iff, Option.some.injEq, Prod.mk.injEq, Prod.exists]
  constructor
  · rintro ⟨items, _, hitems, _, hmembers, rfl, rfl⟩
    exact ⟨items, hitems, hmembers⟩
  · rintro ⟨items, hitems, hmembers⟩
    exact ⟨items, rest, hitems, members, hmembers, rfl, rfl⟩

/-- The token at the front where no quantifier may stand. -/
def nextItem? (verbose : Bool) (cs : List Char) : Option (Token × List Char) :=
  next? ⟨false, { Flags.none with verbose := verbose }, []⟩ cs

/-- A quantifier is read where one may stand. -/
theorem next?_eq (place : Place) (cs : List Char) :
    next? place cs =
      ((if place.afterItem then quantifier? place.flags.verbose cs else none).or
        (nextItem? place.flags.verbose cs)) := by
  cases h : if place.afterItem then quantifier? place.flags.verbose cs else none with
  | none =>
      simp only [next?, h, Option.none_or, nextItem?, Bool.false_eq_true, ↓reduceIte]
  | some found => simp only [next?, h, Option.some_or]

section Readers

variable {verbose : Bool} {cs rest : List Char}

/-- What is passed over is stepped over, unless nothing follows it. In a line so is whatever stands
before. -/
theorem steps_pass?_append {gap : Gap} (h : pass? verbose gap cs = some rest) (hne : rest ≠ [])
    (front : List Char) (hfront : gap = .line ∨ front = []) : Steps (front ++ cs) rest := by
  fun_induction pass? verbose gap cs generalizing front with
  | case1 tail ih =>
      obtain rfl := hfront.resolve_left (by decide)
      exact .plain (by decide) (.plain (by decide) (.plain (by decide) (ih h [] (.inr rfl))))
  | case2 c tail _ hline ih =>
      obtain rfl := hfront.resolve_left (by decide)
      exact ih h [c] (.inl rfl)
  | case3 c tail _ _ hblank ih =>
      obtain rfl := hfront.resolve_left (by decide)
      refine .plain ?_ (ih h [] (.inr rfl))
      rintro rfl
      simp at hblank
  | case4 c tail =>
      obtain rfl := hfront.resolve_left (by decide)
      obtain rfl := Option.some.inj h
      exact .refl _
  | case5 tail ih =>
      obtain rfl := hfront.resolve_left (by decide)
      exact .plain (by decide) (ih h [] (.inr rfl))
  | case6 c tail ih =>
      obtain rfl := hfront.resolve_left (by decide)
      exact .escaped (ih h [] (.inr rfl))
  | case7 c tail _ hescape ih =>
      obtain rfl := hfront.resolve_left (by decide)
      refine .plain ?_ (ih h [] (.inr rfl))
      rintro rfl
      cases tail with
      | nil => exact absurd h (by simp [pass?])
      | cons d tail => exact hescape d tail rfl rfl
  | case8 => exact absurd h (by simp)
  | case9 tail ih => exact (Steps.across (by decide) front tail).trans (ih h [] (.inr rfl))
  | case10 c tail _ ih =>
      have hsteps := ih h (front ++ [c]) (.inl rfl)
      rwa [List.append_assoc] at hsteps
  | case11 => exact absurd (Option.some.inj h).symm hne

theorem steps_pass? (h : pass? verbose .between cs = some rest) (hne : rest ≠ []) :
    Steps cs rest :=
  steps_pass?_append h hne [] (.inr rfl)

theorem steps_decimal? {value : Nat} (h : decimal? cs = some (value, rest)) : Steps cs rest := by
  unfold decimal? at h
  split at h
  · exact absurd h (by simp)
  · simp only [Option.ite_none_right_eq_some, Option.some.injEq, Prod.mk.injEq] at h
    obtain ⟨_, _, rfl⟩ := h
    exact .dropWhile (by decide) cs

theorem steps_leastBound? {least : Nat} (h : leastBound? cs = some (least, rest)) :
    Steps cs rest := by
  unfold leastBound? at h
  split at h
  · simp only [Option.some.injEq, Prod.mk.injEq] at h
    obtain ⟨_, rfl⟩ := h
    exact .refl _
  · exact steps_decimal? h

theorem steps_mostBound (cs : List Char) : Steps cs (mostBound cs).2 := by
  unfold mostBound
  split
  · next hread => exact steps_decimal? hread
  · exact .refl cs

theorem ne_nil_of_leastBound? {least : Nat} (h : leastBound? cs = some (least, rest)) :
    cs ≠ [] := by
  rintro rfl
  exact absurd h (by simp [leastBound?, decimal?])

theorem steps_bounds? {least : Nat} {most : Option Nat}
    (h : bounds? verbose cs = some (least, most, rest)) : Steps cs rest := by
  obtain ⟨first, second, third, hfirst, hsecond, hthird, h⟩ := bounds?_eq_some_iff.1 h
  have hfront : third ≠ [] → Steps cs third := fun hne =>
    ((steps_pass? hfirst (ne_nil_of_leastBound? hsecond)).trans (steps_leastBound? hsecond)).trans
      (steps_pass? hthird hne)
  rcases h with ⟨rfl, _⟩ | ⟨fourth, fifth, rfl, hfifth, _, hlast⟩
  · exact (hfront (by simp)).trans (.one (by decide) rest)
  · have hne : fifth ≠ [] := by
      rintro rfl
      exact absurd hlast (by simp [mostBound, decimal?, pass?])
    exact (hfront (by simp)).trans (.plain (by decide) ((steps_pass? hfifth hne).trans
      ((steps_mostBound fifth).trans ((steps_pass? hlast (by simp)).trans
        (.one (by decide) rest)))))

theorem steps_takeMark {mark : Char} (hmark : mark ≠ '\\') (cs : List Char) :
    Steps cs (takeMark mark cs).2 := by
  unfold takeMark
  split
  · exact .refl []
  · split
    · next hc => exact .one (hc ▸ hmark) _
    · exact .refl _

theorem steps_quantified {least : Nat} {most : Option Nat} {token : Token}
    (h : quantified verbose least most cs = (token, rest)) (hne : rest ≠ []) : Steps cs rest := by
  rw [quantified_eq] at h
  obtain rfl := congrArg Prod.snd h
  have hmarks := (steps_takeMark (show '?' ≠ '\\' by decide)
    ((pass? verbose .between cs).getD cs)).trans (steps_takeMark (show '+' ≠ '\\' by decide) _)
  refine Steps.trans ?_ hmarks
  cases hread : pass? verbose .between cs with
  | none => exact .refl cs
  | some found =>
      refine steps_pass? hread ?_
      rintro rfl
      rw [hread] at hne
      exact hne rfl

theorem ne_backslash_of_isHex {c : Char} (h : (hexDigit? c).isSome) : c ≠ '\\' := by
  rintro rfl
  exact absurd h (by decide)

theorem steps_hexEscape? {count : Nat} {c : Char} (h : hexEscape? count cs = some (c, rest)) :
    Steps cs rest := by
  simp only [hexEscape?] at h
  split at h
  · next hdigits =>
    simp only [Option.bind_eq_bind, Option.bind_eq_some_iff, Option.some.injEq, Prod.mk.injEq] at h
    obtain ⟨_, _, _, rfl⟩ := h
    exact .drop fun d hd => ne_backslash_of_isHex (List.all_eq_true.1 hdigits.2 d hd)
  · split at h
    · next tail _ =>
      have hsteps := Steps.dropWhile (p := fun c => (hexDigit? c).isSome) (by decide) tail
      split at h
      · next heq =>
        rw [heq] at hsteps
        split at h
        · exact absurd h (by simp)
        · simp only [Option.bind_eq_bind, Option.bind_eq_some_iff, Option.some.injEq,
            Prod.mk.injEq] at h
          obtain ⟨_, _, _, rfl⟩ := h
          exact .plain (by decide) (hsteps.trans (.one (by decide) _))
      · exact absurd h (by simp)
    · exact absurd h (by simp)

theorem steps_bracketed? {opening closing : Char} {name : List Char} (hopening : opening ≠ '\\')
    (hclosing : closing ≠ '\\') (h : bracketed? opening closing cs = some (name, rest)) :
    Steps cs rest := by
  unfold bracketed? at h
  split at h
  · exact absurd h (by simp)
  · next c tail =>
    have hsteps := Steps.dropWhile (p := Unicode.isWord) (by decide) tail
    split at h
    · exact absurd h (by simp)
    · next hc =>
      obtain rfl := Classical.not_not.1 hc
      split at h
      · exact absurd h (by simp)
      · next heq _ =>
        rw [heq] at hsteps
        split at h
        · next hd =>
          subst hd
          simp only [Option.some.injEq, Prod.mk.injEq] at h
          obtain ⟨_, rfl⟩ := h
          exact .plain hopening (hsteps.trans (.one hclosing _))
        · exact absurd h (by simp)
      · exact absurd h (by simp)

theorem ofLetter?_backslash : Unicode.Property.ofLetter? '\\' = none := by decide

theorem steps_property? {property : Unicode.Property} (h : property? cs = some (property, rest)) :
    Steps cs rest := by
  unfold property? at h
  split at h
  · next tail =>
    have hsplit := List.takeWhile_append_dropWhile (p := (· ≠ '\x7d')) (l := tail)
    split at h
    · next c after heq =>
      have hc : c = '\x7d' := by
        have hhead := List.head?_dropWhile_not (fun c => decide (c ≠ '\x7d')) tail
        rw [heq] at hhead
        simpa using hhead
      obtain ⟨_, _, h⟩ := Option.map_eq_some_iff.1 h
      simp only [Prod.mk.injEq] at h
      obtain ⟨_, rfl⟩ := h
      rw [heq, hc] at hsplit
      rw [← hsplit]
      exact .plain (by decide) (.across (by decide) _ _)
    · exact absurd h (by simp)
  · next c tail _ =>
    obtain ⟨_, hletter, h⟩ := Option.map_eq_some_iff.1 h
    simp only [Prod.mk.injEq] at h
    obtain ⟨_, rfl⟩ := h
    refine .one ?_ _
    rintro rfl
    rw [ofLetter?_backslash] at hletter
    exact absurd hletter (by simp)
  · exact absurd h (by simp)

theorem steps_of_eq {α : Type} {found found' : α}
    (h : some (found, cs) = some (found', rest)) : Steps cs rest := by
  simp only [Option.some.injEq, Prod.mk.injEq] at h
  exact h.2 ▸ .refl cs

theorem steps_of_map {α β : Type} {read : Option (α × List Char)}
    {f : α × List Char → β × List Char} {found : β} (h : read.map f = some (found, rest))
    (hf : ∀ pair, (f pair).2 = pair.2) (hread : ∀ a tail, read = some (a, tail) → Steps cs tail) :
    Steps cs rest := by
  obtain ⟨⟨a, tail⟩, hfound, h⟩ := Option.map_eq_some_iff.1 h
  have htail := hf (a, tail)
  rw [h] at htail
  exact (show rest = tail from htail) ▸ hread a tail hfound

/-- After a backslash at least one character is taken. -/
theorem steps_escape? {inClass : Bool} {escape : Escape}
    (h : escape? inClass cs = some (escape, rest)) : ∃ c tail, cs = c :: tail ∧ Steps tail rest := by
  unfold escape? at h
  split at h
  · exact absurd h (by simp)
  · next c tail =>
    refine ⟨c, tail, rfl, ?_⟩
    simp only at h
    split at h
    all_goals try exact steps_of_eq h
    · exact steps_of_map h (fun _ => rfl) fun _ _ => steps_property?
    · exact steps_of_map h (fun _ => rfl) fun _ _ => steps_property?
    · split at h
      · exact absurd h (by simp)
      · exact steps_of_eq h
    · split at h
      · exact steps_of_eq h
      · split at h
        · exact absurd h (by simp)
        · exact steps_of_eq h
    · split at h
      · exact steps_of_eq h
      · split at h
        · exact absurd h (by simp)
        · exact steps_of_eq h
    · split at h
      · exact steps_of_eq h
      · split at h
        · next hname =>
          exact (steps_bracketed? (by decide) (by decide) hname).trans (steps_of_eq h)
        · obtain ⟨_, hname, h⟩ := Option.bind_eq_some_iff.1 h
          exact (steps_bracketed? (by decide) (by decide) hname).trans (steps_of_eq h)
    · exact steps_of_map h (fun _ => rfl) fun _ _ => steps_hexEscape?
    · exact steps_of_map h (fun _ => rfl) fun _ _ => steps_hexEscape?
    · exact steps_of_map h (fun _ => rfl) fun _ _ => steps_hexEscape?
    · split at h
      · next hdigit =>
        refine steps_of_map h (fun _ => rfl) fun index after hread => ?_
        unfold decimal? at hread
        rw [List.dropWhile_cons_of_pos hdigit] at hread
        split at hread
        · exact absurd hread (by simp)
        · simp only [Option.ite_none_right_eq_some, Option.some.injEq, Prod.mk.injEq] at hread
          exact hread.2.2 ▸ .dropWhile (by decide) tail
      · split at h
        · exact absurd h (by simp)
        · exact steps_of_eq h

theorem NextItem.steps {nesting depth : Nat} {item : ClassItem}
    (h : NextItem nesting cs item depth rest) : Steps cs rest := by
  cases h with
  | escaped hescape _ =>
      obtain ⟨c, tail, rfl, hsteps⟩ := steps_escape? hescape
      exact .escaped hsteps
  | opened => exact .one (by decide) rest
  | closed _ => exact .one (by decide) rest
  | plain hc => exact .one hc.1 rest

theorem steps_classItems {fuel nesting : Nat} {items : List ClassItem}
    (h : classItems fuel nesting cs = some (items, rest)) : Steps cs rest := by
  induction fuel generalizing nesting cs items with
  | zero => exact absurd h (by simp [classItems])
  | succ fuel ih =>
      rcases classItems_succ_eq_some_iff.1 h with ⟨_, rfl, _⟩ |
        ⟨item, depth, next, others, hnext, hothers, _⟩
      · exact .one (by decide) rest
      · exact hnext.steps.trans (ih hothers)

theorem steps_classFront (cs : List Char) : Steps cs (classFront cs).2 := by
  unfold classFront
  split
  · exact .plain (by decide) (.one (by decide) _)
  · exact .one (by decide) _
  · exact .one (by decide) _
  · exact .refl _

theorem steps_readClass? {members : CharSet} (h : readClass? cs = some (members, rest)) :
    Steps cs rest := by
  obtain ⟨items, hitems, _⟩ := readClass?_eq_some_iff.1 h
  exact (steps_classFront cs).trans (steps_classItems hitems)

theorem steps_readSwitches {first off bare : Bool} {done : List (Switch × Bool)} {token : Token}
    (h : readSwitches verbose cs first off bare done = some (token, rest)) : Steps cs rest := by
  have hblank : ∀ c, (verbose && c == ' ') = true → c ≠ '\\' := by
    rintro c h rfl
    simp at h
  have hswitch : ∀ c found, switch? c = some found → c ≠ '\\' := by
    rintro c found h rfl
    exact absurd h (by simp [switch?])
  fun_induction readSwitches verbose cs first off bare done with
  | case1 | case3 | case5 | case8 | case9 | case12 => exact absurd h (by simp)
  | case2 | case4 => exact .plain (by decide) (steps_of_eq h)
  | case6 _ _ _ _ _ _ ih => exact .plain (by decide) (ih h)
  | case7 _ _ c _ _ _ _ _ _ _ hc ih => exact .plain (hblank c hc) (ih h)
  | case10 _ _ c _ _ _ _ _ _ hc _ ih => exact .plain (hswitch c _ hc) (ih h)
  | case11 _ _ c _ _ _ _ _ _ _ hc ih => exact .plain (hswitch c _ hc) (ih h)

theorem steps_openingToken? {token : Token} (h : openingToken? verbose cs = some (token, rest)) :
    Steps cs rest := by
  have hnamed : ∀ {tail : List Char} {f : List Char × List Char → Token × List Char},
      (bracketed? '<' '>' ('<' :: tail)).map f = some (token, rest) → (∀ pair, (f pair).2 = pair.2) →
        Steps ('<' :: tail) rest :=
    fun h hf => steps_of_map h hf fun _ _ => steps_bracketed? (by decide) (by decide)
  unfold openingToken? at h
  split at h
  · exact .plain (by decide) (.plain (by decide) (steps_of_eq h))
  · exact .plain (by decide) (.plain (by decide) (steps_of_eq h))
  · exact .plain (by decide) (.plain (by decide) (.plain (by decide) (steps_of_eq h)))
  · exact .plain (by decide) (.plain (by decide) (.plain (by decide) (steps_of_eq h)))
  · exact .plain (by decide) (hnamed h fun _ => rfl)
  · exact .plain (by decide) (.plain (by decide) (hnamed h fun _ => rfl))
  · next tail =>
    have hsteps := Steps.dropWhile (p := Unicode.isWord) (by decide) tail
    split at h
    · next heq =>
      rw [heq] at hsteps
      split at h
      · exact absurd h (by simp)
      · exact .plain (by decide) (.plain (by decide) (.plain (by decide)
          (hsteps.trans (.plain (by decide) (steps_of_eq h)))))
    · exact absurd h (by simp)
  · exact .plain (by decide) (.plain (by decide) (steps_of_eq h))
  · exact .plain (by decide) (steps_readSwitches h)
  · exact steps_of_eq h

/-- At least one character is taken, a backslash together with the character after it. -/
def Takes (cs rest : List Char) : Prop :=
  ∃ mid, Steps mid rest ∧ ((∃ c, c ≠ '\\' ∧ cs = c :: mid) ∨ ∃ c, cs = '\\' :: c :: mid)

theorem Takes.plain {c : Char} (hc : c ≠ '\\') (h : Steps cs rest) : Takes (c :: cs) rest :=
  ⟨cs, h, .inl ⟨c, hc, rfl⟩⟩

theorem takes_quantifier? {token : Token} (h : quantifier? verbose cs = some (token, rest))
    (hne : rest ≠ []) : Takes cs rest := by
  unfold quantifier? at h
  split at h
  · exact .plain (by decide) (steps_quantified (Option.some.inj h) hne)
  · exact .plain (by decide) (steps_quantified (Option.some.inj h) hne)
  · exact .plain (by decide) (steps_quantified (Option.some.inj h) hne)
  · obtain ⟨⟨least, most, tail⟩, hbounds, h⟩ := Option.bind_eq_some_iff.1 h
    exact .plain (by decide)
      ((steps_bounds? hbounds).trans (steps_quantified (Option.some.inj h) hne))
  · exact absurd h (by simp)

theorem takes_nextItem? {token : Token} (h : nextItem? verbose cs = some (token, rest))
    (hne : rest ≠ []) : Takes cs rest := by
  simp only [nextItem?, next?, Bool.false_eq_true, ↓reduceIte] at h
  split at h
  · exact absurd h (by simp)
  · exact .plain (by decide) (steps_of_eq h)
  · exact .plain (by decide) (steps_of_eq h)
  · exact .plain (by decide) (steps_of_eq h)
  · exact .plain (by decide) (steps_of_eq h)
  · exact .plain (by decide) (steps_of_eq h)
  · obtain ⟨passed, hpass, h⟩ := Option.bind_eq_some_iff.1 h
    have hsteps := steps_openingToken? h
    have hpassed : passed ≠ [] := by
      rintro rfl
      have hlength := hsteps.length_le
      exact hne (List.length_eq_zero_iff.1 (Nat.le_zero.1 hlength))
    exact .plain (by decide) ((steps_pass? hpass hpassed).trans hsteps)
  · exact .plain (by decide) (steps_of_map h (fun _ => rfl) fun _ _ => steps_readClass?)
  · obtain ⟨⟨escape, tail⟩, hescape, h⟩ := Option.map_eq_some_iff.1 h
    obtain ⟨c, mid, rfl, hsteps⟩ := steps_escape? hescape
    have htail : tail = rest := by
      cases escape <;> exact (Prod.mk.inj h).2
    exact ⟨mid, htail ▸ hsteps, .inr ⟨c, rfl⟩⟩
  · exact absurd h (by simp)
  · exact absurd h (by simp)
  · exact absurd h (by simp)
  · next c tail _ _ _ _ _ _ _ hc _ _ _ => exact .plain hc (steps_of_eq h)

/-- Every token takes a character, or a backslash and the character after it. -/
theorem takes_next? {place : Place} {token : Token} (h : next? place cs = some (token, rest))
    (hne : rest ≠ []) : Takes cs rest := by
  rw [next?_eq] at h
  rcases Option.or_eq_some_iff.1 h with h | ⟨_, h⟩
  · simp only [Option.ite_none_right_eq_some] at h
    exact takes_quantifier? h.2 hne
  · exact takes_nextItem? h hne

theorem Takes.steps (h : Takes cs rest) : Steps cs rest := by
  obtain ⟨mid, hsteps, ⟨c, hc, rfl⟩ | ⟨c, rfl⟩⟩ := h
  · exact .plain hc hsteps
  · exact .escaped hsteps

theorem Takes.length_lt (h : Takes cs rest) : rest.length < cs.length := by
  obtain ⟨mid, hsteps, ⟨c, _, rfl⟩ | ⟨c, rfl⟩⟩ := h
  · exact Nat.lt_succ_of_le hsteps.length_le
  · exact Nat.lt_succ_of_lt (Nat.lt_succ_of_le hsteps.length_le)

end Readers

namespace Walk

variable {place : Place} {cs rest : List Char} {tokens others : List Token}

theorem steps (h : Walk place cs tokens rest) (hne : rest ≠ []) : Steps cs rest := by
  induction h with
  | nil => exact .refl _
  | @cons place cs passed next rest token tokens hpass hnext hwalk ih =>
      have hrest := ih hne
      have hnonempty : next ≠ [] := by
        rintro rfl
        exact hne (List.length_eq_zero_iff.1 (Nat.le_zero.1 hrest.length_le))
      refine ((steps_pass? hpass ?_).trans (takes_next? hnext hnonempty).steps).trans hrest
      rintro rfl
      exact absurd hnext (by simp [next?_nil])

theorem length_lt {token : Token} (h : Walk place cs (token :: tokens) rest) :
    rest.length < cs.length := by
  cases h with
  | @cons _ _ passed next _ _ _ hpass hnext hwalk =>
      have hpassed : passed ≠ [] := by
        rintro rfl
        exact absurd hnext (by simp [next?_nil])
      have hle := (steps_pass? hpass hpassed).length_le
      by_cases hrest : rest = []
      · subst hrest
        exact Nat.lt_of_lt_of_le (List.length_pos_iff.2 hpassed) hle
      · have hwalked := (hwalk.steps hrest).length_le
        have hnonempty : next ≠ [] := by
          rintro rfl
          exact hrest (List.length_eq_zero_iff.1 (Nat.le_zero.1 hwalked))
        have hlt := (takes_next? hnext hnonempty).length_lt
        omega

/-- Every token takes a character. -/
theorem length_add_le (h : Walk place cs tokens rest) : tokens.length + rest.length ≤ cs.length := by
  induction h with
  | nil => simp
  | cons hpass hnext hwalk ih =>
      have hlt := (Walk.single hpass hnext).length_lt
      rw [List.length_cons]
      omega

end Walk

end Waymark.Regex.Token
