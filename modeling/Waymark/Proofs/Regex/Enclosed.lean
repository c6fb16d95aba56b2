import Waymark.Proofs.Regex.Locality
/-!
Groups are read alike wherever they stand.

Text that ends with the parenthesis that closes it is read as the same tokens whatever follows it
(`Walk.replace`), and at any place where white space counts alike. The one reader that looks further
ahead is that of a repetition in braces, which may turn out not to be one; but then the parenthesis
cannot lie in what it passes over.
-/

namespace Waymark.Regex.Token

/-- Text that ends with a closing parenthesis. -/
def Ends (cs : List Char) : Prop :=
  cs.getLast? = some ')'

/-- Text that begins with nothing to pass over. -/
def Solid (verbose : Bool) (cs : List Char) : Prop :=
  pass? verbose .between cs = some cs

section Gaps

variable {verbose : Bool} {cs rest : List Char}

theorem Ends.ne_nil (h : Ends cs) : cs ≠ [] := by
  rintro rfl
  exact absurd h (by simp [Ends])

theorem Ends.append (h : Ends cs) (text : List Char) : Ends (text ++ cs) := by
  rw [Ends, List.getLast?_append, h]
  rfl

theorem Ends.of_append {text : List Char} (h : Ends (text ++ cs)) (hne : cs ≠ []) : Ends cs := by
  obtain ⟨c, hc⟩ := Option.ne_none_iff_exists'.1 (mt List.getLast?_eq_none_iff.1 hne)
  rw [Ends, List.getLast?_append, hc] at h
  rw [Ends, hc]
  exact h

theorem Ends.of_cons {c : Char} (h : Ends (c :: cs)) (hc : c ≠ ')') : Ends cs := by
  refine Ends.of_append (show Ends ([c] ++ cs) from h) ?_
  rintro rfl
  exact hc (Option.some.inj h)

theorem pass?_between_cons {c : Char}
    (hopen : ∀ tail, c = '(' → cs = '?' :: '#' :: tail → False) :
    pass? verbose .between (c :: cs) =
      if verbose && c == '#' then pass? verbose .line cs
      else if verbose && (c == ' ' || c == '\t' || c == '\n' || c == '\r') then
        pass? verbose .between cs
      else some (c :: cs) := by
  rw [pass?]
  exact hopen

/-- What is passed over leaves nothing to pass over. -/
theorem solid_of_pass? {gap : Gap} (h : pass? verbose gap cs = some rest) : Solid verbose rest := by
  fun_induction pass? verbose gap cs with
  | case1 _ ih | case2 _ _ _ _ ih | case3 _ _ _ _ _ ih | case5 _ ih | case6 _ _ ih
  | case7 _ _ _ _ ih | case9 _ ih | case10 _ _ _ ih => exact ih h
  | case4 c tail hopen hline hblank =>
      obtain rfl := Option.some.inj h
      rw [Solid, pass?_between_cons hopen, if_neg hline, if_neg hblank]
  | case8 => exact absurd h (by simp)
  | case11 =>
      obtain rfl := Option.some.inj h
      simp [Solid, pass?]

/-- A text is passed over up to its rest, and as far before every other solid rest. -/
def Passes (verbose : Bool) (gap : Gap) (cs rest : List Char) : Prop :=
  ∃ text, cs = text ++ rest ∧
    ∀ other, Solid verbose other → pass? verbose gap (text ++ other) = some other

/-- A gap goes on as another one after given characters. -/
theorem Passes.following {gap after : Gap} (h : Passes verbose after cs rest) (front : List Char)
    (hpass : ∀ text, pass? verbose gap (front ++ text) = pass? verbose after text) :
    Passes verbose gap (front ++ cs) rest := by
  obtain ⟨text, rfl, hother⟩ := h
  refine ⟨front ++ text, (List.append_assoc _ _ _).symm, fun other hsolid => ?_⟩
  rw [List.append_assoc, hpass, hother other hsolid]

/-- What is passed over does not depend on what follows it. -/
theorem passes_of_pass? {gap : Gap} (h : pass? verbose gap cs = some rest) (hne : rest ≠ []) :
    Passes verbose gap cs rest := by
  fun_induction pass? verbose gap cs with
  | case1 _ ih => exact (ih h).following ['(', '?', '#'] fun _ => rfl
  | case2 c _ _ hline ih =>
      have hopen : c ≠ '(' := by
        rintro rfl
        simp at hline
      refine (ih h).following [c] fun text => ?_
      rw [List.singleton_append, pass?_between_cons fun _ hc => absurd hc hopen, if_pos hline]
  | case3 c _ _ hline hblank ih =>
      have hopen : c ≠ '(' := by
        rintro rfl
        simp at hblank
      refine (ih h).following [c] fun text => ?_
      rw [List.singleton_append, pass?_between_cons fun _ hc => absurd hc hopen, if_neg hline,
        if_pos hblank]
  | case4 =>
      obtain rfl := Option.some.inj h
      exact ⟨[], rfl, fun _ hsolid => hsolid⟩
  | case5 _ ih => exact (ih h).following [')'] fun _ => rfl
  | case6 c _ ih => exact (ih h).following ['\\', c] fun _ => rfl
  | case7 c tail hclose hescape ih =>
      have hbackslash : c ≠ '\\' := by
        rintro rfl
        cases tail with
        | nil => exact absurd h (by simp [pass?])
        | cons d tail => exact hescape d tail rfl rfl
      refine (ih h).following [c] fun text => ?_
      rw [List.singleton_append, pass?]
      · exact hclose
      · exact fun _ _ hc _ => hbackslash hc
  | case8 => exact absurd h (by simp)
  | case9 _ ih => exact (ih h).following ['\n'] fun _ => rfl
  | case10 c _ hc ih =>
      refine (ih h).following [c] fun text => ?_
      rw [List.singleton_append, pass?]
      exact hc
  | case11 => exact absurd (Option.some.inj h).symm hne

theorem length_le_of_pass? {gap : Gap} (h : pass? verbose gap cs = some rest) :
    rest.length ≤ cs.length := by
  by_cases hne : rest = []
  · simp [hne]
  · exact (steps_pass?_append h hne [] (.inr rfl)).length_le

/-- A text is solid if no comment begins there, and no other gap where white space does not count. -/
theorem solid_cons_iff {c : Char} :
    Solid verbose (c :: cs) ↔
      (∀ tail, c = '(' → cs = '?' :: '#' :: tail → False) ∧ ¬ (verbose && c == '#') = true ∧
        ¬ (verbose && (c == ' ' || c == '\t' || c == '\n' || c == '\r')) = true := by
  constructor
  · intro h
    have hopen : ∀ tail, c = '(' → cs = '?' :: '#' :: tail → False := by
      rintro tail rfl rfl
      have hle := length_le_of_pass? (show pass? verbose .comment tail = _ from h)
      simp only [List.length_cons] at hle
      omega
    rw [Solid, pass?_between_cons hopen] at h
    refine ⟨hopen, fun hline => ?_, fun hblank => ?_⟩
    · rw [if_pos hline] at h
      exact absurd (length_le_of_pass? h) (Nat.not_succ_le_self _)
    · rw [if_pos hblank] at h
      split at h
      · exact absurd (length_le_of_pass? h) (Nat.not_succ_le_self _)
      · exact absurd (length_le_of_pass? h) (Nat.not_succ_le_self _)
  · rintro ⟨hopen, hline, hblank⟩
    rw [Solid, pass?_between_cons hopen, if_neg hline, if_neg hblank]

/-- Whether text is solid does not depend on what follows its parenthesis. -/
theorem Solid.replace {s : List Char} (h : Solid verbose (cs ++ s)) (hends : Ends cs)
    (s' : List Char) : Solid verbose (cs ++ s') := by
  obtain ⟨c, cs, rfl⟩ := List.exists_cons_of_ne_nil hends.ne_nil
  obtain ⟨hopen, hgap⟩ := solid_cons_iff.1 h
  refine solid_cons_iff.2 ⟨?_, hgap⟩
  rintro tail rfl htail
  have hcs := hends.of_cons (by decide)
  obtain ⟨d, cs, rfl⟩ := List.exists_cons_of_ne_nil hcs.ne_nil
  obtain ⟨rfl, hsecond⟩ := List.cons.inj (show d :: (cs ++ s') = '?' :: '#' :: tail from htail)
  have hcs' := hcs.of_cons (by decide)
  obtain ⟨e, cs, rfl⟩ := List.exists_cons_of_ne_nil hcs'.ne_nil
  obtain ⟨rfl, _⟩ := List.cons.inj (show e :: (cs ++ s') = '#' :: tail from hsecond)
  exact hopen (cs ++ s) rfl rfl

/-- A gap before text that ends with its parenthesis. -/
theorem pass?_replace {s : List Char}
    (h : pass? verbose .between (cs ++ s) = some (rest ++ s)) (hends : Ends rest) (s' : List Char) :
    pass? verbose .between (cs ++ s') = some (rest ++ s') := by
  have hne : rest ++ s ≠ [] := List.append_ne_nil_of_left_ne_nil hends.ne_nil s
  obtain ⟨text, htext, hother⟩ := passes_of_pass? h hne
  rw [← List.append_assoc] at htext
  obtain rfl := List.append_cancel_right htext
  rw [List.append_assoc]
  exact hother _ ((solid_of_pass? h).replace hends s')

/-- A reader that looks one character ahead, before text that ends with its parenthesis. -/
theorem Local.replace {α : Type} {read : List Char → Option (α × List Char)} {found : α}
    {s : List Char} (hlocal : Local read) (h : read (cs ++ s) = some (found, rest ++ s))
    (hne : rest ≠ []) (s' : List Char) : read (cs ++ s') = some (found, rest ++ s') := by
  obtain ⟨text, htext, hother⟩ := hlocal.exists_append h
  rw [← List.append_assoc] at htext
  obtain rfl := List.append_cancel_right htext
  rw [List.append_assoc]
  refine hother _ ?_
  obtain ⟨c, rest, rfl⟩ := List.exists_cons_of_ne_nil hne
  rfl

end Gaps

section Closing

variable {verbose : Bool} {place : Place} {cs rest : List Char} {token : Token}

theorem ne_closing_of_readSwitches {first off bare : Bool} {done : List (Switch × Bool)}
    (h : readSwitches verbose cs first off bare done = some (token, rest)) : token ≠ .closing := by
  fun_induction readSwitches verbose cs first off bare done <;> simp_all
  all_goals
    obtain ⟨rfl, _⟩ := h
    simp

theorem ne_closing_of_openingToken? (h : openingToken? verbose cs = some (token, rest)) :
    token ≠ .closing := by
  unfold openingToken? at h
  split at h
  case h_7 =>
    rintro rfl
    split at h
    · simp at h
    · simp at h
  case h_9 => exact ne_closing_of_readSwitches h
  all_goals
    rintro rfl
    simp at h

theorem exists_quantifier_of_quantified {least : Nat} {most : Option Nat}
    (h : quantified verbose least most cs = (token, rest)) :
    ∃ questioned possessive, token = .quantifier least most questioned possessive := by
  rw [quantified_eq] at h
  obtain ⟨rfl, _⟩ := Prod.mk.inj h
  exact ⟨_, _, rfl⟩

/-- What is read as a quantifier is one. -/
theorem exists_quantifier_of_quantifier? (h : quantifier? verbose cs = some (token, rest)) :
    ∃ least most questioned possessive, token = .quantifier least most questioned possessive := by
  unfold quantifier? at h
  split at h
  · exact ⟨_, _, exists_quantifier_of_quantified (Option.some.inj h)⟩
  · exact ⟨_, _, exists_quantifier_of_quantified (Option.some.inj h)⟩
  · exact ⟨_, _, exists_quantifier_of_quantified (Option.some.inj h)⟩
  · obtain ⟨⟨least, most, tail⟩, _, h⟩ := Option.bind_eq_some_iff.1 h
    exact ⟨_, _, exists_quantifier_of_quantified (Option.some.inj h)⟩
  · exact absurd h (by simp)

/-- Nothing but a closing parenthesis closes a group. -/
theorem eq_cons_of_next? (h : next? place cs = some (.closing, rest)) : cs = ')' :: rest := by
  rw [next?_eq] at h
  rcases Option.or_eq_some_iff.1 h with h | ⟨_, h⟩
  · simp only [Option.ite_none_right_eq_some] at h
    obtain ⟨_, _, _, _, heq⟩ := exists_quantifier_of_quantifier? h.2
    exact absurd heq (by simp)
  · simp only [nextItem?, next?, Bool.false_eq_true, ↓reduceIte] at h
    split at h
    case h_6 =>
      obtain ⟨_, rfl⟩ := Prod.mk.inj (Option.some.inj h)
      rfl
    case h_7 =>
      obtain ⟨passed, _, h⟩ := Option.bind_eq_some_iff.1 h
      exact absurd rfl (ne_closing_of_openingToken? h)
    case h_9 =>
      obtain ⟨⟨escape, tail⟩, _, h⟩ := Option.map_eq_some_iff.1 h
      cases escape <;> exact absurd h (by simp)
    all_goals exact absurd h (by simp)

theorem next?_closing (place : Place) (cs : List Char) :
    next? place (')' :: cs) = some (.closing, cs) := by
  rw [next?_of_quantifier?_eq_none (quantifier?_cons (by decide) cs)]
  simp [next?]

/-- A walk that ends with a closing parenthesis ends where that parenthesis does. -/
theorem Walk.exists_ends {tokens : List Token} (h : Walk place cs (tokens ++ [.closing]) rest) :
    ∃ text, cs = text ++ rest ∧ Ends text := by
  induction tokens generalizing place cs with
  | nil =>
      cases h with
      | cons hpass hnext hwalk =>
          cases hwalk
          obtain rfl := eq_cons_of_next? hnext
          obtain ⟨text, rfl⟩ := (steps_pass? hpass (by simp)).exists_append
          exact ⟨text ++ [')'], by simp, by simp [Ends]⟩
  | cons token tokens ih =>
      cases h with
      | @cons _ _ passed next _ _ _ hpass hnext hwalk =>
          obtain ⟨text, rfl, hends⟩ := ih hwalk
          have hne : text ++ rest ≠ [] := List.append_ne_nil_of_left_ne_nil hends.ne_nil rest
          have hpassed : passed ≠ [] := by
            rintro rfl
            exact absurd hnext (by simp [Walk.next?_nil])
          obtain ⟨front, rfl⟩ :=
            ((steps_pass? hpass hpassed).trans (takes_next? hnext hne).steps).exists_append
          exact ⟨front ++ text, (List.append_assoc _ _ _).symm, hends.append _⟩

end Closing

/-- From some place on, text is read up to a closing parenthesis, after which the rest stands. -/
def Closes (verbose : Bool) (cs rest : List Char) : Prop :=
  ∃ (place : Place) (tokens : List Token),
    place.flags.verbose = verbose ∧ Walk place cs (tokens ++ [.closing]) rest

section Braces

variable {verbose : Bool} {cs s : List Char}

/-- The parenthesis does not lie in what is passed over. -/
theorem Closes.pass? (h : Closes verbose cs s) :
    ∃ rest, Ends rest ∧ Token.pass? verbose .between cs = some (rest ++ s) ∧
      Closes verbose (rest ++ s) s := by
  obtain ⟨place, tokens, rfl, hwalk⟩ := h
  obtain ⟨token, others, heq⟩ := List.exists_cons_of_ne_nil
    (List.append_ne_nil_of_right_ne_nil tokens (List.cons_ne_nil Token.closing []))
  rw [heq] at hwalk
  cases hwalk with
  | @cons _ _ passed _ _ _ _ hpass hnext hwalk =>
      have hpassed : Walk place passed (token :: others) s :=
        .cons (solid_of_pass? hpass) hnext hwalk
      rw [← heq] at hpassed
      obtain ⟨rest, rfl, hends⟩ := hpassed.exists_ends
      exact ⟨rest, hends, hpass, place, tokens, rfl, hpassed⟩

/-- A digit or a comma. -/
def isBoundChar (c : Char) : Bool :=
  c.isDigit || c == ','

theorem ne_of_isBoundChar {c d : Char} (hc : isBoundChar c = true) (hd : isBoundChar d = false) :
    c ≠ d := by
  rintro rfl
  exact absurd hc (by simp [hd])

theorem nextItem?_of_not_sign {c : Char} (hc : c ∉ signs) :
    nextItem? verbose (c :: cs) = some (.set (.single c), cs) :=
  next?_of_not_sign rfl hc

theorem next?_boundChar {place : Place} {c : Char} (hc : isBoundChar c = true) :
    next? place (c :: cs) = some (.set (.single c), cs) := by
  have hne : ∀ d, isBoundChar d = false → c ≠ d := fun d => ne_of_isBoundChar hc
  have hsign : c ∉ signs := by
    intro hmem
    simp only [signs, List.mem_cons, List.not_mem_nil, or_false] at hmem
    rcases hmem with rfl | rfl | rfl | rfl | rfl | rfl | rfl | rfl | rfl | rfl | rfl <;>
      exact absurd hc (by decide)
  have hquantifier : quantifier? place.flags.verbose (c :: cs) = none := quantifier?_cons
    ⟨hne '?' (by decide), hne '*' (by decide), hne '+' (by decide), hne '\x7b' (by decide)⟩ cs
  rw [next?_eq, hquantifier, ite_self, Option.none_or, nextItem?_of_not_sign hsign]

theorem solid_boundChar {c : Char} (hc : isBoundChar c = true) : Solid verbose (c :: cs) := by
  have hne : ∀ d, isBoundChar d = false → c ≠ d := fun d => ne_of_isBoundChar hc
  refine solid_cons_iff.2 ⟨fun _ h => absurd h (hne '(' (by decide)), ?_, ?_⟩
  · simp [hne '#' (by decide)]
  · simp [hne ' ' (by decide), hne '\t' (by decide), hne '\n' (by decide), hne '\r' (by decide)]

/-- Digits and commas stand for themselves. -/
theorem Closes.of_append {text : List Char} (htext : ∀ c ∈ text, isBoundChar c = true)
    (h : Closes verbose (text ++ cs) s) : Closes verbose cs s := by
  induction text with
  | nil => exact h
  | cons c text ih =>
      obtain ⟨hc, htext⟩ := List.forall_mem_cons.1 htext
      refine ih htext ?_
      obtain ⟨place, tokens, hverbose, hwalk⟩ := h
      have hsolid : Solid place.flags.verbose (c :: (text ++ cs)) := solid_boundChar hc
      cases tokens with
      | nil =>
          cases hwalk with
          | cons hpass hnext _ =>
              obtain rfl := Option.some.inj (hsolid.symm.trans hpass)
              rw [next?_boundChar hc] at hnext
              exact absurd hnext (by simp)
      | cons token tokens =>
          cases hwalk with
          | cons hpass hnext hwalk =>
              obtain rfl := Option.some.inj (hsolid.symm.trans hpass)
              rw [next?_boundChar hc] at hnext
              obtain ⟨rfl, rfl⟩ := Prod.mk.inj (Option.some.inj hnext)
              exact ⟨place.after (.set (.single c)), tokens, hverbose, hwalk⟩

theorem decimal?_append (hends : Ends cs) (s : List Char) :
    decimal? (cs ++ s) = (decimal? cs).map fun found => (found.1, found.2 ++ s) := by
  have hdigits : ∀ c ∈ cs.takeWhile Char.isDigit, c.isDigit = true :=
    fun c hc => List.all_eq_true.1 List.all_takeWhile c hc
  have hne : cs.dropWhile Char.isDigit ≠ [] := by
    intro h
    have hall := List.takeWhile_append_dropWhile (p := Char.isDigit) (l := cs)
    rw [h, List.append_nil] at hall
    rw [hall] at hdigits
    exact absurd (hdigits ')' (List.mem_of_getLast? hends)) (by decide)
  obtain ⟨htake, hdrop⟩ := takeWhile_append_of_head? (cs.dropWhile Char.isDigit ++ s) hdigits (by
    obtain ⟨c, rest, heq⟩ := List.exists_cons_of_ne_nil hne
    have hhead := any_head?_dropWhile Char.isDigit cs
    rw [heq] at hhead ⊢
    exact hhead)
  rw [← List.append_assoc, List.takeWhile_append_dropWhile] at htake hdrop
  unfold decimal?
  rw [htake, hdrop]
  split
  · rfl
  · simp only
    split <;> rfl

theorem exists_boundChars_of_decimal? {value : Nat} {rest : List Char}
    (h : decimal? cs = some (value, rest)) :
    ∃ text, cs = text ++ rest ∧ ∀ c ∈ text, isBoundChar c = true := by
  refine ⟨cs.takeWhile Char.isDigit, ?_, fun c hc => ?_⟩
  · unfold decimal? at h
    split at h
    · exact absurd h (by simp)
    · simp only [Option.ite_none_right_eq_some, Option.some.injEq, Prod.mk.injEq] at h
      rw [← h.2.2, List.takeWhile_append_dropWhile]
  · simp [isBoundChar, List.all_eq_true.1 List.all_takeWhile c hc]

theorem leastBound?_append (hends : Ends cs) (s : List Char) :
    leastBound? (cs ++ s) = (leastBound? cs).map fun found => (found.1, found.2 ++ s) := by
  obtain ⟨c, cs, rfl⟩ := List.exists_cons_of_ne_nil hends.ne_nil
  by_cases hc : c = ','
  · subst hc
    rfl
  · have hleast : ∀ tail, leastBound? (c :: tail) = decimal? (c :: tail) := by
      intro tail
      rw [leastBound?]
      rintro _ heq
      exact hc (List.cons.inj heq).1
    rw [List.cons_append, hleast, hleast, ← List.cons_append, decimal?_append hends]

theorem mostBound_append (hends : Ends cs) (s : List Char) :
    mostBound (cs ++ s) = ((mostBound cs).1, (mostBound cs).2 ++ s) := by
  unfold mostBound
  rw [decimal?_append hends]
  cases decimal? cs <;> rfl

theorem exists_boundChars_of_leastBound? {least : Nat} {rest : List Char}
    (h : leastBound? cs = some (least, rest)) :
    ∃ text, cs = text ++ rest ∧ ∀ c ∈ text, isBoundChar c = true := by
  unfold leastBound? at h
  split at h
  · obtain ⟨rfl, rfl⟩ := Prod.mk.inj (Option.some.inj h)
    exact ⟨[], rfl, by simp⟩
  · exact exists_boundChars_of_decimal? h

theorem exists_boundChars_mostBound (cs : List Char) :
    ∃ text, cs = text ++ (mostBound cs).2 ∧ ∀ c ∈ text, isBoundChar c = true := by
  unfold mostBound
  split
  · next h => exact exists_boundChars_of_decimal? h
  · exact ⟨[], rfl, by simp⟩

/-- Where the parenthesis is reached, a brace begins a repetition whatever follows. -/
theorem isSome_bounds? (h : Closes verbose (cs ++ s) s) {s' : List Char}
    (hsome : (bounds? verbose (cs ++ s')).isSome) : (bounds? verbose (cs ++ s)).isSome := by
  obtain ⟨⟨least, most, rest⟩, hbounds⟩ := Option.isSome_iff_exists.1 hsome
  obtain ⟨first, second, third, hfirst, hsecond, hthird, hlast⟩ := bounds?_eq_some_iff.1 hbounds
  -- Each gap ends before the parenthesis, so each number is the same.
  obtain ⟨lower, hlower, hpassLower, hcloses⟩ := h.pass?
  rw [pass?_replace hpassLower hlower] at hfirst
  obtain rfl := Option.some.inj hfirst
  have hleast := leastBound?_append hlower s
  rw [leastBound?_append hlower] at hsecond
  obtain ⟨⟨low, after⟩, hlow, heq⟩ := Option.map_eq_some_iff.1 hsecond
  obtain ⟨rfl, rfl⟩ := Prod.mk.inj heq
  rw [hlow] at hleast
  obtain ⟨text, rfl, htext⟩ := exists_boundChars_of_leastBound? hlow
  rw [List.append_assoc] at hcloses
  obtain ⟨sign, hsign, hpassSign, hcloses⟩ := (hcloses.of_append htext).pass?
  rw [pass?_replace hpassSign hsign] at hthird
  obtain rfl := Option.some.inj hthird
  obtain ⟨c, tail, rfl⟩ := List.exists_cons_of_ne_nil hsign.ne_nil
  rcases hlast with ⟨heq, rfl⟩ | ⟨fourth, fifth, heq, hfifth, rfl, hlast⟩
  · obtain ⟨rfl, _⟩ := List.cons.inj heq
    exact Option.isSome_iff_exists.2 ⟨(low, some low, tail ++ s), bounds?_eq_some_iff.2
      ⟨_, _, _, hpassLower, hleast, hpassSign, .inl ⟨rfl, rfl⟩⟩⟩
  · obtain ⟨rfl, hfourth⟩ := List.cons.inj (show c :: (tail ++ s') = ',' :: fourth from heq)
    have hcomma : Closes verbose ([','] ++ (tail ++ s)) s := hcloses
    obtain ⟨upper, hupper, hpassUpper, hcloses⟩ := (hcomma.of_append (by simp [isBoundChar])).pass?
    rw [← hfourth, pass?_replace hpassUpper hupper] at hfifth
    obtain rfl := Option.some.inj hfifth
    obtain ⟨text, htext, hbound⟩ := exists_boundChars_mostBound upper
    have hmost := mostBound_append hupper s
    rw [mostBound_append hupper] at hlast
    rw [htext, List.append_assoc] at hcloses
    obtain ⟨brace, hbrace, hpassBrace, _⟩ := (hcloses.of_append hbound).pass?
    rw [pass?_replace hpassBrace hbrace] at hlast
    obtain ⟨d, brace, rfl⟩ := List.exists_cons_of_ne_nil hbrace.ne_nil
    obtain ⟨rfl, _⟩ := List.cons.inj (Option.some.inj hlast)
    refine Option.isSome_iff_exists.2 ⟨(low, (mostBound upper).1, brace ++ s),
      bounds?_eq_some_iff.2 ⟨_, _, _, hpassLower, hleast, hpassSign, .inr ⟨tail ++ s, upper ++ s,
        rfl, hpassUpper, ?_, ?_⟩⟩⟩
    · rw [hmost]
    · rw [hmost]
      exact hpassBrace

theorem Steps.exists_ends {rest : List Char} (h : Steps cs (rest ++ s)) (hends : Ends rest) :
    ∃ text, cs = text ++ s ∧ Ends text := by
  obtain ⟨text, rfl⟩ := h.exists_append
  exact ⟨text ++ rest, (List.append_assoc _ _ _).symm, hends.append _⟩

/-- The front of a repetition up to its lower bound. -/
theorem leastBound?_replace {first second : List Char} {least : Nat}
    (hpass : pass? verbose .between (cs ++ s) = some first)
    (hleast : leastBound? first = some (least, second ++ s)) (hends : Ends second) (s' : List Char) :
    ∃ first', pass? verbose .between (cs ++ s') = some first' ∧
      leastBound? first' = some (least, second ++ s') := by
  obtain ⟨lower, rfl, hlower⟩ := (steps_leastBound? hleast).exists_ends hends
  refine ⟨lower ++ s', pass?_replace hpass hlower s', ?_⟩
  rw [leastBound?_append hlower] at hleast ⊢
  obtain ⟨⟨low, after⟩, hlow, heq⟩ := Option.map_eq_some_iff.1 hleast
  obtain ⟨rfl, hafter⟩ := Prod.mk.inj heq
  obtain rfl := List.append_cancel_right hafter
  rw [hlow]
  rfl

theorem bounds?_replace {least : Nat} {most : Option Nat} {rest : List Char}
    (h : bounds? verbose (cs ++ s) = some (least, most, rest ++ s)) (hends : Ends rest)
    (s' : List Char) : bounds? verbose (cs ++ s') = some (least, most, rest ++ s') := by
  obtain ⟨first, second, third, hfirst, hsecond, hthird, hlast⟩ := bounds?_eq_some_iff.1 h
  rcases hlast with ⟨rfl, rfl⟩ | ⟨fourth, fifth, rfl, hfifth, rfl, hlast⟩
  · have hbrace : Ends ('\x7d' :: rest) := hends.append ['\x7d']
    obtain ⟨sign, rfl, hsign⟩ := (steps_pass? hthird (by simp)).exists_ends hbrace
    obtain ⟨first', hfirst', hsecond'⟩ := leastBound?_replace hfirst hsecond hsign s'
    exact bounds?_eq_some_iff.2 ⟨first', _, _, hfirst', hsecond', pass?_replace hthird hbrace s',
      .inl ⟨rfl, rfl⟩⟩
  · have hbrace : Ends ('\x7d' :: rest) := hends.append ['\x7d']
    have hsteps := (steps_mostBound fifth).trans (steps_pass? hlast (by simp))
    obtain ⟨upper, rfl, hupper⟩ := hsteps.exists_ends hbrace
    obtain ⟨tail, rfl, htail⟩ := (steps_pass? hfifth (by simp [hupper.ne_nil])).exists_ends hupper
    have hcomma : Ends (',' :: tail) := htail.append [',']
    obtain ⟨sign, rfl, hsign⟩ := (steps_pass? hthird (by simp)).exists_ends hcomma
    obtain ⟨first', hfirst', hsecond'⟩ := leastBound?_replace hfirst hsecond hsign s'
    rw [mostBound_append hupper] at hlast ⊢
    refine bounds?_eq_some_iff.2 ⟨first', _, _, hfirst', hsecond', pass?_replace hthird hcomma s',
      .inr ⟨tail ++ s', upper ++ s', rfl, pass?_replace hfifth hupper s', ?_, ?_⟩⟩
    · rw [mostBound_append hupper]
    · rw [mostBound_append hupper]
      exact pass?_replace hlast hbrace s'

theorem takeMark_append {mark : Char} (hmark : mark ≠ ')') (hends : Ends cs) (s : List Char) :
    takeMark mark (cs ++ s) = ((takeMark mark cs).1, (takeMark mark cs).2 ++ s) ∧
      Ends (takeMark mark cs).2 := by
  obtain ⟨c, cs, rfl⟩ := List.exists_cons_of_ne_nil hends.ne_nil
  by_cases hc : c = mark
  · subst hc
    simp only [List.cons_append, takeMark, ↓reduceIte, true_and]
    exact hends.of_cons hmark
  · simp only [List.cons_append, takeMark, hc, ↓reduceIte, true_and]
    exact hends

theorem takeMark_of_pass?_eq_none {mark : Char} (hmark : mark ∈ ['?', '+'])
    (h : pass? verbose .between cs = none) : takeMark mark cs = (false, cs) := by
  unfold takeMark
  split
  · rfl
  · next c tail =>
    have hc : c ≠ mark := by
      rintro rfl
      have hsolid : Solid verbose (c :: tail) := by
        simp only [List.mem_cons, List.not_mem_nil, or_false] at hmark
        rcases hmark with rfl | rfl <;> simp [solid_cons_iff]
      rw [Solid, h] at hsolid
      exact absurd hsolid (by simp)
    rw [if_neg hc]

theorem quantified_replace {least : Nat} {most : Option Nat} {token : Token} {rest : List Char}
    (h : quantified verbose least most (cs ++ s) = (token, rest ++ s)) (hends : Ends rest)
    (hcloses : Closes verbose (rest ++ s) s) (s' : List Char) :
    quantified verbose least most (cs ++ s') = (token, rest ++ s') := by
  rw [quantified_eq] at h ⊢
  obtain ⟨htoken, hrest⟩ := Prod.mk.inj h
  cases hpass : pass? verbose .between (cs ++ s) with
  | none =>
      -- A comment that does not end cannot stand before the parenthesis.
      rw [hpass, Option.getD_none, takeMark_of_pass?_eq_none (by simp) hpass,
        takeMark_of_pass?_eq_none (by simp) hpass] at hrest
      obtain ⟨_, _, hsome, _⟩ := hcloses.pass?
      rw [← hrest, hpass] at hsome
      exact absurd hsome (by simp)
  | some passed =>
      rw [hpass, Option.getD_some] at htoken hrest
      have hmarks := (steps_takeMark (show '?' ≠ '\\' by decide) passed).trans
        (steps_takeMark (show '+' ≠ '\\' by decide) _)
      rw [hrest] at hmarks
      obtain ⟨text, rfl, htext⟩ := hmarks.exists_ends hends
      rw [pass?_replace hpass htext, Option.getD_some]
      obtain ⟨hquestion, hquestioned⟩ := takeMark_append (show '?' ≠ ')' by decide) htext s
      obtain ⟨hplus, _⟩ := takeMark_append (show '+' ≠ ')' by decide) hquestioned s
      rw [hquestion, hplus] at htoken hrest
      obtain ⟨hquestion', _⟩ := takeMark_append (show '?' ≠ ')' by decide) htext s'
      obtain ⟨hplus', _⟩ := takeMark_append (show '+' ≠ ')' by decide) hquestioned s'
      simp only [hquestion', hplus']
      rw [← htoken, List.append_cancel_right hrest]

theorem quantifier?_replace {token : Token} {rest : List Char}
    (h : quantifier? verbose (cs ++ s) = some (token, rest ++ s)) (hcs : cs ≠ []) (hends : Ends rest)
    (hcloses : Closes verbose (rest ++ s) s) (s' : List Char) :
    quantifier? verbose (cs ++ s') = some (token, rest ++ s') := by
  obtain ⟨c, cs, rfl⟩ := List.exists_cons_of_ne_nil hcs
  rw [List.cons_append] at h ⊢
  unfold quantifier? at h
  split at h
  case h_4 heq =>
    obtain ⟨rfl, rfl⟩ := List.cons.inj heq
    obtain ⟨⟨least, most, after⟩, hbounds, h⟩ := Option.bind_eq_some_iff.1 h
    have hquantified := Option.some.inj h
    obtain ⟨text, rfl, htext⟩ := (steps_quantified hquantified
      (List.append_ne_nil_of_left_ne_nil hends.ne_nil s)).exists_ends hends
    rw [quantifier?, bounds?_replace hbounds htext s']
    exact congrArg some (quantified_replace hquantified hends hcloses s')
  case h_5 => exact absurd h (by simp)
  all_goals
    rename_i heq
    obtain ⟨rfl, rfl⟩ := List.cons.inj heq
    exact congrArg some (quantified_replace (Option.some.inj h) hends hcloses s')

/-- A brace that does not begin a repetition does not begin one whatever follows. -/
theorem quantifier?_eq_none_replace (hcs : cs ≠ []) (h : quantifier? verbose (cs ++ s) = none)
    (hcloses : ∀ tail, cs = '\x7b' :: tail → Closes verbose (tail ++ s) s) (s' : List Char) :
    quantifier? verbose (cs ++ s') = none := by
  obtain ⟨c, cs, rfl⟩ := List.exists_cons_of_ne_nil hcs
  rw [List.cons_append] at h ⊢
  by_cases hbrace : c = '\x7b'
  · subst hbrace
    cases hbounds : bounds? verbose (cs ++ s') with
    | none =>
        rw [quantifier?, hbounds]
        rfl
    | some found =>
        have hsome := isSome_bounds? (hcloses cs rfl) (Option.isSome_iff_exists.2 ⟨found, hbounds⟩)
        obtain ⟨⟨least, most, after⟩, hfound⟩ := Option.isSome_iff_exists.1 hsome
        rw [quantifier?, hfound] at h
        exact absurd h (by simp)
  · by_cases hmark : c = '?' ∨ c = '*' ∨ c = '+'
    · rcases hmark with rfl | rfl | rfl <;> exact absurd h (by simp [quantifier?])
    · obtain ⟨hquestion, hstar, hplus⟩ := by simpa only [not_or] using hmark
      exact quantifier?_cons ⟨hquestion, hstar, hplus, hbrace⟩ _

theorem nextItem?_replace {token : Token} {rest : List Char}
    (h : nextItem? verbose (cs ++ s) = some (token, rest ++ s)) (hcs : cs ≠ []) (hends : Ends rest)
    (s' : List Char) : nextItem? verbose (cs ++ s') = some (token, rest ++ s') := by
  obtain ⟨c, cs, rfl⟩ := List.exists_cons_of_ne_nil hcs
  rw [List.cons_append] at h ⊢
  by_cases hsign : c ∈ signs
  · simp only [signs, List.mem_cons, List.not_mem_nil, or_false] at hsign
    rcases hsign with rfl | rfl | rfl | rfl | rfl | rfl | rfl | rfl | hmark
    case inr.inr.inr.inr.inr.inl =>
      simp only [nextItem?, next?, Bool.false_eq_true, ↓reduceIte] at h ⊢
      obtain ⟨passed, hpass, h⟩ := Option.bind_eq_some_iff.1 h
      obtain ⟨text, rfl, htext⟩ := (steps_openingToken? h).exists_ends hends
      rw [pass?_replace hpass htext s']
      exact local_openingToken?.replace h hends.ne_nil s'
    case inr.inr.inr.inr.inr.inr.inl =>
      simp only [nextItem?, next?, Bool.false_eq_true, ↓reduceIte] at h ⊢
      obtain ⟨⟨members, after⟩, hclass, h⟩ := Option.map_eq_some_iff.1 h
      obtain ⟨rfl, rfl⟩ := Prod.mk.inj h
      rw [local_readClass?.replace hclass hends.ne_nil s']
      rfl
    case inr.inr.inr.inr.inr.inr.inr.inl =>
      simp only [nextItem?, next?, Bool.false_eq_true, ↓reduceIte] at h ⊢
      obtain ⟨⟨escape, after⟩, hescape, h⟩ := Option.map_eq_some_iff.1 h
      have hafter : after = rest ++ s := by
        cases escape <;> exact (Prod.mk.inj h).2
      subst hafter
      rw [(local_escape? false).replace hescape hends.ne_nil s']
      cases escape <;> exact congrArg (fun found => some (found, rest ++ s')) (Prod.mk.inj h).1
    case inr.inr.inr.inr.inr.inr.inr.inr =>
      rcases hmark with rfl | rfl | rfl <;> exact absurd h (by simp [nextItem?, next?])
    all_goals
      simp only [nextItem?, next?, Bool.false_eq_true, ↓reduceIte] at h ⊢
      obtain ⟨rfl, htail⟩ := Prod.mk.inj (Option.some.inj h)
      rw [List.append_cancel_right htail]
  · rw [nextItem?_of_not_sign hsign] at h ⊢
    obtain ⟨rfl, htail⟩ := Prod.mk.inj (Option.some.inj h)
    rw [List.append_cancel_right htail]

end Braces

section Groups

/-- How deep a token leaves the groups that are open. `none` if it closes a group that has not been
opened. -/
def levelAfter? (depth : Nat) : Token → Option Nat
  | .opening _ => some (depth + 1)
  | .closing =>
      match depth with
      | 0 => none
      | depth + 1 => some depth
  | _ => some depth

/-- How deep tokens leave the groups that are open, starting from a depth. -/
def level? (depth : Nat) (tokens : List Token) : Option Nat :=
  tokens.foldlM levelAfter? depth

/-- Tokens that close the groups they open, and no others. -/
def Balanced (tokens : List Token) : Prop :=
  level? 0 tokens = some 0

/-- Two places at which text is read alike until a number of groups has been closed. -/
structure Alike (depth : Nat) (place place' : Place) : Prop where
  afterItem : place.afterItem = place'.afterItem
  verbose : place.flags.verbose = place'.flags.verbose
  outer : ∃ inner inner' base base' : List Flags, place.outer = inner ++ base ∧
    place'.outer = inner' ++ base' ∧ inner.map Flags.verbose = inner'.map Flags.verbose ∧
    inner.length = depth

theorem verbose_set (flags flags' : Flags) (h : flags.verbose = flags'.verbose) (switch : Switch)
    (on : Bool) : (flags.set switch on).verbose = (flags'.set switch on).verbose := by
  cases switch <;> first | exact h | rfl

theorem verbose_setAll {flags flags' : Flags} (h : flags.verbose = flags'.verbose)
    (changes : List (Switch × Bool)) :
    (flags.setAll changes).verbose = (flags'.setAll changes).verbose := by
  induction changes generalizing flags flags' with
  | nil => exact h
  | cons change changes ih => exact ih (verbose_set flags flags' h change.1 change.2)

theorem level?_cons (depth : Nat) (token : Token) (tokens : List Token) :
    level? depth (token :: tokens) = (levelAfter? depth token).bind (level? · tokens) :=
  List.foldlM_cons

theorem level?_append (depth : Nat) (tokens others : List Token) :
    level? depth (tokens ++ others) = (level? depth tokens).bind (level? · others) :=
  List.foldlM_append

/-- Groups around make no difference to the tokens in them. -/
theorem levelAfter?_add {depth deeper : Nat} {token : Token}
    (h : levelAfter? depth token = some deeper) (more : Nat) :
    levelAfter? (depth + more) token = some (deeper + more) := by
  cases token with
  | opening =>
      obtain rfl := Option.some.inj h
      rw [levelAfter?, Nat.add_right_comm]
  | closing =>
      cases depth with
      | zero => exact absurd h (by simp [levelAfter?])
      | succ depth =>
          obtain rfl := Option.some.inj h
          rw [Nat.add_right_comm]
          rfl
  | _ =>
      obtain rfl := Option.some.inj h
      rfl

theorem level?_add {depth deeper : Nat} {tokens : List Token} (h : level? depth tokens = some deeper)
    (more : Nat) : level? (depth + more) tokens = some (deeper + more) := by
  induction tokens generalizing depth with
  | nil =>
      obtain rfl := Option.some.inj h
      rfl
  | cons token tokens ih =>
      rw [level?_cons] at h ⊢
      obtain ⟨middle, hmiddle, hrest⟩ := Option.bind_eq_some_iff.1 h
      rw [levelAfter?_add hmiddle more]
      exact ih hrest

namespace Balanced

variable {tokens others : List Token}

theorem append (h : Balanced tokens) (hothers : Balanced others) : Balanced (tokens ++ others) := by
  rw [Balanced, level?_append, h]
  exact hothers

theorem enclosed (h : Balanced tokens) (opening : Opening) :
    Balanced (.opening opening :: tokens ++ [.closing]) := by
  have hinside : level? 1 tokens = some 1 := level?_add h 1
  rw [List.cons_append, Balanced, level?_cons]
  change level? 1 (tokens ++ [.closing]) = _
  rw [level?_append, hinside]
  rfl

end Balanced

theorem Alike.entered {depth : Nat} {place place' : Place} (h : Alike depth place place')
    {flags flags' : Flags} (hflags : flags.verbose = flags'.verbose) :
    Alike (depth + 1) ⟨false, flags, place.flags :: place.outer⟩
      ⟨false, flags', place'.flags :: place'.outer⟩ := by
  obtain ⟨inner, inner', base, base', houter, houter', hmap, hlength⟩ := h.outer
  refine ⟨rfl, hflags, place.flags :: inner, place'.flags :: inner', base, base', ?_, ?_, ?_, ?_⟩
  · rw [houter, List.cons_append]
  · rw [houter', List.cons_append]
  · rw [List.map_cons, List.map_cons, h.verbose, hmap]
  · rw [List.length_cons, hlength]

theorem Alike.after {depth deeper : Nat} {place place' : Place} (h : Alike depth place place')
    {token : Token} (hlevel : levelAfter? depth token = some deeper) :
    Alike deeper (place.after token) (place'.after token) := by
  cases token with
  | opening opening =>
      obtain rfl : depth + 1 = deeper := Option.some.inj hlevel
      cases opening with
      | plain changes => exact h.entered (verbose_setAll h.verbose changes)
      | capture | ahead | behind | atomic => exact h.entered h.verbose
  | closing =>
      obtain ⟨inner, inner', base, base', houter, houter', hmap, hlength⟩ := h.outer
      cases depth with
      | zero => exact absurd hlevel (by simp [levelAfter?])
      | succ depth =>
          obtain rfl : depth = deeper := Option.some.inj hlevel
          obtain ⟨flags, inner, rfl⟩ := List.exists_cons_of_length_eq_add_one hlength
          obtain ⟨flags', inner', rfl⟩ := List.exists_cons_of_length_eq_add_one
            (show inner'.length = depth + 1 by
              have hlengths := congrArg List.length hmap
              rw [List.length_map, List.length_map] at hlengths
              omega)
          obtain ⟨hverbose, hmap⟩ := List.cons.inj hmap
          rw [Place.after, Place.after, houter, houter']
          exact ⟨rfl, hverbose, inner, inner', base, base', rfl, rfl, hmap, Nat.succ.inj hlength⟩
  | switches changes =>
      obtain rfl : depth = deeper := Option.some.inj hlevel
      exact ⟨rfl, verbose_setAll h.verbose changes, h.outer⟩
  | _ =>
      obtain rfl : depth = deeper := Option.some.inj hlevel
      exact ⟨rfl, h.verbose, h.outer⟩

/-- A token opens or closes the innermost group, or leaves the groups alone. -/
theorem outer_after {depth deeper : Nat} {place : Place} {token : Token}
    (hlevel : levelAfter? depth token = some deeper) {inner base : List Flags}
    (houter : place.outer = inner ++ base) (hlength : inner.length = depth) :
    ∃ inner', (place.after token).outer = inner' ++ base ∧ inner'.length = deeper := by
  cases token with
  | opening opening =>
      obtain rfl : depth + 1 = deeper := Option.some.inj hlevel
      refine ⟨place.flags :: inner, ?_, by rw [List.length_cons, hlength]⟩
      rw [List.cons_append, ← houter]
      cases opening <;> rfl
  | closing =>
      cases depth with
      | zero => exact absurd hlevel (by simp [levelAfter?])
      | succ depth =>
          obtain rfl : depth = deeper := Option.some.inj hlevel
          obtain ⟨flags, inner, rfl⟩ := List.exists_cons_of_length_eq_add_one hlength
          refine ⟨inner, ?_, Nat.succ.inj hlength⟩
          rw [Place.after, houter]
          rfl
  | _ =>
      obtain rfl : depth = deeper := Option.some.inj hlevel
      exact ⟨inner, houter, hlength⟩

theorem outer_afterAll {depth deeper : Nat} {place : Place} {tokens : List Token}
    (hlevel : level? depth tokens = some deeper) {inner base : List Flags}
    (houter : place.outer = inner ++ base) (hlength : inner.length = depth) :
    ∃ inner', (place.afterAll tokens).outer = inner' ++ base ∧ inner'.length = deeper := by
  induction tokens generalizing depth place inner with
  | nil =>
      obtain rfl : depth = deeper := Option.some.inj hlevel
      exact ⟨inner, houter, hlength⟩
  | cons token tokens ih =>
      rw [level?_cons] at hlevel
      obtain ⟨middle, hmiddle, hrest⟩ := Option.bind_eq_some_iff.1 hlevel
      obtain ⟨inner', houter', hlength'⟩ := outer_after hmiddle houter hlength
      exact ih hrest houter' hlength'

/-- After a group the place is as it was, but for what a quantifier may do there. -/
theorem afterAll_group {tokens : List Token} (h : Balanced tokens) (opening : Opening)
    (place : Place) :
    place.afterAll (.opening opening :: tokens ++ [.closing]) = { place with afterItem := true } := by
  have hopened : (place.after (.opening opening)).outer = [] ++ (place.flags :: place.outer) := by
    cases opening <;> rfl
  obtain ⟨inner, houter, hlength⟩ := outer_afterAll h hopened rfl
  rw [List.length_eq_zero_iff.1 hlength, List.nil_append] at houter
  generalize hinside : (place.after (.opening opening)).afterAll tokens = inside at houter
  rw [List.cons_append, Place.afterAll_cons, Place.afterAll_append, hinside]
  change inside.after .closing = _
  rw [Place.after, houter]

/-- What is read next depends on the place only so far. -/
theorem next?_congr {place place' : Place} (hitem : place.afterItem = place'.afterItem)
    (hverbose : place.flags.verbose = place'.flags.verbose) (cs : List Char) :
    next? place cs = next? place' cs := by
  rw [next?_eq, next?_eq, hitem, hverbose]

theorem next?_replace {place : Place} {cs rest s : List Char} {token : Token}
    (h : next? place (cs ++ s) = some (token, rest ++ s)) (hcs : cs ≠ []) (hends : Ends rest)
    (hcloses : Closes (place.after token).flags.verbose (rest ++ s) s) (s' : List Char) :
    next? place (cs ++ s') = some (token, rest ++ s') := by
  rw [next?_eq] at h ⊢
  cases hitem : place.afterItem with
  | false =>
      rw [hitem] at h
      exact nextItem?_replace h hcs hends s'
  | true =>
      rw [hitem] at h
      simp only [↓reduceIte] at h ⊢
      rcases Option.or_eq_some_iff.1 h with h | ⟨hnone, h⟩
      · obtain ⟨_, _, _, _, rfl⟩ := exists_quantifier_of_quantifier? h
        rw [quantifier?_replace h hcs hends hcloses s', Option.some_or]
      · rw [quantifier?_eq_none_replace hcs hnone ?_ s', Option.none_or]
        · exact nextItem?_replace h hcs hends s'
        · rintro tail rfl
          rw [List.cons_append, nextItem?_of_not_sign (by decide)] at h
          obtain ⟨rfl, htail⟩ := Prod.mk.inj (Option.some.inj h)
          rw [htail]
          exact hcloses

/-- Text that its last parenthesis closes is read alike whatever follows, and at places that are
alike. -/
theorem Walk.replace {place place' : Place} {depth : Nat} {cs s : List Char} {tokens : List Token}
    (h : Walk place (cs ++ s) (tokens ++ [.closing]) s) (halike : Alike depth place place')
    (hlevel : (level? depth tokens).isSome) (s' : List Char) :
    Walk place' (cs ++ s') (tokens ++ [.closing]) s' := by
  -- The two places stay alike, and what is left to read ends with the parenthesis at every step.
  induction tokens generalizing place place' depth cs with
  | nil =>
      cases h with
      | @cons _ _ passed _ _ _ _ hpass hnext hwalk =>
          cases hwalk
          obtain rfl := eq_cons_of_next? hnext
          have hpass' := pass?_replace hpass (show Ends [')'] from rfl) s'
          rw [halike.verbose] at hpass'
          exact .single hpass' (next?_closing place' s')
  | cons token tokens ih =>
      rw [level?_cons] at hlevel
      cases h with
      | @cons _ _ passed next _ _ _ hpass hnext hwalk =>
          obtain ⟨rest, rfl, hends⟩ := Walk.exists_ends hwalk
          have hsteps := (takes_next? hnext (by simp [hends.ne_nil])).steps
          obtain ⟨text, rfl, htext⟩ := hsteps.exists_ends hends
          have hpass' := pass?_replace hpass htext s'
          have hnext' := next?_replace hnext htext.ne_nil hends ⟨_, tokens, rfl, hwalk⟩ s'
          rw [halike.verbose] at hpass'
          rw [next?_congr halike.afterItem halike.verbose] at hnext'
          obtain ⟨found, hfound⟩ := Option.isSome_iff_exists.1 hlevel
          obtain ⟨deeper, hdeeper, hrest⟩ := Option.bind_eq_some_iff.1 hfound
          exact .cons hpass' hnext' (ih hwalk (halike.after hdeeper)
            (Option.isSome_iff_exists.2 ⟨found, hrest⟩))

end Groups

end Waymark.Regex.Token
