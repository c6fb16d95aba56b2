import Waymark.Proofs.Regex.Steps
/-!
What the readers of tokens look at.

A reader looks at what it consumes and at the first character after it (`Local`), so another text
may follow that begins alike.
-/

namespace Waymark.Regex.Token

/-- A reading looks at what it consumes and at the first character after it. -/
def Peeks {α : Type} (read : List Char → Option (α × List Char)) (cs rest : List Char)
    (found : α) : Prop :=
  ∃ text, cs = text ++ rest ∧
    ∀ other : List Char, other.head? = rest.head? → read (text ++ other) = some (found, other)

/-- A reader whose readings all look no further. -/
structure Local {α : Type} (read : List Char → Option (α × List Char)) : Prop where
  exists_append : ∀ {cs rest : List Char} {found : α}, read cs = some (found, rest) →
    Peeks read cs rest found

section Readers

variable {verbose : Bool} {cs rest other : List Char}

theorem head?_append_congr (text : List Char) (h : other.head? = rest.head?) :
    (text ++ other).head? = (text ++ rest).head? := by
  cases text with
  | nil => exact h
  | cons c text => rfl

/-- A reading that takes given characters. -/
theorem Peeks.taking {α : Type} {read : List Char → Option (α × List Char)} {found : α}
    (text : List Char) (h : ∀ other : List Char, other.head? = rest.head? →
      read (text ++ other) = some (found, other)) :
    Peeks read (text ++ rest) rest found :=
  ⟨text, rfl, h⟩

theorem Local.map {α β : Type} {read : List Char → Option (α × List Char)} (h : Local read)
    (f : α → β) : Local fun cs => (read cs).map fun pair => (f pair.1, pair.2) := by
  constructor
  intro cs rest value hread
  obtain ⟨⟨found, _⟩, hfound, heq⟩ := Option.map_eq_some_iff.1 hread
  obtain ⟨rfl, rfl⟩ := Prod.mk.inj heq
  obtain ⟨text, rfl, hother⟩ := h.exists_append hfound
  exact ⟨text, rfl, fun other hhead => by simp [hother other hhead]⟩

/-- A reader goes on as another one after given characters. -/
theorem Local.following {α : Type} {read tail : List Char → Option (α × List Char)} {found : α}
    (h : Local tail) (front : List Char) (hread : ∀ cs, read (front ++ cs) = tail cs)
    (hfound : read (front ++ cs) = some (found, rest)) : Peeks read (front ++ cs) rest found := by
  rw [hread] at hfound
  obtain ⟨text, rfl, hother⟩ := h.exists_append hfound
  refine ⟨front ++ text, (List.append_assoc _ _ _).symm, fun other hhead => ?_⟩
  rw [List.append_assoc, hread, hother other hhead]

section Spans

variable {p : Char → Bool}

theorem takeWhile_append_of_head? {front : List Char} (other : List Char)
    (hfront : ∀ c ∈ front, p c = true)
    (h : (other.head?.any p) = false) :
    (front ++ other).takeWhile p = front ∧ (front ++ other).dropWhile p = other := by
  rw [List.takeWhile_append_of_pos hfront, List.dropWhile_append_of_pos hfront]
  cases other with
  | nil => simp
  | cons c other =>
      have hc : p c = false := h
      simp [hc]

theorem any_head?_dropWhile (p : Char → Bool) (cs : List Char) :
    ((cs.dropWhile p).head?.any p) = false := by
  have h := List.head?_dropWhile_not p cs
  cases hhead : (cs.dropWhile p).head? with
  | none => rfl
  | some c =>
      rw [hhead] at h
      exact h

/-- A span ends where it ended if the text after it begins alike. -/
theorem span_append (p : Char → Bool) (cs other : List Char)
    (h : other.head? = (cs.dropWhile p).head?) :
    (cs.takeWhile p ++ other).takeWhile p = cs.takeWhile p ∧
      (cs.takeWhile p ++ other).dropWhile p = other := by
  refine takeWhile_append_of_head? other (fun c hc => ?_) ?_
  · exact List.all_eq_true.1 List.all_takeWhile c hc
  · rw [h]
    exact any_head?_dropWhile p cs

end Spans

theorem length_lt_of_decimal? {value : Nat} (h : decimal? cs = some (value, rest)) :
    rest.length < cs.length := by
  have hsplit := congrArg List.length (@List.takeWhile_append_dropWhile _ Char.isDigit cs)
  rw [List.length_append] at hsplit
  unfold decimal? at h
  split at h
  · exact absurd h (by simp)
  · next hdigits =>
    simp only [Option.ite_none_right_eq_some, Option.some.injEq, Prod.mk.injEq] at h
    have hpos := List.length_pos_iff.2 hdigits
    rw [← h.2.2]
    omega

theorem local_decimal? : Local decimal? := by
  constructor
  intro cs rest value h
  refine ⟨cs.takeWhile Char.isDigit, ?_⟩
  have hrest : rest = cs.dropWhile Char.isDigit := by
    unfold decimal? at h
    split at h
    · exact absurd h (by simp)
    · simp only [Option.ite_none_right_eq_some, Option.some.injEq, Prod.mk.injEq] at h
      exact h.2.2.symm
  subst hrest
  refine ⟨List.takeWhile_append_dropWhile.symm, fun other hother => ?_⟩
  obtain ⟨htake, hdrop⟩ := span_append Char.isDigit cs other hother
  unfold decimal? at h ⊢
  rw [htake, hdrop]
  split at h
  · exact absurd h (by simp)
  · simp only [Option.ite_none_right_eq_some, Option.some.injEq, Prod.mk.injEq] at h
    obtain ⟨hlimit, rfl, _⟩ := h
    rw [if_pos hlimit]

theorem local_hexEscape? (count : Nat) : Local (hexEscape? (count + 1)) := by
  constructor
  intro cs rest found h
  simp only [hexEscape?] at h
  split at h
  · next hdigits =>
    simp only [Option.bind_eq_bind, Option.bind_eq_some_iff, Option.some.injEq, Prod.mk.injEq] at h
    obtain ⟨c, hc, rfl, rfl⟩ := h
    refine ⟨cs.take (count + 1), (List.take_append_drop _ _).symm, fun other _ => ?_⟩
    have htake : (cs.take (count + 1) ++ other).take (count + 1) = cs.take (count + 1) := by
      rw [List.take_append_of_le_length (by omega), List.take_of_length_le (by omega)]
    have hdrop : (cs.take (count + 1) ++ other).drop (count + 1) = other := by
      rw [List.drop_append_of_le_length (by omega), List.drop_of_length_le (by omega),
        List.nil_append]
    simp only [hexEscape?, htake, hdrop]
    rw [if_pos hdigits, hc]
    rfl
  · split at h
    · next tail _ =>
      split at h
      · next heq =>
        split at h
        · exact absurd h (by simp)
        · next hlength =>
          simp only [Option.bind_eq_bind, Option.bind_eq_some_iff, Option.some.injEq,
            Prod.mk.injEq] at h
          obtain ⟨c, hc, rfl, rfl⟩ := h
          refine ⟨'\x7b' :: (tail.takeWhile (fun c => (hexDigit? c).isSome) ++ ['\x7d']), ?_,
            fun other _ => ?_⟩
          · rw [List.cons_append, List.append_assoc, List.singleton_append, ← heq,
              List.takeWhile_append_dropWhile]
          · obtain ⟨htake, hdrop⟩ := span_append (fun c => (hexDigit? c).isSome) tail
              ('\x7d' :: other) (by rw [heq]; rfl)
            have hbrace : (hexDigit? '\x7b').isSome = false := by decide
            simp only [hexEscape?, List.cons_append, List.append_assoc, List.nil_append,
              List.take_succ_cons, List.all_cons, hbrace, Bool.false_and, Bool.false_eq_true,
              and_false, ↓reduceIte, htake, hdrop, hlength, hc]
            rfl
      · exact absurd h (by simp)
    · exact absurd h (by simp)

/-- A name in brackets is made of word characters. -/
theorem bracketed?_eq_some_iff {opening closing : Char} (hclosing : Unicode.isWord closing = false)
    {name : List Char} :
    bracketed? opening closing cs = some (name, rest) ↔
      cs = opening :: (name ++ closing :: rest) ∧ name ≠ [] ∧
        ∀ c ∈ name, Unicode.isWord c = true := by
  constructor
  · intro h
    unfold bracketed? at h
    split at h
    · exact absurd h (by simp)
    · next c tail =>
      split at h
      · exact absurd h (by simp)
      · next hc =>
        obtain rfl := Classical.not_not.1 hc
        split at h
        · exact absurd h (by simp)
        · next d after hdrop hname =>
          split at h
          · next hd =>
            subst hd
            obtain ⟨rfl, rfl⟩ := Prod.mk.inj (Option.some.inj h)
            refine ⟨?_, hname, fun c hc => List.all_eq_true.1 List.all_takeWhile c hc⟩
            rw [← hdrop, List.takeWhile_append_dropWhile]
          · exact absurd h (by simp)
        · exact absurd h (by simp)
  · rintro ⟨rfl, hname, hword⟩
    obtain ⟨htake, hdrop⟩ := takeWhile_append_of_head? (closing :: rest) hword
      (by simp [hclosing])
    simp only [bracketed?, htake, hdrop, ne_eq, not_true_eq_false, ↓reduceIte]

theorem local_bracketed? (opening : Char) {closing : Char}
    (hclosing : Unicode.isWord closing = false) : Local (bracketed? opening closing) := by
  constructor
  intro cs rest name h
  obtain ⟨rfl, hname, hword⟩ := (bracketed?_eq_some_iff hclosing).1 h
  refine ⟨opening :: (name ++ [closing]), by simp, fun other _ => ?_⟩
  exact (bracketed?_eq_some_iff hclosing).2 ⟨by simp, hname, hword⟩

/-- A text begins with one opening bracket only. -/
theorem bracketed?_eq_none {opening closing opening' closing' : Char} {name : List Char}
    (hne : opening ≠ opening') (h : bracketed? opening' closing' cs = some (name, rest)) :
    bracketed? opening closing cs = none := by
  unfold bracketed? at h ⊢
  split at h
  · exact absurd h (by simp)
  · split at h
    · exact absurd h (by simp)
    · next hc => rw [Classical.not_not.1 hc, if_pos hne.symm]

theorem local_property? : Local property? := by
  constructor
  intro cs rest property h
  unfold property? at h
  split at h
  · next tail =>
    split at h
    · next c after heq =>
      obtain ⟨_, hproperty, h⟩ := Option.map_eq_some_iff.1 h
      obtain ⟨rfl, rfl⟩ := Prod.mk.inj h
      refine ⟨'\x7b' :: (tail.takeWhile (· ≠ '\x7d') ++ [c]), ?_, fun other _ => ?_⟩
      · rw [List.cons_append, List.append_assoc, List.singleton_append, ← heq,
          List.takeWhile_append_dropWhile]
      · obtain ⟨htake, hdrop⟩ := span_append (fun c => decide (c ≠ '\x7d')) tail
          (c :: other) (by rw [heq]; rfl)
        simp only [property?, List.cons_append, List.append_assoc, List.nil_append, htake, hdrop,
          hproperty]
        rfl
    · exact absurd h (by simp)
  · next c tail hc =>
    obtain ⟨_, hletter, h⟩ := Option.map_eq_some_iff.1 h
    obtain ⟨rfl, rfl⟩ := Prod.mk.inj h
    refine ⟨[c], rfl, fun other _ => ?_⟩
    rw [List.singleton_append, property?]
    · simp [hletter]
    · exact hc
  · exact absurd h (by simp)

/-- An escape that has no meaning in a class. -/
theorem local_unclassed (inClass : Bool) (outside : Escape) :
    Local fun cs => if inClass then none else some (outside, cs) := by
  constructor
  intro cs rest found h
  simp only [Option.ite_none_left_eq_some, Option.some.injEq, Prod.mk.injEq] at h
  obtain ⟨hclass, rfl, rfl⟩ := h
  exact .taking [] fun _ _ => if_neg hclass

/-- An escape that no opening brace may follow outside a class. -/
theorem local_unbraced (inClass : Bool) (inside outside : Escape) :
    Local fun cs => if inClass then some (inside, cs)
      else if cs.head? = some '\x7b' then none else some (outside, cs) := by
  constructor
  intro cs rest found h
  cases inClass with
  | true =>
      obtain ⟨rfl, rfl⟩ := Prod.mk.inj (Option.some.inj h)
      exact .taking [] fun _ _ => rfl
  | false =>
      simp only [Bool.false_eq_true, ↓reduceIte, Option.ite_none_left_eq_some, Option.some.injEq,
        Prod.mk.injEq] at h
      obtain ⟨hbrace, rfl, rfl⟩ := h
      exact .taking [] fun other hhead => by
        simp only [List.nil_append, hhead, hbrace, Bool.false_eq_true, ↓reduceIte]

/-- The name of a group in one of two kinds of brackets. -/
def groupName? (cs : List Char) : Option (List Char × List Char) :=
  (bracketed? '<' '>' cs).or (bracketed? '\'' '\'' cs)

theorem local_groupName? : Local groupName? := by
  constructor
  intro cs rest name h
  rcases Option.or_eq_some_iff.1 h with hangled | ⟨-, hquoted⟩
  · obtain ⟨text, rfl, hother⟩ := (local_bracketed? '<' (by decide)).exists_append hangled
    exact .taking text fun other hhead => by rw [groupName?, hother other hhead, Option.some_or]
  · obtain ⟨text, rfl, hother⟩ := (local_bracketed? '\'' (by decide)).exists_append hquoted
    refine .taking text fun other hhead => ?_
    have hquoted := hother other hhead
    rw [groupName?, bracketed?_eq_none (by decide) hquoted, Option.none_or, hquoted]

theorem escape?_groupName (cs : List Char) :
    escape? false ('k' :: cs) = (groupName? cs).map fun found => (.namedBackref found.1, found.2) := by
  simp only [escape?, Bool.false_eq_true, ↓reduceIte, groupName?]
  split
  · next hname => rw [hname, Option.some_or, Option.map_some]
  · next hname =>
    rw [hname, Option.none_or, Option.map_eq_bind]
    rfl

/-- The number of a group begins with a digit. -/
theorem peeks_groupNumber {read : List Char → Option (Escape × List Char)} {c : Char}
    (hread : ∀ cs, read (c :: cs) =
      (decimal? (c :: cs)).map fun found => (.backref found.1, found.2))
    {found : Escape} (h : read (c :: cs) = some (found, rest)) :
    Peeks read (c :: cs) rest found := by
  rw [hread] at h
  obtain ⟨⟨index, _⟩, hindex, h⟩ := Option.map_eq_some_iff.1 h
  obtain ⟨rfl, rfl⟩ := Prod.mk.inj h
  have hlength := length_lt_of_decimal? hindex
  obtain ⟨text, htext, hother⟩ := local_decimal?.exists_append hindex
  cases text with
  | nil =>
      rw [htext] at hlength
      exact absurd hlength (Nat.lt_irrefl _)
  | cons d text =>
      obtain ⟨rfl, rfl⟩ := List.cons.inj htext
      refine .taking (c :: text) fun other hhead => ?_
      have hdecimal := hother other hhead
      rw [List.cons_append] at hdecimal ⊢
      rw [hread, hdecimal]
      rfl

theorem local_escape? (inClass : Bool) : Local (escape? inClass) := by
  constructor
  intro cs rest found h
  have hread := h
  unfold escape? at h
  split at h
  · exact absurd h (by simp)
  · next c tail =>
    simp only at h
    split at h
    -- the letters that stand for themselves or for one set or anchor
    all_goals try
      obtain ⟨rfl, rfl⟩ := Prod.mk.inj (Option.some.inj h)
      exact .taking [_] fun other _ => rfl
    · exact (local_property?.map fun property =>
        Escape.set (.bracket false (.property property))).following ['p'] (fun _ => rfl) hread
    · exact (local_property?.map fun property =>
        Escape.set (.bracket true (.property property))).following ['P'] (fun _ => rfl) hread
    · exact (local_unclassed inClass _).following ['Z'] (fun _ => rfl) hread
    · exact (local_unbraced inClass _ _).following ['b'] (fun _ => rfl) hread
    · exact (local_unbraced inClass _ _).following ['B'] (fun _ => rfl) hread
    · cases inClass with
      | true =>
          obtain ⟨rfl, rfl⟩ := Prod.mk.inj (Option.some.inj h)
          exact .taking ['k'] fun _ _ => rfl
      | false =>
          exact (local_groupName?.map Escape.namedBackref).following ['k'] escape?_groupName hread
    · exact ((local_hexEscape? 1).map Escape.char).following ['x'] (fun _ => rfl) hread
    · exact ((local_hexEscape? 3).map Escape.char).following ['u'] (fun _ => rfl) hread
    · exact ((local_hexEscape? 7).map Escape.char).following ['U'] (fun _ => rfl) hread
    · have hescape : ∀ other, escape? inClass (c :: other) =
          if c.isDigit then (decimal? (c :: other)).map fun found => (.backref found.1, found.2)
          else if c.isAlpha && !(inClass && (c == 'K' || c == 'G')) then none
          else some (.char c, other) := by
        intro other
        simp only [escape?]
      split at h
      · next hdigit =>
        exact peeks_groupNumber (fun other => by rw [hescape, if_pos hdigit]) hread
      · next hdigit =>
        split at h
        · exact absurd h (by simp)
        · next halpha =>
          obtain ⟨rfl, rfl⟩ := Prod.mk.inj (Option.some.inj h)
          exact .taking [c] fun other _ => by
            rw [List.singleton_append, hescape, if_neg hdigit, if_neg halpha]

theorem NextItem.exists_append {nesting depth : Nat} {item : ClassItem}
    (h : NextItem nesting cs item depth rest) :
    ∃ text, text ≠ [] ∧ cs = text ++ rest ∧
      ∀ other : List Char, other.head? = rest.head? →
        NextItem nesting (text ++ other) item depth other := by
  cases h with
  | escaped hescape hitem =>
      obtain ⟨text, rfl, hother⟩ := (local_escape? true).exists_append hescape
      exact ⟨'\\' :: text, List.cons_ne_nil _ _, rfl,
        fun other hhead => .escaped (hother other hhead) hitem⟩
  | opened => exact ⟨['['], by simp, rfl, fun other _ => .opened⟩
  | closed hnesting => exact ⟨[']'], by simp, rfl, fun other _ => .closed hnesting⟩
  | @plain c _ hc => exact ⟨[c], by simp, rfl, fun other _ => .plain hc⟩

theorem classItems_append {fuel nesting : Nat} {items : List ClassItem}
    (h : classItems fuel nesting cs = some (items, rest)) :
    ∃ text, cs = text ++ rest ∧ ∀ (other : List Char) (fuel : Nat), other.head? = rest.head? →
      text.length ≤ fuel → classItems fuel nesting (text ++ other) = some (items, other) := by
  induction fuel generalizing nesting cs items with
  | zero => exact absurd h (by simp [classItems])
  | succ fuel ih =>
      rcases classItems_succ_eq_some_iff.1 h with ⟨rfl, rfl, rfl⟩ |
        ⟨item, depth, next, others, hnext, hothers, rfl⟩
      · refine ⟨[']'], rfl, fun other fuel _ hfuel => ?_⟩
        obtain ⟨fuel, rfl⟩ := Nat.exists_eq_succ_of_ne_zero (Nat.ne_of_gt hfuel)
        exact classItems_succ_eq_some_iff.2 (.inl ⟨rfl, rfl, rfl⟩)
      · obtain ⟨first, hfirst, rfl, hitem⟩ := hnext.exists_append
        obtain ⟨text, rfl, hitems⟩ := ih hothers
        refine ⟨first ++ text, (List.append_assoc _ _ _).symm, fun other fuel hhead hfuel => ?_⟩
        rw [List.length_append] at hfuel
        have hpos := List.length_pos_iff.2 hfirst
        obtain ⟨fuel, rfl⟩ := Nat.exists_eq_succ_of_ne_zero (show fuel ≠ 0 by omega)
        rw [List.append_assoc]
        exact classItems_succ_eq_some_iff.2 (.inr ⟨item, depth, _, others,
          hitem _ (head?_append_congr text hhead), hitems other fuel hhead (by omega), rfl⟩)

theorem classFront_append (cs : List Char) :
    ∃ text, cs = text ++ (classFront cs).2 ∧ ∀ other : List Char,
      other.head? = (classFront cs).2.head? →
        classFront (text ++ other) = ((classFront cs).1, other) := by
  unfold classFront
  split
  · exact ⟨['^', ']'], rfl, fun other _ => rfl⟩
  · next tail hbracket =>
    refine ⟨['^'], rfl, fun other hhead => ?_⟩
    have hother : ∀ after, other = ']' :: after → False := by
      rintro after rfl
      obtain ⟨after', rfl⟩ := List.head?_eq_some_iff.1 hhead.symm
      exact hbracket after' rfl
    change classFront ('^' :: other) = ([.plain '^'], other)
    rw [classFront]
    exact hother
  · exact ⟨[']'], rfl, fun other _ => rfl⟩
  · next h1 h2 h3 =>
    refine ⟨[], rfl, fun other hhead => ?_⟩
    have hcaret : ∀ after, other = '^' :: after → False := by
      rintro after rfl
      obtain ⟨after', rfl⟩ := List.head?_eq_some_iff.1 hhead.symm
      exact h2 after' rfl
    have hbracket : ∀ after, other = ']' :: after → False := by
      rintro after rfl
      obtain ⟨after', rfl⟩ := List.head?_eq_some_iff.1 hhead.symm
      exact h3 after' rfl
    change classFront other = ([], other)
    unfold classFront
    split
    · exact absurd rfl (hcaret _)
    · exact absurd rfl (hcaret _)
    · exact absurd rfl (hbracket _)
    · rfl

theorem local_readClass? : Local readClass? := by
  constructor
  intro cs rest members h
  obtain ⟨items, hitems, hmembers⟩ := readClass?_eq_some_iff.1 h
  obtain ⟨front, hfront, hfronts⟩ := classFront_append cs
  obtain ⟨text, htext, hclass⟩ := classItems_append hitems
  refine ⟨front ++ text, ?_, fun other hhead => ?_⟩
  · rw [List.append_assoc, ← htext, ← hfront]
  · have hfronted := hfronts (text ++ other) (by rw [htext]; exact head?_append_congr text hhead)
    rw [List.append_assoc]
    refine readClass?_eq_some_iff.2 ⟨items, ?_, ?_⟩
    · rw [hfronted]
      exact hclass other _ hhead (by simp only [List.length_append]; omega)
    · rw [hfronted]
      exact hmembers

theorem readSwitches_cons {c : Char} (hc : c ≠ ')' ∧ c ≠ ':' ∧ c ≠ '-') {first off bare : Bool}
    {done : List (Switch × Bool)} :
    readSwitches verbose (c :: cs) first off bare done =
      match switch? c with
      | none => if verbose && c == ' ' then readSwitches verbose cs false off false done else none
      | some none => if off then none else readSwitches verbose cs false off false done
      | some (some switch) => readSwitches verbose cs false off false ((switch, !off) :: done) := by
  conv => lhs; unfold readSwitches
  split
  · next heq => exact absurd (List.cons.inj heq).1 hc.1
  · next heq => exact absurd (List.cons.inj heq).1 hc.2.1
  · next heq => exact absurd (List.cons.inj heq).1 hc.2.2
  · next heq =>
    obtain ⟨rfl, rfl⟩ := List.cons.inj heq
    rfl
  · next heq => exact absurd heq (List.cons_ne_nil c cs)

/-- Switches are read alike whatever follows them. -/
theorem readSwitches_append {first off bare : Bool} {done : List (Switch × Bool)} {token : Token}
    (h : readSwitches verbose cs first off bare done = some (token, rest)) :
    ∃ text, cs = text ++ rest ∧ ∀ other,
      readSwitches verbose (text ++ other) first off bare done = some (token, other) := by
  fun_induction readSwitches verbose cs first off bare done with
  | case1 | case3 | case5 | case8 | case9 | case12 => exact absurd h (by simp)
  | case2 =>
      obtain ⟨rfl, rfl⟩ := Prod.mk.inj (Option.some.inj h)
      exact ⟨[')'], rfl, fun other => by simp_all [readSwitches]⟩
  | case4 =>
      obtain ⟨rfl, rfl⟩ := Prod.mk.inj (Option.some.inj h)
      exact ⟨[':'], rfl, fun other => by simp_all [readSwitches]⟩
  | case6 _ _ _ _ _ hoff ih =>
      obtain ⟨text, rfl, hother⟩ := ih h
      exact ⟨'-' :: text, rfl, fun other => by simp [readSwitches, hoff, hother other]⟩
  | case7 _ _ c _ _ _ hclose hcolon hhyphen hswitch hc ih =>
      obtain ⟨text, rfl, hother⟩ := ih h
      refine ⟨c :: text, rfl, fun other => ?_⟩
      rw [List.cons_append, readSwitches_cons ⟨hclose, hcolon, hhyphen⟩, hswitch]
      simp [hc, hother other]
  | case10 _ _ c _ _ _ hclose hcolon hhyphen hswitch hoff ih =>
      obtain ⟨text, rfl, hother⟩ := ih h
      refine ⟨c :: text, rfl, fun other => ?_⟩
      rw [List.cons_append, readSwitches_cons ⟨hclose, hcolon, hhyphen⟩, hswitch]
      exact (if_neg hoff).trans (hother other)
  | case11 _ _ c _ _ _ hclose hcolon hhyphen _ hswitch ih =>
      obtain ⟨text, rfl, hother⟩ := ih h
      refine ⟨c :: text, rfl, fun other => ?_⟩
      rw [List.cons_append, readSwitches_cons ⟨hclose, hcolon, hhyphen⟩, hswitch]
      simp [hother other]

/-- No switch is a sign that stands after the question mark of another kind of group. -/
theorem readSwitches_sign {c : Char} (hc : c ∈ ['=', '!', '<', '>', 'P']) {first off bare : Bool}
    {done : List (Switch × Bool)} : readSwitches verbose (c :: cs) first off bare done = none := by
  simp only [List.mem_cons, List.not_mem_nil, or_false] at hc
  rcases hc with rfl | rfl | rfl | rfl | rfl <;>
    rw [readSwitches_cons (by decide)] <;> simp [switch?]

/-- The name of a group after its opening bracket. -/
theorem local_bracketed?_cons (opening : Char) {closing : Char}
    (hclosing : Unicode.isWord closing = false) :
    Local fun cs => bracketed? opening closing (opening :: cs) := by
  constructor
  intro cs rest name h
  obtain ⟨hcs, hname, hword⟩ := (bracketed?_eq_some_iff hclosing).1 h
  obtain rfl := (List.cons.inj hcs).2
  rw [List.append_cons]
  refine .taking (name ++ [closing]) fun other _ => ?_
  rw [List.append_assoc]
  exact (bracketed?_eq_some_iff hclosing).2 ⟨rfl, hname, hword⟩

/-- A name begins with a word character, so it is not taken for the sign of looking behind. -/
theorem openingToken?_named {name : List Char}
    (h : bracketed? '<' '>' ('<' :: cs) = some (name, rest)) :
    openingToken? verbose ('?' :: '<' :: cs) = some (.opening (.capture (some name)), rest) := by
  obtain ⟨hcs, hne, hword⟩ := (bracketed?_eq_some_iff (by decide)).1 h
  obtain ⟨c, name, rfl⟩ := List.exists_cons_of_ne_nil hne
  obtain rfl := (List.cons.inj hcs).2
  have hc := hword c List.mem_cons_self
  rw [List.cons_append, openingToken?, ← List.cons_append, h]
  · rfl
  · rintro after heq
    rw [(List.cons.inj heq).1] at hc
    exact absurd hc (by decide)
  · rintro after heq
    rw [(List.cons.inj heq).1] at hc
    exact absurd hc (by decide)

theorem openingToken?_switches {token : Token}
    (h : readSwitches verbose cs true false false [] = some (token, rest)) :
    openingToken? verbose ('?' :: cs) = some (token, rest) := by
  have hsign : ∀ c after, cs = c :: after → c ∉ ['=', '!', '<', '>', 'P'] := by
    rintro c after rfl hc
    rw [readSwitches_sign hc] at h
    exact absurd h (by simp)
  rw [openingToken?, h]
  all_goals
    intro after heq
    exact hsign _ _ heq (by simp)

/-- The name of the group that a parenthesis refers back to. -/
theorem local_backName? (verbose : Bool) :
    Local fun cs => openingToken? verbose ('?' :: 'P' :: '=' :: cs) := by
  constructor
  intro cs rest token h
  simp only [openingToken?] at h
  split at h
  · next after hdrop =>
    split at h
    · exact absurd h (by simp)
    · next hname =>
      obtain ⟨rfl, rfl⟩ := Prod.mk.inj (Option.some.inj h)
      refine ⟨cs.takeWhile Unicode.isWord ++ [')'], ?_, fun other _ => ?_⟩
      · rw [List.append_assoc, List.singleton_append, ← hdrop, List.takeWhile_append_dropWhile]
      · obtain ⟨htake, hdropped⟩ := span_append Unicode.isWord cs (')' :: other)
          (by rw [hdrop]; rfl)
        simp only [List.append_assoc, List.singleton_append, openingToken?, htake, hdropped]
        rw [if_neg hname]
  · exact absurd h (by simp)

theorem local_openingToken? : Local (openingToken? verbose) := by
  constructor
  intro cs rest token h
  have hread := h
  unfold openingToken? at h
  split at h
  case h_5 tail _ _ =>
    obtain ⟨⟨name, after⟩, hname, h⟩ := Option.map_eq_some_iff.1 h
    obtain ⟨rfl, rfl⟩ := Prod.mk.inj h
    obtain ⟨text, rfl, hother⟩ := (local_bracketed?_cons '<' (by decide)).exists_append hname
    exact .taking ('?' :: '<' :: text) fun other hhead => openingToken?_named (hother other hhead)
  case h_6 =>
    exact ((local_bracketed?_cons '<' (by decide)).map fun name =>
      Token.opening (.capture (some name))).following ['?', 'P', '<'] (fun _ => rfl) hread
  case h_7 => exact (local_backName? verbose).following ['?', 'P', '='] (fun _ => rfl) hread
  case h_9 =>
    obtain ⟨text, rfl, hother⟩ := readSwitches_append h
    exact .taking ('?' :: text) fun other _ => openingToken?_switches (hother other)
  case h_10 hquestion =>
    obtain ⟨rfl, rfl⟩ := Prod.mk.inj (Option.some.inj h)
    refine .taking [] fun other hhead => openingToken?_capture fun hother => ?_
    obtain ⟨after, rfl⟩ := List.head?_eq_some_iff.1 (hhead.symm.trans hother)
    exact hquestion after rfl
  all_goals
    obtain ⟨rfl, rfl⟩ := Prod.mk.inj (Option.some.inj h)
    first
    | exact .taking ['?', _] fun _ _ => rfl
    | exact .taking ['?', '<', _] fun _ _ => rfl

end Readers

end Waymark.Regex.Token
