import Waymark.Proofs.Pattern.Lexing
/-!
What cannot be read as tokens, and where.

Reading stops at a construct that cannot be read: a colon without a name, a backslash at the end, a
parenthesis that closes nothing, or a custom expression with something wrong in it. Which of these
it is can be told from the text at its position alone (`Fault`), and for a custom expression by
counting the parentheses that are open in it. A pattern is refused if and only if it is read up to a
position with such a construct (`tokenize_eq_error_iff`), and there is only one such position
(`StopsAt.le`).
-/

namespace Waymark.Pattern

section Groups

/-- How many nested parentheses are open after a text, of so many before it, a backslash taken with
the character after it. None if the text closes the group itself or breaks off at a backslash. -/
def depthAfter : List Char → Nat → Option Nat
  | [], depth => some depth
  | ['\\'], _ => none
  | '\\' :: _ :: rest, depth => depthAfter rest depth
  | '(' :: rest, depth => depthAfter rest (depth + 1)
  | ')' :: _, 0 => none
  | ')' :: rest, depth + 1 => depthAfter rest depth
  | _ :: rest, depth => depthAfter rest depth

/-- The group is closed somewhere in the text that follows. -/
def Closes (depth : Nat) (cs : List Char) : Prop :=
  ∃ text after, cs = text ++ ')' :: after ∧ depthAfter text depth = some 0

/-- Behind a text that stays in the group, a parenthesis opens a capturing group. -/
def Captures (depth : Nat) (cs text : List Char) : Prop :=
  ∃ after, cs = text ++ '(' :: after ∧ (depthAfter text depth).isSome = true ∧ ¬ NonCapturing after

/-- The first parenthesis of a group that opens a capturing group stands at an offset. -/
def FirstCapture (depth : Nat) (cs : List Char) (offset : Nat) : Prop :=
  ∃ text, text.length = offset ∧ Captures depth cs text ∧
    ∀ other, Captures depth cs other → offset ≤ other.length

/-- What is wrong with a group: it is not closed, or it has a capturing group in it before. -/
def GroupFault (start index depth : Nat) (cs : List Char) (error : Error) : Prop :=
  (error = .unbalanced start ∧ ¬ Closes depth cs ∧ ∀ text, ¬ Captures depth cs text) ∨
    ∃ offset, error = .capturingGroup (index + offset) ∧ FirstCapture depth cs offset

/-- The reading of a group goes on behind some text of it, at another depth. -/
structure Passes (depth : Nat) (text : List Char) (later : Nat) (cs : List Char) : Prop where
  closes : Closes depth (text ++ cs) ↔ Closes later cs
  captures (other : List Char) :
    Captures depth (text ++ cs) other ↔ ∃ inner, other = text ++ inner ∧ Captures later cs inner

variable {start index depth later offset : Nat} {c : Char} {cs text rest : List Char} {error : Error}

theorem Passes.firstCapture_iff (h : Passes depth text later cs) :
    FirstCapture depth (text ++ cs) offset ↔
      ∃ inner, offset = text.length + inner ∧ FirstCapture later cs inner := by
  constructor
  · rintro ⟨other, rfl, hother, hfirst⟩
    obtain ⟨inner, rfl, hinner⟩ := (h.captures other).1 hother
    refine ⟨inner.length, List.length_append, inner, rfl, hinner, fun third hthird => ?_⟩
    have hle := hfirst _ ((h.captures _).2 ⟨third, rfl, hthird⟩)
    rw [List.length_append, List.length_append] at hle
    omega
  · rintro ⟨_, rfl, inner, rfl, hinner, hfirst⟩
    refine ⟨text ++ inner, List.length_append, (h.captures _).2 ⟨inner, rfl, hinner⟩, ?_⟩
    intro other hother
    obtain ⟨third, rfl, hthird⟩ := (h.captures other).1 hother
    have hle := hfirst third hthird
    rw [List.length_append]
    omega

theorem Passes.groupFault_iff (h : Passes depth text later cs) :
    GroupFault start index depth (text ++ cs) error ↔
      GroupFault start (index + text.length) later cs error := by
  have hcaptures : (∀ other, ¬ Captures depth (text ++ cs) other) ↔
      ∀ inner, ¬ Captures later cs inner := by
    constructor
    · exact fun hnone inner hinner => hnone _ ((h.captures _).2 ⟨inner, rfl, hinner⟩)
    · rintro hnone other hother
      obtain ⟨inner, -, hinner⟩ := (h.captures other).1 hother
      exact hnone inner hinner
  rw [GroupFault, GroupFault, h.closes, hcaptures]
  refine or_congr Iff.rfl ?_
  simp only [h.firstCapture_iff]
  constructor
  · rintro ⟨_, rfl, inner, rfl, hinner⟩
    exact ⟨inner, by rw [Nat.add_assoc], hinner⟩
  · rintro ⟨inner, rfl, hinner⟩
    exact ⟨_, by rw [Nat.add_assoc], inner, rfl, hinner⟩

/-- Some text is passed if it stands in front of all that closes the group or captures in it. -/
theorem passes_of_prefix (hstep : ∀ inner, depthAfter (text ++ inner) depth = depthAfter inner later)
    (hcloses : ∀ other after, text ++ cs = other ++ ')' :: after →
      depthAfter other depth = some 0 → text <+: other)
    (hcaptures : ∀ other after, text ++ cs = other ++ '(' :: after →
      (depthAfter other depth).isSome = true → ¬ NonCapturing after → text <+: other) :
    Passes depth text later cs where
  closes := by
    constructor
    · rintro ⟨other, after, hcs, hdepth⟩
      obtain ⟨inner, rfl⟩ := hcloses other after hcs hdepth
      rw [hstep] at hdepth
      rw [List.append_assoc] at hcs
      exact ⟨inner, after, List.append_cancel_left hcs, hdepth⟩
    · rintro ⟨inner, after, rfl, hdepth⟩
      exact ⟨text ++ inner, after, (List.append_assoc _ _ _).symm, by rw [hstep, hdepth]⟩
  captures other := by
    constructor
    · rintro ⟨after, hcs, hdepth, hcapture⟩
      obtain ⟨inner, rfl⟩ := hcaptures other after hcs hdepth hcapture
      rw [hstep] at hdepth
      rw [List.append_assoc] at hcs
      exact ⟨inner, rfl, after, List.append_cancel_left hcs, hdepth, hcapture⟩
    · rintro ⟨inner, rfl, after, rfl, hdepth, hcapture⟩
      exact ⟨after, (List.append_assoc _ _ _).symm, by rw [hstep, hdepth], hcapture⟩

theorem passes_escaped (c : Char) (depth : Nat) (cs : List Char) :
    Passes depth ['\\', c] depth cs := by
  have hprefix (other after : List Char) (d : Char) (hd : '\\' ≠ d)
      (hcs : ['\\', c] ++ cs = other ++ d :: after) (hdepth : depthAfter other depth ≠ none) :
      ['\\', c] <+: other := by
    rcases other with _ | ⟨first, _ | ⟨second, inner⟩⟩
    · exact absurd (List.cons.inj hcs).1 hd
    · obtain rfl : '\\' = first := (List.cons.inj hcs).1
      exact absurd rfl hdepth
    · obtain ⟨hfirst, htail⟩ := List.cons.inj hcs
      obtain ⟨hsecond, -⟩ := List.cons.inj htail
      exact ⟨inner, by rw [hfirst, hsecond]; rfl⟩
  refine passes_of_prefix (fun inner => ?_) ?_ ?_
  · rw [List.cons_append, List.cons_append, List.nil_append, depthAfter]
  · intro other after hcs hdepth
    exact hprefix other after ')' (by decide) hcs (by simp [hdepth])
  · intro other after hcs hdepth _
    exact hprefix other after '(' (by decide) hcs (Option.isSome_iff_ne_none.1 hdepth)

/-- A character is passed unless it closes the group or opens a capturing group. -/
theorem passes_char (hstep : ∀ inner, depthAfter (c :: inner) depth = depthAfter inner later)
    (hcloses : c = ')' → depth ≠ 0) (hcaptures : c = '(' → NonCapturing cs) :
    Passes depth [c] later cs := by
  refine passes_of_prefix hstep ?_ ?_
  · rintro (_ | ⟨d, inner⟩) after hcs hdepth
    · exact absurd (Option.some.inj hdepth) (hcloses (List.cons.inj hcs).1)
    · obtain ⟨rfl, -⟩ := List.cons.inj hcs
      exact ⟨inner, rfl⟩
  · rintro (_ | ⟨d, inner⟩) after hcs - hcapture
    · obtain ⟨hopen, rfl⟩ := List.cons.inj hcs
      exact absurd (hcaptures hopen) hcapture
    · obtain ⟨rfl, -⟩ := List.cons.inj hcs
      exact ⟨inner, rfl⟩

theorem prepend_eq_error_iff {found : Except Error (List Char × List Char)} :
    prepend text found = .error error ↔ found = .error error := by
  cases found <;> simp [prepend]

/-- There is nothing wrong with a group that is closed at once. -/
theorem not_groupFault_closed (rest : List Char) :
    ¬ GroupFault start index 0 (')' :: rest) error := by
  rintro (⟨-, hopen, -⟩ | ⟨offset, -, text, -, ⟨after, hcs, hdepth, -⟩, -⟩)
  · exact hopen ⟨[], rest, rfl, rfl⟩
  · cases text with
    | nil => exact absurd (List.cons.inj hcs).1 (by decide)
    | cons c inner =>
        rw [← (List.cons.inj hcs).1] at hdepth
        exact absurd hdepth (by simp [depthAfter])

/-- A group that captures at once is refused there. -/
theorem groupFault_captures_iff (hcapture : ¬ NonCapturing rest) :
    GroupFault start index depth ('(' :: rest) error ↔ error = .capturingGroup index := by
  have hcaptures : Captures depth ('(' :: rest) [] := ⟨rest, rfl, rfl, hcapture⟩
  constructor
  · rintro (⟨-, -, hnone⟩ | ⟨offset, rfl, text, -, -, hfirst⟩)
    · exact absurd hcaptures (hnone [])
    · rw [Nat.le_zero.1 (hfirst [] hcaptures), Nat.add_zero]
  · rintro rfl
    exact .inr ⟨0, rfl, [], rfl, hcaptures, fun _ _ => Nat.zero_le _⟩

/-- A group that the text breaks off in, or that it breaks off in at a backslash, is not closed. -/
theorem groupFault_broken_iff (hcs : cs = [] ∨ cs = ['\\']) :
    GroupFault start index depth cs error ↔ error = .unbalanced start := by
  have hnone (c : Char) (hc : c ≠ '\\') (text after : List Char) : cs ≠ text ++ c :: after := by
    rcases hcs with rfl | rfl
    · exact (List.append_ne_nil_of_right_ne_nil _ (List.cons_ne_nil _ _)).symm
    · intro h
      rcases List.append_eq_singleton_iff.1 h.symm with ⟨rfl, h⟩ | ⟨-, h⟩
      · exact hc (List.cons.inj h).1.symm
      · exact List.cons_ne_nil _ _ h
  constructor
  · rintro (⟨herror, -⟩ | ⟨offset, -, text, -, ⟨after, h, -⟩, -⟩)
    · exact herror
    · exact absurd h (hnone '(' (by decide) text after)
  · rintro rfl
    refine .inl ⟨rfl, ?_, ?_⟩
    · rintro ⟨text, after, h, -⟩
      exact hnone ')' (by decide) text after h
    · rintro text ⟨after, h, -⟩
      exact hnone '(' (by decide) text after h

/-- A group is not read if and only if it is not closed or captures, and the error tells which. -/
theorem readGroup_eq_error_iff :
    readGroup start cs index depth = .error error ↔ GroupFault start index depth cs error := by
  fun_induction readGroup start cs index depth
  case case1 =>
    rw [groupFault_broken_iff (.inl rfl), Except.error.injEq, eq_comm]
  case case2 =>
    rw [groupFault_broken_iff (.inr rfl), Except.error.injEq, eq_comm]
  case case3 c rest index depth ih =>
    rw [prepend_eq_error_iff, ih]
    exact (passes_escaped c depth rest).groupFault_iff.symm
  case case4 index rest =>
    exact ⟨fun h => absurd h (by simp), fun h => absurd h (not_groupFault_closed rest)⟩
  case case5 rest index depth ih =>
    rw [prepend_eq_error_iff, ih]
    refine (passes_char (fun inner => ?_) (fun _ => Nat.succ_ne_zero depth) ?_).groupFault_iff.symm
    · rw [depthAfter]
    · exact fun h => absurd h (by decide)
  case case6 rest index depth hopens =>
    have hcapture : ¬ NonCapturing rest := by
      rw [← opensCapture_eq_false_iff, hopens]
      exact Bool.noConfusion
    rw [groupFault_captures_iff hcapture, Except.error.injEq, eq_comm]
  case case7 rest index depth hopens ih =>
    rw [prepend_eq_error_iff, ih]
    refine (passes_char (fun inner => ?_) ?_ ?_).groupFault_iff.symm
    · rw [depthAfter]
    · exact fun h => absurd h (by decide)
    · exact fun _ => opensCapture_eq_false_iff.1 (Bool.not_eq_true _ ▸ hopens)
  case case8 c tail index depth hlast hescape hend hnested hopen ih =>
    obtain ⟨hbackslash, hopens, hcloses⟩ := plain_of_otherwise hlast hescape hend hnested hopen
    rw [prepend_eq_error_iff, ih]
    refine (passes_char (fun inner => ?_) ?_ ?_).groupFault_iff.symm
    · rw [depthAfter]
      all_goals simp_all
    · exact fun h => absurd h hcloses
    · exact fun h => absurd h hopens

end Groups

section Constructs

/-- A text from a position onwards cannot be read, because of what stands at the position. -/
inductive Fault : List Char → Nat → Error → Prop
  | missingName {rest : List Char} {s : Nat} (h : ∀ c ∈ rest.head?, isNameChar c = false) :
      Fault (':' :: rest) s (.missingName s)
  | danglingEscape (s : Nat) : Fault ['\\'] s (.danglingEscape s)
  | unopened (rest : List Char) (s : Nat) : Fault (')' :: rest) s (.unbalanced s)
  | leadingQuestion (rest : List Char) (s : Nat) :
      Fault ('(' :: '?' :: rest) s (.leadingQuestion (s + 1))
  | missingPattern (rest : List Char) (s : Nat) : Fault ('(' :: ')' :: rest) s (.missingPattern s)
  | unclosed {rest : List Char} {s : Nat} (hhead : rest.head? ≠ some '?') (hopen : ¬ Closes 0 rest)
      (hplain : ∀ text, ¬ Captures 0 rest text) : Fault ('(' :: rest) s (.unbalanced s)
  | capturing {rest : List Char} {s offset : Nat} (hhead : rest.head? ≠ some '?')
      (h : FirstCapture 0 rest offset) : Fault ('(' :: rest) s (.capturingGroup (s + 1 + offset))

variable {start index : Nat} {cs text rest : List Char} {error : Error}

/-- What is read as a group without any text is a parenthesis that closes it. -/
theorem readGroup_eq_ok_nil_iff :
    readGroup start cs index 0 = .ok ([], rest) ↔ cs = ')' :: rest := by
  constructor
  · exact readGroup_eq_ok
  · rintro rfl
    rfl

/-- A fault at a parenthesis that no question mark follows is that nothing stands in it, or one of what
stands in it. -/
theorem Fault.opening_cases (hhead : cs.head? ≠ some '?') (h : Fault ('(' :: cs) start error) :
    (∃ tail, cs = ')' :: tail) ∧ error = .missingPattern start ∨
      readGroup start cs (start + 1) 0 = .error error := by
  cases h with
  | leadingQuestion tail => exact absurd rfl hhead
  | missingPattern tail => exact .inl ⟨⟨tail, rfl⟩, rfl⟩
  | unclosed _ hopen hplain => exact .inr (readGroup_eq_error_iff.2 (.inl ⟨rfl, hopen, hplain⟩))
  | capturing _ hfirst => exact .inr (readGroup_eq_error_iff.2 (.inr ⟨_, rfl, hfirst⟩))

/-- A custom expression is not read if and only if there is a fault at its parenthesis. -/
theorem readPattern_eq_error_iff :
    readPattern start cs = .error error ↔ Fault ('(' :: cs) start error := by
  unfold readPattern
  split
  · next tail =>
    rw [Except.error.injEq]
    constructor
    · rintro rfl
      exact .leadingQuestion tail start
    · intro h
      cases h with
      | leadingQuestion => rfl
      | unclosed hhead => exact absurd rfl hhead
      | capturing hhead => exact absurd rfl hhead
  · next hquestion =>
    have hhead : cs.head? ≠ some '?' :=
      mt List.head?_eq_some_iff.1 fun ⟨tail, heq⟩ => hquestion tail heq
    have hgroup : ∀ error, readGroup start cs (start + 1) 0 = .error error →
        Fault ('(' :: cs) start error := by
      intro error h
      rcases readGroup_eq_error_iff.1 h with ⟨rfl, hopen, hplain⟩ | ⟨offset, rfl, hfirst⟩
      · exact .unclosed hhead hopen hplain
      · exact .capturing hhead hfirst
    split
    · next tail hread =>
      obtain rfl := readGroup_eq_ok_nil_iff.1 hread
      rw [Except.error.injEq]
      constructor
      · rintro rfl
        exact .missingPattern tail start
      · intro h
        rcases h.opening_cases hhead with ⟨-, herror⟩ | herror
        · exact herror.symm
        · exact absurd (hread.symm.trans herror) (by simp)
    · next hread =>
      refine ⟨hgroup error, fun h => ?_⟩
      rcases h.opening_cases hhead with ⟨⟨tail, rfl⟩, -⟩ | herror
      · exact absurd (readGroup_eq_ok_nil_iff.2 rfl) (hread tail)
      · exact herror

theorem Fault.tokenizeFrom_eq (h : Fault cs index error) :
    tokenizeFrom cs index = .error error := by
  have hopening (rest : List Char) (hfault : Fault ('(' :: rest) index error) :
      tokenizeFrom ('(' :: rest) index = .error error := by
    rw [tokenizeFrom_opening, readPattern_eq_error_iff.2 hfault]
    rfl
  cases h with
  | missingName h =>
      rw [tokenizeFrom, takeWhile_eq_nil h]
      rfl
  | danglingEscape | unopened => rw [tokenizeFrom]
  | leadingQuestion rest => exact hopening _ (.leadingQuestion rest index)
  | missingPattern rest => exact hopening _ (.missingPattern rest index)
  | unclosed hhead hopen hplain => exact hopening _ (.unclosed hhead hopen hplain)
  | capturing hhead hfirst => exact hopening _ (.capturing hhead hfirst)

/-- A fault stays one when the text breaks off behind its first character. -/
theorem Fault.of_append {c : Char} (h : Fault (c :: (cs ++ rest)) index error) :
    ∃ other, Fault (c :: cs) index other := by
  by_cases hc : c = '('
  · subst hc
    cases hread : readPattern index cs with
    | error other => exact ⟨other, readPattern_eq_error_iff.1 hread⟩
    | ok found =>
        -- What is read would be read with more text behind it too.
        obtain ⟨text, after⟩ := found
        have hwhole := readPattern_elsewhere hread index (after ++ rest)
        rw [← List.cons_append, ← List.append_assoc, ← readPattern_eq_ok hread,
          readPattern_eq_error_iff.2 h] at hwhole
        exact absurd hwhole (by simp)
  · generalize hwhole : cs ++ rest = whole at h
    cases h with
    | missingName h =>
        refine ⟨_, .missingName fun c hc => h c ?_⟩
        obtain ⟨tail, rfl⟩ := List.head?_eq_some_iff.1 hc
        rw [← hwhole]
        rfl
    | danglingEscape =>
        obtain ⟨rfl, -⟩ := List.append_eq_nil_iff.1 hwhole
        exact ⟨_, .danglingEscape index⟩
    | unopened => exact ⟨_, .unopened cs index⟩
    | leadingQuestion | missingPattern | unclosed | capturing => exact absurd rfl hc

/-- A token that is read from a text as it is written, whatever stands behind. -/
structure Token.Leads (token : Token) (rest : List Char) : Prop where
  writable : token.Writable
  stops : ∀ text, token = .name text → ∀ c ∈ rest.head?, isNameChar c = false

/-- What a text starts with is a token or cannot be read. -/
theorem exists_leads_or_fault (c : Char) (cs : List Char) (index : Nat) :
    (∃ (token : Token) (rest : List Char), c :: cs = token.write ++ rest ∧ token.Leads rest) ∨
      ∃ error, Fault (c :: cs) index error := by
  have hself (token : Token) (hwrite : token.write = [c]) (htoken : token.Writable)
      (hname : ∀ text, token ≠ .name text) :
      ∃ (token : Token) (rest : List Char), c :: cs = token.write ++ rest ∧ token.Leads rest :=
    ⟨token, cs, by rw [hwrite]; rfl, htoken, fun text h => absurd h (hname text)⟩
  by_cases hspecial : c ∈ special
  · simp only [special, List.mem_cons, List.not_mem_nil, or_false] at hspecial
    rcases hspecial with rfl | rfl | rfl | rfl | rfl | rfl | rfl | rfl | rfl
    · exact .inl (hself (.modifier .zeroOrMore) rfl trivial (by simp))
    · exact .inl (hself (.modifier .oneOrMore) rfl trivial (by simp))
    · exact .inl (hself (.modifier .optional) rfl trivial (by simp))
    · cases cs with
      | nil => exact .inr ⟨_, .danglingEscape index⟩
      | cons d rest => exact .inl ⟨.escaped d, rest, rfl, trivial, by simp⟩
    · exact .inl (hself .openBrace rfl trivial (by simp))
    · exact .inl (hself .closeBrace rfl trivial (by simp))
    · by_cases hname : cs.takeWhile isNameChar = []
      · refine .inr ⟨_, .missingName fun d hd => ?_⟩
        obtain ⟨tail, rfl⟩ := List.head?_eq_some_iff.1 hd
        refine Bool.eq_false_iff.2 fun hchar => ?_
        rw [List.takeWhile_cons_of_pos hchar] at hname
        exact List.cons_ne_nil _ _ hname
      · refine .inl ⟨.name (cs.takeWhile isNameChar), cs.dropWhile isNameChar, ?_, ?_, ?_⟩
        · rw [Token.write, List.cons_append, List.takeWhile_append_dropWhile]
        · exact ⟨hname, List.all_eq_true.1 List.all_takeWhile⟩
        · intro text _ d hd
          have hhead := List.head?_dropWhile_not isNameChar cs
          rw [hd] at hhead
          simpa using hhead
    · cases hread : readPattern index cs with
      | error error => exact .inr ⟨error, readPattern_eq_error_iff.1 hread⟩
      | ok found =>
          obtain ⟨text, rest⟩ := found
          have htoken : (Token.pattern text).Writable :=
            isCustom_iff_wellNested.1 (isCustom_iff.2 ⟨_, _, _, hread⟩)
          refine .inl ⟨.pattern text, rest, ?_, htoken, by simp⟩
          rw [readPattern_eq_ok hread]
          simp [Token.write]
    · exact .inr ⟨_, .unopened cs index⟩
  · exact .inl (hself (.char c) rfl hspecial (by simp))

theorem Token.Writable.length_write_pos {token : Token} (h : token.Writable) :
    0 < token.write.length := by
  cases token with
  | finish => exact h.elim
  | _ => simp [Token.write]

/-- A text from a position onwards is read up to a construct that cannot be. -/
def StopsFrom (cs : List Char) (index : Nat) (error : Error) : Prop :=
  ∃ front construct lexemes, cs = front ++ construct ∧ tokenizeFrom front index = .ok lexemes ∧
    Fault construct (index + front.length) error

theorem Fault.stopsFrom (h : Fault cs index error) : StopsFrom cs index error :=
  ⟨[], cs, _, rfl, by rw [tokenizeFrom], h⟩

/-- A fault behind a token is one of the text with the token in front. -/
theorem StopsFrom.cons {token : Token} (htoken : token.Leads cs)
    (h : StopsFrom cs (index + token.write.length) error) :
    StopsFrom (token.write ++ cs) index error := by
  obtain ⟨front, construct, lexemes, rfl, hfront, hfault⟩ := h
  have hhead : ∀ text, token = .name text → ∀ c ∈ front.head?, isNameChar c = false := by
    intro text htext c hc
    refine htoken.stops text htext c ?_
    obtain ⟨tail, rfl⟩ := List.head?_eq_some_iff.1 hc
    rfl
  refine ⟨token.write ++ front, construct, ⟨token, index⟩ :: lexemes,
    (List.append_assoc _ _ _).symm, ?_, ?_⟩
  · rw [htoken.writable.tokenizeFrom_append hhead, hfront]
    rfl
  · rw [List.length_append, ← Nat.add_assoc]
    exact hfault


/-- What is not read is read up to a construct that cannot be. -/
theorem stopsFrom_of_tokenizeFrom (h : tokenizeFrom cs index = .error error) :
    StopsFrom cs index error := by
  generalize hlength : cs.length = length
  induction length using Nat.strong_induction_on generalizing cs index with
  | h length ih =>
      cases cs with
      | nil =>
          rw [tokenizeFrom] at h
          exact absurd h (by simp)
      | cons c cs =>
          rcases exists_leads_or_fault c cs index with ⟨token, rest, hcs, htoken⟩ | ⟨other, hfault⟩
          · rw [hcs] at h hlength ⊢
            refine StopsFrom.cons htoken (ih rest.length ?_ ?_ rfl)
            · rw [← hlength, List.length_append]
              have hpos := htoken.writable.length_write_pos
              omega
            · rw [htoken.writable.tokenizeFrom_append htoken.stops] at h
              cases hrest : tokenizeFrom rest (index + token.write.length) with
              | error other =>
                  rw [hrest] at h
                  exact h
              | ok lexemes =>
                  rw [hrest] at h
                  exact absurd h (by simp)
          · rw [hfault.tokenizeFrom_eq] at h
            obtain rfl := Except.error.inj h
            exact hfault.stopsFrom

/-- No name goes on with a construct that cannot be read. -/
theorem Fault.head (h : Fault cs index error) : ∀ c ∈ cs.head?, isNameChar c = false := by
  intro c hc
  cases h <;> obtain rfl := Option.some.inj hc
  all_goals rfl

/-- What is not read behind tokens is not read with them in front. -/
theorem Separable.tokenizeFrom_append {tokens : List Token} (h : Separable tokens)
    (hhead : ∀ c ∈ cs.head?, isNameChar c = false)
    (herror : tokenizeFrom cs (index + (tokens.flatMap Token.write).length) = .error error) :
    tokenizeFrom (tokens.flatMap Token.write ++ cs) index = .error error := by
  induction tokens generalizing index with
  | nil => simpa using herror
  | cons token tokens ih =>
      obtain ⟨htoken, hnext, hothers⟩ := h.of_cons
      have hstop : ∀ text, token = .name text →
          ∀ c ∈ (tokens.flatMap Token.write ++ cs).head?, isNameChar c = false := by
        rintro text rfl
        cases tokens with
        | nil => exact hhead
        | cons next tokens =>
            rw [List.flatMap_cons, List.append_assoc]
            exact (hnext next rfl).head_write hothers.of_cons.1 _
      rw [List.flatMap_cons, List.length_append, ← Nat.add_assoc] at herror
      rw [List.flatMap_cons, List.append_assoc, htoken.tokenizeFrom_append hstop, ih hothers herror]
      rfl

/-- A text is not read if and only if it is read up to a construct that cannot be. -/
theorem tokenizeFrom_eq_error_iff :
    tokenizeFrom cs index = .error error ↔ StopsFrom cs index error := by
  constructor
  · exact stopsFrom_of_tokenizeFrom
  · rintro ⟨front, construct, lexemes, rfl, hfront, hfault⟩
    obtain ⟨tokens, -, rfl, hseparable⟩ := laidOut_of_tokenizeFrom hfront
    exact hseparable.tokenizeFrom_append hfault.head hfault.tokenizeFrom_eq

end Constructs

section Positions

/-- The position that an error tells. -/
def Error.index? : Error → Option Nat
  | .missingName index | .leadingQuestion index | .capturingGroup index | .unbalanced index
  | .missingPattern index | .danglingEscape index | .unexpectedToken _ index _ => some index
  | .badExpression => none

/-- A pattern is read up to a position, where a construct stands that cannot be. -/
structure StopsAt (pattern : List Char) (s : Nat) (error : Error) : Prop where
  inside : s < pattern.length
  read : ∃ lexemes, tokenize (pattern.take s) = .ok lexemes
  fault : Fault (pattern.drop s) s error

variable {pattern cs : List Char} {s t : Nat} {error other : Error}

theorem Fault.ne_nil (h : Fault cs s error) : cs ≠ [] := by
  cases h <;> exact List.cons_ne_nil _ _

/-- The position that is told of is that of the construct, or stands behind it. -/
theorem Fault.exists_index (h : Fault cs s error) :
    ∃ index, error.index? = some index ∧ s ≤ index ∧ index < s + cs.length := by
  cases h with
  | missingName | danglingEscape | unopened | leadingQuestion | missingPattern | unclosed =>
      refine ⟨_, rfl, by omega, ?_⟩
      simp only [List.length_cons]
      omega
  | capturing _ hfirst =>
      obtain ⟨text, rfl, ⟨after, rfl, -⟩, -⟩ := hfirst
      refine ⟨_, rfl, by omega, ?_⟩
      simp only [List.length_cons, List.length_append]
      omega

theorem tokenize_eq_error_iff :
    tokenize pattern = .error error ↔ ∃ s, StopsAt pattern s error := by
  rw [tokenize, tokenizeFrom_eq_error_iff]
  constructor
  · rintro ⟨front, construct, lexemes, rfl, hfront, hfault⟩
    rw [Nat.zero_add] at hfault
    refine ⟨front.length, ?_, ⟨lexemes, ?_⟩, ?_⟩
    · have hpos := List.length_pos_iff.2 hfault.ne_nil
      rw [List.length_append]
      omega
    · rw [List.take_left]
      exact hfront
    · rw [List.drop_left]
      exact hfault
  · rintro ⟨s, hinside, ⟨lexemes, hread⟩, hfault⟩
    refine ⟨pattern.take s, pattern.drop s, lexemes, (List.take_append_drop s pattern).symm, hread, ?_⟩
    rw [Nat.zero_add, List.length_take, Nat.min_eq_left (Nat.le_of_lt hinside)]
    exact hfault

/-- What is read up to a position has nothing before it that cannot be read. -/
theorem StopsAt.le (h : StopsAt pattern s error) (hother : StopsAt pattern t other) : s ≤ t := by
  by_contra hlt
  obtain ⟨lexemes, hread⟩ := h.read
  obtain ⟨others, hothers⟩ := hother.read
  obtain ⟨c, tail, htail⟩ := List.exists_cons_of_ne_nil hother.fault.ne_nil
  obtain ⟨more, hmore⟩ : ∃ more, s = t + (more + 1) := ⟨s - t - 1, by omega⟩
  have hsplit : pattern.take s = pattern.take t ++ c :: tail.take more := by
    rw [hmore, List.take_add, htail, List.take_succ_cons]
  -- The fault at the earlier position is one of the text up to the later one.
  have hfault : Fault (c :: (tail.take more ++ tail.drop more)) t other := by
    rw [List.take_append_drop, ← htail]
    exact hother.fault
  obtain ⟨earlier, hearlier⟩ := hfault.of_append
  have hlength : t = 0 + (pattern.take t).length := by
    rw [Nat.zero_add, List.length_take, Nat.min_eq_left (Nat.le_of_lt hother.inside)]
  have hstops : StopsFrom (pattern.take s) 0 earlier :=
    ⟨pattern.take t, c :: tail.take more, others, hsplit, hothers, hlength ▸ hearlier⟩
  have herror : tokenize (pattern.take s) = .error earlier := tokenizeFrom_eq_error_iff.2 hstops
  rw [hread] at herror
  exact absurd herror (by simp)

end Positions

end Waymark.Pattern
