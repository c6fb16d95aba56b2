import Waymark.Proofs.Pattern.Faults
import Waymark.Proofs.Pattern.Refusing
/-!
Reading tokens by position.

A scanner walks over a pattern by position, one turn after another. It looks at a character only
where there is one, and each turn brings it forward, so there are no more turns than characters. It
comes to the same tokens or the same error as the reading, and an error is always that of the first
construct that cannot be read (`refused_iff_stopsAt_and_scanned`).
-/

namespace Waymark.Pattern

/-- How far the scanning of a pattern has come, with the position of the next character: between
tokens, or in a custom expression that starts at a position, with the number of parentheses that are
open in it and its text so far. -/
inductive Scanner where
  | between (index : Nat) (found : List Lexeme)
  | inside (start index depth : Nat) (text : List Char) (found : List Lexeme)

namespace Scanner

/-- The position of the next character. -/
def position : Scanner → Nat
  | .between index _ | .inside _ index _ _ _ => index

/-- One turn with a character and what stands behind it. Between tokens a token is taken, or a
custom expression begins. -/
def take (c : Char) (ahead : List Char) : Scanner → Except Error Scanner
  | .between index found =>
      let take (token : Token) : Except Error Scanner :=
        .ok (.between (index + token.write.length) (found ++ [⟨token, index⟩]))
      match c with
      | '\\' =>
          match ahead.head? with
          | some d => take (.escaped d)
          | none => .error (.danglingEscape index)
      | '\x7b' => take .openBrace
      | '\x7d' => take .closeBrace
      | ':' =>
          let name := ahead.takeWhile isNameChar
          if name.isEmpty then .error (.missingName index) else take (.name name)
      | ')' => .error (.unbalanced index)
      | '(' =>
          if ahead.head? = some '?' then .error (.leadingQuestion (index + 1))
          else .ok (.inside index (index + 1) 0 [] found)
      | c =>
          match Quantifier.ofChar? c with
          | some quantifier => take (.modifier quantifier)
          | none => take (.char c)
  | .inside start index depth text found =>
      match c, depth with
      | '\\', depth => .ok (.inside start (index + 2) depth (text ++ c :: ahead.head?.toList) found)
      | ')', 0 =>
          if text.isEmpty then .error (.missingPattern start)
          else .ok (.between (index + 1) (found ++ [⟨.pattern text, start⟩]))
      | ')', depth + 1 => .ok (.inside start (index + 1) depth (text ++ [c]) found)
      | '(', depth =>
          if opensCapture ahead then .error (.capturingGroup index)
          else .ok (.inside start (index + 1) (depth + 1) (text ++ [c]) found)
      | _, depth => .ok (.inside start (index + 1) depth (text ++ [c]) found)

/-- One turn, with the character at the position, which has to be inside of the pattern. -/
def turn (chars : List Char) (scanner : Scanner) (h : scanner.position < chars.length) :
    Except Error Scanner :=
  scanner.take (chars.get ⟨scanner.position, h⟩) (chars.drop (scanner.position + 1))

/-- What the scanning comes to where no characters are left. -/
def answer (chars : List Char) : Scanner → Except Error (List Lexeme)
  | .between _ found => .ok (found ++ [⟨.finish, chars.length⟩])
  | .inside start _ _ _ _ => .error (.unbalanced start)

/-- The turns that are taken while characters are left, and what the scanning comes to. -/
inductive Ends (chars : List Char) : Scanner → Nat → Except Error (List Lexeme) → Prop where
  | finished {scanner : Scanner} (h : chars.length ≤ scanner.position) :
      Ends chars scanner 0 (scanner.answer chars)
  | failed {scanner : Scanner} {error : Error} (h : scanner.position < chars.length)
      (hturn : scanner.turn chars h = .error error) : Ends chars scanner 1 (.error error)
  | turned {scanner later : Scanner} {turns : Nat} {result : Except Error (List Lexeme)}
      (h : scanner.position < chars.length) (hturn : scanner.turn chars h = .ok later)
      (hlater : Ends chars later turns result) : Ends chars scanner (turns + 1) result

variable {front cs rest text : List Char} {c : Char} {scanner later : Scanner} {found : List Lexeme}
  {error : Error} {turns : Nat} {result : Except Error (List Lexeme)} {start index depth : Nat}

theorem turn_eq (hposition : scanner.position = front.length)
    (h : scanner.position < (front ++ c :: rest).length) :
    scanner.turn (front ++ c :: rest) h = scanner.take c rest := by
  simp [turn, hposition]

theorem Ends.failed_at (hposition : scanner.position = front.length)
    (hturn : scanner.take c rest = .error error) :
    Ends (front ++ c :: rest) scanner 1 (.error error) := by
  have hinside : scanner.position < (front ++ c :: rest).length := by simp [hposition]
  exact .failed hinside (by rw [turn_eq hposition, hturn])

theorem Ends.turned_at (hposition : scanner.position = front.length)
    (hturn : scanner.take c rest = .ok later) (h : Ends (front ++ c :: rest) later turns result) :
    Ends (front ++ c :: rest) scanner (turns + 1) result := by
  have hinside : scanner.position < (front ++ c :: rest).length := by simp [hposition]
  exact .turned hinside (by rw [turn_eq hposition, hturn]) h

/-- What the scanning of a custom expression comes to, judged by what is read there: it fails in the
same way, or it comes to the parenthesis that closes the expression. -/
def Follows (chars : List Char) (start index depth : Nat) (text : List Char) (found : List Lexeme)
    (cs : List Char) : Except Error (List Char × List Char) → Prop
  | .error error => ∃ turns ≤ cs.length,
      Ends chars (.inside start index depth text found) turns (.error error)
  | .ok (inner, _) => ∀ turns result,
      Ends chars (.inside start (index + inner.length) 0 (text ++ inner) found) turns result →
        ∃ more ≤ inner.length,
          Ends chars (.inside start index depth text found) (more + turns) result

theorem Follows.prepend {chars inner : List Char} {read : Except Error (List Char × List Char)}
    (later : Nat) (hinner : inner ≠ [])
    (hturn : ∀ turns result,
      Ends chars (.inside start (index + inner.length) later (text ++ inner) found) turns result →
        Ends chars (.inside start index depth text found) (turns + 1) result)
    (h : Follows chars start (index + inner.length) later (text ++ inner) found rest read) :
    Follows chars start index depth text found (inner ++ rest) (prepend inner read) := by
  have hpos := List.length_pos_iff.2 hinner
  cases read with
  | error error =>
      obtain ⟨turns, hturns, hends⟩ := h
      exact ⟨turns + 1, by rw [List.length_append]; omega, hturn _ _ hends⟩
  | ok pair =>
      obtain ⟨others, after⟩ := pair
      intro turns result hends
      rw [List.length_append, ← Nat.add_assoc, ← List.append_assoc] at hends
      obtain ⟨more, hmore, hends⟩ := h turns result hends
      refine ⟨more + 1, by rw [List.length_append]; omega, ?_⟩
      rw [Nat.add_right_comm]
      exact hturn _ _ hends

/-- Scanning a custom expression follows the reading of it. -/
theorem follows_readGroup {chars : List Char} (hchars : chars = front ++ cs)
    (hindex : front.length = index) (text : List Char) (found : List Lexeme) :
    Follows chars start index depth text found cs (readGroup start cs index depth) := by
  subst hchars
  fun_induction readGroup start cs index depth generalizing front text
  case case1 index depth =>
    have hend : (front ++ []).length ≤ (inside start index depth text found).position := by
      simp [← hindex, position]
    exact ⟨0, Nat.zero_le _, .finished hend⟩
  case case2 index depth =>
    have hend : (front ++ ['\\']).length ≤
        (inside start (index + 2) depth (text ++ ['\\']) found).position := by
      simp [← hindex, position]
    exact ⟨1, Nat.le_refl 1, (Ends.finished hend).turned_at hindex.symm rfl⟩
  case case3 c rest index depth ih =>
    have hrest := @ih (front ++ ['\\', c]) (by simp [hindex]) (text ++ ['\\', c])
    rw [List.append_assoc] at hrest
    refine hrest.prepend depth (by simp) fun turns result hends => ?_
    exact hends.turned_at hindex.symm rfl
  case case4 rest index =>
    intro turns result hends
    rw [List.append_nil] at hends
    exact ⟨0, Nat.le_refl 0, by rwa [Nat.zero_add]⟩
  case case5 rest index depth ih =>
    have hrest := @ih (front ++ [')']) (by simp [hindex]) (text ++ [')'])
    rw [List.append_assoc] at hrest
    refine hrest.prepend depth (by simp) fun turns result hends => ?_
    exact hends.turned_at hindex.symm rfl
  case case6 rest index depth hopens =>
    exact ⟨1, by simp, .failed_at hindex.symm (if_pos hopens)⟩
  case case7 rest index depth hopens ih =>
    have hrest := @ih (front ++ ['(']) (by simp [hindex]) (text ++ ['('])
    rw [List.append_assoc] at hrest
    refine hrest.prepend (depth + 1) (by simp) fun turns result hends => ?_
    exact hends.turned_at hindex.symm (if_neg hopens)
  case case8 c tail index depth hlast hescape hend hnested hopen ih =>
    obtain ⟨hbackslash, hopens, hcloses⟩ := plain_of_otherwise hlast hescape hend hnested hopen
    have hrest := @ih (front ++ [c]) (by simp [hindex]) (text ++ [c])
    rw [List.append_assoc] at hrest
    refine hrest.prepend depth (by simp) fun turns result hends => ?_
    refine hends.turned_at hindex.symm ?_
    simp [take, hcloses]

/-- The parenthesis that opens a custom expression is passed in one turn. -/
theorem Ends.opened (hindex : front.length = index) (hhead : rest.head? ≠ some '?')
    (h : Ends (front ++ '(' :: rest) (.inside index (index + 1) 0 [] found) turns result) :
    Ends (front ++ '(' :: rest) (.between index found) (turns + 1) result :=
  h.turned_at hindex.symm (if_neg hhead)

theorem follows_opened (hindex : front.length = index) (found : List Lexeme) :
    Follows (front ++ '(' :: rest) index (index + 1) 0 [] found rest
      (readGroup index rest (index + 1) 0) := by
  have hsplit : front ++ '(' :: rest = (front ++ ['(']) ++ rest := by simp
  exact follows_readGroup hsplit (by simp [hindex]) [] found

/-- A token that is no custom expression is taken in one turn. -/
theorem take_of_leads {token : Token} (htoken : token.Leads rest)
    (hpattern : ∀ text, token ≠ .pattern text) :
    ∃ c ahead, token.write ++ rest = c :: ahead ∧
      (between index found).take c ahead =
        .ok (.between (index + token.write.length) (found ++ [⟨token, index⟩])) := by
  cases token with
  | char c =>
      refine ⟨c, rest, rfl, ?_⟩
      have hspecial : c ∉ special := htoken.writable
      have hquantifier := ofChar?_eq_none hspecial
      simp only [special, List.mem_cons, List.not_mem_nil, or_false, not_or] at hspecial
      simp [take, hspecial, hquantifier]
  | escaped c => exact ⟨'\\', c :: rest, rfl, rfl⟩
  | modifier quantifier => exact ⟨quantifier.char, rest, rfl, by cases quantifier <;> rfl⟩
  | openBrace | closeBrace => exact ⟨_, rest, rfl, rfl⟩
  | name text =>
      refine ⟨':', text ++ rest, rfl, ?_⟩
      obtain ⟨hne, hchars⟩ := htoken.writable
      have htake : (text ++ rest).takeWhile isNameChar = text := by
        rw [List.takeWhile_append_of_pos hchars, takeWhile_eq_nil (htoken.stops text rfl),
          List.append_nil]
      have hempty : text.isEmpty = false := by simpa using hne
      simp [take, htake, hempty]
  | pattern text => exact absurd rfl (hpattern text)
  | finish => exact htoken.writable.elim

/-- A token that is written is taken, in no more turns than it has characters. -/
theorem exists_ends_of_leads {token : Token} (htoken : token.Leads rest)
    (hindex : front.length = index)
    (h : Ends (front ++ (token.write ++ rest))
      (.between (index + token.write.length) (found ++ [⟨token, index⟩])) turns result) :
    ∃ more ≤ token.write.length,
      Ends (front ++ (token.write ++ rest)) (.between index found) (turns + more) result := by
  by_cases hpattern : ∃ text, token = .pattern text
  · obtain ⟨text, rfl⟩ := hpattern
    obtain ⟨start, cs, after, hread⟩ := isCustom_iff.1 (isCustom_iff_wellNested.2 htoken.writable)
    obtain ⟨hhead, hne, hread⟩ := readPattern_eq_ok_iff.1 (readPattern_elsewhere hread index rest)
    have hwrite : (Token.pattern text).write ++ rest = '(' :: (text ++ ')' :: rest) := by
      simp [Token.write]
    have hlength : (Token.pattern text).write.length = text.length + 2 := by
      simp [Token.write]
    rw [hwrite, hlength] at h
    rw [hwrite, hlength]
    have hfollows := @follows_opened front (text ++ ')' :: rest) index hindex found
    rw [hread] at hfollows
    have hsplit : front ++ '(' :: (text ++ ')' :: rest) = (front ++ '(' :: text) ++ ')' :: rest := by
      simp
    have hclosed : Ends (front ++ '(' :: (text ++ ')' :: rest))
        (.inside index (index + 1 + text.length) 0 ([] ++ text) found) (turns + 1) result := by
      have hlater : index + (text.length + 2) = index + 1 + text.length + 1 := by omega
      have hempty : ¬ ([] ++ text).isEmpty = true := by simpa using hne
      rw [hsplit, hlater] at h
      rw [hsplit]
      exact h.turned_at (by simp [position, hindex]; omega) (if_neg hempty)
    obtain ⟨more, hmore, hends⟩ := hfollows _ _ hclosed
    refine ⟨more + 2, by omega, ?_⟩
    have hopened := hends.opened hindex hhead
    have hturns : more + (turns + 1) + 1 = turns + (more + 2) := by omega
    rwa [hturns] at hopened
  · obtain ⟨c, ahead, hwrite, htake⟩ := take_of_leads htoken fun text h => hpattern ⟨text, h⟩
    refine ⟨1, htoken.writable.length_write_pos, ?_⟩
    rw [hwrite] at h ⊢
    exact h.turned_at hindex.symm htake

/-- Where a text cannot be read, the scanning fails with the same error. -/
theorem exists_ends_of_fault (h : Fault cs index error) (hindex : front.length = index)
    (found : List Lexeme) :
    ∃ turns ≤ cs.length, Ends (front ++ cs) (.between index found) turns (.error error) := by
  have hgroup {rest : List Char} (hhead : rest.head? ≠ some '?')
      (herror : GroupFault index (index + 1) 0 rest error) :
      ∃ turns ≤ ('(' :: rest).length,
        Ends (front ++ '(' :: rest) (.between index found) turns (.error error) := by
    have hfollows := @follows_opened front rest index hindex found
    rw [readGroup_eq_error_iff.2 herror] at hfollows
    obtain ⟨turns, hturns, hends⟩ := hfollows
    exact ⟨turns + 1, Nat.succ_le_succ hturns, hends.opened hindex hhead⟩
  cases h with
  | missingName h =>
      refine ⟨1, by simp, .failed_at hindex.symm ?_⟩
      simp [take, takeWhile_eq_nil h]
  | danglingEscape => exact ⟨1, Nat.le_refl 1, .failed_at hindex.symm rfl⟩
  | unopened => exact ⟨1, by simp, .failed_at hindex.symm rfl⟩
  | leadingQuestion => exact ⟨1, by simp, .failed_at hindex.symm rfl⟩
  | missingPattern rest =>
      have hsplit : front ++ '(' :: ')' :: rest = (front ++ ['(']) ++ ')' :: rest := by simp
      have hfailed : Ends (front ++ '(' :: ')' :: rest) (.inside index (index + 1) 0 [] found) 1
          (.error (.missingPattern index)) := by
        rw [hsplit]
        exact .failed_at (by simp [position, hindex]) rfl
      exact ⟨2, by simp, hfailed.opened hindex (by simp)⟩
  | unclosed hhead hopen hplain => exact hgroup hhead (.inl ⟨rfl, hopen, hplain⟩)
  | capturing hhead hfirst => exact hgroup hhead (.inr ⟨_, rfl, hfirst⟩)

/-- The scanning ends, after no more turns than there are characters, with the tokens that are read
or with the error that tells why they are not. -/
theorem exists_ends (hindex : front.length = index) (found : List Lexeme) :
    ∃ turns ≤ cs.length, Ends (front ++ cs) (.between index found) turns
      ((tokenizeFrom cs index).map (found ++ ·)) := by
  generalize hlength : cs.length = length
  induction length using Nat.strong_induction_on generalizing cs front index found with
  | h length ih =>
      cases cs with
      | nil =>
          have hend : (front ++ []).length ≤ (between index found).position := by
            simp [← hindex, position]
          refine ⟨0, Nat.zero_le _, ?_⟩
          have hanswer : (tokenizeFrom [] index).map (found ++ ·) =
              (between index found).answer (front ++ []) := by
            rw [tokenizeFrom, List.append_nil, ← hindex]
            rfl
          rw [hanswer]
          exact .finished hend
      | cons c cs =>
          rcases exists_leads_or_fault c cs index with ⟨token, rest, hcs, htoken⟩ | ⟨error, hfault⟩
          · rw [hcs] at hlength ⊢
            have hpos := htoken.writable.length_write_pos
            rw [List.length_append] at hlength
            obtain ⟨turns, hturns, hends⟩ := @ih rest.length (by omega) (front ++ token.write) rest
              (index + token.write.length) (by simp [hindex]) (found ++ [⟨token, index⟩]) rfl
            rw [List.append_assoc] at hends
            obtain ⟨more, hmore, hends⟩ := exists_ends_of_leads htoken hindex hends
            refine ⟨turns + more, by omega, ?_⟩
            rw [htoken.writable.tokenizeFrom_append htoken.stops, map_bind_pure]
            simpa using hends
          · obtain ⟨turns, hturns, hends⟩ := exists_ends_of_fault hfault hindex found
            rw [hfault.tokenizeFrom_eq]
            exact ⟨turns, hlength ▸ hturns, hends⟩

end Scanner

/-- A pattern is refused if and only if it is read up to a position where a construct stands that
cannot be, with the error of that construct. There is one such position, and the position that the
error tells is one of the pattern too. Every pattern is scanned from front to back, looking at
positions of the pattern only and in no more turns than it has characters, with the tokens or the
error that it is read with. -/
theorem refused_iff_stopsAt_and_scanned :
    (∀ pattern error, tokenize pattern = .error error ↔ ∃ s, StopsAt pattern s error) ∧
      (∀ pattern s error, StopsAt pattern s error →
        (∃ index < pattern.length, error.index? = some index) ∧
          ∀ t other, StopsAt pattern t other → t = s) ∧
      ∀ pattern, ∃ turns ≤ pattern.length,
        Scanner.Ends pattern (.between 0 []) turns (tokenize pattern) := by
  refine ⟨fun pattern error => tokenize_eq_error_iff, fun pattern s error h => ⟨?_, ?_⟩, ?_⟩
  · obtain ⟨index, hindex, -, hlt⟩ := h.fault.exists_index
    have hinside := h.inside
    rw [List.length_drop] at hlt
    exact ⟨index, by omega, hindex⟩
  · intro t other hother
    exact Nat.le_antisymm (hother.le h) (h.le hother)
  · intro pattern
    obtain ⟨turns, hturns, hends⟩ := @Scanner.exists_ends [] pattern 0 rfl []
    refine ⟨turns, hturns, ?_⟩
    have hanswer : (tokenizeFrom pattern 0).map ([] ++ ·) = tokenize pattern := by
      rw [tokenize]
      cases tokenizeFrom pattern 0 <;> rfl
    rwa [hanswer] at hends

/-- A group that captures is told of, although it is in an expression that is never closed, behind
an escaped parenthesis and a group that captures nothing. -/
theorem stopsAt_capturing :
    let pattern := "/:id(a\\((?:b)(?<c>d)".toList
    tokenize pattern = .error (.capturingGroup 13) ∧
      ∃ s, StopsAt pattern s (.capturingGroup 13) ∧
        (∃ index < pattern.length, Error.index? (.capturingGroup 13) = some index) ∧
        ∀ t other, StopsAt pattern t other → t = s := by
  intro pattern
  obtain ⟨hrefused, hstops, -⟩ := refused_iff_stopsAt_and_scanned
  have herror : tokenize pattern = .error (.capturingGroup 13) :=
    failure?_eq_some_iff.1 (by decide +kernel)
  obtain ⟨s, hs⟩ := (hrefused pattern _).1 herror
  exact ⟨herror, s, hs, hstops pattern s _ hs⟩

end Waymark.Pattern
