import Waymark.Proofs.Pattern.Normal
/-!
Reading tokens undoes writing them, and writing them undoes reading.

Written one after the other, the tokens of a pattern are the pattern, and the position of each is
the length of what is written before it. Which lists of lexemes can be read is said without the
reader: a list is `Legible` if the end comes last and only there, if the positions are these, and if
its tokens are `Separable`, each writable as it stands and no name followed by a character that
would be taken into it. All that is read is legible, and whatever is legible is read from what it is
written as (`legible_of_tokenize_and_tokenize_writeAll`).

A custom expression is written in parentheses, so it must not close them: its own parentheses are
`WellNested`, which the reader finds out by counting (`isCustom_iff_wellNested`).
-/

namespace Waymark.Pattern

section Custom

/-- A parenthesis captures nothing, judged by what follows it: a question mark, which does not go on
as `?P<`, and as `?<` only to look behind. -/
def NonCapturing (text : List Char) : Prop :=
  ∃ rest, text = '?' :: rest ∧ ¬ ['P', '<'] <+: rest ∧
    (['<'] <+: rest → ['<', '='] <+: rest ∨ ['<', '!'] <+: rest)

/-- Text in which a backslash always has a character after it and in which, outside these pairs,
every parenthesis that opens captures nothing and is closed, and no other is. -/
inductive WellNested : List Char → Prop
  | nil : WellNested []
  | escaped {c : Char} {text : List Char} (h : WellNested text) : WellNested ('\\' :: c :: text)
  | plain {c : Char} {text : List Char} (hc : c ≠ '\\' ∧ c ≠ '(' ∧ c ≠ ')') (h : WellNested text) :
      WellNested (c :: text)
  | group {inner text : List Char} (hopens : NonCapturing (inner ++ [')']))
      (hinner : WellNested inner) (h : WellNested text) : WellNested ('(' :: inner ++ ')' :: text)

theorem opensCapture_eq_false_iff {text : List Char} :
    opensCapture text = false ↔ NonCapturing text := by
  constructor
  · intro h
    obtain ⟨rest, rfl⟩ := exists_question_of_opensCapture h
    refine ⟨rest, rfl, ?_, ?_⟩
    · rintro ⟨tail, rfl⟩
      exact absurd h (by simp [opensCapture])
    · rintro ⟨tail, rfl⟩
      cases tail with
      | nil => exact absurd h (by simp [opensCapture])
      | cons c tail =>
          by_cases hequal : c = '='
          · exact .inl ⟨tail, by rw [hequal]; rfl⟩
          · by_cases hbang : c = '!'
            · exact .inr ⟨tail, by rw [hbang]; rfl⟩
            · exact absurd h (by simp [opensCapture, hequal, hbang])
  · rintro ⟨rest, rfl, hnamed, hbehind⟩
    unfold opensCapture
    split
    · next tail heq => exact absurd ⟨tail, (List.cons.inj heq).2.symm⟩ hnamed
    · rfl
    · rfl
    · next tail hequal hbang heq =>
      obtain rfl : rest = '<' :: tail := (List.cons.inj heq).2
      rcases hbehind ⟨tail, rfl⟩ with ⟨after, hafter⟩ | ⟨after, hafter⟩
      · exact absurd (List.cons.inj hafter).2.symm (hequal after)
      · exact absurd (List.cons.inj hafter).2.symm (hbang after)
    · rfl
    · next hother => exact absurd rfl (hother _)

variable {start index depth : Nat} {cs inner text rest : List Char}

/-- What a parenthesis opens is settled before the next closing one. -/
theorem opensCapture_closed_iff (other : List Char) :
    opensCapture (inner ++ ')' :: other) = false ↔ NonCapturing (inner ++ [')']) := by
  have hclose : ')' ∈ inner ++ [')'] := List.mem_append_right _ (List.mem_singleton_self _)
  have hsplit : inner ++ ')' :: other = inner ++ [')'] ++ other := by simp
  rw [← opensCapture_eq_false_iff, hsplit]
  constructor
  · intro h
    have hclosed := opensCapture_append hclose h []
    rwa [List.append_nil] at hclosed
  · intro h
    rw [← List.append_nil (inner ++ [')'])] at h
    exact opensCapture_append hclose h other

theorem prepend_nil (found : Except Error (List Char × List Char)) : prepend [] found = found := by
  cases found <;> rfl

theorem prepend_prepend (front back : List Char) (found : Except Error (List Char × List Char)) :
    prepend front (prepend back found) = prepend (front ++ back) found := by
  cases found with
  | error e => rfl
  | ok pair => simp [prepend]

theorem WellNested.append (h : WellNested inner) (htext : WellNested text) :
    WellNested (inner ++ text) := by
  induction h with
  | nil => exact htext
  | escaped _ ih => exact .escaped ih
  | plain hc _ ih => exact .plain hc ih
  | group hopens hinner _ _ ih =>
      rw [List.cons_append, List.cons_append, List.append_assoc]
      exact .group hopens hinner ih

/-- Reading goes past well nested text, at whatever depth. -/
theorem WellNested.readGroup_append (h : WellNested text) (start index depth : Nat)
    (rest : List Char) :
    ∃ later, readGroup start (text ++ rest) index depth =
      prepend text (readGroup start rest later depth) := by
  induction h generalizing index depth rest with
  | nil => exact ⟨index, (prepend_nil _).symm⟩
  | @escaped c text _ ih =>
      obtain ⟨later, hread⟩ := ih (index + 2) depth rest
      refine ⟨later, ?_⟩
      rw [List.cons_append, List.cons_append, readGroup, hread, prepend_prepend]
      rfl
  | @plain c text hc _ ih =>
      obtain ⟨later, hread⟩ := ih (index + 1) depth rest
      refine ⟨later, ?_⟩
      rw [List.cons_append, readGroup.eq_7 _ _ _ _ _ (fun h _ => hc.1 h) (fun _ _ h _ => hc.1 h)
        hc.2.1 (fun _ h => hc.2.2 h) (fun _ _ h => hc.2.2 h), hread, prepend_prepend]
      rfl
  | @group inner text hopens _ _ ihinner ih =>
      obtain ⟨close, hinner⟩ := ihinner (index + 1) (depth + 1) (')' :: (text ++ rest))
      obtain ⟨later, hread⟩ := ih (close + 1) depth rest
      refine ⟨later, ?_⟩
      have hplain := (opensCapture_closed_iff (text ++ rest)).2 hopens
      rw [List.cons_append, List.cons_append, List.append_assoc, List.cons_append, readGroup,
        hplain]
      simp only [Bool.false_eq_true, ↓reduceIte]
      rw [hinner, readGroup, hread]
      simp only [prepend_prepend, List.cons_append, List.nil_append]

/-- Text that closes a number of groups besides its own. -/
def Unwinds : Nat → List Char → Prop
  | 0, text => WellNested text
  | depth + 1, text => ∃ inner rest, text = inner ++ ')' :: rest ∧ WellNested inner ∧
      Unwinds depth rest

theorem Unwinds.append (hinner : WellNested inner) (h : Unwinds depth text) :
    Unwinds depth (inner ++ text) := by
  cases depth with
  | zero => exact hinner.append h
  | succ depth =>
      obtain ⟨front, rest, rfl, hfront, hrest⟩ := h
      exact ⟨inner ++ front, rest, (List.append_assoc _ _ _).symm, hinner.append hfront, hrest⟩

/-- What is read at a depth closes as many groups. -/
theorem unwinds_of_readGroup (h : readGroup start cs index depth = .ok (text, rest)) :
    Unwinds depth text := by
  fun_induction readGroup start cs index depth generalizing text rest <;>
    simp only [prepend_eq_ok_iff, reduceCtorEq, Except.ok.injEq, Prod.mk.injEq] at h
  case case3 ih =>
    obtain ⟨after, hread, rfl⟩ := h
    exact (ih hread).append (.escaped .nil)
  case case4 =>
    rw [← h.1]
    exact .nil
  case case5 ih =>
    obtain ⟨after, hread, rfl⟩ := h
    exact ⟨[], after, rfl, .nil, ih hread⟩
  case case7 hopens ih =>
    obtain ⟨after, hread, rfl⟩ := h
    obtain ⟨inner, text, rfl, hinner, htext⟩ := ih hread
    rw [readGroup_eq_ok hread, List.append_assoc, List.cons_append] at hopens
    have hplain := (opensCapture_closed_iff _).1 (Bool.not_eq_true _ ▸ hopens)
    have hwhole := htext.append (.group hplain hinner .nil)
    simpa using hwhole
  case case8 c tail index depth hlast hescape hend hnested hopen ih =>
    obtain ⟨after, hread, rfl⟩ := h
    have hplain := plain_of_otherwise hlast hescape hend hnested hopen
    exact (ih hread).append (.plain hplain .nil)

theorem readGroup_eq_ok_iff :
    readGroup start cs index 0 = .ok (text, rest) ↔ WellNested text ∧ cs = text ++ ')' :: rest := by
  constructor
  · intro h
    exact ⟨unwinds_of_readGroup h, readGroup_eq_ok h⟩
  · rintro ⟨hnested, rfl⟩
    obtain ⟨later, hread⟩ := hnested.readGroup_append start index 0 (')' :: rest)
    rw [hread, readGroup, prepend, List.append_nil]

/-- What can stand in parentheses as a custom expression. -/
theorem isCustom_iff_wellNested :
    IsCustom text ↔ text ≠ [] ∧ text.head? ≠ some '?' ∧ WellNested text := by
  rw [isCustom_iff]
  constructor
  · rintro ⟨start, cs, rest, hread⟩
    obtain ⟨hhead, hne, hread⟩ := readPattern_eq_ok_iff.1 hread
    obtain ⟨hnested, rfl⟩ := readGroup_eq_ok_iff.1 hread
    rw [List.head?_append_of_ne_nil _ hne] at hhead
    exact ⟨hne, hhead, hnested⟩
  · rintro ⟨hne, hhead, hnested⟩
    refine ⟨0, text ++ [')'], [], readPattern_eq_ok_iff.2 ⟨?_, hne, ?_⟩⟩
    · rw [List.head?_append_of_ne_nil _ hne]
      exact hhead
    · exact readGroup_eq_ok_iff.2 ⟨hnested, rfl⟩

end Custom

section Tokens

/-- The characters that do not stand for themselves. -/
def special : List Char :=
  ['*', '+', '?', '\\', '\x7b', '\x7d', ':', '(', ')']

theorem ofChar?_eq_none {c : Char} (h : c ∉ special) : Quantifier.ofChar? c = none := by
  unfold Quantifier.ofChar?
  split
  case h_4 => rfl
  all_goals exact absurd h (by decide)

theorem takeWhile_eq_nil {p : Char → Bool} {cs : List Char} (h : ∀ c ∈ cs.head?, p c = false) :
    cs.takeWhile p = [] := by
  cases cs with
  | nil => rfl
  | cons c cs => simp [h c rfl]

/-- A token can be written as it stands, and is not the end. -/
def Token.Writable : Token → Prop
  | .char c => c ∉ special
  | .name text => text ≠ [] ∧ ∀ c ∈ text, isNameChar c = true
  | .pattern text => text ≠ [] ∧ text.head? ≠ some '?' ∧ WellNested text
  | .finish => False
  | .escaped _ | .modifier _ | .openBrace | .closeBrace => True

/-- A token does not run on into the next: no name stands before a character of names. -/
def Token.Parted (token next : Token) : Prop :=
  ∀ text c, token = .name text → next = .char c → isNameChar c = false

/-- Tokens that stay apart where they are written one after the other. -/
structure Separable (tokens : List Token) : Prop where
  writable : ∀ token ∈ tokens, token.Writable
  parted : tokens.IsChain Token.Parted

/-- Tokens with their positions and the end after them. -/
def lexemesFrom (index : Nat) : List Token → List Lexeme
  | [] => [⟨.finish, index⟩]
  | token :: tokens => ⟨token, index⟩ :: lexemesFrom (index + token.write.length) tokens

variable {token next : Token} {tokens : List Token} {cs : List Char}

theorem Token.Parted.of_not_name (h : ∀ text, token ≠ .name text) (next : Token) :
    token.Parted next :=
  fun text _ hname _ => absurd hname (h text)

theorem separable_nil : Separable [] :=
  ⟨fun _ h => absurd h List.not_mem_nil, .nil⟩

theorem Separable.of_cons (h : Separable (token :: tokens)) :
    token.Writable ∧ (∀ next ∈ tokens.head?, token.Parted next) ∧ Separable tokens := by
  obtain ⟨htoken, htokens⟩ := List.forall_mem_cons.1 h.writable
  obtain ⟨hnext, hchain⟩ := List.isChain_cons.1 h.parted
  exact ⟨htoken, hnext, htokens, hchain⟩

theorem Separable.cons (htoken : token.Writable) (hnext : ∀ next ∈ tokens.head?, token.Parted next)
    (h : Separable tokens) : Separable (token :: tokens) where
  writable := List.forall_mem_cons.2 ⟨htoken, h.writable⟩
  parted := List.isChain_cons.2 ⟨hnext, h.parted⟩

/-- Where a name ends, what is written next is no character of names. -/
theorem Token.Parted.head_write {text : List Char} (hparted : Token.Parted (.name text) next)
    (hnext : next.Writable) (rest : List Char) :
    ∀ c ∈ (next.write ++ rest).head?, isNameChar c = false := by
  intro c hc
  cases next with
  | char d =>
      obtain rfl := Option.some.inj hc
      exact hparted text d rfl rfl
  | modifier quantifier =>
      obtain rfl := Option.some.inj hc
      cases quantifier <;> rfl
  | finish => exact hnext.elim
  | escaped d | openBrace | closeBrace | name other | pattern other =>
      obtain rfl := Option.some.inj hc
      rfl

/-- A token that is written is read as the token, and reading goes on behind it. -/
theorem Token.Writable.tokenizeFrom_append (h : token.Writable)
    (hstop : ∀ text, token = .name text → ∀ c ∈ cs.head?, isNameChar c = false) (index : Nat) :
    tokenizeFrom (token.write ++ cs) index = (do
      return ⟨token, index⟩ :: (← tokenizeFrom cs (index + token.write.length))) := by
  cases token with
  | char c =>
      have hne : ∀ d ∈ special, c ≠ d := by
        rintro d hd rfl
        exact h hd
      simp only [special, List.forall_mem_cons] at hne
      obtain ⟨-, -, -, hbackslash, hopen, hclose, hcolon, hopening, hclosing, -⟩ := hne
      rw [Token.write, List.cons_append, tokenizeFrom, ofChar?_eq_none h]
      · rfl
      all_goals assumption
  | escaped c =>
      rw [Token.write, List.cons_append, List.cons_append, tokenizeFrom]
      rfl
  | modifier quantifier =>
      rw [Token.write, List.cons_append]
      cases quantifier <;> rw [Quantifier.char, tokenizeFrom] <;> first | rfl | simp
  | openBrace | closeBrace =>
      rw [Token.write, List.cons_append, tokenizeFrom]
      rfl
  | name text =>
      obtain ⟨hne, hchars⟩ := h
      have hends : cs.takeWhile isNameChar = [] ∧ cs.dropWhile isNameChar = cs := by
        cases cs with
        | nil => exact ⟨rfl, rfl⟩
        | cons c cs => simp [hstop text rfl c rfl]
      have htake : (text ++ cs).takeWhile isNameChar = text := by
        rw [List.takeWhile_append_of_pos hchars, hends.1, List.append_nil]
      have hdrop : (text ++ cs).dropWhile isNameChar = cs := by
        rw [List.dropWhile_append_of_pos hchars, hends.2]
      have hempty : text.isEmpty = false := by simpa using hne
      rw [Token.write, List.cons_append, tokenizeFrom, htake, hdrop, hempty, List.length_cons,
        Nat.add_assoc, Nat.add_comm 1]
      rfl
  | pattern text =>
      obtain ⟨start, front, rest, hread⟩ := isCustom_iff.1 (isCustom_iff_wellNested.2 h)
      have hlength : (Token.pattern text).write.length = text.length + 2 := by
        simp [Token.write]
      rw [hlength, Token.write, List.append_assoc, List.cons_append, tokenizeFrom_opening,
        List.singleton_append, readPattern_elsewhere hread]
      rfl
  | finish => exact h.elim

/-- Tokens that stay apart are the tokens of what they are written as. -/
theorem Separable.tokenizeFrom_write (h : Separable tokens) (index : Nat) :
    tokenizeFrom (tokens.flatMap Token.write) index = .ok (lexemesFrom index tokens) := by
  induction tokens generalizing index with
  | nil => simp [tokenizeFrom, lexemesFrom]
  | cons token tokens ih =>
      obtain ⟨htoken, hnext, hothers⟩ := h.of_cons
      have hstop : ∀ text, token = .name text →
          ∀ c ∈ (tokens.flatMap Token.write).head?, isNameChar c = false := by
        rintro text rfl
        cases tokens with
        | nil => simp
        | cons next tokens =>
            rw [List.flatMap_cons]
            exact (hnext next rfl).head_write hothers.of_cons.1 _
      rw [List.flatMap_cons, htoken.tokenizeFrom_append hstop, ih hothers]
      rfl

/-- The lexemes of tokens that stay apart and are written as the text. -/
def LaidOut (cs : List Char) (index : Nat) (lexemes : List Lexeme) : Prop :=
  ∃ tokens, lexemes = lexemesFrom index tokens ∧ tokens.flatMap Token.write = cs ∧ Separable tokens

/-- A token before what is laid out, unless it is a name that the text behind it goes on with. -/
theorem LaidOut.cons {index later : Nat} {found : Except Error (List Lexeme)}
    {lexemes : List Lexeme} (htoken : token.Writable)
    (hparted : ∀ c ∈ cs.head?, token.Parted (.char c))
    (hlater : index + token.write.length = later)
    (ih : ∀ others, found = .ok others → LaidOut cs later others)
    (h : (do return Lexeme.mk token index :: (← found)) = .ok lexemes) :
    LaidOut (token.write ++ cs) index lexemes := by
  obtain ⟨others, hfound, h⟩ := bind_eq_ok_iff.1 h
  obtain ⟨tokens, rfl, rfl, hseparable⟩ := ih others hfound
  obtain rfl := Except.ok.inj h
  refine ⟨token :: tokens, by rw [lexemesFrom, hlater], rfl, hseparable.cons htoken ?_⟩
  rintro next hnext text c hname rfl
  obtain ⟨tail, rfl⟩ := List.head?_eq_some_iff.1 hnext
  exact hparted c rfl text c hname rfl

/-- What is read is written as the text, and its tokens stay apart. -/
theorem laidOut_of_tokenizeFrom {index : Nat} {lexemes : List Lexeme}
    (h : tokenizeFrom cs index = .ok lexemes) : LaidOut cs index lexemes := by
  fun_induction tokenizeFrom cs index generalizing lexemes
  case case1 => exact ⟨[], (Except.ok.inj h).symm, rfl, separable_nil⟩
  case case2 | case6 | case8 | case9 => exact absurd h (by simp)
  case case3 c rest ih =>
    have htoken : (Token.escaped c).Writable := trivial
    exact LaidOut.cons htoken (fun _ _ => .of_not_name (by simp) _) rfl (fun _ => ih) h
  case case4 ih =>
    have htoken : Token.openBrace.Writable := trivial
    exact LaidOut.cons htoken (fun _ _ => .of_not_name (by simp) _) rfl (fun _ => ih) h
  case case5 ih =>
    have htoken : Token.closeBrace.Writable := trivial
    exact LaidOut.cons htoken (fun _ _ => .of_not_name (by simp) _) rfl (fun _ => ih) h
  case case7 rest text hne ih =>
    have hwhole : ':' :: rest = (Token.name text).write ++ rest.dropWhile isNameChar := by
      rw [Token.write, List.cons_append, List.takeWhile_append_dropWhile]
    have htoken : (Token.name text).Writable :=
      ⟨by simpa using hne, List.all_eq_true.1 List.all_takeWhile⟩
    have hlength (index : Nat) :
        index + (Token.name text).write.length = index + 1 + text.length := by
      rw [Token.write, List.length_cons, Nat.add_assoc, Nat.add_comm 1]
    rw [hwhole]
    refine LaidOut.cons htoken ?_ (hlength _) (fun _ => ih) h
    intro c hc _ d _ heq
    have hhead := List.head?_dropWhile_not isNameChar rest
    rw [hc, Token.char.inj heq] at hhead
    exact hhead
  case case10 text rest hread ih =>
    have htoken : (Token.pattern text).Writable :=
      isCustom_iff_wellNested.1 (isCustom_iff.2 ⟨_, _, _, hread⟩)
    have hlength (index : Nat) :
        index + (Token.pattern text).write.length = index + text.length + 2 := by
      simp [Token.write, Nat.add_assoc]
    have hwhole : '(' :: (text ++ ')' :: rest) = (Token.pattern text).write ++ rest := by
      simp [Token.write]
    rw [readPattern_eq_ok hread, hwhole]
    exact LaidOut.cons htoken (fun _ _ => .of_not_name (by simp) _) (hlength _) (fun _ => ih) h
  case case11 c rest hbackslash hopen hclose hcolon hclosing hopening token ih =>
    cases hquantifier : Quantifier.ofChar? c with
    | some quantifier =>
        have htoken : (Token.modifier quantifier).Writable := trivial
        rw [Quantifier.eq_char_of_ofChar? hquantifier]
        simp only [token, hquantifier] at h
        exact LaidOut.cons htoken (fun _ _ => .of_not_name (by simp) _) rfl (fun _ => ih) h
    | none =>
        have htoken : (Token.char c).Writable := by
          simp only [Token.Writable, special, List.mem_cons, List.not_mem_nil, or_false, not_or]
          refine ⟨?_, ?_, ?_, hbackslash, hopen, hclose, hcolon, hopening, hclosing⟩
          all_goals
            rintro rfl
            exact absurd hquantifier (by decide)
        simp only [token, hquantifier] at h
        exact LaidOut.cons htoken (fun _ _ => .of_not_name (by simp) _) rfl (fun _ => ih) h

end Tokens

section Lexemes

/-- What is written for lexemes. -/
def Lexeme.writeAll (lexemes : List Lexeme) : List Char :=
  lexemes.flatMap fun lexeme => lexeme.token.write

/-- Counted from a start, the position of each lexeme is the length of what is written before it. -/
def PlacedFrom (start : Nat) (lexemes : List Lexeme) : Prop :=
  ∀ number lexeme, lexemes[number]? = some lexeme →
    lexeme.index = start + (Lexeme.writeAll (lexemes.take number)).length

/-- Lexemes that are read from what they are written as. -/
structure Legible (lexemes : List Lexeme) : Prop where
  separable : ∃ tokens, lexemes.map Lexeme.token = tokens ++ [.finish] ∧ Separable tokens
  placed : PlacedFrom 0 lexemes

variable {start : Nat} {lexeme : Lexeme} {lexemes : List Lexeme}

theorem placedFrom_cons_iff :
    PlacedFrom start (lexeme :: lexemes) ↔
      lexeme.index = start ∧ PlacedFrom (start + lexeme.token.write.length) lexemes := by
  have hlater (number : Nat) :
      start + (Lexeme.writeAll ((lexeme :: lexemes).take (number + 1))).length =
        start + lexeme.token.write.length + (Lexeme.writeAll (lexemes.take number)).length := by
    rw [List.take_succ_cons, Lexeme.writeAll, List.flatMap_cons, List.length_append, Nat.add_assoc]
    rfl
  constructor
  · intro h
    refine ⟨h 0 lexeme rfl, fun number other hother => ?_⟩
    rw [← hlater number]
    exact h (number + 1) other hother
  · rintro ⟨hfirst, h⟩ number other hother
    cases number with
    | zero =>
        obtain rfl := Option.some.inj hother
        exact hfirst
    | succ number =>
        rw [hlater number]
        exact h number other hother

theorem map_token_lexemesFrom (start : Nat) (tokens : List Token) :
    (lexemesFrom start tokens).map Lexeme.token = tokens ++ [.finish] := by
  induction tokens generalizing start with
  | nil => rfl
  | cons token tokens ih => rw [lexemesFrom, List.map_cons, ih, List.cons_append]

theorem writeAll_lexemesFrom (start : Nat) (tokens : List Token) :
    Lexeme.writeAll (lexemesFrom start tokens) = tokens.flatMap Token.write := by
  have hwrite : Lexeme.writeAll (lexemesFrom start tokens) =
      ((lexemesFrom start tokens).map Lexeme.token).flatMap Token.write :=
    (List.flatMap_map _ _ _).symm
  rw [hwrite, map_token_lexemesFrom]
  simp [Token.write]

theorem getLast?_lexemesFrom (start : Nat) (tokens : List Token) :
    (lexemesFrom start tokens).getLast? =
      some ⟨.finish, start + (tokens.flatMap Token.write).length⟩ := by
  induction tokens generalizing start with
  | nil => rfl
  | cons token tokens ih =>
      rw [lexemesFrom, List.getLast?_cons, ih, List.flatMap_cons, List.length_append, Nat.add_assoc]
      rfl

/-- Tokens with the end after them can be placed in one way only. -/
theorem eq_lexemesFrom_iff {tokens : List Token} :
    lexemes = lexemesFrom start tokens ↔
      lexemes.map Lexeme.token = tokens ++ [.finish] ∧ PlacedFrom start lexemes := by
  induction tokens generalizing start lexemes with
  | nil =>
      rcases lexemes with _ | ⟨⟨other, index⟩, lexemes⟩
      · simp [lexemesFrom]
      · simp only [lexemesFrom, List.cons.injEq, Lexeme.mk.injEq, List.map_cons, List.nil_append,
          List.map_eq_nil_iff, placedFrom_cons_iff]
        constructor
        · rintro ⟨⟨rfl, rfl⟩, rfl⟩
          exact ⟨⟨rfl, rfl⟩, rfl, fun _ _ h => absurd h (by simp)⟩
        · rintro ⟨⟨rfl, rfl⟩, rfl, -⟩
          exact ⟨⟨rfl, rfl⟩, rfl⟩
  | cons token tokens ih =>
      rcases lexemes with _ | ⟨⟨other, index⟩, lexemes⟩
      · simp [lexemesFrom]
      · simp only [lexemesFrom, List.cons.injEq, Lexeme.mk.injEq, List.map_cons, List.cons_append,
          placedFrom_cons_iff]
        constructor
        · rintro ⟨⟨rfl, rfl⟩, hlater⟩
          obtain ⟨htokens, hplaced⟩ := ih.1 hlater
          exact ⟨⟨rfl, htokens⟩, rfl, hplaced⟩
        · rintro ⟨⟨rfl, htokens⟩, rfl, hplaced⟩
          exact ⟨⟨rfl, rfl⟩, ih.2 ⟨htokens, hplaced⟩⟩

theorem legible_iff :
    Legible lexemes ↔ ∃ tokens, lexemes = lexemesFrom 0 tokens ∧ Separable tokens := by
  simp only [eq_lexemesFrom_iff]
  constructor
  · rintro ⟨⟨tokens, htokens, hseparable⟩, hplaced⟩
    exact ⟨tokens, ⟨htokens, hplaced⟩, hseparable⟩
  · rintro ⟨tokens, ⟨htokens, hplaced⟩, hseparable⟩
    exact ⟨⟨tokens, htokens, hseparable⟩, hplaced⟩

/-- The lexemes of a pattern are legible, the end stands at its length, and written they are the
pattern; and legible lexemes are those of what they are written as. -/
theorem legible_of_tokenize_and_tokenize_writeAll :
    (∀ pattern lexemes, tokenize pattern = .ok lexemes →
      Lexeme.writeAll lexemes = pattern ∧ Legible lexemes ∧
        lexemes.getLast? = some ⟨.finish, pattern.length⟩) ∧
      ∀ lexemes, Legible lexemes → tokenize (Lexeme.writeAll lexemes) = .ok lexemes := by
  constructor
  · intro pattern lexemes h
    obtain ⟨tokens, rfl, rfl, hseparable⟩ := laidOut_of_tokenizeFrom h
    have hlast := getLast?_lexemesFrom 0 tokens
    rw [Nat.zero_add] at hlast
    exact ⟨writeAll_lexemesFrom 0 tokens, legible_iff.2 ⟨tokens, rfl, hseparable⟩, hlast⟩
  · intro lexemes h
    obtain ⟨tokens, rfl, hseparable⟩ := legible_iff.1 h
    rw [writeAll_lexemesFrom]
    exact hseparable.tokenizeFrom_write 0

/-- A name before an expression in which a parenthesis is escaped and another is nested, behind a
character of two bytes. -/
theorem legible_of_tokenize_nested :
    let pattern := "/é:id(a\\)(?:b))\\:\x7bx\x7d?".toList
    let lexemes : List Lexeme :=
      [⟨.char '/', 0⟩, ⟨.char 'é', 1⟩, ⟨.name ['i', 'd'], 2⟩,
        ⟨.pattern ['a', '\\', ')', '(', '?', ':', 'b', ')'], 5⟩, ⟨.escaped ':', 15⟩,
        ⟨.openBrace, 17⟩, ⟨.char 'x', 18⟩, ⟨.closeBrace, 19⟩, ⟨.modifier .optional, 20⟩,
        ⟨.finish, 21⟩]
    tokenize pattern = .ok lexemes ∧ Lexeme.writeAll lexemes = pattern ∧ Legible lexemes ∧
      tokenize (Lexeme.writeAll lexemes) = .ok lexemes := by
  intro pattern lexemes
  obtain ⟨hread, hwritten⟩ := legible_of_tokenize_and_tokenize_writeAll
  have htokens : tokenize pattern = .ok lexemes := eq_ok_of_toOption (by decide +kernel)
  obtain ⟨hwrite, hlegible, _⟩ := hread pattern lexemes htokens
  exact ⟨htokens, hwrite, hlegible, hwritten lexemes hlegible⟩

end Lexemes

end Waymark.Pattern
