import Waymark.Regex.Assembly
/-!
Reading written expressions piece by piece.

`Reads place text tokens` says that a text is read as given tokens, whatever fresh text follows it.
Fresh text cannot be taken for a part of what stands before it, so pieces are read one after another
(`Reads.append`). A `Piece` is read alike at every place where white space counts, and leaves the
place as it was but for what a quantifier may do there; after an `Item` a quantifier may follow.
-/

namespace Waymark.Regex

/-- After several tokens. -/
def Token.Place.afterAll (place : Place) (tokens : List Token) : Place :=
  tokens.foldl Place.after place

namespace Token

theorem Place.afterAll_cons (place : Place) (token : Token) (tokens : List Token) :
    place.afterAll (token :: tokens) = (place.after token).afterAll tokens := rfl

theorem Place.afterAll_append (place : Place) (tokens others : List Token) :
    place.afterAll (tokens ++ others) = (place.afterAll tokens).afterAll others :=
  List.foldl_append

/-- The characters that do not stand for themselves. -/
def signs : List Char :=
  ['.', '^', '$', '|', ')', '(', '[', '\\', '?', '*', '+']

theorem next?_of_not_sign {place : Place} {c : Char} {rest : List Char}
    (hplace : place.afterItem = false) (hc : c ∉ signs) :
    next? place (c :: rest) = some (.set (.single c), rest) := by
  simp only [next?, hplace, Bool.false_eq_true, ↓reduceIte]
  split
  case h_1 heq => exact absurd heq (by simp)
  case h_13 heq =>
    obtain ⟨rfl, rfl⟩ := List.cons.inj heq
    rfl
  all_goals
    rename_i heq
    obtain ⟨rfl, rfl⟩ := List.cons.inj heq
    exact absurd hc (by decide)

/-- Text at which no comment begins and that no quantifier takes for its mark. -/
def Fresh (cs : List Char) : Prop :=
  pass? false .between cs = some cs ∧ cs.head? ≠ some '?' ∧ cs.head? ≠ some '+'

/-- Text that is fresh before any fresh text. -/
def Leads (text : List Char) : Prop :=
  ∀ rest, Fresh rest → Fresh (text ++ rest)

/-- Text that is fresh before any text at all. -/
def Firm (text : List Char) : Prop :=
  ∀ rest, Fresh (text ++ rest)

theorem fresh_nil : Fresh [] :=
  ⟨by simp [pass?], by simp, by simp⟩

theorem firm_cons {c : Char} (hc : c ≠ '(' ∧ c ≠ '?' ∧ c ≠ '+') (text : List Char) :
    Firm (c :: text) :=
  fun rest => ⟨pass?_cons hc.1 (text ++ rest), by simpa using hc.2.1, by simpa using hc.2.2⟩

theorem firm_open {text : List Char} (hne : text ≠ []) (h : text.head? ≠ some '?') :
    Firm ('(' :: text) := by
  intro rest
  have hhead : (text ++ rest).head? ≠ some '?' := by
    obtain ⟨c, cs, rfl⟩ := List.exists_cons_of_ne_nil hne
    exact h
  exact ⟨pass?_open hhead, by simp, by simp⟩

theorem firm_open_question {c : Char} (hc : c ≠ '#') (text : List Char) :
    Firm ('(' :: '?' :: c :: text) :=
  fun rest => ⟨pass?_open_question hc (text ++ rest), by simp, by simp⟩

theorem Firm.append {text : List Char} (h : Firm text) (other : List Char) :
    Firm (text ++ other) := by
  intro rest
  rw [List.append_assoc]
  exact h (other ++ rest)

theorem Firm.leads {text : List Char} (h : Firm text) : Leads text :=
  fun rest _ => h rest

theorem leads_nil : Leads [] :=
  fun _ hrest => hrest

theorem Leads.append {first second : List Char} (hfirst : Leads first) (hsecond : Leads second) :
    Leads (first ++ second) := by
  intro rest hrest
  rw [List.append_assoc]
  exact hfirst _ (hsecond rest hrest)

/-- Reading a text from a place on gives tokens and leaves the rest. Gaps before a token are passed
over, those after the last one are not. -/
inductive Walk : Place → List Char → List Token → List Char → Prop where
  | nil (place : Place) (cs : List Char) : Walk place cs [] cs
  | cons {place : Place} {cs passed next rest : List Char} {token : Token} {tokens : List Token}
      (hpass : pass? place.flags.verbose .between cs = some passed)
      (hnext : next? place passed = some (token, next))
      (hwalk : Walk (place.after token) next tokens rest) : Walk place cs (token :: tokens) rest

namespace Walk

variable {place : Place} {cs next rest : List Char} {tokens others : List Token}

theorem single {passed : List Char} {token : Token}
    (hpass : pass? place.flags.verbose .between cs = some passed)
    (hnext : next? place passed = some (token, rest)) : Walk place cs [token] rest :=
  .cons hpass hnext (.nil _ rest)

theorem append (hwalk : Walk place cs tokens next)
    (hothers : Walk (place.afterAll tokens) next others rest) :
    Walk place cs (tokens ++ others) rest := by
  induction hwalk with
  | nil => exact hothers
  | cons hpass hnext _ ih => exact .cons hpass hnext (ih hothers)

theorem next?_nil (place : Place) : next? place [] = none := by
  unfold next?
  cases place.afterItem <;> simp [quantifier?]

/-- The tokens of a walk are the first ones of the text. -/
theorem readAll_eq (h : Walk place cs tokens rest) (fuel : Nat) :
    readAll (tokens.length + fuel) place cs =
      (readAll fuel (place.afterAll tokens) rest).map (tokens ++ ·) := by
  induction h with
  | nil => simp [Place.afterAll]
  | @cons place cs passed next rest token tokens hpass hnext hwalk ih =>
      obtain ⟨c, passed, rfl⟩ := List.exists_cons_of_ne_nil (l := passed) (by
        rintro rfl
        exact absurd hnext (by simp [next?_nil]))
      rw [List.length_cons, Nat.add_right_comm, readAll, hpass]
      simp only [Option.bind_eq_bind, Option.bind_some, hnext, ih]
      rw [Place.afterAll_cons]
      cases readAll fuel ((place.after token).afterAll tokens) rest <;> rfl

end Walk

/-- What given tokens leave of a text that is read from a place on, if they are its first ones. -/
def follow? : Place → List Char → List Token → Option (List Char)
  | _, cs, [] => some cs
  | place, cs, token :: tokens => do
      let passed ← pass? place.flags.verbose .between cs
      let (found, next) ← next? place passed
      if found = token then follow? (place.after token) next tokens else none

theorem Walk.of_follow? {place : Place} {cs rest : List Char} {tokens : List Token}
    (h : follow? place cs tokens = some rest) : Walk place cs tokens rest := by
  induction tokens generalizing place cs with
  | nil => exact Option.some.inj h ▸ .nil place cs
  | cons token tokens ih =>
      obtain ⟨passed, hpass, h⟩ := Option.bind_eq_some_iff.1 h
      obtain ⟨⟨found, next⟩, hnext, h⟩ := Option.bind_eq_some_iff.1 h
      obtain ⟨rfl, hrest⟩ := Option.ite_none_right_eq_some.1 h
      exact .cons hpass hnext (ih hrest)

/-- A text is read as tokens, whatever text of some kind follows. -/
structure Reads (follows : List Char → Prop) (place : Place) (text : List Char)
    (tokens : List Token) : Prop where
  length_le : tokens.length ≤ text.length
  walk : ∀ rest : List Char, follows rest → Walk place (text ++ rest) tokens rest

namespace Reads

variable {follows : List Char → Prop} {place : Place}

theorem nil (follows : List Char → Prop) (place : Place) : Reads follows place [] [] where
  length_le := Nat.le_refl 0
  walk rest _ := .nil place rest

theorem weaken {follows' : List Char → Prop} {text : List Char} {tokens : List Token}
    (h : Reads follows place text tokens) (hfollows : ∀ rest, follows' rest → follows rest) :
    Reads follows' place text tokens where
  length_le := h.length_le
  walk rest hrest := h.walk rest (hfollows rest hrest)

theorem append {follows' : List Char → Prop} {first second : List Char}
    {tokens others : List Token} (hfirst : Reads follows place first tokens)
    (hsecond : Reads follows' (place.afterAll tokens) second others)
    (hleads : ∀ rest, follows' rest → follows (second ++ rest)) :
    Reads follows' place (first ++ second) (tokens ++ others) where
  length_le := by
    simp only [List.length_append]
    exact Nat.add_le_add hfirst.length_le hsecond.length_le
  walk rest hrest := by
    rw [List.append_assoc]
    exact (hfirst.walk _ (hleads rest hrest)).append (hsecond.walk rest hrest)

/-- A text that is one token. -/
theorem single {text : List Char} {token : Token} (hverbose : place.flags.verbose = false)
    (hne : text ≠ [])
    (hpass : ∀ rest, follows rest → pass? false .between (text ++ rest) = some (text ++ rest))
    (hnext : ∀ rest, follows rest → next? place (text ++ rest) = some (token, rest)) :
    Reads follows place text [token] where
  length_le := List.length_pos_iff.2 hne
  walk rest hrest := .single (hverbose ▸ hpass rest hrest) (hnext rest hrest)

/-- Nothing has to follow. -/
theorem ofChars? {text : List Char} {tokens : List Token} (h : Reads Fresh .start text tokens) :
    Token.ofChars? text = some tokens := by
  have hwalk := h.walk [] fresh_nil
  rw [List.append_nil] at hwalk
  have hread := hwalk.readAll_eq (text.length - tokens.length + 1)
  rw [← Nat.add_assoc, Nat.add_sub_cancel' h.length_le] at hread
  rw [Token.ofChars?, hread]
  simp [readAll, pass?]

end Reads

/-- Nothing is asked of the text that follows. -/
def Anything : List Char → Prop :=
  fun _ => True

section Pieces

variable {place : Place}

theorem reads_open (hverbose : place.flags.verbose = false) :
    Reads Anything place ['(', '?', ':'] [.opening (.plain [])] := by
  apply Reads.single hverbose (by simp)
  · exact fun rest _ => pass?_open_question (by decide) rest
  · intro rest _
    change next? place ('(' :: '?' :: ':' :: rest) = _
    rw [next?_of_quantifier?_eq_none (quantifier?_cons (by decide) _)]
    simp [next?, hverbose, pass?, openingToken?, readSwitches]

theorem next?_capture (hverbose : place.flags.verbose = false) {inner passed : List Char}
    (hpass : pass? false .between inner = some passed) (hquestion : passed.head? ≠ some '?') :
    next? place ('(' :: inner) = some (.opening (.capture none), passed) := by
  rw [next?_of_quantifier?_eq_none (quantifier?_cons (by decide) _)]
  simp only [next?, Bool.false_eq_true, ↓reduceIte, hverbose, hpass, Option.bind_eq_bind,
    Option.bind_some]
  exact openingToken?_capture hquestion

theorem reads_capture (hverbose : place.flags.verbose = false) :
    Reads Fresh place ['('] [.opening (.capture none)] := by
  apply Reads.single hverbose (by simp)
  · exact fun rest hrest => pass?_open hrest.2.1
  · exact fun rest hrest => next?_capture hverbose hrest.1 hrest.2.1

theorem reads_lookahead (hverbose : place.flags.verbose = false) :
    Reads Anything place ['(', '?', '='] [.opening (.ahead false)] := by
  apply Reads.single hverbose (by simp)
  · exact fun rest _ => pass?_open_question (by decide) rest
  · intro rest _
    change next? place ('(' :: '?' :: '=' :: rest) = _
    rw [next?_of_quantifier?_eq_none (quantifier?_cons (by decide) _)]
    simp [next?, hverbose, pass?, openingToken?]

theorem reads_caseless (hverbose : place.flags.verbose = false) :
    Reads Anything place ['(', '?', 'i', ')'] [.switches [(.caseless, true)]] := by
  apply Reads.single hverbose (by simp)
  · exact fun rest _ => pass?_open_question (by decide) (')' :: rest)
  · intro rest _
    change next? place ('(' :: '?' :: 'i' :: ')' :: rest) = _
    rw [next?_of_quantifier?_eq_none (quantifier?_cons (by decide) _)]
    simp [next?, hverbose, pass?, openingToken?, readSwitches, switch?]

/-- The characters that are a token by themselves. -/
theorem reads_sign (hverbose : place.flags.verbose = false) {c : Char} {token : Token}
    (hc : (c, token) ∈ [(')', .closing), ('|', .bar), ('^', .start), ('$', .finish)]) :
    Reads Anything place [c] [token] := by
  simp only [List.mem_cons, Prod.mk.injEq, List.not_mem_nil, or_false] at hc
  apply Reads.single hverbose (by simp)
  · intro rest _
    apply pass?_cons
    rcases hc with ⟨rfl, _⟩ | ⟨rfl, _⟩ | ⟨rfl, _⟩ | ⟨rfl, _⟩ <;> decide
  · intro rest _
    rcases hc with ⟨rfl, rfl⟩ | ⟨rfl, rfl⟩ | ⟨rfl, rfl⟩ | ⟨rfl, rfl⟩ <;>
      rw [List.singleton_append, next?_of_quantifier?_eq_none (quantifier?_cons (by decide) _)] <;>
      simp [next?]

/-- A quantifier after an item; fresh text does not continue it. -/
theorem reads_quantifier (hverbose : place.flags.verbose = false) (hitem : place.afterItem = true)
    {c : Char} {least : Nat} {most : Option Nat}
    (hc : (c, least, most) ∈ [('?', 0, some 1), ('*', 0, none), ('+', 1, none)]) :
    Reads Fresh place [c] [.quantifier least most false false] := by
  simp only [List.mem_cons, Prod.mk.injEq, List.not_mem_nil, or_false] at hc
  apply Reads.single hverbose (by simp)
  · intro rest _
    apply pass?_cons
    rcases hc with ⟨rfl, _⟩ | ⟨rfl, _⟩ | ⟨rfl, _⟩ <;> decide
  · rintro rest ⟨hpass, hquestion, hplus⟩
    have hquantified : quantified false least most rest =
        (.quantifier least most false false, rest) := by
      rcases rest with _ | ⟨d, rest⟩
      · simp [quantified, hpass]
      · simp only [List.head?_cons, ne_eq, Option.some.injEq] at hquestion hplus
        simp [quantified, hpass, hquestion, hplus]
    rcases hc with ⟨rfl, rfl, rfl⟩ | ⟨rfl, rfl, rfl⟩ | ⟨rfl, rfl, rfl⟩ <;>
      simp [next?, hitem, hverbose, quantifier?, hquantified]

/-- A lazy quantifier after an item. -/
theorem reads_lazy (hverbose : place.flags.verbose = false) (hitem : place.afterItem = true) :
    Reads Fresh place ['+', '?'] [.quantifier 1 none true false] := by
  apply Reads.single hverbose (by simp)
  · exact fun rest _ => pass?_cons (by decide) _
  · rintro rest ⟨_, _, hplus⟩
    have hquantified : quantified false 1 none ('?' :: rest) =
        (.quantifier 1 none true false, rest) := by
      simp only [quantified, pass?_cons (show '?' ≠ '(' by decide), Option.getD_some]
      split
      · simp_all
      · simp_all
    simp [next?, hitem, hverbose, quantifier?, hquantified]

end Pieces

/-- White space counts, here and in the groups around. -/
def Place.Plain (place : Place) : Prop :=
  place.flags.verbose = false ∧ ∀ flags ∈ place.outer, flags.verbose = false

theorem Place.plain_start : Place.start.Plain :=
  ⟨rfl, fun _ h => absurd h List.not_mem_nil⟩

theorem Place.Plain.settled {place : Place} (h : place.Plain) (ended : Bool) :
    Place.Plain { place with afterItem := ended } :=
  h

theorem Place.Plain.entered {place : Place} (h : place.Plain) :
    Place.Plain ⟨false, place.flags, place.flags :: place.outer⟩ := by
  refine ⟨h.1, fun flags hflags => ?_⟩
  rcases List.mem_cons.1 hflags with rfl | hflags
  · exact h.1
  · exact h.2 flags hflags

/-- A text that is read alike at every place and closes the groups that it opens. -/
structure Piece (text : List Char) (tokens : List Token) : Prop where
  leads : Leads text
  reads : ∀ place : Place, place.Plain → Reads Fresh place text tokens
  settles : ∀ place : Place, ∃ ended, place.afterAll tokens = { place with afterItem := ended }

/-- A piece that a quantifier may follow. -/
structure Item (text : List Char) (tokens : List Token) : Prop where
  firm : Firm text
  reads : ∀ place : Place, place.Plain → Reads Anything place text tokens
  ends : ∀ place : Place, place.afterAll tokens = { place with afterItem := true }

namespace Piece

theorem nil : Piece [] [] where
  leads := leads_nil
  reads place _ := Reads.nil Fresh place
  settles place := ⟨place.afterItem, rfl⟩

theorem plain_afterAll {text : List Char} {tokens : List Token} (h : Piece text tokens)
    {place : Place} (hplain : place.Plain) : (place.afterAll tokens).Plain := by
  obtain ⟨ended, hended⟩ := h.settles place
  rw [hended]
  exact hplain

theorem append {first second : List Char} {tokens others : List Token}
    (hfirst : Piece first tokens) (hsecond : Piece second others) :
    Piece (first ++ second) (tokens ++ others) where
  leads := hfirst.leads.append hsecond.leads
  reads place hplain :=
    (hfirst.reads place hplain).append (hsecond.reads _ (hfirst.plain_afterAll hplain))
      hsecond.leads
  settles place := by
    obtain ⟨ended, hended⟩ := hfirst.settles place
    obtain ⟨last, hlast⟩ := hsecond.settles { place with afterItem := ended }
    exact ⟨last, by rw [Place.afterAll_append, hended, hlast]⟩

/-- Pieces in a row. -/
theorem flatMap {α : Type} {items : List α} {text : α → List Char} {tokens : α → List Token}
    (h : ∀ item ∈ items, Piece (text item) (tokens item)) :
    Piece (items.flatMap text) (items.flatMap tokens) := by
  induction items with
  | nil => exact nil
  | cons item items ih =>
      rw [List.flatMap_cons, List.flatMap_cons]
      exact (h item List.mem_cons_self).append
        (ih fun other hother => h other (List.mem_cons_of_mem item hother))

/-- A piece between an opening and its closing parenthesis is an item. -/
theorem within (opening : List Char) {text : List Char} {tokens : List Token}
    {enclosure : Opening} {follows : List Char → Prop} (h : Piece text tokens) (hfirm : Firm (opening ++ text ++ [')']))
    (hopening : ∀ place : Place, place.Plain → Reads follows place opening [.opening enclosure])
    (hfollows : ∀ rest, Fresh rest → follows rest)
    (henters : ∀ place : Place, place.after (.opening enclosure) =
      ⟨false, place.flags, place.flags :: place.outer⟩) :
    Item (opening ++ text ++ [')']) (.opening enclosure :: tokens ++ [.closing]) where
  firm := hfirm
  reads place hplain := by
    have hinside : (place.afterAll [.opening enclosure]).Plain := by
      rw [Place.afterAll, List.foldl_cons, List.foldl_nil, henters]
      exact hplain.entered
    have hfront : Reads Fresh place (opening ++ text) ([.opening enclosure] ++ tokens) :=
      (hopening place hplain).append (h.reads _ hinside)
        fun rest hrest => hfollows _ (h.leads rest hrest)
    refine hfront.append ?_ fun rest _ => firm_cons (by decide) [] rest
    rw [Place.afterAll_append]
    exact reads_sign (h.plain_afterAll hinside).1 (by simp)
  ends place := by
    obtain ⟨ended, hended⟩ := h.settles (place.after (.opening enclosure))
    rw [List.cons_append, Place.afterAll, List.foldl_cons, ← Place.afterAll,
      Place.afterAll_append, hended, henters]
    rfl

variable {text : List Char} {tokens : List Token}

theorem enclosed (h : Piece text tokens) :
    Item ('(' :: '?' :: ':' :: text ++ [')']) (.opening (.plain []) :: tokens ++ [.closing]) :=
  within ['(', '?', ':'] h (firm_open_question (by decide) (text ++ [')']))
    (fun _ hplain => reads_open hplain.1) (fun _ _ => trivial) fun _ => rfl

theorem captured (h : Piece text tokens) (hquestion : text.head? ≠ some '?') :
    Item ('(' :: text ++ [')']) (.opening (.capture none) :: tokens ++ [.closing]) := by
  have hhead : (text ++ [')']).head? ≠ some '?' := by
    cases text with
    | nil => decide
    | cons c text => exact hquestion
  exact within ['('] h (firm_open (by simp) hhead)
    (fun _ hplain => reads_capture hplain.1) (fun _ hrest => hrest) fun _ => rfl

theorem lookedAhead (h : Piece text tokens) :
    Item ('(' :: '?' :: '=' :: text ++ [')']) (.opening (.ahead false) :: tokens ++ [.closing]) :=
  within ['(', '?', '='] h (firm_open_question (by decide) (text ++ [')']))
    (fun _ hplain => reads_lookahead hplain.1) (fun _ _ => trivial) fun _ => rfl

theorem ofChars? (h : Piece text tokens) : Token.ofChars? text = some tokens :=
  (h.reads .start Place.plain_start).ofChars?

/-- A piece after the switch for case. -/
theorem ofChars?_caseless (h : Piece text tokens) :
    Token.ofChars? (['(', '?', 'i', ')'] ++ text) =
      some (.switches [(.caseless, true)] :: tokens) := by
  have hplain : (Place.start.afterAll [.switches [(.caseless, true)]]).Plain :=
    ⟨rfl, fun _ h => absurd h List.not_mem_nil⟩
  exact ((reads_caseless Place.plain_start.1).append (h.reads _ hplain)
    fun _ _ => trivial).ofChars?

end Piece

namespace Item

variable {text : List Char} {tokens : List Token}

theorem piece (h : Item text tokens) : Piece text tokens where
  leads := h.firm.leads
  reads place hplain := (h.reads place hplain).weaken fun _ _ => trivial
  settles place := ⟨true, h.ends place⟩

/-- An item of one token. -/
theorem single {token : Token} (hfirm : Firm text)
    (hreads : ∀ place : Place, place.Plain → Reads Anything place text [token])
    (hends : ∀ place : Place, place.after token = { place with afterItem := true }) :
    Item text [token] where
  firm := hfirm
  reads := hreads
  ends := hends

/-- An item and its quantifier. -/
theorem quantified (h : Item text tokens) {mark : List Char} {least : Nat} {most : Option Nat}
    {questioned : Bool}
    (hmark : ∀ place : Place, place.Plain → place.afterItem = true →
      Reads Fresh place mark [.quantifier least most questioned false]) :
    Piece (text ++ mark) (tokens ++ [.quantifier least most questioned false]) where
  leads := (h.firm.append mark).leads
  reads place hplain := by
    refine (h.reads place hplain).append ?_ fun _ _ => trivial
    rw [h.ends]
    exact hmark _ (hplain.settled true) rfl
  settles place := ⟨false, by rw [Place.afterAll_append, h.ends]; rfl⟩

end Item

end Token

end Waymark.Regex
