import Waymark.Proofs.Regex.Growing
import Waymark.Proofs.Regex.Language
/-!
What tokens mean where they are read.

`Lays flags tokens known` supposes, as `Grows` does, that tokens have been read, and with given
switches on: then they have put items after those of the innermost group, of which something is
known. `Becomes` is the same of all that stands in a group. In this way the language of an expression
follows from its tokens part by part, whatever groups stand around and before.
-/

namespace Waymark.Regex

namespace Expr

/-- One pass over the text is enough to match an expression, and it denotes some texts. -/
structure Speaks (expr : Expr) (language : List Char → Prop) : Prop where
  denotes : expr.Denotes language
  uninvolved : expr.isInvolved = false

/-- One pass over the text is enough to match expressions in a row, and they denote some texts. -/
structure SpeakAll (items : List Expr) (language : List Char → Prop) : Prop where
  denote : DenoteAll items language
  uninvolved : ∀ item ∈ items, item.isInvolved = false

variable {expr : Expr} {items others : List Expr} {language language' : List Char → Prop}

theorem Speaks.congr (h : expr.Speaks language) (hiff : ∀ w, language w ↔ language' w) :
    expr.Speaks language' :=
  ⟨h.denotes.congr hiff, h.uninvolved⟩

theorem Speaks.all (h : expr.Speaks language) : SpeakAll [expr] language :=
  ⟨h.denotes.all, List.forall_mem_singleton.2 h.uninvolved⟩

theorem Speaks.seq {second : Expr} (h : expr.Speaks language) (hsecond : second.Speaks language') :
    (Expr.seq expr second).Speaks (After language language') :=
  ⟨h.denotes.seq hsecond.denotes, by simp [isInvolved, h.uninvolved, hsecond.uninvolved]⟩

theorem Speaks.alt {second : Expr} (h : expr.Speaks language) (hsecond : second.Speaks language') :
    (Expr.alt expr second).Speaks fun w => language w ∨ language' w :=
  ⟨h.denotes.alt hsecond.denotes, by simp [isInvolved, h.uninvolved, hsecond.uninvolved]⟩

theorem Speaks.group (h : expr.Speaks language) (index : Nat) :
    (Expr.group index expr).Speaks language :=
  ⟨h.denotes.group index, h.uninvolved⟩

theorem Speaks.loop (h : expr.Speaks language) (least : Nat) (most : Option Nat)
    (greedy : Bool) : (Expr.loop expr least most greedy).Speaks (Repeated least most language) :=
  ⟨h.denotes.loop least most greedy, h.uninvolved⟩

theorem speaks_set (chars : CharSet) (caseless : Bool) :
    (Expr.set chars caseless).Speaks fun w => ∃ c, w = [c] ∧ chars.contains caseless c = true :=
  ⟨denotes_set chars caseless, rfl⟩

theorem speakAll_nil : SpeakAll [] (· = []) :=
  ⟨denoteAll_nil, fun _ h => absurd h List.not_mem_nil⟩

theorem SpeakAll.append (h : SpeakAll items language) (hothers : SpeakAll others language') :
    SpeakAll (items ++ others) (After language language') := by
  refine ⟨h.denote.append hothers.denote, fun item hitem => ?_⟩
  rcases List.mem_append.1 hitem with hitem | hitem
  · exact h.uninvolved item hitem
  · exact hothers.uninvolved item hitem

theorem SpeakAll.row (h : SpeakAll items language) : (row items).Speaks language :=
  ⟨h.denote.row, isInvolved_row h.uninvolved⟩

end Expr

/-- Where tokens have been read with given switches on, they have put some items after those of the
innermost group, and changed nothing else of it. -/
def Lays (flags : Flags) (tokens : List Token) (known : List Expr → Prop) : Prop :=
  ∀ assembly next : Assembly, assembly.inner.flags = flags →
    assembly.addAll? tokens = some next →
      ∃ items, next.pending = assembly.pending ∧
        next.inner = { assembly.inner with items := items.reverse ++ assembly.inner.items } ∧
        known items

/-- Where tokens have been read with given switches on, they have put one item after those of the
innermost group. -/
def LaysOne (flags : Flags) (tokens : List Token) (known : Expr → Prop) : Prop :=
  Lays flags tokens fun items => ∃ item, items = [item] ∧ known item

/-- Where tokens have been read from the beginning of a group on, with given switches on there,
something is known of what stands in it. -/
def Becomes (flags : Flags) (tokens : List Token) (known : Expr → Prop) : Prop :=
  ∀ assembly next : Assembly, assembly.inner = .start flags →
    assembly.addAll? tokens = some next →
      next.pending = assembly.pending ∧ known next.inner.expr

variable {flags : Flags} {tokens others : List Token} {known more : List Expr → Prop}
  {knownOne moreOne : Expr → Prop} {language language' : List Char → Prop}

theorem AddsItems.lays (h : AddsItems tokens) (flags : Flags) : Lays flags tokens fun _ => True :=
  fun assembly next _ hnext => h assembly next hnext

theorem Lays.mono (h : Lays flags tokens known) (himplies : ∀ items, known items → more items) :
    Lays flags tokens more := by
  intro assembly next hflags hnext
  obtain ⟨items, hpending, hinner, hknown⟩ := h assembly next hflags hnext
  exact ⟨items, hpending, hinner, himplies items hknown⟩

theorem LaysOne.mono (h : LaysOne flags tokens knownOne)
    (himplies : ∀ item, knownOne item → moreOne item) : LaysOne flags tokens moreOne := by
  refine Lays.mono h ?_
  rintro _ ⟨item, rfl, hitem⟩
  exact ⟨item, rfl, himplies item hitem⟩

theorem lays_nil (flags : Flags) : Lays flags [] (· = []) := by
  intro assembly next _ hnext
  rw [← Option.some.inj hnext]
  exact ⟨[], rfl, rfl, rfl⟩

theorem Lays.append (h : Lays flags tokens known) (hmore : Lays flags others more) :
    Lays flags (tokens ++ others) fun items =>
      ∃ front back, items = front ++ back ∧ known front ∧ more back := by
  intro assembly next hflags hnext
  rw [Assembly.addAll?_append] at hnext
  obtain ⟨middle, hmiddle, hnext⟩ := Option.bind_eq_some_iff.1 hnext
  obtain ⟨front, hpending, hinner, hfront⟩ := h assembly middle hflags hmiddle
  have hflags' : middle.inner.flags = flags := by rw [hinner, hflags]
  obtain ⟨back, hpending', hinner', hback⟩ := hmore middle next hflags' hnext
  refine ⟨front ++ back, hpending'.trans hpending, ?_, front, back, rfl, hfront, hback⟩
  rw [hinner', hinner, List.reverse_append, List.append_assoc]

/-- A token that is an item. -/
theorem laysOne_push {token : Token} {item : Expr}
    (h : ∀ assembly : Assembly, assembly.inner.flags = flags →
      assembly.add? token = some (assembly.push item)) :
    LaysOne flags [token] (· = item) := by
  intro assembly next hflags hnext
  rw [Assembly.addAll?_singleton, h assembly hflags] at hnext
  rw [← Option.some.inj hnext]
  exact ⟨[item], rfl, rfl, item, rfl, rfl⟩

theorem laysOne_set (flags : Flags) (chars : CharSet) :
    LaysOne flags [.set chars] (· = .set chars flags.caseless) := by
  refine laysOne_push ?_
  rintro assembly rfl
  rfl

/-- Items from the beginning of a group on are a row. -/
theorem Lays.becomes (h : Lays flags tokens known) :
    Becomes flags tokens fun body => ∃ items, body = row items ∧ known items := by
  intro assembly next hstart hnext
  obtain ⟨items, hpending, hinner, hknown⟩ := h assembly next (by rw [hstart, Open.start]) hnext
  refine ⟨hpending, items, ?_, hknown⟩
  rw [hinner, hstart, Open.expr, Open.branch]
  simp [Open.start, Expr.ofAlternatives, row]

theorem Becomes.and (h : Becomes flags tokens knownOne) (hmore : Becomes flags tokens moreOne) :
    Becomes flags tokens fun body => knownOne body ∧ moreOne body := by
  intro assembly next hstart hnext
  obtain ⟨hpending, hknown⟩ := h assembly next hstart hnext
  exact ⟨hpending, hknown, (hmore assembly next hstart hnext).2⟩

/-- A group is one item, made of what stands in it. -/
theorem Becomes.closed {opening : Opening} (h : Becomes (opening.within flags) tokens knownOne) :
    LaysOne flags (.opening opening :: tokens ++ [.closing]) fun item =>
      ∃ (assembly : Assembly) (body : Expr), knownOne body ∧
        (assembly.enclosureOf opening).close? body = some item := by
  rintro assembly next rfl hnext
  have hkeeps : ∀ entered inside : Assembly, assembly.add? (.opening opening) = some entered →
      entered.addAll? tokens = some inside → inside.pending = entered.pending :=
    fun entered inside hentered hinside =>
      (h entered inside (Assembly.add?_opening hentered).2 hinside).1
  obtain ⟨entered, inside, item, hentered, hinside, hitem, hpending, hinner⟩ :=
    Assembly.of_addAll?_group hkeeps hnext
  have hbody := (h entered inside (Assembly.add?_opening hentered).2 hinside).2
  exact ⟨[item], hpending, hinner, item, rfl, assembly, inside.inner.expr, hbody, hitem⟩

theorem Becomes.grouped (h : Becomes flags tokens knownOne) :
    LaysOne flags (.opening (.plain []) :: tokens ++ [.closing]) knownOne := by
  have hinside : Becomes (Opening.within flags (.plain [])) tokens knownOne := h
  refine hinside.closed.mono ?_
  rintro item ⟨_, body, hbody, hclose⟩
  rwa [← Option.some.inj hclose]

theorem Becomes.capturing (h : Becomes flags tokens knownOne) :
    LaysOne flags (.opening (.capture none) :: tokens ++ [.closing]) fun item =>
      ∃ index body, item = .group index body ∧ knownOne body := by
  have hinside : Becomes (Opening.within flags (.capture none)) tokens knownOne := h
  refine hinside.closed.mono ?_
  rintro item ⟨assembly, body, hbody, hclose⟩
  exact ⟨_, body, (Option.some.inj hclose).symm, hbody⟩

theorem Becomes.lookingAhead (h : Becomes flags tokens knownOne) (negated : Bool) :
    LaysOne flags (.opening (.ahead negated) :: tokens ++ [.closing]) fun item =>
      ∃ body, item = .ahead negated body ∧ knownOne body := by
  have hinside : Becomes (Opening.within flags (.ahead negated)) tokens knownOne := h
  refine hinside.closed.mono ?_
  rintro item ⟨_, body, hbody, hclose⟩
  exact ⟨body, (Option.some.inj hclose).symm, hbody⟩

/-- An item and its quantifier. -/
theorem LaysOne.quantified (h : LaysOne flags tokens knownOne) (least : Nat) (most : Option Nat)
    (questioned : Bool) :
    LaysOne flags (tokens ++ [.quantifier least most questioned false]) fun item =>
      ∃ body, item = .loop body least most (questioned == flags.swapped) ∧ knownOne body := by
  rintro assembly next rfl hnext
  rw [Assembly.addAll?_append] at hnext
  obtain ⟨middle, hmiddle, hnext⟩ := Option.bind_eq_some_iff.1 hnext
  obtain ⟨_, hpending, hinner, body, rfl, hbody⟩ := h assembly middle rfl hmiddle
  rw [Assembly.addAll?_singleton] at hnext
  obtain ⟨_, _, _, hitems, rfl, rfl⟩ := Assembly.exists_of_repeat? hnext
  rw [hinner] at hitems ⊢
  obtain ⟨rfl, rfl⟩ := List.cons.inj hitems
  exact ⟨[_], hpending, rfl, _, rfl, body, rfl, hbody⟩

/-- Tokens lay down items that speak a language. -/
def Voices (flags : Flags) (tokens : List Token) (language : List Char → Prop) : Prop :=
  Lays flags tokens fun items => Expr.SpeakAll items language

/-- Tokens lay down one item that speaks a language. -/
def VoicesOne (flags : Flags) (tokens : List Token) (language : List Char → Prop) : Prop :=
  LaysOne flags tokens fun item => item.Speaks language

theorem VoicesOne.voices (h : VoicesOne flags tokens language) : Voices flags tokens language := by
  refine Lays.mono h ?_
  rintro _ ⟨item, rfl, hitem⟩
  exact hitem.all

theorem VoicesOne.congr (h : VoicesOne flags tokens language)
    (hiff : ∀ w, language w ↔ language' w) : VoicesOne flags tokens language' :=
  LaysOne.mono h fun _ hitem => hitem.congr hiff

theorem VoicesOne.quantified (h : VoicesOne flags tokens language) (least : Nat)
    (most : Option Nat) (questioned : Bool) :
    VoicesOne flags (tokens ++ [.quantifier least most questioned false])
      (Expr.Repeated least most language) := by
  refine (LaysOne.quantified h least most questioned).mono ?_
  rintro _ ⟨body, rfl, hbody⟩
  exact hbody.loop least most _

theorem voicesOne_capturing (h : Becomes flags tokens fun body => body.Speaks language) :
    VoicesOne flags (.opening (.capture none) :: tokens ++ [.closing]) language := by
  refine h.capturing.mono ?_
  rintro _ ⟨index, body, rfl, hbody⟩
  exact hbody.group index

theorem voicesOne_set (flags : Flags) (chars : CharSet) :
    VoicesOne flags [.set chars] fun w =>
      ∃ c, w = [c] ∧ chars.contains flags.caseless c = true := by
  refine (laysOne_set flags chars).mono ?_
  rintro _ rfl
  exact Expr.speaks_set chars flags.caseless

namespace Voices

theorem nil (flags : Flags) : Voices flags [] (· = []) := by
  refine (lays_nil flags).mono ?_
  rintro _ rfl
  exact Expr.speakAll_nil

theorem append (h : Voices flags tokens language) (hothers : Voices flags others language') :
    Voices flags (tokens ++ others) (Expr.After language language') := by
  refine (Lays.append h hothers).mono ?_
  rintro _ ⟨front, back, rfl, hfront, hback⟩
  exact hfront.append hback

theorem becomes (h : Voices flags tokens language) :
    Becomes flags tokens fun body => body.Speaks language := by
  intro assembly next hstart hnext
  obtain ⟨hpending, items, hbody, hitems⟩ := Lays.becomes h assembly next hstart hnext
  exact ⟨hpending, hbody ▸ hitems.row⟩

end Voices

end Waymark.Regex
