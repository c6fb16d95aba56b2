import Waymark.Proofs.Regex.Growing
/-!
Where the groups of an expression are.

A group that has been read stays in the expression, whatever is read after it
(`hasGroup_of_addAll?`). So a group that is written between its parentheses is found in the
expression under the number of groups opened before it (`captures_of_stands`).
-/

namespace Waymark.Regex

open Token (Balanced)

/-- Whether a group with a number and an inside is part of an expression. -/
def Expr.HasGroup (expr : Expr) (index : Nat) (inside : Expr) : Prop :=
  match expr with
  | .empty | .set .. | .anchor _ | .backref .. => False
  | .seq first second | .alt first second =>
      first.HasGroup index inside ∨ second.HasGroup index inside
  | .group number body => number = index ∧ body = inside ∨ body.HasGroup index inside
  | .loop body .. | .ahead _ body | .behind _ _ body | .atomic body => body.HasGroup index inside

section Parts

variable {index : Nat} {inside : Expr}

namespace Expr

theorem hasGroup_foldl {join : Expr → Expr → Expr}
    (hjoin : ∀ first second : Expr, first.HasGroup index inside ∨ second.HasGroup index inside →
      (join first second).HasGroup index inside) {first : Expr} {rest : List Expr}
    (h : ∃ item ∈ first :: rest, item.HasGroup index inside) :
    (rest.foldl join first).HasGroup index inside := by
  induction rest generalizing first with
  | nil =>
      obtain ⟨item, hitem, h⟩ := h
      rw [← List.mem_singleton.1 hitem]
      exact h
  | cons next rest ih =>
      refine ih ?_
      obtain ⟨item, hitem, h⟩ := h
      rcases List.mem_cons.1 hitem with rfl | hitem
      · exact ⟨_, List.mem_cons_self, hjoin item next (.inl h)⟩
      · rcases List.mem_cons.1 hitem with rfl | hitem
        · exact ⟨_, List.mem_cons_self, hjoin first item (.inr h)⟩
        · exact ⟨item, List.mem_cons_of_mem _ hitem, h⟩

theorem hasGroup_ofSeq {items : List Expr} {item : Expr} (hitem : item ∈ items)
    (h : item.HasGroup index inside) : (ofSeq items).HasGroup index inside := by
  have hjoin : ∀ first second : Expr,
      first.HasGroup index inside ∨ second.HasGroup index inside →
        (seq first second).HasGroup index inside := fun _ _ h => h
  cases items with
  | nil => exact absurd hitem List.not_mem_nil
  | cons first rest => exact hasGroup_foldl hjoin ⟨item, hitem, h⟩

theorem hasGroup_ofAlternatives {items : List Expr} {item : Expr} (hitem : item ∈ items)
    (h : item.HasGroup index inside) : (ofAlternatives items).HasGroup index inside := by
  have hjoin : ∀ first second : Expr,
      first.HasGroup index inside ∨ second.HasGroup index inside →
        (alt first second).HasGroup index inside := fun _ _ h => h
  cases items with
  | nil => exact absurd hitem List.not_mem_nil
  | cons first rest => exact hasGroup_foldl hjoin ⟨item, hitem, h⟩

/-- A group is in one of the alternatives. -/
theorem exists_alternative {expr : Expr} (h : expr.HasGroup index inside) :
    ∃ alternative ∈ expr.alternatives, alternative.HasGroup index inside := by
  induction expr with
  | alt first second ihfirst _ =>
      rcases h with h | h
      · obtain ⟨alternative, hmem, h⟩ := ihfirst h
        exact ⟨alternative, List.mem_append_left _ hmem, h⟩
      · exact ⟨second, List.mem_append_right _ (List.mem_singleton_self second), h⟩
  | _ => exact ⟨_, List.mem_singleton_self _, h⟩

end Expr

theorem exists_of_mapM_eq_some {α β : Type} {f : α → Option β} {items : List α} {results : List β}
    (h : items.mapM f = some results) {item : α} (hitem : item ∈ items) :
    ∃ result ∈ results, f item = some result := by
  induction items generalizing results with
  | nil => exact absurd hitem List.not_mem_nil
  | cons first rest ih =>
      rw [List.mapM_cons] at h
      obtain ⟨result, hresult, h⟩ := Option.bind_eq_some_iff.1 h
      obtain ⟨others, hothers, h⟩ := Option.bind_eq_some_iff.1 h
      obtain rfl := Option.some.inj h
      rcases List.mem_cons.1 hitem with rfl | hitem
      · exact ⟨result, List.mem_cons_self, hresult⟩
      · obtain ⟨found, hfound, heq⟩ := ih hothers hitem
        exact ⟨found, List.mem_cons_of_mem result hfound, heq⟩

/-- A look behind has the groups of its body in the looks behind its alternatives. -/
theorem hasGroup_of_lookBehind? {negated : Bool} {body item : Expr}
    (hlook : lookBehind? negated body = some item) (h : body.HasGroup index inside) :
    item.HasGroup index inside := by
  obtain ⟨alternative, hmem, h⟩ := Expr.exists_alternative h
  obtain ⟨looks, hlooks, hlook⟩ := Option.bind_eq_some_iff.1 hlook
  obtain ⟨look, hmem, hwidth⟩ := exists_of_mapM_eq_some hlooks hmem
  obtain ⟨width, _, hwidth⟩ := Option.bind_eq_some_iff.1 hwidth
  have hgroup : look.HasGroup index inside := by
    rw [← Option.some.inj hwidth]
    exact h
  rw [← Option.some.inj hlook]
  split
  · exact Expr.hasGroup_ofSeq hmem hgroup
  · exact Expr.hasGroup_ofAlternatives hmem hgroup

/-- A group that has been read is in the group that is closed around it. -/
theorem hasGroup_of_close? {enclosure : Enclosure} {body item : Expr}
    (hclose : enclosure.close? body = some item) (h : body.HasGroup index inside) :
    item.HasGroup index inside := by
  cases enclosure with
  | capture number =>
      rw [← Option.some.inj hclose]
      exact .inr h
  | behind negated => exact hasGroup_of_lookBehind? hclose h
  | plain | ahead | atomic =>
      rw [← Option.some.inj hclose]
      exact h

/-- Whether a group is among what has been read of a group that is open. -/
def Open.HasGroup (inner : Open) (index : Nat) (inside : Expr) : Prop :=
  ∃ item, (item ∈ inner.items ∨ item ∈ inner.alternatives) ∧ item.HasGroup index inside

/-- Whether a group is among what has been read. -/
def Assembly.HasGroup (assembly : Assembly) (index : Nat) (inside : Expr) : Prop :=
  assembly.inner.HasGroup index inside ∨
    ∃ pending ∈ assembly.pending, pending.outer.HasGroup index inside

theorem Open.hasGroup_branch {inner : Open} {item : Expr} (hitem : item ∈ inner.items)
    (h : item.HasGroup index inside) : inner.branch.HasGroup index inside := by
  refine Expr.hasGroup_ofSeq (List.mem_filter.2 ⟨List.mem_reverse.2 hitem, ?_⟩) h
  simp only [ne_eq, decide_eq_true_eq]
  rintro rfl
  exact h

theorem Open.hasGroup_expr {inner : Open} (h : inner.HasGroup index inside) :
    inner.expr.HasGroup index inside := by
  obtain ⟨item, hitem | hitem, h⟩ := h
  · exact Expr.hasGroup_ofAlternatives (by simp) (Open.hasGroup_branch hitem h)
  · exact Expr.hasGroup_ofAlternatives (by simp [hitem]) h

theorem Open.hasGroup_push {inner : Open} (item : Expr) (h : inner.HasGroup index inside) :
    (inner.push item).HasGroup index inside := by
  obtain ⟨other, hother | hother, h⟩ := h
  · exact ⟨other, .inl (List.mem_cons_of_mem item hother), h⟩
  · exact ⟨other, .inr hother, h⟩

namespace Assembly

variable {assembly next : Assembly}

theorem hasGroup_of_enter? {enclosure : Enclosure} {flags : Flags}
    (hnext : assembly.enter? enclosure flags = some next) (h : assembly.HasGroup index inside) :
    next.HasGroup index inside := by
  obtain ⟨hpending, _⟩ := pending_of_enter? hnext
  refine .inr ?_
  rw [hpending]
  rcases h with h | ⟨pending, hmem, h⟩
  · exact ⟨_, List.mem_cons_self, h⟩
  · exact ⟨pending, List.mem_cons_of_mem _ hmem, h⟩

theorem hasGroup_of_leave? (hnext : assembly.leave? = some next)
    (h : assembly.HasGroup index inside) : next.HasGroup index inside := by
  obtain ⟨enclosure, outer, pending, item, hpending, hitem, rfl⟩ := exists_of_leave? hnext
  rcases h with h | ⟨other, hmem, h⟩
  · exact .inl ⟨item, .inl List.mem_cons_self, hasGroup_of_close? hitem (Open.hasGroup_expr h)⟩
  · rw [hpending] at hmem
    rcases List.mem_cons.1 hmem with rfl | hmem
    · exact .inl (Open.hasGroup_push item h)
    · exact .inr ⟨other, hmem, h⟩

theorem hasGroup_of_repeat? {least : Nat} {most : Option Nat} {questioned possessive : Bool}
    (hnext : assembly.repeat? least most questioned possessive = some next)
    (h : assembly.HasGroup index inside) : next.HasGroup index inside := by
  obtain ⟨first, rest, loop, hitems, rfl, rfl⟩ := exists_of_repeat? hnext
  rcases h with ⟨item, hitem, h⟩ | hpending
  · refine .inl ?_
    rw [hitems, List.mem_cons] at hitem
    rcases hitem with (rfl | hitem) | hitem
    · refine ⟨_, .inl List.mem_cons_self, ?_⟩
      cases possessive <;> exact h
    · exact ⟨item, .inl (List.mem_cons_of_mem _ hitem), h⟩
    · exact ⟨item, .inr hitem, h⟩
  · exact .inr hpending

theorem hasGroup_push (item : Expr) (h : assembly.HasGroup index inside) :
    (assembly.push item).HasGroup index inside := by
  rcases h with h | hpending
  · exact .inl (Open.hasGroup_push item h)
  · exact .inr hpending

/-- A bar ends the alternative that has been read. -/
theorem hasGroup_bar (hnext : assembly.add? .bar = some next)
    (h : assembly.HasGroup index inside) : next.HasGroup index inside := by
  rw [← Option.some.inj hnext]
  rcases h with ⟨item, hitem | hitem, h⟩ | hpending
  · exact .inl ⟨_, .inr List.mem_cons_self, Open.hasGroup_branch hitem h⟩
  · exact .inl ⟨item, .inr (List.mem_cons_of_mem _ hitem), h⟩
  · exact .inr hpending

/-- What has been read stays in the expression when a token is added. -/
theorem hasGroup_of_add? {token : Token} (hnext : assembly.add? token = some next)
    (h : assembly.HasGroup index inside) : next.HasGroup index inside := by
  cases token with
  | opening opening => cases opening <;> exact hasGroup_of_enter? hnext h
  | closing => exact hasGroup_of_leave? hnext h
  | quantifier => exact hasGroup_of_repeat? hnext h
  | bar => exact hasGroup_bar hnext h
  | backref number =>
      simp only [add?, Option.ite_none_right_eq_some, Option.some.injEq] at hnext
      rw [← hnext.2]
      exact hasGroup_push _ h
  | namedBackref name =>
      obtain ⟨number, _, hnext⟩ := Option.bind_eq_some_iff.1 hnext
      rw [← Option.some.inj hnext]
      exact hasGroup_push _ h
  | _ =>
      rw [← Option.some.inj hnext]
      exact hasGroup_push _ h

theorem hasGroup_of_addAll? {tokens : List Token} (hnext : assembly.addAll? tokens = some next)
    (h : assembly.HasGroup index inside) : next.HasGroup index inside := by
  induction tokens generalizing assembly with
  | nil =>
      rw [← Option.some.inj hnext]
      exact h
  | cons token tokens ih =>
      obtain ⟨middle, hmiddle, hrest⟩ := Option.bind_eq_some_iff.1 hnext
      exact ih hrest (hasGroup_of_add? hmiddle h)

theorem hasGroup_of_finish? {expr : Expr} (hexpr : assembly.finish? = some expr)
    (h : assembly.HasGroup index inside) : expr.HasGroup index inside := by
  simp only [finish?, Bool.and_eq_true, List.isEmpty_iff, Option.ite_none_right_eq_some,
    Option.some.injEq] at hexpr
  obtain ⟨⟨hpending, _⟩, rfl⟩ := hexpr
  rcases h with h | ⟨pending, hmem, _⟩
  · exact Open.hasGroup_expr h
  · rw [hpending] at hmem
    exact absurd hmem List.not_mem_nil

end Assembly

end Parts

/-- The tokens of a group stand among others, after a number of openings that capture. -/
def Token.Stands (tokens : List Token) (number : Nat) (group : List Token) : Prop :=
  ∃ before after, tokens = before ++ group ++ after ∧ before.countP Token.captures = number

namespace Token.Stands

variable {tokens group : List Token} {number : Nat}

theorem append_right (h : Stands tokens number group) (others : List Token) :
    Stands (tokens ++ others) number group := by
  obtain ⟨before, after, rfl, hcount⟩ := h
  exact ⟨before, after ++ others, by simp, hcount⟩

theorem append_left (h : Stands tokens number group) (others : List Token) :
    Stands (others ++ tokens) (others.countP Token.captures + number) group := by
  obtain ⟨before, after, rfl, rfl⟩ := h
  exact ⟨others ++ before, after, by simp, List.countP_append⟩

theorem grouped (h : Stands tokens number group) (switches : List (Switch × Bool)) :
    Stands (.opening (.plain switches) :: tokens ++ [.closing]) number group := by
  have henclosed := (h.append_left [.opening (.plain switches)]).append_right [.closing]
  rwa [show [Token.opening (.plain switches)].countP Token.captures = 0 from rfl,
    Nat.zero_add] at henclosed

end Token.Stands

section Standing

/-- Tokens leave the switches alone. -/
def Steady (tokens : List Token) : Prop :=
  ∀ assembly next : Assembly, assembly.addAll? tokens = some next →
    next.inner.flags = assembly.inner.flags

variable {tokens others group : List Token} {number : Nat}

theorem Grows.steady {known : Nat → List Expr → Prop} (h : Grows tokens known) : Steady tokens := by
  intro assembly next hnext
  obtain ⟨items, -, hinner, -⟩ := h assembly next hnext
  rw [hinner]

theorem Steady.append (h : Steady tokens) (hothers : Steady others) : Steady (tokens ++ others) := by
  intro assembly next hnext
  rw [Assembly.addAll?_append] at hnext
  obtain ⟨middle, hmiddle, hnext⟩ := Option.bind_eq_some_iff.1 hnext
  exact (hothers middle next hnext).trans (h assembly middle hmiddle)

theorem steady_opening : Steady [.opening (.plain [])] := by
  intro assembly next hnext
  rw [Assembly.addAll?_singleton] at hnext
  rw [(Assembly.add?_opening hnext).2]
  rfl

/-- The tokens of a group stand among others, after a number of openings that capture, and those before
them leave the switches alone. -/
def StandsSteady (tokens : List Token) (number : Nat) (group : List Token) : Prop :=
  ∃ before after, tokens = before ++ group ++ after ∧ before.countP Token.captures = number ∧
    Steady before

namespace StandsSteady

theorem stands (h : StandsSteady tokens number group) : Token.Stands tokens number group := by
  obtain ⟨before, after, htokens, hcount, -⟩ := h
  exact ⟨before, after, htokens, hcount⟩

theorem self (group : List Token) : StandsSteady group 0 group :=
  ⟨[], [], by simp, rfl, Grows.nil.steady⟩

theorem append_right (h : StandsSteady tokens number group) (others : List Token) :
    StandsSteady (tokens ++ others) number group := by
  obtain ⟨before, after, rfl, hcount, hsteady⟩ := h
  exact ⟨before, after ++ others, by simp, hcount, hsteady⟩

theorem append_left (h : StandsSteady tokens number group) (hothers : Steady others) :
    StandsSteady (others ++ tokens) (others.countP Token.captures + number) group := by
  obtain ⟨before, after, rfl, rfl, hsteady⟩ := h
  exact ⟨others ++ before, after, by simp, List.countP_append, hothers.append hsteady⟩

theorem grouped (h : StandsSteady tokens number group) :
    StandsSteady (.opening (.plain []) :: tokens ++ [.closing]) number group := by
  have henclosed := (h.append_left steady_opening).append_right [.closing]
  rwa [show [Token.opening (.plain [])].countP Token.captures = 0 from rfl,
    Nat.zero_add] at henclosed

end StandsSteady

end Standing

/-- A group captures what is written as a text in parentheses: the tokens of the text, which close
the groups they open, stand after the openings of the groups with lower numbers, and what has been
read of them is the inside of the group. -/
def Captures (regex : Regex) (number : Nat) (text : List Char) : Prop :=
  ∃ before inside after read,
    Token.ofChars? regex.source =
      some (before ++ (.opening (.capture none) :: inside ++ [.closing]) ++ after) ∧
    before.countP Token.captures + 1 = number ∧ Balanced inside ∧
    Token.ofChars? ('(' :: text ++ [')']) =
      some (.opening (.capture none) :: inside ++ [.closing]) ∧
    Assembly.start.addAll? (before ++ .opening (.capture none) :: inside) = some read ∧
    regex.expr.HasGroup number read.inner.expr

/-- A group that stands among the tokens of an expression is a group of the expression. -/
theorem captures_of_stands {source text : List Char} {tokens inside : List Token} {number : Nat}
    {regex : Regex} (h : compile? source = some regex)
    (htokens : Token.ofChars? source = some tokens)
    (hstands : Token.Stands tokens number (.opening (.capture none) :: inside ++ [.closing]))
    (hbalanced : Balanced inside)
    (htext : Token.ofChars? ('(' :: text ++ [')']) =
      some (.opening (.capture none) :: inside ++ [.closing])) :
    regex.Captures (number + 1) text := by
  obtain ⟨before, after, rfl, rfl⟩ := hstands
  obtain ⟨_, last, htokens', hlast, hexpr, hsource, _⟩ := compile?_eq_some h
  obtain rfl := Option.some.inj (htokens.symm.trans htokens')
  -- What comes before the group has been read, then the group, then what comes after it.
  rw [Assembly.addAll?_append] at hlast
  obtain ⟨closed, hclosed, hlast⟩ := Option.bind_eq_some_iff.1 hlast
  rw [Assembly.addAll?_append] at hclosed
  obtain ⟨first, hfirst, hclosed⟩ := Option.bind_eq_some_iff.1 hclosed
  obtain ⟨entered, read, item, hentered, hread, hitem, _, hinner⟩ := Assembly.of_addAll?_group
    (fun _ _ _ => Assembly.pending_of_balanced hbalanced) hclosed
  have hcount := Assembly.groupCount_of_addAll? hfirst
  rw [show Assembly.start.groupCount = 0 from rfl, Nat.zero_add] at hcount
  refine ⟨before, inside, after, read, hsource ▸ htokens, rfl, hbalanced, htext, ?_, ?_⟩
  · rw [Assembly.addAll?_append, hfirst, Option.bind_some, Assembly.addAll?_cons, hentered]
    exact hread
  · refine Assembly.hasGroup_of_finish? hexpr (Assembly.hasGroup_of_addAll? hlast (.inl ?_))
    rw [hinner]
    refine ⟨item, .inl List.mem_cons_self, ?_⟩
    rw [← Option.some.inj hitem, hcount]
    exact .inl ⟨rfl, rfl⟩

end Waymark.Regex
