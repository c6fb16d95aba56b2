import Waymark.Proofs.Regex.Relocating
/-!
What an expression inherits from its tokens.

A property that rows and alternatives have if their parts do is one of all that has been read, if
every token allows it: what the token adds has the property, or what it makes of an item or of the
inside of a group that has it (`Assembly.All.addAll?`).
-/

namespace Waymark.Regex

/-- Rows and alternatives have a property if their parts do. -/
structure Inherited (P : Expr → Prop) : Prop where
  empty : P .empty
  seq : ∀ first second, P first → P second → P (.seq first second)
  alt : ∀ first second, P first → P second → P (.alt first second)

/-- A group has a property if its inside does. -/
def Enclosure.Allows (P : Expr → Prop) (enclosure : Enclosure) : Prop :=
  ∀ body item, P body → enclosure.close? body = some item → P item

/-- What a token adds has a property, or what it makes of an item or an inside that has it. -/
def Token.Allows (P : Expr → Prop) (assembly : Assembly) : Token → Prop
  | .set chars => ∀ caseless, P (.set chars caseless)
  | .dot => ∀ chars, P (.set chars false)
  | .start | .finish => ∀ place, P (.anchor place)
  | .anchor place => P (.anchor place)
  | .backref _ | .namedBackref _ => ∀ index caseless, P (.backref index caseless)
  | .opening kind => (assembly.enclosureOf kind).Allows P
  | .quantifier least most _ possessive => ∀ item greedy, P item →
      P (if possessive then .atomic (.loop item least most greedy)
        else .loop item least most greedy)
  | .switches _ | .closing | .bar => True

/-- All that has been read of a group has a property. -/
structure Open.All (P : Expr → Prop) (inner : Open) : Prop where
  items : ∀ item ∈ inner.items, P item
  alternatives : ∀ branch ∈ inner.alternatives, P branch

namespace Open.All

variable {P : Expr → Prop} {inner : Open}

theorem start (P : Expr → Prop) (flags : Flags) : (Open.start flags).All P :=
  ⟨fun _ h => absurd h List.not_mem_nil, fun _ h => absurd h List.not_mem_nil⟩

theorem push (h : inner.All P) {item : Expr} (hitem : P item) : (inner.push item).All P :=
  ⟨List.forall_mem_cons.2 ⟨hitem, h.items⟩, h.alternatives⟩

theorem branch (hP : Inherited P) (h : inner.All P) : P inner.branch :=
  Expr.of_row hP.empty hP.seq fun item hitem => h.items item (List.mem_reverse.1 hitem)

theorem expr (hP : Inherited P) (h : inner.All P) : P inner.expr := by
  refine Expr.of_ofAlternatives hP.empty hP.alt fun branch hbranch => ?_
  rcases List.mem_cons.1 (List.mem_reverse.1 hbranch) with rfl | hbranch
  · exact h.branch hP
  · exact h.alternatives branch hbranch

end Open.All

/-- All that has been read has a property, and the groups that are not closed allow it. -/
structure Assembly.All (P : Expr → Prop) (assembly : Assembly) : Prop where
  inner : assembly.inner.All P
  pending : ∀ around ∈ assembly.pending, around.enclosure.Allows P ∧ around.outer.All P

namespace Assembly

variable {P : Expr → Prop} {assembly next : Assembly}

theorem All.push (h : assembly.All P) {item : Expr} (hitem : P item) :
    (assembly.push item).All P :=
  ⟨h.inner.push hitem, h.pending⟩

theorem All.repeat? (h : assembly.All P) {least : Nat} {most : Option Nat}
    {questioned possessive : Bool}
    (hallows : (Token.quantifier least most questioned possessive).Allows P assembly)
    (hnext : assembly.repeat? least most questioned possessive = some next) : next.All P := by
  unfold Assembly.repeat? at hnext
  split at hnext
  · exact absurd hnext (by simp)
  · next item items hitems =>
    have hall := h.inner.items
    rw [hitems] at hall
    obtain ⟨hitem, hrest⟩ := List.forall_mem_cons.1 hall
    split at hnext
    · rw [← Option.some.inj hnext]
      refine ⟨⟨List.forall_mem_cons.2 ⟨?_, hrest⟩, h.inner.alternatives⟩, h.pending⟩
      exact hallows item _ hitem
    · exact absurd hnext (by simp)

theorem All.leave? (hP : Inherited P) (h : assembly.All P) (hnext : assembly.leave? = some next) :
    next.All P := by
  unfold Assembly.leave? at hnext
  split at hnext
  · exact absurd hnext (by simp)
  · next enclosure outer pending hpending =>
    have hall := h.pending
    rw [hpending] at hall
    obtain ⟨⟨henclosure, houter⟩, hrest⟩ := List.forall_mem_cons.1 hall
    obtain ⟨item, hitem, hnext⟩ := Option.bind_eq_some_iff.1 hnext
    rw [← Option.some.inj hnext]
    exact ⟨houter.push (henclosure _ item (h.inner.expr hP) hitem), hrest⟩

/-- A token that allows a property keeps it. -/
theorem All.add? (hP : Inherited P) {token : Token} (h : assembly.All P)
    (hallows : token.Allows P assembly) (hnext : assembly.add? token = some next) :
    next.All P := by
  cases token with
  | set | dot | start | finish =>
      rw [← Option.some.inj hnext]
      exact h.push (hallows _)
  | anchor =>
      rw [← Option.some.inj hnext]
      exact h.push hallows
  | backref =>
      simp only [Assembly.add?, Option.ite_none_right_eq_some, Option.some.injEq] at hnext
      rw [← hnext.2]
      exact ⟨h.inner.push (hallows _ _), h.pending⟩
  | namedBackref =>
      obtain ⟨index, _, hnext⟩ := Option.bind_eq_some_iff.1 hnext
      rw [← Option.some.inj hnext]
      exact h.push (hallows _ _)
  | switches changes =>
      rw [← Option.some.inj hnext]
      exact ⟨⟨(h.inner.push hP.empty).items, h.inner.alternatives⟩, h.pending⟩
  | bar =>
      rw [← Option.some.inj hnext]
      refine ⟨⟨fun _ hitem => absurd hitem List.not_mem_nil, ?_⟩, h.pending⟩
      exact List.forall_mem_cons.2 ⟨h.inner.branch hP, h.inner.alternatives⟩
  | quantifier => exact h.repeat? hallows hnext
  | closing => exact h.leave? hP hnext
  | opening opening =>
      obtain ⟨hpending, hinner⟩ := add?_opening hnext
      refine ⟨hinner ▸ .start P _, ?_⟩
      rw [hpending]
      exact List.forall_mem_cons.2 ⟨⟨hallows, h.inner⟩, h.pending⟩

theorem all_alone (P : Expr → Prop) (flags : Flags) : (alone flags).All P :=
  ⟨.start P flags, fun _ h => absurd h List.not_mem_nil⟩

/-- Tokens that allow a property in every reading that is on the way keep it. -/
theorem All.addAll? (hP : Inherited P) {tokens : List Token} (h : assembly.All P)
    (hallows : ∀ token ∈ tokens, ∀ before after : Assembly, before.add? token = some after →
      assembly.groupCount ≤ before.groupCount → after.groupCount ≤ next.groupCount →
        token.Allows P before)
    (hnext : assembly.addAll? tokens = some next) : next.All P := by
  induction tokens generalizing assembly with
  | nil => exact Option.some.inj hnext ▸ h
  | cons token tokens ih =>
      obtain ⟨htoken, hallows⟩ := List.forall_mem_cons.1 hallows
      rw [addAll?_cons] at hnext
      obtain ⟨middle, hmiddle, hnext⟩ := Option.bind_eq_some_iff.1 hnext
      have hcount : middle.groupCount ≤ next.groupCount := by
        rw [groupCount_of_addAll? hnext]
        exact Nat.le_add_right _ _
      have hgrows : assembly.groupCount ≤ middle.groupCount := by
        rw [groupCount_of_add? hmiddle]
        exact Nat.le_add_right _ _
      refine ih (h.add? hP (htoken assembly middle hmiddle (Nat.le_refl _) hcount) hmiddle)
        (fun token htoken before after hafter hle => ?_) hnext
      exact hallows token htoken before after hafter (Nat.le_trans hgrows hle)

end Assembly

/-- Everything that is made of expressions has a property if they do, groups that capture set apart,
and so do the alternatives of an expression. -/
structure Hereditary (P : Expr → Prop) : Prop extends Inherited P where
  set : ∀ chars caseless, P (.set chars caseless)
  anchor : ∀ place, P (.anchor place)
  loop : ∀ body least most greedy, P body → P (.loop body least most greedy)
  ahead : ∀ negated body, P body → P (.ahead negated body)
  behind : ∀ negated width body, P body → P (.behind negated width body)
  atomic : ∀ body, P body → P (.atomic body)
  of_alt : ∀ first second, P (.alt first second) → P first ∧ P second

theorem exists_of_mem_mapM_eq_some {α β : Type} {f : α → Option β} {items : List α}
    {results : List β} (h : items.mapM f = some results) {result : β} (hresult : result ∈ results) :
    ∃ item ∈ items, f item = some result := by
  induction items generalizing results with
  | nil =>
      obtain rfl := Option.some.inj h
      exact absurd hresult List.not_mem_nil
  | cons item items ih =>
      rw [List.mapM_cons] at h
      obtain ⟨first, hfirst, h⟩ := Option.bind_eq_some_iff.1 h
      obtain ⟨others, hothers, h⟩ := Option.bind_eq_some_iff.1 h
      obtain rfl := Option.some.inj h
      rcases List.mem_cons.1 hresult with rfl | hresult
      · exact ⟨item, List.mem_cons_self, hfirst⟩
      · obtain ⟨other, hother, heq⟩ := ih hothers hresult
        exact ⟨other, List.mem_cons_of_mem item hother, heq⟩

namespace Hereditary

variable {P : Expr → Prop}

theorem of_alternatives (hP : Hereditary P) {body : Expr} (h : P body) :
    ∀ branch ∈ body.alternatives, P branch := by
  induction body with
  | alt first second ihfirst _ =>
      obtain ⟨hfirst, hsecond⟩ := hP.of_alt first second h
      intro branch hbranch
      rcases List.mem_append.1 hbranch with hbranch | hbranch
      · exact ihfirst hfirst branch hbranch
      · rwa [List.mem_singleton.1 hbranch]
  | _ => exact List.forall_mem_singleton.2 h

theorem allows_behind (hP : Hereditary P) (negated : Bool) :
    (Enclosure.behind negated).Allows P := by
  intro body item hbody hitem
  obtain ⟨looks, hlooks, hitem⟩ := Option.bind_eq_some_iff.1 hitem
  have hall : ∀ look ∈ looks, P look := by
    intro look hlook
    obtain ⟨branch, hbranch, hlook⟩ := exists_of_mem_mapM_eq_some hlooks hlook
    obtain ⟨width, -, hlook⟩ := Option.bind_eq_some_iff.1 hlook
    rw [← Option.some.inj hlook]
    exact hP.behind _ _ _ (hP.of_alternatives hbody branch hbranch)
  rw [← Option.some.inj hitem]
  split
  · exact Expr.of_ofSeq hP.empty hP.seq hall
  · exact Expr.of_ofAlternatives hP.empty hP.alt hall

/-- A token that does not refer back allows a property, if its group does where it captures. -/
theorem allows (hP : Hereditary P) {token : Token} {assembly : Assembly}
    (hplain : token.refersBack = false)
    (hcapture : token.captures = true → ∀ body, P body → P (.group (assembly.groupCount + 1) body)) :
    token.Allows P assembly := by
  cases token with
  | backref | namedBackref => simp [Token.refersBack] at hplain
  | set chars => exact hP.set chars
  | dot => exact fun chars => hP.set chars false
  | start | finish => exact hP.anchor
  | anchor place => exact hP.anchor place
  | switches | closing | bar => trivial
  | quantifier least most questioned possessive =>
      intro item greedy hitem
      split
      · exact hP.atomic _ (hP.loop _ _ _ _ hitem)
      · exact hP.loop _ _ _ _ hitem
  | opening kind =>
      cases kind with
      | behind negated => exact hP.allows_behind negated
      | capture =>
          intro body item hbody hitem
          rw [← Option.some.inj hitem]
          exact hcapture rfl body hbody
      | plain =>
          intro body item hbody hitem
          rwa [← Option.some.inj hitem]
      | ahead negated =>
          intro body item hbody hitem
          rw [← Option.some.inj hitem]
          exact hP.ahead negated body hbody
      | atomic =>
          intro body item hbody hitem
          rw [← Option.some.inj hitem]
          exact hP.atomic body hbody

end Hereditary

/-- Nothing refers back, and the groups have numbers from one on up to a bound. -/
structure Expr.Numbered (bound : Nat) (expr : Expr) : Prop where
  plain : expr.hasBackref = false
  groups : ∀ index ∈ expr.groups, 1 ≤ index ∧ index ≤ bound

theorem hereditary_numbered (bound : Nat) : Hereditary (Expr.Numbered bound) where
  empty := ⟨rfl, by simp [Expr.groups]⟩
  set _ _ := ⟨rfl, by simp [Expr.groups]⟩
  anchor _ := ⟨rfl, by simp [Expr.groups]⟩
  seq _ _ hfirst hsecond := ⟨by simp [Expr.hasBackref, hfirst.plain, hsecond.plain],
    List.forall_mem_append.2 ⟨hfirst.groups, hsecond.groups⟩⟩
  alt _ _ hfirst hsecond := ⟨by simp [Expr.hasBackref, hfirst.plain, hsecond.plain],
    List.forall_mem_append.2 ⟨hfirst.groups, hsecond.groups⟩⟩
  loop _ _ _ _ h := ⟨h.plain, h.groups⟩
  ahead _ _ h := ⟨h.plain, h.groups⟩
  behind _ _ _ h := ⟨h.plain, h.groups⟩
  atomic _ h := ⟨h.plain, h.groups⟩
  of_alt first second h := by
    have hplain := Bool.or_eq_false_iff.1 h.plain
    have hgroups := List.forall_mem_append.1 h.groups
    exact ⟨⟨hplain.1, hgroups.1⟩, ⟨hplain.2, hgroups.2⟩⟩

/-- Tokens that do not refer back make an expression whose groups are numbered from one on. -/
theorem Assembly.numbered_of_addAll? {flags : Flags} {tokens : List Token} {next : Assembly}
    (hplain : ∀ token ∈ tokens, token.refersBack = false)
    (h : (alone flags).addAll? tokens = some next) :
    next.inner.expr.Numbered next.groupCount := by
  have hP := hereditary_numbered next.groupCount
  have hall : next.All (Expr.Numbered next.groupCount) := by
    refine (all_alone _ flags).addAll? hP.toInherited
      (fun token htoken before after hafter _ hle => ?_) h
    refine hP.allows (hplain token htoken) fun hcaptures body hbody => ⟨hbody.plain, ?_⟩
    rw [groupCount_of_add? hafter, if_pos hcaptures] at hle
    refine List.forall_mem_cons.2 ⟨⟨Nat.le_add_left 1 _, hle⟩, hbody.groups⟩
  exact hall.inner.expr hP.toInherited

end Waymark.Regex
