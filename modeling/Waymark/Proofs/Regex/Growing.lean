import Waymark.Proofs.Regex.Enclosed
import Waymark.Proofs.Regex.Numbering
import Waymark.Proofs.Regex.Assembling
/-!
What tokens have added to an expression that has been read.

Where `Adds` tells that tokens are accepted and gives the items they add, `Grows` supposes that they
are, and tells of these items what is known: tokens that leave the groups around alone put items
after those of the innermost group. A group puts one item there whatever stands in it
(`addsOne_group`), because the tokens in it do not reach the groups around (`pending_of_addAll?`).
-/

namespace Waymark.Regex

open Token (Balanced level? levelAfter? level?_cons)

/-- The switches that are on inside a group, given those around it. -/
def Opening.within (flags : Flags) : Opening → Flags
  | .plain switches => flags.setAll switches
  | _ => flags

namespace Assembly

variable {assembly next : Assembly}

section Depth

variable {depth deeper : Nat} {front base : List Pending}

theorem pending_of_enter? {enclosure : Enclosure} {flags : Flags}
    (h : assembly.enter? enclosure flags = some next) :
    next.pending = ⟨enclosure, assembly.inner⟩ :: assembly.pending ∧ next.inner = .start flags := by
  obtain ⟨-, rfl⟩ := enter?_eq_some_iff.1 h
  exact ⟨rfl, rfl⟩

theorem leave?_eq_some {enclosure : Enclosure} {outer : Open} {pending : List Pending}
    (hpending : assembly.pending = ⟨enclosure, outer⟩ :: pending) (h : assembly.leave? = some next) :
    ∃ item, enclosure.close? assembly.inner.expr = some item ∧ next.pending = pending ∧
      next.inner = outer.push item := by
  obtain ⟨_, _, _, item, hwaiting, hitem, rfl⟩ := exists_of_leave? h
  obtain ⟨hsame, rfl⟩ := List.cons.inj (hpending.symm.trans hwaiting)
  obtain ⟨rfl, rfl⟩ := Pending.mk.inj hsame
  exact ⟨item, hitem, rfl, rfl⟩

theorem pending_of_repeat? {least : Nat} {most : Option Nat} {questioned possessive : Bool}
    (h : assembly.repeat? least most questioned possessive = some next) :
    next.pending = assembly.pending := by
  obtain ⟨_, _, _, -, -, rfl⟩ := exists_of_repeat? h
  rfl

/-- What a group makes of its inside, by the token that opens it. -/
def enclosureOf (assembly : Assembly) : Opening → Enclosure
  | .capture _ => .capture (assembly.groupCount + 1)
  | .plain _ => .plain
  | .ahead negated => .ahead negated
  | .behind negated => .behind negated
  | .atomic => .atomic

theorem add?_opening {opening : Opening} (h : assembly.add? (.opening opening) = some next) :
    next.pending = ⟨assembly.enclosureOf opening, assembly.inner⟩ :: assembly.pending ∧
      next.inner = .start (opening.within assembly.inner.flags) := by
  cases opening <;>
    · obtain ⟨hpending, hinner⟩ := pending_of_enter? h
      exact ⟨hpending, hinner⟩

/-- A token that neither opens nor closes a group leaves the groups around alone. -/
theorem pending_of_inside {token : Token} (h : assembly.add? token = some next)
    (hopening : ∀ opening, token ≠ .opening opening) (hclosing : token ≠ .closing) :
    next.pending = assembly.pending := by
  cases token with
  | opening opening => exact absurd rfl (hopening opening)
  | closing => exact absurd rfl hclosing
  | quantifier => exact pending_of_repeat? h
  | backref index =>
      simp only [add?, Option.ite_none_right_eq_some, Option.some.injEq] at h
      exact (congrArg Assembly.pending h.2).symm
  | namedBackref name =>
      obtain ⟨index, _, h⟩ := Option.bind_eq_some_iff.1 h
      exact (congrArg Assembly.pending (Option.some.inj h)).symm
  | _ => exact (congrArg Assembly.pending (Option.some.inj h)).symm

/-- A token enters or leaves the innermost group, or stays in it. -/
theorem pending_of_add? {token : Token} (h : assembly.add? token = some next)
    (hlevel : levelAfter? depth token = some deeper) (hpending : assembly.pending = front ++ base)
    (hlength : front.length = depth) :
    ∃ front', next.pending = front' ++ base ∧ front'.length = deeper := by
  cases token with
  | opening opening =>
      obtain rfl : depth + 1 = deeper := Option.some.inj hlevel
      have hnext := (add?_opening h).1
      rw [hpending, ← List.cons_append] at hnext
      exact ⟨_, hnext, by rw [List.length_cons, hlength]⟩
  | closing =>
      cases depth with
      | zero => exact absurd hlevel (by simp [levelAfter?])
      | succ depth =>
          obtain rfl : depth = deeper := Option.some.inj hlevel
          obtain ⟨⟨enclosure, outer⟩, front, rfl⟩ := List.exists_cons_of_length_eq_add_one hlength
          obtain ⟨_, _, hrest, _⟩ := leave?_eq_some hpending h
          exact ⟨front, hrest, Nat.succ.inj hlength⟩
  | _ =>
      obtain rfl : depth = deeper := Option.some.inj hlevel
      refine ⟨front, ?_, hlength⟩
      rw [pending_of_inside h (by simp) (by simp), hpending]

theorem pending_of_addAll? {tokens : List Token} (h : assembly.addAll? tokens = some next)
    (hlevel : level? depth tokens = some deeper) (hpending : assembly.pending = front ++ base)
    (hlength : front.length = depth) :
    ∃ front', next.pending = front' ++ base ∧ front'.length = deeper := by
  -- As many groups as the depth lie before those around, which no token reaches.
  induction tokens generalizing assembly depth front with
  | nil =>
      obtain rfl : depth = deeper := Option.some.inj hlevel
      rw [← Option.some.inj h]
      exact ⟨front, hpending, hlength⟩
  | cons token tokens ih =>
      rw [level?_cons] at hlevel
      obtain ⟨middle, hmiddle, hrest⟩ := Option.bind_eq_some_iff.1 hlevel
      obtain ⟨after, hafter, h⟩ := Option.bind_eq_some_iff.1 h
      obtain ⟨front', hpending', hlength'⟩ := pending_of_add? hafter hmiddle hpending hlength
      exact ih h hrest hpending' hlength'

end Depth

/-- Tokens that close the groups they open leave the groups around alone. -/
theorem pending_of_balanced {tokens : List Token} (hbalanced : Balanced tokens)
    (h : assembly.addAll? tokens = some next) : next.pending = assembly.pending := by
  obtain ⟨front, hfront, hlength⟩ := pending_of_addAll? h hbalanced (List.nil_append _).symm rfl
  rw [hfront, List.length_eq_zero_iff.1 hlength, List.nil_append]

/-- A group whose inside leaves the groups around alone becomes one item. -/
theorem of_addAll?_group {opening : Opening} {tokens : List Token}
    (hkeeps : ∀ entered inside : Assembly, assembly.add? (.opening opening) = some entered →
      entered.addAll? tokens = some inside → inside.pending = entered.pending)
    (h : assembly.addAll? (.opening opening :: tokens ++ [.closing]) = some next) :
    ∃ entered inside item, assembly.add? (.opening opening) = some entered ∧
      entered.addAll? tokens = some inside ∧
      (assembly.enclosureOf opening).close? inside.inner.expr = some item ∧
      next.pending = assembly.pending ∧ next.inner = assembly.inner.push item := by
  rw [List.cons_append, addAll?_cons] at h
  obtain ⟨entered, hentered, h⟩ := Option.bind_eq_some_iff.1 h
  rw [addAll?_append] at h
  obtain ⟨inside, hinside, h⟩ := Option.bind_eq_some_iff.1 h
  rw [addAll?_singleton] at h
  have hpending := (hkeeps entered inside hentered hinside).trans (add?_opening hentered).1
  obtain ⟨item, hitem, hrest, hinner⟩ := leave?_eq_some hpending h
  exact ⟨entered, inside, item, hentered, hinside, hitem, hrest, hinner⟩

end Assembly

/-- Where tokens have been read, they have put items after those of the innermost group. What is
known of the items may depend on the number of groups before them. -/
def Grows (tokens : List Token) (known : Nat → List Expr → Prop) : Prop :=
  ∀ assembly next : Assembly, assembly.addAll? tokens = some next →
    ∃ items, next.pending = assembly.pending ∧
      next.inner = { assembly.inner with items := items.reverse ++ assembly.inner.items } ∧
      known assembly.groupCount items

/-- Where tokens have been read, they have put one item after those of the innermost group. -/
def AddsOne (tokens : List Token) (known : Nat → Expr → Prop) : Prop :=
  ∀ assembly next : Assembly, assembly.addAll? tokens = some next →
    ∃ item, next.pending = assembly.pending ∧ next.inner = assembly.inner.push item ∧
      known assembly.groupCount item

/-- Where tokens have been read, they have put some items after those of the innermost group. -/
def AddsItems (tokens : List Token) : Prop :=
  Grows tokens fun _ _ => True

section Growing

variable {tokens others : List Token} {known more : Nat → List Expr → Prop}
  {knownOne : Nat → Expr → Prop}

theorem AddsOne.grows (h : AddsOne tokens knownOne) :
    Grows tokens fun index items => ∃ item ∈ items, knownOne index item := by
  intro assembly next hnext
  obtain ⟨item, hpending, hinner, hitem⟩ := h assembly next hnext
  exact ⟨[item], hpending, hinner, item, List.mem_singleton_self item, hitem⟩

theorem AddsOne.mono {moreOne : Nat → Expr → Prop} (h : AddsOne tokens knownOne)
    (himplies : ∀ index item, knownOne index item → moreOne index item) :
    AddsOne tokens moreOne := by
  intro assembly next hnext
  obtain ⟨item, hpending, hinner, hitem⟩ := h assembly next hnext
  exact ⟨item, hpending, hinner, himplies _ _ hitem⟩

namespace Grows

theorem mono (h : Grows tokens known)
    (himplies : ∀ index items, known index items → more index items) : Grows tokens more := by
  intro assembly next hnext
  obtain ⟨items, hpending, hinner, hknown⟩ := h assembly next hnext
  exact ⟨items, hpending, hinner, himplies _ _ hknown⟩

theorem nil : Grows [] fun _ items => items = [] := by
  intro assembly next hnext
  rw [← Option.some.inj hnext]
  exact ⟨[], rfl, rfl, rfl⟩

theorem append (h : Grows tokens known) (hmore : Grows others more) :
    Grows (tokens ++ others) fun index items => ∃ front back, items = front ++ back ∧
      known index front ∧ more (index + tokens.countP Token.captures) back := by
  intro assembly next hnext
  rw [Assembly.addAll?_append] at hnext
  obtain ⟨middle, hmiddle, hnext⟩ := Option.bind_eq_some_iff.1 hnext
  obtain ⟨front, hpending, hinner, hfront⟩ := h assembly middle hmiddle
  obtain ⟨back, hpending', hinner', hback⟩ := hmore middle next hnext
  refine ⟨front ++ back, hpending'.trans hpending, ?_, front, back, rfl, hfront, ?_⟩
  · rw [hinner', hinner, List.reverse_append, List.append_assoc]
  · rwa [Assembly.groupCount_of_addAll? hmiddle] at hback

end Grows

theorem AddsOne.addsItems (h : AddsOne tokens knownOne) : AddsItems tokens :=
  h.grows.mono fun _ _ _ => trivial

theorem addsItems_nil : AddsItems [] :=
  Grows.nil.mono fun _ _ _ => trivial

theorem AddsItems.append (h : AddsItems tokens) (hothers : AddsItems others) :
    AddsItems (tokens ++ others) :=
  (Grows.append h hothers).mono fun _ _ _ => trivial

/-- A group becomes one item, whatever stands in it. -/
theorem addsOne_group (opening : Opening) (hbalanced : Balanced tokens) :
    AddsOne (.opening opening :: tokens ++ [.closing]) fun _ _ => True := by
  intro assembly next hnext
  obtain ⟨_, _, item, _, _, _, hpending, hinner⟩ := Assembly.of_addAll?_group
    (fun _ _ _ => Assembly.pending_of_balanced hbalanced) hnext
  exact ⟨item, hpending, hinner, trivial⟩

/-- A group that captures has the number after those of the groups before it. -/
theorem addsOne_capturing (name : Option (List Char)) (hbalanced : Balanced tokens) :
    AddsOne (.opening (.capture name) :: tokens ++ [.closing]) fun index item =>
      ∃ body, item = .group (index + 1) body := by
  intro assembly next hnext
  obtain ⟨_, inside, item, _, _, hitem, hpending, hinner⟩ := Assembly.of_addAll?_group
    (fun _ _ _ => Assembly.pending_of_balanced hbalanced) hnext
  exact ⟨item, hpending, hinner, inside.inner.expr, (Option.some.inj hitem).symm⟩

/-- A group that does not capture becomes the row of its items. -/
theorem addsOne_grouped (h : Grows tokens known) :
    AddsOne (.opening (.plain []) :: tokens ++ [.closing]) fun index item =>
      ∃ items, item = row items ∧ known index items := by
  intro assembly next hnext
  have hkeeps : ∀ entered inside : Assembly, assembly.add? (.opening (.plain [])) = some entered →
      entered.addAll? tokens = some inside → inside.pending = entered.pending := by
    intro entered inside _ hinside
    obtain ⟨_, hpending, _⟩ := h entered inside hinside
    exact hpending
  obtain ⟨entered, inside, item, hentered, hinside, hitem, hpending, hinner⟩ :=
    Assembly.of_addAll?_group hkeeps hnext
  obtain ⟨items, _, hitems, hknown⟩ := h entered inside hinside
  obtain ⟨_, hstart⟩ := Assembly.add?_opening hentered
  have hcount := Assembly.groupCount_of_add? hentered
  refine ⟨item, hpending, hinner, items, ?_, ?_⟩
  · rw [← Option.some.inj hitem, hitems, hstart, Open.expr, Open.branch]
    simp [Open.start, Expr.ofAlternatives, row]
  · rw [hcount] at hknown
    exact hknown

/-- An item and its quantifier are one item. -/
theorem AddsOne.quantified (h : AddsOne tokens knownOne) (least : Nat) (most : Option Nat)
    (questioned possessive : Bool) :
    AddsOne (tokens ++ [.quantifier least most questioned possessive]) fun _ _ => True := by
  intro assembly next hnext
  rw [Assembly.addAll?_append] at hnext
  obtain ⟨middle, hmiddle, hnext⟩ := Option.bind_eq_some_iff.1 hnext
  obtain ⟨item, hpending, hinner, _⟩ := h assembly middle hmiddle
  rw [Assembly.addAll?_singleton] at hnext
  obtain ⟨_, _, _, hitems, -, rfl⟩ := Assembly.exists_of_repeat? hnext
  rw [hinner] at hitems ⊢
  obtain ⟨-, rfl⟩ := List.cons.inj hitems
  exact ⟨_, hpending, rfl, trivial⟩

/-- A token that is an item. -/
theorem addsOne_push {token : Token}
    (h : ∀ assembly : Assembly, ∃ item, assembly.add? token = some (assembly.push item)) :
    AddsOne [token] fun _ _ => True := by
  intro assembly next hnext
  obtain ⟨item, hitem⟩ := h assembly
  rw [Assembly.addAll?_singleton, hitem] at hnext
  rw [← Option.some.inj hnext]
  exact ⟨item, rfl, rfl, trivial⟩

end Growing

/-- Every run of the expression leaves a group captured. -/
def Expr.Requires (index : Nat) (expr : Expr) : Prop :=
  ∀ (text : Array Char) (s t : State), expr.Runs text s t → (t.span? index).isSome

namespace Expr

variable {index : Nat}

theorem requires_group (index : Nat) (body : Expr) : (Expr.group index body).Requires index := by
  rintro text s t ⟨m, _, rfl⟩
  rw [State.span?_capture_self]
  rfl

/-- A row requires what one of its items does. -/
theorem requires_row {items : List Expr} {item : Expr} (hitem : item ∈ items)
    (h : item.Requires index) : (row items).Requires index := by
  intro text s t hruns
  obtain ⟨front, back, rfl⟩ := List.append_of_mem hitem
  obtain ⟨m, _, l, hl, hback⟩ := runsAll_append.1 (runs_row.1 hruns)
  have hspan := span?_isSome_of_runs (runs_row.2 hback) (h text m l hl)
  exact hspan

end Expr

end Waymark.Regex
