import Waymark.Regex.Assembly
/-!
How groups are numbered.

Every opening of a group that captures adds one group, and nothing else does
(`groupCount_of_addAll?`), so an expression has as many groups as its tokens open
(`groupCount_of_compile?`).
-/

namespace Waymark.Regex

namespace Token

/-- Whether a token opens a group that captures. -/
def captures : Token → Bool
  | .opening (.capture _) => true
  | _ => false

/-- Tokens that open no group that captures. -/
def Captureless (tokens : List Token) : Prop :=
  ∀ token ∈ tokens, token.captures = false

theorem Captureless.countP_eq_zero {tokens : List Token} (h : Captureless tokens) :
    tokens.countP captures = 0 := by
  rw [List.countP_eq_zero]
  intro token htoken
  simp [h token htoken]

end Token

namespace Assembly

variable {assembly next : Assembly}

/-- What has been read waits while a group is read. -/
theorem enter?_eq_some_iff {enclosure : Enclosure} {flags : Flags} :
    assembly.enter? enclosure flags = some next ↔
      assembly.pending.length + 1 < tooDeep ∧
        { assembly with
          pending := ⟨enclosure, assembly.inner⟩ :: assembly.pending
          inner := .start flags } = next := by
  simp only [enter?, Option.ite_none_left_eq_some, Option.some.injEq, Nat.not_le]

/-- A group that ends is the next item of what has waited for it. -/
theorem exists_of_leave? (h : assembly.leave? = some next) :
    ∃ enclosure outer pending item, assembly.pending = ⟨enclosure, outer⟩ :: pending ∧
      enclosure.close? assembly.inner.expr = some item ∧
      { assembly with pending := pending, inner := outer.push item } = next := by
  unfold leave? at h
  split at h
  · exact absurd h (by simp)
  · next enclosure outer pending hpending =>
    obtain ⟨item, hitem, h⟩ := Option.bind_eq_some_iff.1 h
    exact ⟨enclosure, outer, pending, item, hpending, hitem, Option.some.inj h⟩

/-- The last item gives way to its repetition. -/
theorem exists_of_repeat? {least : Nat} {most : Option Nat} {questioned possessive : Bool}
    (h : assembly.repeat? least most questioned possessive = some next) :
    ∃ item items loop, assembly.inner.items = item :: items ∧
      loop = .loop item least most (questioned == assembly.inner.flags.swapped) ∧
      { assembly with
        inner := { assembly.inner with
          items := (if possessive then .atomic loop else loop) :: items } } = next := by
  unfold repeat? at h
  split at h
  · exact absurd h (by simp)
  · next item items hitems =>
    obtain ⟨-, h⟩ := Option.ite_none_right_eq_some.1 h
    exact ⟨item, items, _, hitems, rfl, Option.some.inj h⟩

/-- A token adds a group if it opens one that captures. -/
theorem groupCount_of_add? {token : Token} (h : assembly.add? token = some next) :
    next.groupCount = assembly.groupCount + if token.captures then 1 else 0 := by
  unfold add? at h
  split at h
  case h_6 =>
    simp only [Option.ite_none_right_eq_some, Option.some.injEq] at h
    rw [← h.2]
    rfl
  case h_7 =>
    obtain ⟨index, _, h⟩ := Option.bind_eq_some_iff.1 h
    rw [← Option.some.inj h]
    rfl
  case h_8 | h_9 | h_10 | h_11 | h_12 =>
    obtain ⟨-, rfl⟩ := enter?_eq_some_iff.1 h
    rfl
  case h_14 =>
    obtain ⟨_, _, _, _, -, -, rfl⟩ := exists_of_leave? h
    rfl
  case h_16 =>
    obtain ⟨_, _, _, -, -, rfl⟩ := exists_of_repeat? h
    rfl
  all_goals
    rw [← Option.some.inj h]
    rfl

theorem groupCount_of_addAll? {tokens : List Token} (h : assembly.addAll? tokens = some next) :
    next.groupCount = assembly.groupCount + tokens.countP Token.captures := by
  induction tokens generalizing assembly with
  | nil =>
      rw [← Option.some.inj h]
      rfl
  | cons token tokens ih =>
      obtain ⟨middle, hmiddle, hrest⟩ := Option.bind_eq_some_iff.1 h
      rw [ih hrest, groupCount_of_add? hmiddle, List.countP_cons, Nat.add_assoc,
        Nat.add_comm (tokens.countP Token.captures)]

end Assembly

theorem length_lastOfName (names : List (Option (List Char))) :
    (lastOfName names).length = names.length := by
  induction names with
  | nil => rfl
  | cons name names ih => simp only [lastOfName, List.length_cons, ih]

/-- How a written expression is read. -/
theorem compile?_eq_some {source : List Char} {regex : Regex} (h : compile? source = some regex) :
    ∃ tokens assembly, Token.ofChars? source = some tokens ∧
      Assembly.start.addAll? tokens = some assembly ∧ assembly.finish? = some regex.expr ∧
      regex.source = source ∧ regex.names = lastOfName assembly.names.reverse := by
  obtain ⟨tokens, htokens, h⟩ := Option.bind_eq_some_iff.1 h
  obtain ⟨assembly, hassembly, h⟩ := Option.bind_eq_some_iff.1 h
  obtain ⟨expr, hexpr, h⟩ := Option.bind_eq_some_iff.1 h
  split at h
  · obtain rfl := Option.some.inj h
    exact ⟨tokens, assembly, htokens, hassembly, hexpr, rfl, rfl⟩
  · exact absurd h (by simp)

/-- An expression has the groups that its tokens open. -/
theorem groupCount_of_compile? {source : List Char} {tokens : List Token} {regex : Regex}
    (htokens : Token.ofChars? source = some tokens) (h : compile? source = some regex) :
    regex.groupCount = tokens.countP Token.captures := by
  obtain ⟨tokens', assembly, htokens', hassembly, _, _, hnames⟩ := compile?_eq_some h
  obtain rfl := Option.some.inj (htokens.symm.trans htokens')
  have hcount := Assembly.groupCount_of_addAll? hassembly
  rw [show Assembly.start.groupCount = 0 from rfl, Nat.zero_add] at hcount
  rw [groupCount, hnames, length_lastOfName, List.length_reverse]
  exact hcount

end Waymark.Regex
