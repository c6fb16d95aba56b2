import Waymark.Proofs.Regex.Alternatives
/-!
Tokens of alternatives.

Tokens that make an expression on their own make the same one among alternatives, behind the groups of
those before (`Makes.branch`). So with bars between them they make all the expressions side by side
(`expr_of_intercalate`).
-/

namespace Waymark.Regex

open Token (Balanced levelAfter?)

namespace Token

/-- Tokens that are read elsewhere as they are on their own: they close the groups that they open, and
do not refer back. -/
structure Portable (tokens : List Token) : Prop where
  balanced : Balanced tokens
  plain : ∀ token ∈ tokens, token.refersBack = false

namespace Portable

variable {token : Token} {tokens others : List Token}

theorem nil : Portable [] :=
  ⟨rfl, fun _ h => absurd h List.not_mem_nil⟩

theorem single (hlevel : levelAfter? 0 token = some 0) (hplain : token.refersBack = false) :
    Portable [token] := by
  refine ⟨?_, List.forall_mem_singleton.2 hplain⟩
  rw [Balanced, level?_cons, hlevel]
  rfl

theorem append (h : Portable tokens) (hothers : Portable others) : Portable (tokens ++ others) :=
  ⟨h.balanced.append hothers.balanced, List.forall_mem_append.2 ⟨h.plain, hothers.plain⟩⟩

theorem enclosed (h : Portable tokens) (opening : Opening) :
    Portable (.opening opening :: tokens ++ [.closing]) := by
  refine ⟨h.balanced.enclosed opening, ?_⟩
  rw [List.cons_append]
  refine List.forall_mem_cons.2 ⟨rfl, ?_⟩
  exact List.forall_mem_append.2 ⟨h.plain, List.forall_mem_singleton.2 rfl⟩

end Portable

end Token

/-- An expression that tokens make with given switches on. -/
structure Makes (flags : Flags) (tokens : List Token) (regex : Regex) : Prop where
  portable : Token.Portable tokens
  adds : AddsItems tokens
  reads : ∃ after, (Assembly.alone flags).addAll? tokens = some after ∧
    after.inner.expr = regex.expr
  count : tokens.countP Token.captures = regex.groupCount

namespace Makes

variable {flags : Flags} {tokens : List Token} {regex : Regex} {assembly next : Assembly}

theorem numbered (h : Makes flags tokens regex) : regex.expr.Numbered regex.groupCount := by
  obtain ⟨after, hafter, hexpr⟩ := h.reads
  have hnumbered := Assembly.numbered_of_addAll? h.portable.plain hafter
  rwa [hexpr, Assembly.groupCount_of_addAll? hafter, h.count,
    show (Assembly.alone flags).groupCount = 0 from rfl, Nat.zero_add] at hnumbered

/-- Read as an alternative, tokens make their expression behind the groups before it. -/
theorem branch (h : Makes flags tokens regex) (hflags : assembly.inner.flags = flags)
    (hitems : assembly.inner.items = []) (hnext : assembly.addAll? tokens = some next) :
    next.pending = assembly.pending ∧ next.inner.flags = flags ∧
      next.inner.alternatives = assembly.inner.alternatives ∧
      next.inner.branch = regex.expr.shift assembly.groupCount ∧
      next.groupCount = assembly.groupCount + regex.groupCount := by
  obtain ⟨items, hpending, hinner, -⟩ := h.adds assembly next hnext
  refine ⟨hpending, by rw [hinner, hflags], by rw [hinner], ?_, ?_⟩
  · obtain ⟨after, hafter, hexpr⟩ := h.reads
    obtain ⟨after', hafter', hshifted⟩ := Assembly.addAll?_alone h.portable.balanced
      h.portable.plain (by simp [hitems]) hnext
    rw [hflags] at hafter'
    obtain rfl := Option.some.inj (hafter.symm.trans hafter')
    obtain ⟨_, _, halone, -⟩ := h.adds _ after hafter
    have hsingle : after.inner.expr = after.inner.branch := by
      rw [Open.expr, halone]
      rfl
    rw [hshifted.branch_eq, ← hsingle, hexpr]
  · rw [Assembly.groupCount_of_addAll? hnext, h.count]

end Makes

theorem Assembly.add?_bar {assembly next : Assembly} (h : assembly.add? .bar = some next) :
    next.pending = assembly.pending ∧
      next.inner =
        ⟨assembly.inner.branch :: assembly.inner.alternatives, [], assembly.inner.flags⟩ ∧
      next.groupCount = assembly.groupCount := by
  rw [← Option.some.inj h]
  exact ⟨rfl, rfl, rfl⟩

/-- Tokens that are read with bars between them are read on their own. -/
theorem exists_alone_of_intercalate {flags : Flags} {rows : List (List Token)}
    (hrows : ∀ row ∈ rows, Token.Portable row ∧ AddsItems row) {assembly next : Assembly}
    (hflags : assembly.inner.flags = flags) (hitems : assembly.inner.items = [])
    (hnext : assembly.addAll? (List.intercalate [.bar] rows) = some next) :
    ∀ row ∈ rows, ∃ after, (Assembly.alone flags).addAll? row = some after := by
  induction rows generalizing assembly with
  | nil => exact fun _ hrow => absurd hrow List.not_mem_nil
  | cons row rows ih =>
      obtain ⟨⟨hportable, hadds⟩, hothers⟩ := List.forall_mem_cons.1 hrows
      have hfirst : ∀ {middle : Assembly}, assembly.addAll? row = some middle →
          ∃ after, (Assembly.alone flags).addAll? row = some after := by
        intro middle hmiddle
        obtain ⟨after, hafter, -⟩ := Assembly.addAll?_alone hportable.balanced hportable.plain
          (by simp [hitems]) hmiddle
        rw [hflags] at hafter
        exact ⟨after, hafter⟩
      cases rows with
      | nil =>
          rw [List.intercalate_singleton] at hnext
          exact List.forall_mem_singleton.2 (hfirst hnext)
      | cons row' rows =>
          rw [List.intercalate_cons_cons, List.append_assoc, Assembly.addAll?_append] at hnext
          obtain ⟨middle, hmiddle, hnext⟩ := Option.bind_eq_some_iff.1 hnext
          obtain ⟨items, -, hinner, -⟩ := hadds assembly middle hmiddle
          rw [List.singleton_append, Assembly.addAll?_cons] at hnext
          obtain ⟨barred, hbarred, hnext⟩ := Option.bind_eq_some_iff.1 hnext
          obtain ⟨-, hwithin, -⟩ := Assembly.add?_bar hbarred
          have hrest := ih hothers (by rw [hwithin, hinner, hflags]) (by rw [hwithin]) hnext
          exact List.forall_mem_cons.2 ⟨hfirst hmiddle, hrest⟩

/-- Tokens with bars between them make their expressions side by side. -/
theorem expr_of_intercalate {flags : Flags} {rows : List (List Token)} {regexes : List Regex}
    (hne : rows ≠ []) (h : List.Forall₂ (Makes flags) rows regexes) {assembly next : Assembly}
    (hflags : assembly.inner.flags = flags) (hitems : assembly.inner.items = [])
    (hnext : assembly.addAll? (List.intercalate [.bar] rows) = some next) :
    next.pending = assembly.pending ∧ next.inner.expr =
      .ofAlternatives (assembly.inner.alternatives.reverse ++
        branches assembly.groupCount regexes) := by
  induction h generalizing assembly with
  | nil => exact absurd rfl hne
  | @cons tokens regex rows regexes hmakes hrest ih =>
      cases hrest with
      | nil =>
          rw [List.intercalate_singleton] at hnext
          obtain ⟨hpending, _, halternatives, hbranch, _⟩ := hmakes.branch hflags hitems hnext
          refine ⟨hpending, ?_⟩
          rw [Open.expr, hbranch, halternatives, List.reverse_cons]
          rfl
      | @cons tokens' regex' rows regexes hmakes' hrest =>
          rw [List.intercalate_cons_cons, List.append_assoc, Assembly.addAll?_append] at hnext
          obtain ⟨middle, hmiddle, hnext⟩ := Option.bind_eq_some_iff.1 hnext
          obtain ⟨hpending, hkept, halternatives, hbranch, hcount⟩ :=
            hmakes.branch hflags hitems hmiddle
          rw [List.singleton_append, Assembly.addAll?_cons] at hnext
          obtain ⟨barred, hbarred, hnext⟩ := Option.bind_eq_some_iff.1 hnext
          obtain ⟨hbar, hwithin, hgroups⟩ := Assembly.add?_bar hbarred
          obtain ⟨hpending', hexpr⟩ := ih (List.cons_ne_nil _ _) (by rw [hwithin, hkept])
            (by rw [hwithin]) hnext
          refine ⟨hpending'.trans (hbar.trans hpending), ?_⟩
          rw [hexpr, hgroups, hcount, hwithin, hbranch, halternatives, List.reverse_cons,
            List.append_assoc]
          rfl

end Waymark.Regex
