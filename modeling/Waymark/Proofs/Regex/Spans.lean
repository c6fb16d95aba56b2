import Waymark.Proofs.Regex.Groups
import Waymark.Proofs.Regex.Regular
/-!
What a group captured is a match of what stands in it.

A run notes where a group begins and ends when it has matched the inside of the group between these
positions (`Expr.captured_of_runs`). The inside is known from the tokens: where those of a group that
captures stand after a given number of openings, and with given switches on, no other group of the
expression has its number (`Assembly.holds_of_addAll?`). So what its tokens mean is what it captures.
-/

namespace Waymark.Regex

open Token (Balanced Captureless)

namespace Expr

variable {index : Nat} {known : Expr → Prop}

theorem mem_groups_of_hasGroup {expr inside : Expr} (h : expr.HasGroup index inside) :
    index ∈ expr.groups := by
  induction expr with
  | empty | set | anchor | backref => exact absurd h id
  | seq first second ihfirst ihsecond | alt first second ihfirst ihsecond =>
      rcases h with h | h
      · exact List.mem_append_left _ (ihfirst h)
      · exact List.mem_append_right _ (ihsecond h)
  | group number body ih =>
      rcases h with ⟨rfl, -⟩ | h
      · exact List.mem_cons_self
      · exact List.mem_cons_of_mem _ (ih h)
  | loop body _ _ _ ih | ahead _ body ih | behind _ _ body ih | atomic body ih => exact ih h

/-- A group has been captured before, or its inside has matched where the group begins and ends. -/
theorem captured_of_runs {text : Array Char} {expr : Expr} {s t : State}
    (h : expr.Runs text s t) {p q : Nat} (hspan : t.span? index = some (p, q)) :
    s.span? index = some (p, q) ∨
      ∃ inside, expr.HasGroup index inside ∧ inside.Moves text p q := by
  induction expr generalizing s t with
  | empty =>
      rw [show t = s from h] at hspan
      exact .inl hspan
  | set chars caseless =>
      obtain ⟨_, rfl⟩ := h
      exact .inl hspan
  | anchor place =>
      obtain ⟨_, rfl⟩ := h
      exact .inl hspan
  | seq first second ihfirst ihsecond =>
      obtain ⟨m, hm, ht⟩ := h
      rcases ihsecond ht hspan with hspan | ⟨inside, hgroup, hmoves⟩
      · rcases ihfirst hm hspan with hspan | ⟨inside, hgroup, hmoves⟩
        · exact .inl hspan
        · exact .inr ⟨inside, .inl hgroup, hmoves⟩
      · exact .inr ⟨inside, .inr hgroup, hmoves⟩
  | alt first second ihfirst ihsecond =>
      rcases h with h | h
      · exact (ihfirst h hspan).imp id fun ⟨inside, hgroup, hmoves⟩ => ⟨inside, .inl hgroup, hmoves⟩
      · exact (ihsecond h hspan).imp id fun ⟨inside, hgroup, hmoves⟩ => ⟨inside, .inr hgroup, hmoves⟩
  | group number body ih =>
      obtain ⟨m, hm, rfl⟩ := h
      by_cases heq : number = index
      · subst heq
        rw [State.span?_capture_self, Option.some.injEq, Prod.mk.injEq] at hspan
        exact .inr ⟨body, .inl ⟨rfl, rfl⟩, s, m, hspan.1, hspan.2, hm⟩
      · rw [State.span?_capture_of_ne _ _ heq] at hspan
        exact (ih hm hspan).imp id fun ⟨inside, hgroup, hmoves⟩ => ⟨inside, .inr hgroup, hmoves⟩
  | loop body least most greedy ih =>
      obtain ⟨count, -, hrepeats⟩ := h
      induction hrepeats with
      | zero => exact .inl hspan
      | succ hfirst _ ihrest =>
          rcases ihrest hspan with hspan | hinside
          · exact ih hfirst hspan
          · exact .inr hinside
  | ahead negated body ih =>
      rcases Runs.of_ahead h with rfl | ⟨m, hm, rfl⟩
      · exact .inl hspan
      · exact ih (t := m) hm hspan
  | behind negated width body ih =>
      rcases Runs.of_behind h with rfl | ⟨m, hm, rfl⟩
      · exact .inl hspan
      · exact ih (s := s.moveTo (s.position - width)) (t := m) hm hspan
  | atomic body ih => exact ih h hspan
  | backref number caseless =>
      obtain ⟨_, _, _, rfl⟩ := h
      exact .inl hspan

/-- Something is known of what stands in every group with a number. -/
def Holds (index : Nat) (known : Expr → Prop) (expr : Expr) : Prop :=
  ∀ inside, expr.HasGroup index inside → known inside

theorem hereditary_holds (index : Nat) (known : Expr → Prop) : Hereditary (Holds index known) where
  empty _ h := absurd h id
  set _ _ _ h := absurd h id
  anchor _ _ h := absurd h id
  seq _ _ hfirst hsecond inside h := h.elim (hfirst inside) (hsecond inside)
  alt _ _ hfirst hsecond inside h := h.elim (hfirst inside) (hsecond inside)
  loop _ _ _ _ h := h
  ahead _ _ h := h
  behind _ _ _ h := h
  atomic _ h := h
  of_alt _ _ h := ⟨fun inside hgroup => h inside (.inl hgroup),
    fun inside hgroup => h inside (.inr hgroup)⟩

theorem holds_group_of_ne {number : Nat} {body : Expr} (hne : number ≠ index)
    (h : body.Holds index known) : (Expr.group number body).Holds index known := by
  rintro inside (⟨heq, -⟩ | hgroup)
  · exact absurd heq hne
  · exact h inside hgroup

/-- A group without groups in it holds what it is known to. -/
theorem holds_group {number : Nat} {body : Expr} (hknown : known body) (hnone : body.groups = []) :
    (Expr.group number body).Holds index known := by
  rintro inside (⟨-, rfl⟩ | hgroup)
  · exact hknown
  · have hmem := mem_groups_of_hasGroup hgroup
    rw [hnone] at hmem
    exact absurd hmem List.not_mem_nil

/-- What a group captured is in the language that its inside speaks. -/
theorem speaks_of_captured {text : Array Char} {expr : Expr} {language : List Char → Prop}
    (hholds : expr.Holds index fun inside => inside.Speaks language) {first : Nat} {t : State}
    (h : expr.Runs text (.start first) t) {p q : Nat} (hspan : t.span? index = some (p, q)) :
    language (slice text p q) := by
  rcases captured_of_runs h hspan with hstart | ⟨inside, hgroup, s, m, rfl, rfl, hruns⟩
  · exact absurd hstart (by simp [State.start, State.span?])
  · obtain ⟨w, hw, hbetween⟩ := ((hholds inside hgroup).denotes text s m.position).1 ⟨m, hruns, rfl⟩
    rwa [hbetween.slice_eq]

end Expr

/-- A token that opens no group with a number lets something be known of the inside of that group. -/
theorem Token.allows_holds {index : Nat} (known : Expr → Prop) {token : Token} {assembly : Assembly}
    (hother : token.captures = true → assembly.groupCount + 1 ≠ index) :
    token.Allows (Expr.Holds index known) assembly := by
  cases token with
  | backref | namedBackref => exact fun _ _ _ h => absurd h id
  | _ =>
      refine (Expr.hereditary_holds index known).allows rfl fun hcaptures body hbody => ?_
      exact Expr.holds_group_of_ne (hother hcaptures) hbody

section Standing

variable {tokens inside : List Token} {number : Nat}

namespace Assembly

variable {assembly next : Assembly}

/-- Where the tokens of a group that captures have been read, their inside has been read from the
beginning of a group on. -/
theorem exists_inside_of_addAll?
    (hstands : StandsSteady tokens number (.opening (.capture none) :: inside ++ [.closing]))
    (hnext : assembly.addAll? tokens = some next) :
    ∃ entered read : Assembly, entered.inner = .start assembly.inner.flags ∧
      entered.addAll? inside = some read := by
  obtain ⟨before, after, rfl, -, hsteady⟩ := hstands
  rw [List.append_assoc, addAll?_append] at hnext
  obtain ⟨first, hfirst, hnext⟩ := Option.bind_eq_some_iff.1 hnext
  rw [List.cons_append, List.cons_append, List.append_assoc, addAll?_cons] at hnext
  obtain ⟨entered, hentered, hnext⟩ := Option.bind_eq_some_iff.1 hnext
  rw [addAll?_append] at hnext
  obtain ⟨read, hread, -⟩ := Option.bind_eq_some_iff.1 hnext
  refine ⟨entered, read, ?_, hread⟩
  rw [(add?_opening hentered).2, ← hsteady assembly first hfirst]
  rfl

/-- What is known of the inside of a group that captures, by its tokens, is known of the group with
their number. -/
theorem holds_of_addAll? {known : Expr → Prop}
    (hstands : StandsSteady tokens number (.opening (.capture none) :: inside ++ [.closing]))
    (hinside : Becomes assembly.inner.flags inside fun body => known body ∧ body.groups = [])
    (hcount : assembly.groupCount = 0) (hall : assembly.All (Expr.Holds (number + 1) known))
    (hnext : assembly.addAll? tokens = some next) :
    next.inner.expr.Holds (number + 1) known := by
  have hP := (Expr.hereditary_holds (number + 1) known).toInherited
  obtain ⟨before, after, rfl, hnumber, hsteady⟩ := hstands
  rw [addAll?_append] at hnext
  obtain ⟨closed, hclosed, hnext⟩ := Option.bind_eq_some_iff.1 hnext
  rw [addAll?_append] at hclosed
  obtain ⟨first, hfirst, hclosed⟩ := Option.bind_eq_some_iff.1 hclosed
  have hbefore : first.groupCount = number := by
    rw [groupCount_of_addAll? hfirst, hcount, hnumber, Nat.zero_add]
  -- The groups before have lower numbers, those after have higher ones.
  have hfront : first.All (Expr.Holds (number + 1) known) := by
    refine hall.addAll? hP (fun token _ before after hafter _ hle => ?_) hfirst
    refine Token.allows_holds known fun hcaptures => ?_
    rw [groupCount_of_add? hafter, if_pos hcaptures] at hle
    omega
  obtain ⟨items, hpending, hinner, item, rfl, index, body, rfl, hbody, hnone⟩ :=
    hinside.capturing first closed (hsteady assembly first hfirst) hclosed
  have hgroup : closed.All (Expr.Holds (number + 1) known) := by
    refine ⟨?_, hpending ▸ hfront.pending⟩
    rw [hinner]
    exact hfront.inner.push (Expr.holds_group hbody hnone)
  have hafter : number + 1 ≤ closed.groupCount := by
    rw [groupCount_of_addAll? hclosed, hbefore, List.cons_append, List.countP_cons_of_pos rfl]
    omega
  refine ((hgroup.addAll? hP (fun token _ before after hbefore hle _ => ?_) hnext).inner).expr hP
  refine Token.allows_holds known fun _ => ?_
  omega

end Assembly

end Standing

end Waymark.Regex
