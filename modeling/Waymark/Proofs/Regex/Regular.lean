import Waymark.Proofs.Regex.Inheriting
import Waymark.Proofs.Regex.Laying
import Waymark.Proofs.Regex.Relocating
/-!
Expressions that are regular in the narrow sense.

Tokens are regular if they neither look around nor refer back, and keep all ways of matching. What
they mean in a group does not hang on the groups around it: with given switches on they speak one
language wherever they are read (`exists_becomes`).
-/

namespace Waymark.Regex

open Token (Balanced)

/-- Whether a token neither looks around nor refers back, and keeps all ways of matching. -/
def Token.isRegular : Token → Bool
  | .start | .finish | .anchor _ | .backref _ | .namedBackref _ => false
  | .opening (.ahead _) | .opening (.behind _) | .opening .atomic => false
  | .quantifier _ _ _ possessive => !possessive
  | _ => true

namespace Expr

/-- Whether an expression is made of characters, sequences, alternatives, groups and
repetitions. -/
def isRegular : Expr → Bool
  | .empty | .set .. => true
  | .seq first second | .alt first second => first.isRegular && second.isRegular
  | .group _ body | .loop body .. => body.isRegular
  | .anchor _ | .ahead .. | .behind .. | .atomic _ | .backref .. => false

/-- A regular expression speaks a language, whatever groups come before it. -/
theorem exists_speaks {expr : Expr} (h : expr.isRegular = true) :
    ∃ language, ∀ offset, (expr.shift offset).Speaks language := by
  induction expr with
  | empty => exact ⟨_, fun _ => ⟨denotes_empty, rfl⟩⟩
  | set chars caseless => exact ⟨_, fun _ => speaks_set chars caseless⟩
  | seq first second ihfirst ihsecond =>
      simp only [isRegular, Bool.and_eq_true] at h
      obtain ⟨language, hfirst⟩ := ihfirst h.1
      obtain ⟨language', hsecond⟩ := ihsecond h.2
      exact ⟨_, fun offset => (hfirst offset).seq (hsecond offset)⟩
  | alt first second ihfirst ihsecond =>
      simp only [isRegular, Bool.and_eq_true] at h
      obtain ⟨language, hfirst⟩ := ihfirst h.1
      obtain ⟨language', hsecond⟩ := ihsecond h.2
      exact ⟨_, fun offset => (hfirst offset).alt (hsecond offset)⟩
  | group index body ih =>
      obtain ⟨language, hbody⟩ := ih h
      exact ⟨language, fun offset => (hbody offset).group _⟩
  | loop body least most greedy ih =>
      obtain ⟨language, hbody⟩ := ih h
      exact ⟨_, fun offset => (hbody offset).loop least most greedy⟩
  | anchor | ahead | behind | atomic | backref => simp [isRegular] at h

end Expr

theorem inherited_isRegular : Inherited fun expr => expr.isRegular = true where
  empty := rfl
  seq _ _ hfirst hsecond := by simp [Expr.isRegular, hfirst, hsecond]
  alt _ _ hfirst hsecond := by simp [Expr.isRegular, hfirst, hsecond]

theorem allows_isRegular {token : Token} (h : token.isRegular = true) (assembly : Assembly) :
    token.Allows (fun expr => expr.isRegular = true) assembly := by
  cases token with
  | set => exact fun _ => rfl
  | dot => exact fun _ => rfl
  | switches | closing | bar => trivial
  | quantifier least most questioned possessive =>
      obtain rfl : possessive = false := by simpa [Token.isRegular] using h
      exact fun _ _ hitem => hitem
  | opening opening =>
      cases opening with
      | plain | capture =>
          intro body item hbody hitem
          rwa [← Option.some.inj hitem]
      | ahead | behind | atomic => simp [Token.isRegular] at h
  | start | finish | anchor | backref | namedBackref => simp [Token.isRegular] at h

theorem refersBack_of_isRegular {token : Token} (h : token.isRegular = true) :
    token.refersBack = false := by
  cases token with
  | backref | namedBackref => simp [Token.isRegular] at h
  | _ => rfl

/-- Regular tokens that close the groups they open speak one language in every group that they fill
with the same switches on. -/
theorem exists_becomes {tokens : List Token} (flags : Flags) (hbalanced : Balanced tokens)
    (hregular : ∀ token ∈ tokens, token.isRegular = true) :
    ∃ language, Becomes flags tokens fun body => body.Speaks language := by
  have hplain := fun token htoken => refersBack_of_isRegular (hregular token htoken)
  -- Every reading of what stands in a group goes along with the one that has nothing around it.
  have halone : ∀ assembly next : Assembly, assembly.inner = .start flags →
      assembly.addAll? tokens = some next → ∃ after, (Assembly.alone flags).addAll? tokens =
        some after ∧ next.inner.expr = after.inner.expr.shift assembly.groupCount :=
    fun _ _ => Assembly.exists_alone hbalanced hplain
  cases hread : (Assembly.alone flags).addAll? tokens with
  | none =>
      refine ⟨fun _ => False, fun assembly next hstart hnext => ?_⟩
      obtain ⟨after, hafter, _⟩ := halone assembly next hstart hnext
      exact absurd (hread.symm.trans hafter) (by simp)
  | some after =>
      have hall : after.All fun expr => expr.isRegular = true :=
        (Assembly.all_alone _ flags).addAll? inherited_isRegular
          (fun token htoken before _ _ _ _ => allows_isRegular (hregular token htoken) before)
          hread
      obtain ⟨language, hlanguage⟩ := Expr.exists_speaks (hall.inner.expr inherited_isRegular)
      refine ⟨language, fun assembly next hstart hnext => ?_⟩
      refine ⟨Assembly.pending_of_balanced hbalanced hnext, ?_⟩
      obtain ⟨after', hafter', hexpr⟩ := halone assembly next hstart hnext
      obtain rfl := Option.some.inj (hread.symm.trans hafter')
      rw [hexpr]
      exact hlanguage _

/-- In a group in which no group captures, there are no groups. -/
theorem becomes_groupless {tokens : List Token} (flags : Flags) (hbalanced : Balanced tokens)
    (hplain : ∀ token ∈ tokens, token.refersBack = false)
    (hnone : tokens.countP Token.captures = 0) :
    Becomes flags tokens fun body => body.groups = [] := by
  intro assembly next hstart hnext
  refine ⟨Assembly.pending_of_balanced hbalanced hnext, ?_⟩
  obtain ⟨after, hafter, hexpr⟩ := Assembly.exists_alone hbalanced hplain hstart hnext
  have hgroups := (Assembly.numbered_of_addAll? hplain hafter).groups
  have hcount : after.groupCount = 0 := by
    rw [Assembly.groupCount_of_addAll? hafter, hnone]
    rfl
  rw [hexpr, Expr.groups_shift, List.map_eq_nil_iff, List.eq_nil_iff_forall_not_mem]
  intro index hindex
  have hbounds := hgroups index hindex
  omega

end Waymark.Regex
