import Waymark.Proofs.Pattern.Parsing
import Waymark.Proofs.Regex.Enclosed
import Waymark.Proofs.Regex.Numbering
/-!
No custom expression opens a group that captures.

The tokens of a route pattern refuse a parenthesis in a custom expression that opens such a group,
unless a backslash precedes it. They know of neither classes nor comments, so they may refuse too
much; but whatever stands in an expression, its readers never come between a backslash and the
character after it, so they find no group that captures either (`Guarded.captureless`).
-/

namespace Waymark.Pattern

open Regex.Token (Captureless Place Steps Walk)

/-- Text that ends with no backslash of its own, and whose parentheses open no group that captures
whatever follows. -/
inductive Guarded : List Char → Prop where
  | nil : Guarded []
  | escaped {c : Char} {text : List Char} (h : Guarded text) : Guarded ('\\' :: c :: text)
  | opening {text : List Char} (hopens : ∀ other, opensCapture (text ++ other) = false)
      (h : Guarded text) : Guarded ('(' :: text)
  | plain {c : Char} {text : List Char} (hc : c ≠ '\\' ∧ c ≠ '(') (h : Guarded text) :
      Guarded (c :: text)

section Custom

variable {start index depth : Nat} {cs text rest : List Char}

/-- Inside a group the text goes on at least up to a closing parenthesis. -/
theorem mem_of_readGroup (h : readGroup start cs index depth = .ok (text, rest))
    (hdepth : depth ≠ 0) : ')' ∈ text := by
  fun_induction readGroup start cs index depth generalizing text rest <;>
    simp only [prepend_eq_ok_iff, reduceCtorEq, Except.ok.injEq, Prod.mk.injEq] at h
  case case4 => exact absurd rfl hdepth
  case case5 =>
    obtain ⟨inner, _, rfl⟩ := h
    exact List.mem_cons_self
  all_goals
    obtain ⟨inner, hread, rfl⟩ := h
    rename_i ih
    exact List.mem_append_right _ (ih hread (by omega))

theorem opensCapture_congr (c d e : Char) (tail tail' : List Char) :
    opensCapture (c :: d :: e :: tail) = opensCapture (c :: d :: e :: tail') := by
  by_cases hc : c = '?'
  · by_cases hP : d = 'P'
    · by_cases he : e = '<' <;> simp [opensCapture, hc, hP, he]
    · by_cases hangle : d = '<'
      · by_cases he : e = '=' ∨ e = '!'
        · rcases he with rfl | rfl <;> simp [opensCapture, hc, hangle]
        · obtain ⟨hequal, hbang⟩ := not_or.1 he
          simp [opensCapture, hc, hangle, hequal, hbang]
      · simp [opensCapture, hc, hP, hangle]
  · simp [opensCapture, hc]

/-- What a parenthesis opens is settled before the next closing one. -/
theorem opensCapture_append (hclose : ')' ∈ text) {other : List Char}
    (h : opensCapture (text ++ other) = false) (other' : List Char) :
    opensCapture (text ++ other') = false := by
  rcases text with _ | ⟨c, _ | ⟨d, _ | ⟨e, tail⟩⟩⟩
  · exact absurd hclose List.not_mem_nil
  · obtain rfl := List.mem_singleton.1 hclose
    exact absurd h (by simp [opensCapture])
  · have hquestion : c = '?' := by
      by_cases hc : c = '?'
      · exact hc
      · simp [opensCapture, hc] at h
    subst hquestion
    obtain rfl : ')' = d := by simpa using hclose
    simp [opensCapture]
  · exact (opensCapture_congr c d e _ _).trans h

/-- The parentheses of a custom expression open no group that captures. -/
theorem guarded_of_readGroup (h : readGroup start cs index depth = .ok (text, rest)) :
    Guarded text := by
  fun_induction readGroup start cs index depth generalizing text rest <;>
    simp only [prepend_eq_ok_iff, reduceCtorEq, Except.ok.injEq, Prod.mk.injEq] at h
  case case3 ih =>
    obtain ⟨inner, hread, rfl⟩ := h
    exact .escaped (ih hread)
  case case4 =>
    rw [← h.1]
    exact .nil
  case case5 ih =>
    obtain ⟨inner, hread, rfl⟩ := h
    exact .plain (by decide) (ih hread)
  case case7 hopens ih =>
    obtain ⟨inner, hread, rfl⟩ := h
    rw [readGroup_eq_ok hread] at hopens
    have hclose := mem_of_readGroup hread (Nat.succ_ne_zero _)
    exact .opening (opensCapture_append hclose (by simpa using hopens)) (ih hread)
  case case8 hlast hescape _ _ hopen ih =>
    obtain ⟨inner, hread, rfl⟩ := h
    refine .plain ⟨?_, fun hc => hopen hc⟩ (ih hread)
    intro hbackslash
    rw [readGroup_eq_ok hread] at hlast hescape
    obtain ⟨d, tail, heq⟩ := List.exists_cons_of_ne_nil
      (List.append_ne_nil_of_right_ne_nil inner (List.cons_ne_nil ')' rest))
    exact hescape d tail hbackslash heq

theorem exists_question_of_opensCapture (h : opensCapture cs = false) :
    ∃ tail, cs = '?' :: tail := by
  cases cs with
  | nil => exact absurd h (by simp [opensCapture])
  | cons c cs =>
      by_cases hc : c = '?'
      · exact ⟨cs, by rw [hc]⟩
      · exact absurd h (by simp [opensCapture, hc])

end Custom

section Tokens

variable {verbose : Bool} {cs rest : List Char} {token : Regex.Token}

theorem captures_of_readSwitches {first off bare : Bool} {done : List (Regex.Switch × Bool)}
    (h : Regex.Token.readSwitches verbose cs first off bare done = some (token, rest)) :
    token.captures = false := by
  fun_induction Regex.Token.readSwitches verbose cs first off bare done <;> simp_all
  all_goals
    obtain ⟨rfl, _⟩ := h
    rfl

/-- The tokens of a pattern know the parentheses that capture. -/
theorem captures_of_openingToken? (hopens : opensCapture cs = false)
    (h : Regex.Token.openingToken? verbose cs = some (token, rest)) : token.captures = false := by
  unfold Regex.Token.openingToken? at h
  split at h
  case h_5 hequal hbang =>
    rw [opensCapture] at hopens
    · exact absurd hopens (by simp)
    · exact hequal
    · exact hbang
  case h_6 => exact absurd hopens (by simp [opensCapture])
  case h_7 =>
    split at h
    · split at h
      · exact absurd h (by simp)
      · obtain ⟨rfl, _⟩ := Prod.mk.inj (Option.some.inj h)
        rfl
    · exact absurd h (by simp)
  case h_9 => exact captures_of_readSwitches h
  case h_10 =>
    refine absurd hopens ?_
    cases cs with
    | nil => simp [opensCapture]
    | cons c cs => simp [opensCapture]
  all_goals
    obtain ⟨rfl, _⟩ := Prod.mk.inj (Option.some.inj h)
    rfl

theorem exists_of_nextItem? (h : Regex.Token.nextItem? verbose cs = some (token, rest))
    (hcaptures : token.captures = true) :
    ∃ inner passed, cs = '(' :: inner ∧ Regex.Token.pass? verbose .between inner = some passed ∧
      Regex.Token.openingToken? verbose passed = some (token, rest) := by
  simp only [Regex.Token.nextItem?, Regex.Token.next?, Bool.false_eq_true, ↓reduceIte] at h
  split at h
  case h_7 inner =>
    obtain ⟨passed, hpass, h⟩ := Option.bind_eq_some_iff.1 h
    exact ⟨inner, passed, rfl, hpass, h⟩
  case h_1 | h_10 | h_11 | h_12 => exact absurd h (by simp)
  case h_8 =>
    obtain ⟨pair, _, h⟩ := Option.map_eq_some_iff.1 h
    obtain ⟨rfl, _⟩ := Prod.mk.inj h
    exact absurd hcaptures (by simp [Regex.Token.captures])
  case h_9 =>
    obtain ⟨⟨escape, tail⟩, _, h⟩ := Option.map_eq_some_iff.1 h
    obtain ⟨rfl, _⟩ := Prod.mk.inj h
    cases escape <;> exact absurd hcaptures (by simp [Regex.Token.captures])
  all_goals
    obtain ⟨rfl, _⟩ := Prod.mk.inj (Option.some.inj h)
    exact absurd hcaptures (by simp [Regex.Token.captures])

/-- A group that captures begins with its parenthesis. -/
theorem exists_of_captures {place : Place} (h : Regex.Token.next? place cs = some (token, rest))
    (hcaptures : token.captures = true) :
    ∃ inner passed, cs = '(' :: inner ∧
      Regex.Token.pass? place.flags.verbose .between inner = some passed ∧
      Regex.Token.openingToken? place.flags.verbose passed = some (token, rest) := by
  rw [Regex.Token.next?_eq] at h
  rcases Option.or_eq_some_iff.1 h with h | ⟨_, h⟩
  · simp only [Option.ite_none_right_eq_some] at h
    obtain ⟨_, _, _, _, rfl⟩ := Regex.Token.exists_quantifier_of_quantifier? h.2
    exact absurd hcaptures (by simp [Regex.Token.captures])
  · exact exists_of_nextItem? h hcaptures

end Tokens

namespace Guarded

variable {text other rest : List Char}

/-- Steps from guarded text come to guarded text before the same rest, or beyond it. -/
theorem of_steps (h : Guarded text) (hsteps : Steps (text ++ other) rest) :
    (∃ tail, Guarded tail ∧ rest = tail ++ other) ∨ Steps other rest := by
  induction h with
  | nil => exact .inr hsteps
  | escaped h ih =>
      rcases hsteps.of_escaped with rfl | hsteps
      · exact .inl ⟨_, .escaped h, rfl⟩
      · exact ih hsteps
  | opening hopens h ih =>
      rcases hsteps.of_plain (by decide) with rfl | hsteps
      · exact .inl ⟨_, .opening hopens h, rfl⟩
      · exact ih hsteps
  | plain hc h ih =>
      rcases hsteps.of_plain hc.1 with rfl | hsteps
      · exact .inl ⟨_, .plain hc h, rfl⟩
      · exact ih hsteps

/-- Steps from guarded text before a closing parenthesis come to such text, or beyond it. -/
theorem of_steps_closing (h : Guarded text) (hsteps : Steps (text ++ ')' :: other) rest) :
    (∃ tail, Guarded tail ∧ rest = tail ++ ')' :: other) ∨ rest.length ≤ other.length := by
  rcases h.of_steps hsteps with hguarded | hsteps
  · exact .inl hguarded
  · rcases hsteps.of_plain (by decide) with rfl | hsteps
    · exact .inl ⟨[], .nil, rfl⟩
    · exact .inr hsteps.length_le

/-- A token that begins in guarded text opens no group that captures. -/
theorem captures_eq_false {place : Place} {token : Regex.Token} {next : List Char}
    (h : Guarded text)
    (hnext : Regex.Token.next? place (text ++ ')' :: other) = some (token, next)) :
    token.captures = false := by
  cases hcaptures : token.captures with
  | false => rfl
  | true =>
      obtain ⟨inner, passed, heq, hpass, hopening⟩ := exists_of_captures hnext hcaptures
      cases h with
      | nil => exact absurd heq (by simp)
      | escaped _ => exact absurd heq (by simp)
      | plain hc _ => exact absurd (List.cons.inj heq).1 hc.2
      | @opening text hopens _ =>
          obtain rfl := (List.cons.inj heq).2
          have hinner := hopens (')' :: other)
          -- No gap stands between the parenthesis and the question mark after it.
          obtain ⟨tail, htail⟩ := exists_question_of_opensCapture hinner
          have hsolid : Regex.Token.Solid place.flags.verbose (text ++ ')' :: other) := by
            rw [htail]
            simp [Regex.Token.solid_cons_iff]
          obtain rfl := Option.some.inj (hsolid.symm.trans hpass)
          rw [captures_of_openingToken? hinner hopening] at hcaptures
          exact hcaptures.symm

/-- Guarded text before a closing parenthesis is read without a group that captures. -/
theorem captureless {place : Place} {tokens : List Regex.Token} (h : Guarded text)
    (hother : other ≠ []) (hwalk : Walk place (text ++ ')' :: other) tokens other) :
    Captureless tokens := by
  generalize hcs : text ++ ')' :: other = cs at hwalk
  induction hwalk generalizing text with
  | nil => exact fun _ hmem => absurd hmem List.not_mem_nil
  | @cons place cs passed next rest token tokens hpass hnext hwalk ih =>
      subst hcs
      have hwalked : Walk place passed (token :: tokens) rest :=
        .cons (Regex.Token.solid_of_pass? hpass) hnext hwalk
      have hpassed : passed ≠ [] := by
        rintro rfl
        exact absurd hnext (by simp [Walk.next?_nil])
      have hne : next ≠ [] := by
        rintro rfl
        exact hother (List.length_eq_zero_iff.1 (Nat.le_zero.1 (hwalk.steps hother).length_le))
      -- The token begins before the walk ends, so it begins in guarded text.
      rcases h.of_steps_closing (Regex.Token.steps_pass? hpass hpassed) with ⟨tail, htail, rfl⟩ | hle
      · have hfirst := htail.captures_eq_false hnext
        have hrest : Captureless tokens := by
          rcases htail.of_steps_closing (Regex.Token.takes_next? hnext hne).steps with
            ⟨_, hguarded, rfl⟩ | hle
          · exact ih hguarded hother rfl
          · cases tokens with
            | nil => exact fun _ hmem => absurd hmem List.not_mem_nil
            | cons token tokens => exact absurd hwalk.length_lt (Nat.not_lt_of_le hle)
        exact List.forall_mem_cons.2 ⟨hfirst, hrest⟩
      · exact absurd hwalked.length_lt (Nat.not_lt_of_le hle)

end Guarded

end Waymark.Pattern
