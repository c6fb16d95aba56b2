import Waymark.Proofs.Regex.Growing
import Waymark.Proofs.Regex.Shifting
/-!
Tokens read behind further groups.

Tokens that do not refer back can be read on their own, or in a longer reading: there, groups are open
around them, other groups have come before, and other alternatives may have been read of the group
that they stand in. The two readings go along with each other token by token (`addAll?_relocated`), and
what they make of the tokens is the same but for the numbers of the groups.
-/

namespace Waymark.Regex

open Token (Balanced levelAfter? level? level?_cons)

/-- Whether a token asks for the text of a group. -/
def Token.refersBack : Token → Bool
  | .backref _ | .namedBackref _ => true
  | _ => false

/-- The same enclosure behind a number of further groups. -/
def Enclosure.shift (offset : Nat) : Enclosure → Enclosure
  | .capture index => .capture (index + offset)
  | other => other

section Closing

variable {offset : Nat}

/-- What is done with the images of some parts gives the images of what is done with the parts. -/
theorem mapM_map_of_forall {f : Expr → Option Expr} {image : Expr → Expr}
    (h : ∀ item, f (image item) = (f item).map image) (items : List Expr) :
    (items.map image).mapM f = (items.mapM f).map (List.map image) := by
  induction items with
  | nil => rfl
  | cons item items ih =>
      rw [List.map_cons, List.mapM_cons, List.mapM_cons, ih, h]
      cases f item <;> cases items.mapM f <;> rfl

/-- A look behind one alternative. -/
def lookBack? (negated : Bool) (branch : Expr) : Option Expr :=
  branch.width?.map fun width => .behind negated width branch

theorem lookBack?_shift (negated : Bool) (branch : Expr) :
    lookBack? negated (branch.shift offset) = (lookBack? negated branch).map (.shift offset) := by
  rw [lookBack?, Expr.width?_shift, lookBack?]
  cases branch.width? <;> rfl

theorem lookBehind?_eq (negated : Bool) (body : Expr) :
    lookBehind? negated body = (body.alternatives.mapM (lookBack? negated)).map
      fun looks => if negated then .ofSeq looks else .ofAlternatives looks := by
  have hlook : (fun branch : Expr => do return Expr.behind negated (← branch.width?) branch) =
      lookBack? negated := by
    funext branch
    rw [lookBack?]
    cases branch.width? <;> rfl
  rw [lookBehind?, hlook]
  cases body.alternatives.mapM (lookBack? negated) <;> rfl

theorem lookBehind?_shift (negated : Bool) (body : Expr) :
    lookBehind? negated (body.shift offset) = (lookBehind? negated body).map (.shift offset) := by
  rw [lookBehind?_eq, lookBehind?_eq, Expr.alternatives_shift,
    mapM_map_of_forall (lookBack?_shift negated), Option.map_map, Option.map_map]
  congr 1
  funext looks
  cases negated
  · exact (Expr.shift_ofAlternatives offset looks).symm
  · exact (Expr.shift_ofSeq offset looks).symm

/-- A group behind further groups is closed as it is without them. -/
theorem close?_shift (enclosure : Enclosure) (body : Expr) :
    (enclosure.shift offset).close? (body.shift offset) =
      (enclosure.close? body).map (.shift offset) := by
  cases enclosure with
  | behind negated => exact lookBehind?_shift negated body
  | capture | plain | ahead | atomic => rfl

end Closing

/-- What has been read of a group on its own and in a longer reading, where other alternatives may
have come before, and items that leave no trace. -/
structure Open.Shifted (offset : Nat) (before : List Expr) (inner there : Open) : Prop where
  flags : there.flags = inner.flags
  alternatives : there.alternatives = inner.alternatives.map (.shift offset) ++ before
  items : ∃ hollow : List Expr, (∀ item ∈ hollow, item = .empty) ∧
    there.items = inner.items.map (.shift offset) ++ hollow

namespace Open.Shifted

variable {offset : Nat} {before : List Expr} {inner there : Open}

theorem start (offset : Nat) (flags : Flags) :
    Open.Shifted offset [] (.start flags) (.start flags) :=
  ⟨rfl, rfl, [], fun _ h => absurd h List.not_mem_nil, rfl⟩

theorem push (h : inner.Shifted offset before there) (item : Expr) :
    (inner.push item).Shifted offset before (there.push (item.shift offset)) := by
  obtain ⟨hollow, hhollow, hitems⟩ := h.items
  refine ⟨h.flags, h.alternatives, hollow, hhollow, ?_⟩
  simp [Open.push, hitems]

theorem branch_eq (h : inner.Shifted offset before there) :
    there.branch = inner.branch.shift offset := by
  obtain ⟨hollow, hhollow, hitems⟩ := h.items
  have hnone : hollow.reverse.filter (· ≠ .empty) = [] := by
    rw [List.filter_eq_nil_iff]
    intro item hitem
    simp [hhollow item (List.mem_reverse.1 hitem)]
  have hshift : (fun item : Expr => decide (item ≠ .empty)) ∘ Expr.shift offset =
      fun item => decide (item ≠ .empty) := by
    funext item
    simp [Expr.shift_eq_empty_iff]
  rw [Open.branch, Open.branch, hitems, List.reverse_append, List.filter_append, hnone,
    List.nil_append, ← List.map_reverse, List.filter_map, hshift, Expr.shift_ofSeq]

theorem expr_eq (h : inner.Shifted offset [] there) : there.expr = inner.expr.shift offset := by
  rw [Open.expr, Open.expr, h.branch_eq, h.alternatives, List.append_nil, ← List.map_cons,
    ← List.map_reverse, Expr.shift_ofAlternatives]

theorem bar (h : inner.Shifted offset before there) :
    Open.Shifted offset before
      { inner with alternatives := inner.branch :: inner.alternatives, items := [] }
      { there with alternatives := there.branch :: there.alternatives, items := [] } where
  flags := h.flags
  alternatives := by rw [h.branch_eq, h.alternatives, List.map_cons, List.cons_append]
  items := ⟨[], fun _ h => absurd h List.not_mem_nil, rfl⟩

theorem switch (h : inner.Shifted offset before there) (flags : Flags) :
    Open.Shifted offset before { inner with flags } { there with flags } :=
  ⟨rfl, h.alternatives, h.items⟩

end Open.Shifted

/-- The groups that are open in two readings, the innermost first. In the longer one, those that were
open before come last. -/
inductive Seated (offset : Nat) (before : List Expr) (around : List Pending) :
    List Pending → Open → List Pending → Open → Prop
  | base {inner there : Open} (h : inner.Shifted offset before there) :
      Seated offset before around [] inner around there
  | within {inner there outer outer' : Open} {pending pending' : List Pending}
      (enclosure : Enclosure) (h : inner.Shifted offset [] there)
      (houter : Seated offset before around pending outer pending' outer') :
      Seated offset before around (⟨enclosure, outer⟩ :: pending) inner
        (⟨enclosure.shift offset, outer'⟩ :: pending') there

/-- A reading on its own and a longer one that have read the same tokens. -/
structure Assembly.Relocated (offset : Nat) (before : List Expr) (around : List Pending)
    (assembly there : Assembly) : Prop where
  seated : Seated offset before around assembly.pending assembly.inner there.pending there.inner
  count : there.groupCount = assembly.groupCount + offset

variable {offset : Nat} {before : List Expr} {around : List Pending}

namespace Seated

variable {pending pending' : List Pending} {inner there : Open}

theorem length_eq (h : Seated offset before around pending inner pending' there) :
    pending'.length = pending.length + around.length := by
  induction h with
  | base => exact (Nat.zero_add _).symm
  | within _ _ _ ih => rw [List.length_cons, List.length_cons, ih, Nat.add_right_comm]

/-- In the innermost group both readings go on alike, whatever is around it. -/
theorem innermost (h : Seated offset before around pending inner pending' there) :
    ∃ others, inner.Shifted offset others there ∧
      ∀ {next next' : Open}, next.Shifted offset others next' →
        Seated offset before around pending next pending' next' := by
  cases h with
  | base h => exact ⟨before, h, .base⟩
  | within enclosure h houter => exact ⟨[], h, fun hnext => .within enclosure hnext houter⟩

theorem shifted (h : Seated offset before around [] inner pending' there) :
    inner.Shifted offset before there := by
  cases h with
  | base h => exact h

/-- A group that is open in the reading on its own is open in the longer one. -/
theorem exists_of_ne_nil (h : Seated offset before around pending inner pending' there)
    (hne : pending ≠ []) :
    ∃ enclosure outer outer' rest rest', pending = ⟨enclosure, outer⟩ :: rest ∧
      pending' = ⟨enclosure.shift offset, outer'⟩ :: rest' ∧ inner.Shifted offset [] there ∧
      Seated offset before around rest outer rest' outer' := by
  cases h with
  | base => exact absurd rfl hne
  | within enclosure h houter => exact ⟨_, _, _, _, _, rfl, rfl, h, houter⟩

end Seated

namespace Assembly

variable {assembly there next : Assembly}

theorem Relocated.enclosureOf (h : assembly.Relocated offset before around there)
    (opening : Opening) :
    there.enclosureOf opening = (assembly.enclosureOf opening).shift offset := by
  cases opening with
  | capture =>
      rw [Assembly.enclosureOf, h.count, Nat.add_right_comm]
      rfl
  | plain | ahead | behind | atomic => rfl

theorem length_of_add?_opening {opening : Opening}
    (h : assembly.add? (.opening opening) = some next) :
    assembly.pending.length + 1 < tooDeep := by
  cases opening <;>
    · exact (enter?_eq_some_iff.1 h).1

theorem exists_add?_opening (opening : Opening) (h : assembly.pending.length + 1 < tooDeep) :
    ∃ next, assembly.add? (.opening opening) = some next := by
  cases opening <;> exact ⟨_, enter?_eq _ _ _ h⟩

/-- The last item is repeated on its own as it is in a longer reading. -/
theorem repeat?_shifted {others : List Expr} {least : Nat} {most : Option Nat}
    {questioned possessive : Bool} (h : assembly.inner.Shifted offset others there.inner)
    (hnext : there.repeat? least most questioned possessive = some next) :
    ∃ after, assembly.repeat? least most questioned possessive = some after ∧
      after.inner.Shifted offset others next.inner := by
  obtain ⟨hollow, hhollow, hitems⟩ := h.items
  unfold repeat? at hnext ⊢
  cases hread : assembly.inner.items with
  | nil =>
      -- Items that leave no trace cannot be repeated.
      rw [hitems, hread, List.map_nil, List.nil_append] at hnext
      cases hollow with
      | nil => exact absurd hnext (by simp)
      | cons item items =>
          obtain rfl := hhollow item List.mem_cons_self
          exact absurd hnext (by simp [Expr.repeatable])
  | cons item items =>
      rw [hitems, hread, List.map_cons, List.cons_append] at hnext
      simp only [Expr.repeatable_shift, h.flags] at hnext ⊢
      split at hnext
      · next hrepeatable =>
        rw [if_pos hrepeatable, ← Option.some.inj hnext]
        refine ⟨_, rfl, rfl, h.alternatives, hollow, hhollow, ?_⟩
        cases possessive <;> rfl
      · exact absurd hnext (by simp)

/-- A group that was opened in both readings ends in both. -/
theorem leave?_seated
    (h : Seated offset before around assembly.pending assembly.inner there.pending there.inner)
    (hopen : assembly.pending ≠ []) (hnext : there.leave? = some next) :
    ∃ after, assembly.leave? = some after ∧
      Seated offset before around after.pending after.inner next.pending next.inner := by
  obtain ⟨enclosure, outer, outer', pending, pending', hpending, hpending', hinner, houter⟩ :=
    h.exists_of_ne_nil hopen
  obtain ⟨item, hitem, hrest, hpushed⟩ := leave?_eq_some hpending' hnext
  rw [hinner.expr_eq, close?_shift] at hitem
  obtain ⟨closed, hclosed, rfl⟩ := Option.map_eq_some_iff.1 hitem
  obtain ⟨_, houter, hreplace⟩ := houter.innermost
  refine ⟨{ assembly with pending := pending, inner := outer.push closed }, ?_, ?_⟩
  · simp only [leave?, hpending, hclosed]
    rfl
  · rw [hrest, hpushed]
    exact hreplace (houter.push closed)

/-- A token that does not refer back is read on its own as it is in a longer reading. -/
theorem add?_relocated {token : Token} {depth : Nat} (hplain : token.refersBack = false)
    (hlevel : levelAfter? assembly.pending.length token = some depth)
    (h : assembly.Relocated offset before around there) (hnext : there.add? token = some next) :
    ∃ after, assembly.add? token = some after ∧ after.Relocated offset before around next := by
  obtain ⟨others, hinner, hreplace⟩ := h.seated.innermost
  -- The numbers of the groups follow from the tokens, whatever is read.
  have hcount : ∀ after, assembly.add? token = some after →
      next.groupCount = after.groupCount + offset := by
    intro after hafter
    rw [groupCount_of_add? hnext, groupCount_of_add? hafter, h.count, Nat.add_right_comm]
  suffices hseated : ∃ after, assembly.add? token = some after ∧
      Seated offset before around after.pending after.inner next.pending next.inner by
    obtain ⟨after, hafter, hseated⟩ := hseated
    exact ⟨after, hafter, hseated, hcount after hafter⟩
  have hpush : ∀ item : Expr, there.push (item.shift offset) = next →
      Seated offset before around assembly.pending (assembly.push item).inner next.pending
        next.inner := by
    rintro item rfl
    exact hreplace (hinner.push item)
  cases token with
  | backref | namedBackref => simp [Token.refersBack] at hplain
  | anchor place => exact ⟨_, rfl, hpush (.anchor place) (Option.some.inj hnext)⟩
  | set | dot | start | finish =>
      refine ⟨_, rfl, hpush _ ?_⟩
      rw [← Option.some.inj hnext, hinner.flags]
      rfl
  | switches changes =>
      obtain rfl := Option.some.inj hnext
      refine ⟨_, rfl, hreplace ?_⟩
      rw [hinner.flags]
      exact (hinner.push .empty).switch _
  | bar =>
      obtain rfl := Option.some.inj hnext
      exact ⟨_, rfl, hreplace hinner.bar⟩
  | quantifier least most questioned possessive =>
      obtain ⟨after, hafter, hseated⟩ := repeat?_shifted hinner hnext
      exact ⟨after, hafter, by
        rw [pending_of_repeat? hafter, pending_of_repeat? hnext]
        exact hreplace hseated⟩
  | closing =>
      refine leave?_seated h.seated (fun hnone => ?_) hnext
      rw [hnone] at hlevel
      exact absurd hlevel (by simp [levelAfter?])
  | opening opening =>
      have hdepth := length_of_add?_opening hnext
      rw [h.seated.length_eq] at hdepth
      obtain ⟨after, hafter⟩ := exists_add?_opening opening
        (show assembly.pending.length + 1 < tooDeep by omega)
      refine ⟨after, hafter, ?_⟩
      obtain ⟨hpending, hstart⟩ := add?_opening hafter
      obtain ⟨hpending', hstart'⟩ := add?_opening hnext
      rw [hpending, hstart, hpending', hstart', hinner.flags, h.enclosureOf]
      exact .within _ (.start offset _) h.seated

/-- Tokens that do not refer back are read on their own as they are in a longer reading. -/
theorem addAll?_relocated {tokens : List Token} {depth : Nat}
    (hplain : ∀ token ∈ tokens, token.refersBack = false)
    (hlevel : level? assembly.pending.length tokens = some depth)
    (h : assembly.Relocated offset before around there) (hnext : there.addAll? tokens = some next) :
    ∃ after, assembly.addAll? tokens = some after ∧ after.Relocated offset before around next ∧
      after.pending.length = depth := by
  induction tokens generalizing assembly there with
  | nil =>
      obtain rfl := Option.some.inj hlevel
      obtain rfl := Option.some.inj hnext
      exact ⟨assembly, rfl, h, rfl⟩
  | cons token tokens ih =>
      obtain ⟨htoken, hplain⟩ := List.forall_mem_cons.1 hplain
      rw [level?_cons] at hlevel
      obtain ⟨deeper, hdeeper, hlevel⟩ := Option.bind_eq_some_iff.1 hlevel
      rw [addAll?_cons] at hnext
      obtain ⟨middle, hmiddle, hnext⟩ := Option.bind_eq_some_iff.1 hnext
      obtain ⟨after, hafter, hrelocated⟩ := add?_relocated htoken hdeeper h hmiddle
      obtain ⟨front, hfront, hlength⟩ :=
        pending_of_add? hafter hdeeper (List.append_nil _).symm rfl
      rw [List.append_nil] at hfront
      rw [← hlength, ← hfront] at hlevel
      obtain ⟨last, hlast, hrelocated, hdepth⟩ := ih hplain hlevel hrelocated hnext
      refine ⟨last, ?_, hrelocated, hdepth⟩
      rw [addAll?_cons, hafter, Option.bind_some, hlast]

/-- With nothing around it, a longer reading takes each token that the reading on its own takes. -/
theorem exists_add?_of_relocated {token : Token} {after : Assembly}
    (hplain : token.refersBack = false) (h : assembly.Relocated offset before [] there)
    (hafter : assembly.add? token = some after) : ∃ next, there.add? token = some next := by
  cases token with
  | backref | namedBackref => simp [Token.refersBack] at hplain
  | anchor | set | dot | start | finish | switches | bar => exact ⟨_, rfl⟩
  | opening opening =>
      apply exists_add?_opening
      rw [h.seated.length_eq]
      exact length_of_add?_opening hafter
  | closing =>
      have hopen : assembly.pending ≠ [] := by
        intro hnone
        rw [add?, leave?, hnone] at hafter
        exact absurd hafter (by simp)
      obtain ⟨enclosure, outer, outer', pending, pending', hpending, hpending', hinner, -⟩ :=
        h.seated.exists_of_ne_nil hopen
      obtain ⟨item, hitem, -⟩ := leave?_eq_some hpending hafter
      simp only [add?, leave?, hpending', hinner.expr_eq, close?_shift, hitem, Option.map_some]
      exact ⟨_, rfl⟩
  | quantifier least most questioned possessive =>
      obtain ⟨others, hinner, -⟩ := h.seated.innermost
      obtain ⟨hollow, -, hitems⟩ := hinner.items
      simp only [add?, repeat?] at hafter ⊢
      split at hafter
      · exact absurd hafter (by simp)
      · next item items hread =>
        rw [hread, List.map_cons, List.cons_append] at hitems
        split at hafter
        · next hrepeatable =>
          simp only [hitems, Expr.repeatable_shift, hrepeatable, ↓reduceIte]
          exact ⟨_, rfl⟩
        · exact absurd hafter (by simp)

/-- With nothing around it, a longer reading takes what the reading on its own takes. -/
theorem exists_addAll?_of_relocated {tokens : List Token} {depth : Nat} {after : Assembly}
    (hplain : ∀ token ∈ tokens, token.refersBack = false)
    (hlevel : level? assembly.pending.length tokens = some depth)
    (h : assembly.Relocated offset before [] there) (hafter : assembly.addAll? tokens = some after) :
    ∃ next, there.addAll? tokens = some next := by
  induction tokens generalizing assembly there with
  | nil => exact ⟨there, rfl⟩
  | cons token tokens ih =>
      obtain ⟨htoken, hplain⟩ := List.forall_mem_cons.1 hplain
      rw [level?_cons] at hlevel
      obtain ⟨deeper, hdeeper, hlevel⟩ := Option.bind_eq_some_iff.1 hlevel
      rw [addAll?_cons] at hafter
      obtain ⟨middle, hmiddle, hafter⟩ := Option.bind_eq_some_iff.1 hafter
      obtain ⟨next, hnext⟩ := exists_add?_of_relocated htoken h hmiddle
      obtain ⟨middle', hmiddle', hrelocated⟩ := add?_relocated htoken hdeeper h hnext
      obtain rfl := Option.some.inj (hmiddle.symm.trans hmiddle')
      obtain ⟨front, hfront, hlength⟩ :=
        pending_of_add? hmiddle hdeeper (List.append_nil _).symm rfl
      rw [List.append_nil] at hfront
      rw [← hlength, ← hfront] at hlevel
      obtain ⟨last, hlast⟩ := ih hplain hlevel hrelocated hafter
      exact ⟨last, by rw [addAll?_cons, hnext, Option.bind_some, hlast]⟩

/-- The inside of a group before anything of it has been read, with nothing around it. -/
def alone (flags : Flags) : Assembly :=
  ⟨[], .start flags, [], false⟩

/-- Tokens that close the groups they open are read at the beginning of a group, or of an alternative
in it, as they are on their own. -/
theorem addAll?_alone {tokens : List Token} (hbalanced : Balanced tokens)
    (hplain : ∀ token ∈ tokens, token.refersBack = false)
    (hhollow : ∀ item ∈ there.inner.items, item = .empty)
    (hnext : there.addAll? tokens = some next) :
    ∃ after, (alone there.inner.flags).addAll? tokens = some after ∧
      after.inner.Shifted there.groupCount there.inner.alternatives next.inner := by
  have hstart : (alone there.inner.flags).Relocated there.groupCount there.inner.alternatives
      there.pending there :=
    ⟨.base ⟨rfl, rfl, there.inner.items, hhollow, rfl⟩, (Nat.zero_add _).symm⟩
  have hlevel : level? (alone there.inner.flags).pending.length tokens = some 0 := hbalanced
  obtain ⟨after, hafter, ⟨hseated, -⟩, hdepth⟩ := addAll?_relocated hplain hlevel hstart hnext
  rw [List.length_eq_zero_iff.1 hdepth] at hseated
  exact ⟨after, hafter, hseated.shifted⟩

/-- What stands in a group is read as it is on its own, but for the numbers of the groups in it. -/
theorem exists_alone {flags : Flags} {tokens : List Token} (hbalanced : Balanced tokens)
    (hplain : ∀ token ∈ tokens, token.refersBack = false) (hstart : there.inner = .start flags)
    (hnext : there.addAll? tokens = some next) :
    ∃ after, (alone flags).addAll? tokens = some after ∧
      next.inner.expr = after.inner.expr.shift there.groupCount := by
  obtain ⟨after, hafter, hshifted⟩ := addAll?_alone hbalanced hplain (by simp [hstart, Open.start])
    hnext
  rw [hstart] at hafter hshifted
  exact ⟨after, hafter, hshifted.expr_eq⟩

/-- Tokens that are read on their own are read wherever nothing is around them and nothing with a trace
comes before. -/
theorem exists_addAll?_of_alone {tokens : List Token} {after : Assembly}
    (hbalanced : Balanced tokens) (hplain : ∀ token ∈ tokens, token.refersBack = false)
    (houtside : there.pending = []) (hhollow : ∀ item ∈ there.inner.items, item = .empty)
    (hafter : (alone there.inner.flags).addAll? tokens = some after) :
    ∃ next, there.addAll? tokens = some next := by
  have hstart : (alone there.inner.flags).Relocated there.groupCount there.inner.alternatives []
      there := by
    refine ⟨?_, (Nat.zero_add _).symm⟩
    rw [houtside]
    exact .base ⟨rfl, rfl, there.inner.items, hhollow, rfl⟩
  have hlevel : level? (alone there.inner.flags).pending.length tokens = some 0 := hbalanced
  exact exists_addAll?_of_relocated hplain hlevel hstart hafter

theorem numbered_eq_of_add? {token : Token} (hplain : token.refersBack = false)
    (h : assembly.add? token = some next) : next.numbered = assembly.numbered := by
  cases token with
  | backref | namedBackref => simp [Token.refersBack] at hplain
  | anchor | set | dot | start | finish | switches | bar =>
      obtain rfl := Option.some.inj h
      rfl
  | opening opening =>
      cases opening <;>
        · obtain ⟨-, rfl⟩ := enter?_eq_some_iff.1 h
          rfl
  | closing =>
      obtain ⟨_, _, _, _, -, -, rfl⟩ := exists_of_leave? h
      rfl
  | quantifier least most questioned possessive =>
      obtain ⟨_, _, _, -, -, rfl⟩ := exists_of_repeat? h
      rfl

/-- Where no token refers back, no group has been asked for by its number. -/
theorem numbered_eq_of_addAll? {tokens : List Token}
    (hplain : ∀ token ∈ tokens, token.refersBack = false)
    (h : assembly.addAll? tokens = some next) : next.numbered = assembly.numbered := by
  induction tokens generalizing assembly with
  | nil => rw [← Option.some.inj h]
  | cons token tokens ih =>
      obtain ⟨htoken, hplain⟩ := List.forall_mem_cons.1 hplain
      rw [addAll?_cons] at h
      obtain ⟨middle, hmiddle, h⟩ := Option.bind_eq_some_iff.1 h
      exact (ih hplain h).trans (numbered_eq_of_add? htoken hmiddle)

/-- Tokens that close the groups they open and do not refer back make a whole expression. -/
theorem finish?_of_balanced {tokens : List Token} (hbalanced : Balanced tokens)
    (hplain : ∀ token ∈ tokens, token.refersBack = false) (houtside : assembly.pending = [])
    (hnumbered : assembly.numbered = false) (h : assembly.addAll? tokens = some next) :
    next.finish? = some next.inner.expr := by
  have hclosed := (pending_of_balanced hbalanced h).trans houtside
  have hnone := (numbered_eq_of_addAll? hplain h).trans hnumbered
  rw [finish?, hclosed, hnone]
  rfl

end Assembly

end Waymark.Regex
