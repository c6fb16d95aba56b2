import Waymark.Regex.Assembly
import Waymark.Proofs.Regex.Row
/-!
What the tokens of a well-formed part add to an expression that is being read.

`Adds depth flags tokens items groups` says that tokens add items to the innermost group, whatever
has been read before, and begin a number of groups that capture. The items depend on the number of
the groups before them. `depth` tells how deep the tokens nest.
-/

namespace Waymark.Regex

namespace Assembly

/-- Further items in the innermost group, and nameless groups that capture. -/
def extend (assembly : Assembly) (items : List Expr) (groups : Nat) : Assembly :=
  { assembly with
    inner := { assembly.inner with items := items.reverse ++ assembly.inner.items }
    names := List.replicate groups none ++ assembly.names }

@[simp] theorem extend_nil (assembly : Assembly) : assembly.extend [] 0 = assembly := by
  simp [extend]

@[simp] theorem pending_extend (assembly : Assembly) (items : List Expr) (groups : Nat) :
    (assembly.extend items groups).pending = assembly.pending := rfl

@[simp] theorem groupCount_extend (assembly : Assembly) (items : List Expr) (groups : Nat) :
    (assembly.extend items groups).groupCount = assembly.groupCount + groups := by
  simp [extend, groupCount, Nat.add_comm]

theorem extend_extend (assembly : Assembly) (items others : List Expr) (groups more : Nat) :
    (assembly.extend items groups).extend others more =
      assembly.extend (items ++ others) (groups + more) := by
  simp [extend, Nat.add_comm groups more, ← List.replicate_append_replicate]

/-- A group has begun. -/
def entered (assembly : Assembly) (enclosure : Enclosure) (flags : Flags) : Assembly :=
  { assembly with
    pending := ⟨enclosure, assembly.inner⟩ :: assembly.pending
    inner := .start flags }

theorem enter?_eq (assembly : Assembly) (enclosure : Enclosure) (flags : Flags)
    (h : assembly.pending.length + 1 < tooDeep) :
    assembly.enter? enclosure flags = some (assembly.entered enclosure flags) := by
  rw [enter?, if_neg (Nat.not_le_of_lt h)]
  rfl

/-- A group whose inside is a row of items ends. -/
theorem leave?_entered (assembly : Assembly) (enclosure : Enclosure) (flags : Flags)
    (items : List Expr) (groups : Nat) :
    ((assembly.entered enclosure flags).extend items groups).leave? =
      (enclosure.close? (row items)).map fun item => assembly.extend [item] groups := by
  have hexpr : ((assembly.entered enclosure flags).extend items groups).inner.expr = row items := by
    simp [entered, extend, Open.expr, Open.branch, Open.start, Expr.ofAlternatives, row]
  have hpending : ((assembly.entered enclosure flags).extend items groups).pending =
      ⟨enclosure, assembly.inner⟩ :: assembly.pending := rfl
  simp only [leave?, hpending, hexpr]
  cases enclosure.close? (row items) <;> rfl

theorem addAll?_append (assembly : Assembly) (tokens others : List Token) :
    assembly.addAll? (tokens ++ others) = (assembly.addAll? tokens).bind (addAll? · others) := by
  simp [addAll?, List.foldlM_append]

theorem addAll?_cons (assembly : Assembly) (token : Token) (others : List Token) :
    assembly.addAll? (token :: others) = (assembly.add? token).bind (addAll? · others) := by
  simp [addAll?]

theorem addAll?_singleton (assembly : Assembly) (token : Token) :
    assembly.addAll? [token] = assembly.add? token := by
  simp [addAll?]

end Assembly

/-- Tokens add items, and groups that capture, wherever they stand less deep than groups may. -/
def Adds (depth : Nat) (flags : Flags) (tokens : List Token) (items : Nat → List Expr)
    (groups : Nat) : Prop :=
  ∀ assembly : Assembly, assembly.inner.flags = flags →
    assembly.pending.length + depth < Assembly.tooDeep →
    assembly.addAll? tokens = some (assembly.extend (items assembly.groupCount) groups)

namespace Adds

open Assembly

variable {depth : Nat} {flags : Flags} {tokens others : List Token}
  {items more : Nat → List Expr} {groups further : Nat}

theorem nil (depth : Nat) (flags : Flags) : Adds depth flags [] (fun _ => []) 0 := by
  intro assembly _ _
  simp [addAll?]

theorem deepen (h : Adds depth flags tokens items groups) {deeper : Nat} (hle : depth ≤ deeper) :
    Adds deeper flags tokens items groups :=
  fun assembly hflags hdepth => h assembly hflags (by omega)

theorem append (h : Adds depth flags tokens items groups)
    (hmore : Adds depth flags others more further) :
    Adds depth flags (tokens ++ others) (fun index => items index ++ more (index + groups))
      (groups + further) := by
  intro assembly hflags hdepth
  rw [addAll?_append, h assembly hflags hdepth, Option.bind_some,
    hmore (assembly.extend (items assembly.groupCount) groups) hflags hdepth, extend_extend,
    groupCount_extend]

theorem set (depth : Nat) (flags : Flags) (chars : CharSet) :
    Adds depth flags [.set chars] (fun _ => [.set chars flags.caseless]) 0 := by
  rintro assembly rfl _
  rw [addAll?_singleton]
  rfl

/-- Characters one after another. -/
theorem sets (depth : Nat) (flags : Flags) (sets : List CharSet) :
    Adds depth flags (sets.map .set) (fun _ => sets.map (.set · flags.caseless)) 0 := by
  induction sets with
  | nil => exact nil depth flags
  | cons chars sets ih => exact (set depth flags chars).append ih

/-- A group: what is inside is a row, closed by the enclosure. -/
theorem within (enclosure : Nat → Enclosure) (h : Adds depth flags tokens items groups)
    {opening : Opening} {closed : Nat → Expr} {captures : Nat}
    (hopening : ∀ assembly : Assembly, assembly.inner.flags = flags →
      assembly.add? (.opening opening) =
        (assembly.extend [] captures).enter? (enclosure assembly.groupCount) flags)
    (hclosed : ∀ index,
      (enclosure index).close? (row (items (index + captures))) = some (closed index)) :
    Adds (depth + 1) flags (.opening opening :: tokens ++ [.closing])
      (fun index => [closed index]) (captures + groups) := by
  intro assembly hflags hdepth
  have hinside := h ((assembly.extend [] captures).entered (enclosure assembly.groupCount) flags)
    rfl (by simp only [entered, pending_extend, List.length_cons]; omega)
  rw [List.cons_append, addAll?_cons, hopening assembly hflags,
    enter?_eq _ _ _ (by simp only [pending_extend]; omega), Option.bind_some, addAll?_append,
    hinside, Option.bind_some, addAll?_singleton, add?, leave?_entered]
  have hindex : ((assembly.extend [] captures).entered (enclosure assembly.groupCount)
      flags).groupCount = assembly.groupCount + captures :=
    groupCount_extend assembly [] captures
  rw [hindex, hclosed, Option.map_some, extend_extend, List.nil_append]

theorem grouped (h : Adds depth flags tokens items groups) :
    Adds (depth + 1) flags (.opening (.plain []) :: tokens ++ [.closing])
      (fun index => [row (items index)]) groups := by
  have hwithin : Adds (depth + 1) flags (.opening (.plain []) :: tokens ++ [.closing])
      (fun index => [row (items index)]) (0 + groups) := by
    refine within (fun _ => .plain) h ?_ fun _ => rfl
    rintro assembly rfl
    rw [extend_nil]
    rfl
  rwa [Nat.zero_add] at hwithin

theorem capturing (h : Adds depth flags tokens items groups) :
    Adds (depth + 1) flags (.opening (.capture none) :: tokens ++ [.closing])
      (fun index => [.group (index + 1) (row (items (index + 1)))]) (1 + groups) :=
  within (fun index => .capture (index + 1)) h (by rintro assembly rfl; rfl)
    fun _ => rfl

theorem quantified {item : Nat → Expr}
    (h : Adds depth flags tokens (fun index => [item index]) groups)
    (hrepeatable : ∀ index, (item index).repeatable = true) (least : Nat) (most : Option Nat)
    (questioned : Bool) :
    Adds depth flags (tokens ++ [.quantifier least most questioned false])
      (fun index => [.loop (item index) least most (questioned == flags.swapped)]) groups := by
  rintro assembly rfl hdepth
  rw [addAll?_append, h assembly rfl hdepth, Option.bind_some, addAll?_singleton, add?, repeat?]
  simp [extend, hrepeatable]

end Adds

end Waymark.Regex
