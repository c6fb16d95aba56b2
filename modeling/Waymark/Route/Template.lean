import Waymark.Pattern.Params
/-!
Texts with placeholders for parameters, `$\x7bname\x7d`.

A template is read once from left to right: the first place where a placeholder can begin is one,
and it ends at the first closing brace. What is put in is not read again.
-/

namespace Waymark.Route

/-- A piece of a template. -/
inductive Piece where
  | char (c : Char)
  | placeholder (name : List Char)
deriving DecidableEq, Repr

namespace Template

/-- A placeholder at the front, given the characters after its opening brace: its name, and what
follows its closing brace. -/
def placeholder? (cs : List Char) : Option (List Char × List Char) :=
  match cs.takeWhile (· ≠ '\x7d'), cs.dropWhile (· ≠ '\x7d') with
  | [], _ => none
  | _, [] => none
  | name, _ :: rest => some (name, rest)

theorem length_lt_of_placeholder? {cs name rest : List Char}
    (h : placeholder? cs = some (name, rest)) : rest.length < cs.length := by
  unfold placeholder? at h
  split at h
  · simp at h
  · simp at h
  · next c after heq _ =>
    simp only [Option.some.injEq, Prod.mk.injEq] at h
    obtain ⟨-, rfl⟩ := h
    have hle := (List.dropWhile_sublist (l := cs) (· ≠ '\x7d')).length_le
    rw [heq] at hle
    simp only [List.length_cons] at hle
    omega

/-- The pieces of a template. -/
def pieces (cs : List Char) : List Piece :=
  match cs with
  | [] => []
  | '$' :: '\x7b' :: rest =>
      match _h : placeholder? rest with
      | some (name, after) => .placeholder name :: pieces after
      | none => .char '$' :: pieces ('\x7b' :: rest)
  | c :: rest => .char c :: pieces rest
termination_by cs.length
decreasing_by
  · exact Nat.lt_succ_of_lt (Nat.lt_succ_of_lt (length_lt_of_placeholder? _h))
  · exact Nat.lt_succ_self _
  · exact Nat.lt_succ_self _

end Template

/-- A piece as it is written. -/
def Piece.write : Piece → List Char
  | .char c => [c]
  | .placeholder name => '$' :: '\x7b' :: name ++ ['\x7d']

/-- The text of a parameter: a list is joined by slashes. -/
def paramText : Pattern.ParamValue → List Char
  | .single text => text.toList
  | .repeated texts => List.intercalate ['/'] (texts.map String.toList)

/-- A piece with the value of its parameter put in, if it has one. -/
def Piece.fill (params : Pattern.Params) : Piece → List Char
  | .char c => [c]
  | .placeholder name =>
      match params.value? (String.ofList name) with
      | some value => paramText value
      | none => (Piece.placeholder name).write

/-- A template with the values of parameters put in. A placeholder without a value stays. -/
def interpolate (template : String) (params : Pattern.Params) : String :=
  String.ofList ((Template.pieces template.toList).flatMap (Piece.fill params))

end Waymark.Route
