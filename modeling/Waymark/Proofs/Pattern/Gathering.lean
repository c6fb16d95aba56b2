import Waymark.Pattern.Matcher
/-!
How the parameters of a match are gathered from its groups.

Parameters are added one after another, each with the text of its group. Where no two have one name,
each is held with the value of its own group (`get?_paramsOf`). Where names come again, a parameter
that took part in the match still has a value in the end (`hasValue_paramsOf`).
-/

namespace Waymark.Pattern

/-- A parameter is held with a value. -/
def Params.HasValue (params : Params) (name : String) : Prop :=
  ∃ value, Dict.get? params name = some (some value)

namespace Matcher

variable {params : Params} {key : Key} {text : Option (List Char)}

theorem addParam_none (params : Params) (key : Key) :
    addParam params key none =
      if params.contains key.name.text then params
      else Dict.insert params key.name.text none :=
  rfl

theorem get?_addParam_of_ne {name : String} (hne : key.name.text ≠ name) :
    Dict.get? (addParam params key text) name = Dict.get? params name := by
  cases text with
  | some text => exact Dict.get?_insert_of_ne params _ hne
  | none =>
      rw [addParam_none]
      split
      · rfl
      · exact Dict.get?_insert_of_ne params _ hne

theorem get?_addParam_of_absent (h : Dict.get? params key.name.text = none) :
    Dict.get? (addParam params key text) key.name.text = some (text.map key.value) := by
  cases text with
  | some text => exact Dict.get?_insert_self params _ _
  | none =>
      have habsent : ¬ params.contains key.name.text = true := by
        rw [Params.contains, Dict.contains, h]
        simp
      rw [addParam_none, if_neg habsent]
      exact Dict.get?_insert_self params _ _

theorem hasValue_addParam {name : String} (h : params.HasValue name) :
    (addParam params key text).HasValue name := by
  by_cases hname : key.name.text = name
  · subst hname
    obtain ⟨value, hvalue⟩ := h
    cases text with
    | some text => exact ⟨_, Dict.get?_insert_self params _ _⟩
    | none =>
        have hcontains : params.contains key.name.text = true := by
          rw [Params.contains, Dict.contains, hvalue]
          rfl
        rw [addParam_none, if_pos hcontains]
        exact ⟨value, hvalue⟩
  · rw [Params.HasValue, get?_addParam_of_ne hname]
    exact h

/-- Add parameters with the texts of groups. -/
def addParams (groups : Nat → Option (List Char)) (params : Params)
    (entries : List (Key × Nat)) : Params :=
  entries.foldl (fun params (key, index) => addParam params key (groups (index + 1))) params

variable {groups : Nat → Option (List Char)}

theorem addParams_cons (groups : Nat → Option (List Char)) (params : Params) (key : Key)
    (index : Nat) (entries : List (Key × Nat)) :
    addParams groups params ((key, index) :: entries) =
      addParams groups (addParam params key (groups (index + 1))) entries :=
  rfl

theorem get?_addParams_of_forall_ne {name : String} {keys : List Key}
    (hne : ∀ key ∈ keys, key.name.text ≠ name) (index : Nat) :
    Dict.get? (addParams groups params (keys.zipIdx index)) name = Dict.get? params name := by
  induction keys generalizing params index with
  | nil => rfl
  | cons key keys ih =>
      obtain ⟨hkey, hkeys⟩ := List.forall_mem_cons.1 hne
      rw [List.zipIdx_cons, addParams_cons, ih hkeys, get?_addParam_of_ne hkey]

theorem get?_addParams {keys : List Key} (hdistinct : (keys.map (·.name.text)).Nodup)
    (habsent : ∀ key ∈ keys, Dict.get? params key.name.text = none) (index : Nat) {number : Nat}
    {key : Key} (hkey : keys[number]? = some key) :
    Dict.get? (addParams groups params (keys.zipIdx index)) key.name.text =
      some ((groups (index + number + 1)).map key.value) := by
  induction keys generalizing params index number with
  | nil => exact absurd hkey (by simp)
  | cons first keys ih =>
      obtain ⟨hfirst, hkeys⟩ := List.forall_mem_cons.1 habsent
      rw [List.map_cons, List.nodup_cons] at hdistinct
      have hne : ∀ other ∈ keys, other.name.text ≠ first.name.text := by
        intro other hother heq
        exact hdistinct.1 (heq ▸ List.mem_map_of_mem hother)
      rw [List.zipIdx_cons, addParams_cons]
      cases number with
      | zero =>
          obtain rfl := Option.some.inj hkey
          rw [get?_addParams_of_forall_ne hne, get?_addParam_of_absent hfirst, Nat.add_zero]
      | succ number =>
          rw [show index + (number + 1) + 1 = index + 1 + number + 1 by omega]
          refine ih hdistinct.2 (fun other hother => ?_) (index + 1) hkey
          rw [get?_addParam_of_ne (hne other hother).symm]
          exact hkeys other hother

theorem hasValue_addParams {name : String} (h : params.HasValue name)
    (entries : List (Key × Nat)) : (addParams groups params entries).HasValue name := by
  induction entries generalizing params with
  | nil => exact h
  | cons entry entries ih => exact ih (hasValue_addParam h)

theorem hasValue_addParams_of_isSome {keys : List Key} (index : Nat) {number : Nat} {key : Key}
    (hkey : keys[number]? = some key) (hgroup : (groups (index + number + 1)).isSome) :
    (addParams groups params (keys.zipIdx index)).HasValue key.name.text := by
  induction keys generalizing params index number with
  | nil => exact absurd hkey (by simp)
  | cons first keys ih =>
      rw [List.zipIdx_cons, addParams_cons]
      cases number with
      | zero =>
          obtain rfl := Option.some.inj hkey
          obtain ⟨text, htext⟩ := Option.isSome_iff_exists.1 hgroup
          refine hasValue_addParams ⟨first.value text, ?_⟩ _
          rw [Nat.add_zero] at htext
          rw [htext]
          exact Dict.get?_insert_self params _ _
      | succ number =>
          rw [show index + (number + 1) + 1 = index + 1 + number + 1 by omega] at hgroup
          exact ih (index + 1) hkey hgroup

variable {matcher : Matcher} {found : Regex.Match} {path : Array Char} {number : Nat}

/-- Where names are distinct, each parameter has the value of its group. -/
theorem get?_paramsOf (hdistinct : (matcher.keys.map (·.name.text)).Nodup)
    (hkey : matcher.keys[number]? = some key) :
    Dict.get? (matcher.paramsOf path found) key.name.text =
      some ((found.group? path (number + 1)).map key.value) := by
  have h : Dict.get? (addParams (found.group? path) [] matcher.keys.zipIdx) key.name.text =
      some ((found.group? path (0 + number + 1)).map key.value) :=
    get?_addParams hdistinct (fun _ _ => Dict.get?_nil _) 0 hkey
  rwa [Nat.zero_add] at h

/-- A match has the parameters of what was found. -/
theorem exists_matchPath {path : String}
    (hfound : matcher.regex.find? path.toList.toArray = some found) :
    ∃ result, matcher.matchPath path = some result ∧
      result.params = matcher.paramsOf path.toList.toArray found :=
  ⟨_, by rw [matchPath, hfound, Option.map_some], rfl⟩

/-- A parameter whose group took part in the match has a value. -/
theorem hasValue_paramsOf (hkey : matcher.keys[number]? = some key)
    (hgroup : (found.group? path (number + 1)).isSome) :
    (matcher.paramsOf path found).HasValue key.name.text := by
  refine hasValue_addParams_of_isSome 0 hkey ?_
  rwa [Nat.zero_add]

section Between

variable {name : String} {other : Params} {others : Nat → Option (List Char)} {keys : List Key}
  {index : Nat}

theorem get?_eq_ite (params : Params) (name : String) :
    Dict.get? params name =
      if params.contains name then some (params.value? name) else none := by
  rw [Params.contains, Dict.contains, Params.value?]
  cases Dict.get? params name <;> rfl

theorem contains_addParam :
    (addParam params key text).contains name = (decide (key.name.text = name) || params.contains name) := by
  rw [Params.contains, Dict.contains]
  by_cases hname : key.name.text = name
  · subst hname
    cases text with
    | some text => simp [addParam, Dict.get?_insert_self]
    | none =>
        rw [addParam_none]
        split
        · next hcontains => simpa [Params.contains, Dict.contains] using hcontains
        · simp [Dict.get?_insert_self]
  · rw [get?_addParam_of_ne hname]
    simp [hname, Params.contains, Dict.contains]

/-- A value is taken over from the group of the parameter, if it took part. -/
theorem value?_addParam :
    (addParam params key text).value? name =
      if key.name.text = name then (text.map key.value).or (params.value? name)
      else params.value? name := by
  split
  · next hname =>
    subst hname
    cases text with
    | some text => simp [Params.value?, addParam, Dict.get?_insert_self]
    | none =>
        rw [addParam_none]
        split
        · rfl
        · next habsent =>
          rw [Params.contains, Dict.contains] at habsent
          simp [Params.value?, Dict.get?_insert_self, Option.not_isSome_iff_eq_none.1 habsent]
  · next hname => rw [Params.value?, get?_addParam_of_ne hname, Params.value?]

theorem contains_addParams (groups : Nat → Option (List Char)) (params : Params) (keys : List Key)
    (index : Nat) (name : String) :
    (addParams groups params (keys.zipIdx index)).contains name =
      (keys.any (·.name.text = name) || params.contains name) := by
  induction keys generalizing params index with
  | nil => rfl
  | cons key keys ih =>
      rw [List.zipIdx_cons, addParams_cons, ih, contains_addParam, List.any_cons, ← Bool.or_assoc,
        Bool.or_comm (keys.any _)]

/-- The value of a name hangs on the groups and on the value that it had before. -/
theorem value?_addParams_congr {index' : Nat} (h : params.value? name = other.value? name)
    (hgroups : ∀ number, number < keys.length →
      groups (index + number + 1) = others (index' + number + 1)) :
    (addParams groups params (keys.zipIdx index)).value? name =
      (addParams others other (keys.zipIdx index')).value? name := by
  induction keys generalizing params other index index' with
  | nil => exact h
  | cons key keys ih =>
      rw [List.zipIdx_cons, List.zipIdx_cons, addParams_cons, addParams_cons]
      refine ih ?_ fun number hnumber => ?_
      · rw [value?_addParam, value?_addParam, h, hgroups 0 (Nat.succ_pos _)]
      · rw [show index + 1 + number + 1 = index + (number + 1) + 1 by omega,
          show index' + 1 + number + 1 = index' + (number + 1) + 1 by omega]
        exact hgroups (number + 1) (Nat.succ_lt_succ hnumber)

/-- Parameters leave the values of other names alone, and those of their own where their groups took no
part. -/
theorem value?_addParams_of_none
    (hgroups : ∀ (number : Nat) (key : Key), keys[number]? = some key → key.name.text = name →
      groups (index + number + 1) = none) :
    (addParams groups params (keys.zipIdx index)).value? name = params.value? name := by
  induction keys generalizing params index with
  | nil => rfl
  | cons first keys ih =>
      rw [List.zipIdx_cons, addParams_cons, ih fun number key hkey hname => ?_, value?_addParam]
      · split
        · next hname =>
          rw [hgroups 0 first rfl hname]
          rfl
        · rfl
      · rw [show index + 1 + number + 1 = index + (number + 1) + 1 by omega]
        exact hgroups (number + 1) key hkey hname

/-- The last parameter of a name whose group took part in the match gives it its value. -/
theorem value?_addParams_of_last {number : Nat} (hkey : keys[number]? = some key)
    {captured : List Char} (hgroup : groups (index + number + 1) = some captured)
    (hlater : ∀ (later : Nat) (other : Key), keys[later]? = some other → number < later →
      other.name.text = key.name.text → groups (index + later + 1) = none) :
    (addParams groups params (keys.zipIdx index)).value? key.name.text =
      some (key.value captured) := by
  induction keys generalizing params index number with
  | nil => exact absurd hkey (by simp)
  | cons first keys ih =>
      rw [List.zipIdx_cons, addParams_cons]
      cases number with
      | zero =>
          obtain rfl := Option.some.inj hkey
          rw [value?_addParams_of_none fun later other hother hname => ?_, value?_addParam,
            if_pos rfl, hgroup]
          · rfl
          · rw [show index + 1 + later + 1 = index + (later + 1) + 1 by omega]
            exact hlater (later + 1) other hother (Nat.succ_pos later) hname
      | succ number =>
          refine ih hkey ?_ fun later other hother hlt hname => ?_
          · rw [show index + 1 + number + 1 = index + (number + 1) + 1 by omega]
            exact hgroup
          · rw [show index + 1 + later + 1 = index + (later + 1) + 1 by omega]
            exact hlater (later + 1) other hother (Nat.succ_lt_succ hlt) hname

/-- A parameter whose group took part in the match has the value of the group, unless a later one of its
name took part as well. -/
theorem get?_paramsOf_of_last {matcher : Matcher} {found : Regex.Match} {path : Array Char}
    {number : Nat} (hkey : matcher.keys[number]? = some key) {captured : List Char}
    (hgroup : found.group? path (number + 1) = some captured)
    (hlater : ∀ (later : Nat) (other : Key), matcher.keys[later]? = some other → number < later →
      other.name.text = key.name.text → found.group? path (later + 1) = none) :
    Dict.get? (matcher.paramsOf path found) key.name.text = some (some (key.value captured)) := by
  have hvalue : (addParams (found.group? path) [] (matcher.keys.zipIdx 0)).value? key.name.text =
      some (key.value captured) := by
    refine value?_addParams_of_last hkey ?_ ?_
    · rwa [Nat.zero_add]
    · simpa only [Nat.zero_add] using hlater
  exact Option.join_eq_some_iff.1 hvalue

/-- Where only the groups of some parameters in the middle took part, these have the values that they
have on their own, and all others are held without one. -/
theorem get?_paramsOf_between {matcher single : Matcher} {path : Array Char}
    {found own : Regex.Match} {before after : List Key}
    (hkeys : matcher.keys = before ++ single.keys ++ after)
    (hwithin : ∀ index, found.group? path (index + before.length) = own.group? path index)
    (hnone : ∀ index, index ≤ before.length ∨ before.length + single.keys.length < index →
      found.group? path index = none) :
    (∀ key ∈ single.keys, Dict.get? (matcher.paramsOf path found) key.name.text =
      Dict.get? (single.paramsOf path own) key.name.text) ∧
    ∀ key ∈ matcher.keys, (∀ mine ∈ single.keys, mine.name.text ≠ key.name.text) →
      Dict.get? (matcher.paramsOf path found) key.name.text = some none := by
  have hcontains : ∀ (matcher : Matcher) (found : Regex.Match), ∀ key ∈ matcher.keys,
      (matcher.paramsOf path found).contains key.name.text = true := by
    intro matcher found key hkey
    have hall : (matcher.paramsOf path found).contains key.name.text = _ :=
      contains_addParams (found.group? path) [] matcher.keys 0 key.name.text
    rw [hall, Bool.or_eq_true, List.any_eq_true]
    exact .inl ⟨key, hkey, by simp⟩
  have hparams : matcher.paramsOf path found =
      addParams (found.group? path)
        (addParams (found.group? path)
          (addParams (found.group? path) [] (before.zipIdx 0))
          (single.keys.zipIdx (0 + before.length)))
        (after.zipIdx (0 + (before ++ single.keys).length)) := by
    rw [paramsOf, hkeys, List.zipIdx_append, List.zipIdx_append, List.foldl_append,
      List.foldl_append]
    rfl
  -- Neither what comes before nor what comes after gives a value to a name.
  have hvalue : ∀ name, (matcher.paramsOf path found).value? name =
      (addParams (found.group? path) (addParams (found.group? path) [] (before.zipIdx 0))
        (single.keys.zipIdx (0 + before.length))).value? name := by
    intro name
    rw [hparams]
    refine value?_addParams_of_none fun number _ _ _ => hnone _ (.inr ?_)
    rw [List.length_append]
    omega
  have hbefore : ∀ name, (addParams (found.group? path) [] (before.zipIdx 0)).value? name =
      Params.value? [] name := by
    intro name
    refine value?_addParams_of_none fun number _ hnumber _ => hnone _ (.inl ?_)
    have hlt := (List.getElem?_eq_some_iff.1 hnumber).1
    omega
  refine ⟨fun key hkey => ?_, fun key hkey hothers => ?_⟩
  · rw [get?_eq_ite, get?_eq_ite, hcontains matcher found key (by simp [hkeys, hkey]),
      hcontains single own key hkey, hvalue]
    refine congrArg some (value?_addParams_congr (hbefore _) fun number _ => ?_)
    rw [show 0 + before.length + number + 1 = 0 + number + 1 + before.length by omega]
    exact hwithin _
  · have habsent : ∀ (number : Nat) (mine : Key), single.keys[number]? = some mine →
        mine.name.text ≠ key.name.text :=
      fun _ mine hmine => hothers mine (List.mem_of_getElem? hmine)
    rw [get?_eq_ite, hcontains matcher found key hkey, hvalue,
      value?_addParams_of_none fun number mine hmine hname => absurd hname (habsent number mine hmine),
      hbefore]
    rfl

end Between

end Matcher

end Waymark.Pattern
