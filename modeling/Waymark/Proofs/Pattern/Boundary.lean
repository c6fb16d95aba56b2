import Waymark.Proofs.Pattern.Agreement
/-!
Where a match ends in a path that goes on.

Behind the segments of a pattern the expression looks ahead for a delimiter, a character that may
end a match or the end of the path, unless the segments end in a delimiter themselves. So a match
does not end in the middle of a segment (`stopsAfter_of_matchPath`), where the custom expressions
of the pattern are groups of their own. Where one is not, a part of the expression has nothing to
look for (`not_stopsAfter_parted`).
-/

namespace Waymark.Pattern

open Regex (Expr Lays)
open Regex.Expr (RunsAll runsAll_append runsAll_singleton runs_row)

/-- Nothing, or text that begins with a delimiter or with a character that may end a match. -/
def Options.Stops (options : Options) (rest : List Char) : Prop :=
  ∀ c ∈ rest.head?,
    options.separates c = true ∨ options.endsWith.any (options.alike · c) = true

/-- There are no segments, or the last one is a literal that ends in a delimiter. -/
def EndInDelimiter (options : Options) (segments : List Segment) : Prop :=
  segments = [] ∨ ∃ text c, segments.getLast? = some (.literal text) ∧
    text.getLast? = some c ∧ c ∈ options.delimiter

/-- A match of a path does not end in the middle of a segment, unless it is one of a pattern that
ends in a delimiter. -/
def StopsAfter (options : Options) (pattern : List Char) (path : String) (found : PathMatch) :
    Prop :=
  ∃ before rest, path.toList = before ++ found.path.toList ++ rest ∧
    Unicode.Utf8.size before = found.index ∧
    (options.Stops rest ∨
      ∃ segments, parse pattern options = .ok segments ∧ EndInDelimiter options segments)

variable {options : Options} {segments : List Segment}

theorem endInDelimiter_iff :
    EndInDelimiter options segments ↔ endsDelimited segments options = true := by
  unfold EndInDelimiter endsDelimited
  rcases segments.eq_nil_or_concat with rfl | ⟨front, last, rfl⟩
  · simp
  · rw [List.concat_eq_append]
    cases last with
    | literal text => cases hlast : text.getLast? <;> simp [hlast]
    | _ => simp

section Watching

/-- An expression matches only where a match may end. -/
def Watches (options : Options) (expr : Expr) : Prop :=
  ∀ (text : Array Char) (s t : Regex.State), expr.Runs text s t →
    options.Stops (text.toList.drop s.position)

theorem watches_set {chars : List Char}
    (h : ∀ c, chars.any (options.alike · c) = true →
      options.separates c = true ∨ options.endsWith.any (options.alike · c) = true) :
    Watches options (.set (classSet false chars) (!options.sensitive)) := by
  rintro text s t ⟨⟨c, hc, hcontains⟩, -⟩ d hd
  rw [contains_classSet, Bool.bne_false] at hcontains
  rw [List.head?_drop, Array.getElem?_toList, hc] at hd
  exact Option.some.inj hd ▸ h c hcontains

theorem watches_textEnd (options : Options) : Watches options (.anchor .textEnd) := by
  rintro text s t ⟨hholds, -⟩ d hd
  have hposition : s.position = text.size := by simpa [Regex.Anchor.holds] using hholds
  rw [hposition, ← Array.length_toList, List.drop_length] at hd
  cases hd

theorem watches_ofAlternatives {branches : List Expr} (hne : branches ≠ [])
    (h : ∀ branch ∈ branches, Watches options branch) :
    Watches options (Expr.ofAlternatives branches) := by
  cases branches with
  | nil => exact absurd rfl hne
  | cons first rest =>
    obtain ⟨hfirst, hrest⟩ := List.forall_mem_cons.1 h
    refine List.foldlRecOn rest .alt hfirst fun expr hexpr branch hbranch text s t hruns => ?_
    exact hruns.elim (hexpr text s t) (hrest branch hbranch text s t)

/-- Where items have been matched, a match may end. -/
def LeadToStop (options : Options) (items : List Expr) : Prop :=
  ∀ (text : Array Char) (s t : Regex.State), RunsAll text items s t →
    options.Stops (text.toList.drop t.position)

/-- Looking ahead for a boundary leads to one. -/
theorem lays_watching {sets : List Regex.CharSet}
    (hsets : ∀ chars ∈ sets, Watches options (.set chars (!options.sensitive))) :
    Lays options.flags (lookingAhead (boundaryTokens sets)) (LeadToStop options) := by
  refine Lays.mono ((becomes_boundaryTokens options hsets).lookingAhead false) ?_
  rintro _ ⟨_, rfl, _, rfl, branches, rfl, hbranches⟩ text s t hruns
  have hwatches : Watches options (Expr.ofAlternatives (branches ++ [.anchor .textEnd])) := by
    refine watches_ofAlternatives (by simp) fun branch hbranch => ?_
    rcases List.mem_append.1 hbranch with hbranch | hbranch
    · exact hbranches branch hbranch
    · rw [List.mem_singleton.1 hbranch]
      exact watches_textEnd options
  obtain ⟨m, hm, rfl⟩ := runsAll_singleton.1 hruns
  exact hwatches text s m hm

/-- A boundary is a delimiter, if there are any, or one of some other sets. -/
theorem lays_boundary_leadToStop (hdelimited : endsDelimited segments options = false)
    {sets : List Regex.CharSet}
    (hsets : ∀ chars ∈ sets, Watches options (.set chars (!options.sensitive))) :
    Lays options.flags
      (if endsDelimited segments options then []
        else lookingAhead ((if !options.delimiter.isEmpty then
          [.set (classSet false options.delimiter)] ++ [.bar] else []) ++ boundaryTokens sets))
      (LeadToStop options) := by
  rw [if_neg (by simp [hdelimited])]
  split
  · have hdelimiter : Watches options
        (.set (classSet false options.delimiter) (!options.sensitive)) :=
      watches_set fun _ h => .inl h
    exact lays_watching (List.forall_mem_cons.2 ⟨hdelimiter, hsets⟩)
  · exact lays_watching hsets

/-- What follows segments that do not end in a delimiter leads to a boundary. -/
theorem lays_tail_leadToStop (hend : options.atEnd = false)
    (hdelimited : endsDelimited segments options = false) :
    Lays options.flags (tailTokens segments options) (LeadToStop options) := by
  have hterminator := terminatorTokens_eq options
  have hsets : ∀ chars ∈ (if options.endsWith.isEmpty then [] else
      [classSet false options.endsWith]), Watches options (.set chars (!options.sensitive)) := by
    split
    · simp
    · exact List.forall_mem_singleton.2 (watches_set fun _ h => .inr h)
  unfold tailTokens
  split
  · next hatEnd => exact absurd hatEnd (by simp [hend])
  · have hoptional := fun condition => lays_optional condition
      (lays_boundedDelimiter options (if options.endsWith.isEmpty then [] else
        [classSet false options.endsWith])) rests_nil
    rw [hterminator]
    refine (Lays.append (hoptional _) (lays_boundary_leadToStop hdelimited hsets)).mono ?_
    rintro _ ⟨front, back, rfl, -, hback⟩ text s t hruns
    obtain ⟨m, -, hm⟩ := runsAll_append.1 hruns
    exact hback text m t hm

end Watching

section Ending

variable {pattern : List Char} {matcher : Matcher} {path : String} {found : PathMatch}

/-- A match that need not reach the end of a path does not end in the middle of a segment, where the
custom expressions of the pattern are groups of their own. -/
theorem stopsAfter_of_matchPath (hself : HasSelfContained pattern)
    (hcompile : Matcher.compile options (.one pattern) = .ok matcher)
    (hend : options.atEnd = false) (hfound : matcher.matchPath path = some found) :
    StopsAfter options pattern path found := by
  obtain ⟨segments, hparse, regex, hregex, rfl⟩ := compile_one_eq_ok_iff.1 hcompile
  obtain ⟨value, hvalues⟩ := exists_values (exists_encloses hself hparse)
  obtain ⟨result, hresult, rfl⟩ := Option.map_eq_some_iff.1 hfound
  obtain ⟨-, hlast, hruns⟩ := Regex.find?_eq_some hresult
  have hle : result.first ≤ result.last := hlast ▸ Expr.position_le_of_runs hruns
  refine ⟨path.toList.take result.first, path.toList.drop result.last, ?_, rfl, ?_⟩
  · have hslice : path.toList.drop result.first =
        Regex.slice path.toList.toArray result.first result.last ++
          path.toList.drop result.last := by
      conv_lhs => rw [← List.take_append_drop (result.last - result.first)
        (path.toList.drop result.first)]
      rw [List.drop_drop, Nat.add_sub_cancel' hle]
      rfl
    rw [String.toList_ofList, List.append_assoc, ← hslice, List.take_append_drop]
  · cases hdelimited : endsDelimited segments options with
    | true => exact .inr ⟨segments, hparse, endInDelimiter_iff.2 hdelimited⟩
    | false =>
      have hsegments : Regex.AddsItems (segments.flatMap (Segment.tokens value)) :=
        (grows_segments (fun key hkey => (hvalues key hkey).balanced)
          fun key hkey => (hvalues key hkey).captureless).mono fun _ _ _ => trivial
      obtain ⟨_, hexpr, _, back, rfl, -, hback⟩ :=
        expr_of_lays (piece_whole options fun key hkey => (hvalues key hkey).reads)
          (Lays.append (Lays.append (lays_beginning options) (hsegments.lays options.flags))
            (lays_tail_leadToStop hend hdelimited)) hregex
      rw [hexpr, runs_row] at hruns
      obtain ⟨m, -, hm⟩ := runsAll_append.1 hruns
      rw [hlast]
      exact .inl (hback _ m _ hm)

/-- What a pattern finds in a path, by its segments. -/
theorem exists_matched (path part : String) (index : Nat)
    (hparse : parse pattern options = .ok segments)
    (h : ((Regex.compile? (withCase options (expression segments options))).bind fun regex =>
      (Matcher.mk regex (Segment.keys segments)).matchPath path).map
        (fun found => (found.path, found.index)) = some (part, index)) :
    ∃ matcher found, Matcher.compile options (.one pattern) = .ok matcher ∧
      matcher.matchPath path = some found ∧ found.path = part ∧ found.index = index := by
  obtain ⟨found, hfound, hparts⟩ := Option.map_eq_some_iff.1 h
  obtain ⟨regex, hregex, hfound⟩ := Option.bind_eq_some_iff.1 hfound
  exact ⟨_, found, compile_one_eq_ok_iff.2 ⟨segments, hparse, regex, hregex, rfl⟩, hfound,
    congrArg Prod.fst hparts, congrArg Prod.snd hparts⟩

/-- Some digits. -/
def someDigits : List Char :=
  ['[', '0', '-', '9', ']', '+']

/-- A parameter of digits after a slash. -/
def userPage : List Char :=
  ['/', ':', 'u', 's', 'e', 'r'] ++ captured someDigits

theorem selfContained_someDigits : SelfContained someDigits :=
  ⟨[.set (.bracket false (.union .empty (.range '0' '9'))), .quantifier 1 none false false],
    .of_follow? (by decide), rfl⟩

theorem hasSelfContained_userPage : HasSelfContained userPage :=
  forall_custom (by decide +kernel) (List.forall_mem_singleton.2 selfContained_someDigits)

/-- The page of a user is found in the path of a page below it. -/
theorem stopsAfter_userPage :
    HasSelfContained userPage ∧ ∃ matcher found,
      Matcher.compile .leading (.one userPage) = .ok matcher ∧
      matcher.matchPath "/42/edit" = some found ∧ found.path = "/42" ∧
      StopsAfter .leading userPage "/42/edit" found := by
  have hparse : parse userPage .leading =
      .ok [.key ⟨.named ['u', 's', 'e', 'r'], ['/'], [], someDigits, none⟩] :=
    eq_ok_of_toOption (by decide +kernel)
  obtain ⟨matcher, found, hcompile, hfound, hpath, -⟩ :=
    exists_matched "/42/edit" "/42" 0 hparse (by decide +kernel)
  exact ⟨hasSelfContained_userPage, matcher, found, hcompile, hfound, hpath,
    stopsAfter_of_matchPath hasSelfContained_userPage hcompile rfl hfound⟩

/-- Where a custom expression parts the whole expression, the first part looks ahead for nothing. -/
theorem not_stopsAfter_parted :
    ∃ matcher found, Matcher.compile .leading (.one (captured parted)) = .ok matcher ∧
      matcher.matchPath "(xyz" = some found ∧ found.path = "(" ∧
      ¬StopsAfter .leading (captured parted) "(xyz" found := by
  have hparse : parse (captured parted) .leading =
      .ok [.key ⟨.position 0, [], [], parted, none⟩] :=
    parse_captured _ rfl
  obtain ⟨matcher, found, hcompile, hfound, hpath, hindex⟩ :=
    exists_matched "(xyz" "(" 0 hparse (by decide +kernel)
  refine ⟨matcher, found, hcompile, hfound, hpath, ?_⟩
  rintro ⟨before, rest, hsplit, hsize, hstops | ⟨segments, hsegments, hdelimited⟩⟩
  · have hbefore : before = [] := by
      cases before with
      | nil => rfl
      | cons c before =>
        have hpos := c.utf8Size_pos
        rw [hindex, Unicode.Utf8.size] at hsize
        omega
    have hrest : rest = "xyz".toList := by simpa [hbefore, hpath] using hsplit.symm
    have hletter := hstops 'x' (by rw [hrest]; rfl)
    have hnone : Options.separates .leading 'x' = false := by decide +kernel
    rw [hnone] at hletter
    exact hletter.elim (by simp) (by simp [Options.leading, Options.standard])
  · obtain rfl := Except.ok.inj (hparse.symm.trans hsegments)
    rcases hdelimited with hnil | ⟨text, c, hlast, -⟩
    · cases hnil
    · cases hlast

end Ending

end Waymark.Pattern
