import Waymark.Proofs.Route.Documents
/-!
Which entry a URL goes to after any additions.

A table holds what was appended, in order, and behind it what was prepended, in order; the count of
the prepended ones says where the two meet. `prioritized_run` draws the priority from it: the route
prepended last wins, and of the appended ones the last, each if it accepts the URL.
-/

namespace Waymark.Route

/-- A route to add, and whether it is prepended. -/
structure Addition where
  route : RouteDefinition
  prepend : Bool

namespace Addition

/-- The table after an addition, as it was if the addition fails. -/
def next (table : Table) (addition : Addition) : Table :=
  match table.add addition.route addition.prepend with
  | .ok (_, table) => table
  | .error _ => table

/-- The table after additions, at first empty. -/
def run (options : Pattern.Options) (additions : List Addition) : Table :=
  additions.foldl next (.empty options)

/-- The entry of an addition, unless it fails. -/
def admitted? (options : Pattern.Options) (addition : Addition) : Option Entry :=
  (Entry.ofRoute options addition.route).toOption

/-- The entries of the additions that are prepended, or of those that are not, in order. -/
def entries (options : Pattern.Options) (prepend : Bool) (additions : List Addition) : List Entry :=
  (additions.filter (·.prepend == prepend)).filterMap (admitted? options)

end Addition

/-- Both what an entry asks of the origin and its patterns accept a URL. -/
def Entry.Accepts (entry : Entry) (url : Url) : Prop :=
  entry.origin.accepts url ∧ (entry.matcher.matchPath url.path).isSome

/-- The last entry to accept a URL, how many stand before it and what its patterns find. -/
def LastToAccept (url : Url) (entries : List Entry) (index : Nat) (entry : Entry)
    (found : Pattern.PathMatch) : Prop :=
  ∃ earlier later, entries = earlier ++ entry :: later ∧ earlier.length = index ∧
    entry.origin.accepts url ∧ entry.matcher.matchPath url.path = some found ∧
    ∀ other ∈ later, ¬ other.Accepts url

section Adding

variable {options : Pattern.Options} {table : Table}

theorem insertIdx_between {α : Type} (front back : List α) (item : α) :
    (front ++ back).insertIdx front.length item = front ++ item :: back := by
  induction front with
  | nil => rfl
  | cons first front ih => simp [List.insertIdx_succ_cons, ih]

/-- Entries that were appended stand before entries that were prepended. -/
structure Table.Holds (table : Table) (options : Pattern.Options)
    (appended prepended : List Entry) : Prop where
  options : table.options = options
  entries : table.entries = appended ++ prepended
  prepended : table.prepended = prepended.length

theorem Table.holds_empty (options : Pattern.Options) : (empty options).Holds options [] [] :=
  ⟨rfl, rfl, rfl⟩

/-- A new entry comes to stand behind those that were added alike. -/
theorem Table.Holds.insert {appended prepended : List Entry}
    (h : table.Holds options appended prepended) (entry : Entry) (prepend : Bool) :
    Table.Holds
      { table with
        entries := table.entries.insertIdx (table.position prepend) entry
        prepended := if prepend then table.prepended + 1 else table.prepended }
      options
      (if prepend then appended else appended ++ [entry])
      (if prepend then prepended ++ [entry] else prepended) := by
  cases prepend with
  | false =>
      have hposition : table.position false = appended.length := by
        simp [position, h.entries, h.prepended]
      refine ⟨h.options, ?_, h.prepended⟩
      rw [hposition, h.entries, insertIdx_between]
      simp
  | true =>
      have hposition : table.position true = table.entries.length := rfl
      refine ⟨h.options, ?_, by simp [h.prepended]⟩
      rw [hposition, List.insertIdx_length_self, h.entries]
      simp

theorem Table.add_eq (table : Table) (route : RouteDefinition) (prepend : Bool) :
    table.add route prepend = (Entry.ofRoute table.options route).map fun entry =>
      (table.position prepend,
        { table with
          entries := table.entries.insertIdx (table.position prepend) entry
          prepended := if prepend then table.prepended + 1 else table.prepended }) := by
  cases h : Entry.ofRoute table.options route <;> simp [add, h, bind, Except.bind, Except.map, pure,
    Except.pure]

/-- What an addition puts behind the entries that were added alike. -/
theorem Table.Holds.next {appended prepended : List Entry}
    (h : table.Holds options appended prepended) (addition : Addition) :
    (addition.next table).Holds options
      (appended ++ Addition.entries options false [addition])
      (prepended ++ Addition.entries options true [addition]) := by
  have hentries (prepend : Bool) : Addition.entries options prepend [addition] =
      if addition.prepend = prepend then (addition.admitted? table.options).toList else [] := by
    rw [h.options]
    by_cases hprepend : addition.prepend = prepend
    · cases hentry : addition.admitted? options <;> simp [Addition.entries, hprepend, hentry]
    · simp [Addition.entries, hprepend]
  unfold Addition.next
  rw [Table.add_eq, hentries, hentries, Addition.admitted?]
  cases Entry.ofRoute table.options addition.route with
  | error cause => simpa [Except.map, Except.toOption] using h
  | ok entry =>
      have hnext := h.insert entry addition.prepend
      cases hprepend : addition.prepend <;>
        simpa [Except.map, Except.toOption, hprepend] using hnext

theorem Addition.entries_cons (options : Pattern.Options) (prepend : Bool)
    (addition : Addition) (additions : List Addition) :
    entries options prepend (addition :: additions) =
      entries options prepend [addition] ++ entries options prepend additions := by
  rw [← List.singleton_append]
  simp only [entries, List.filter_append, List.filterMap_append]

theorem Addition.holds_foldl (additions : List Addition) {appended prepended : List Entry}
    (h : table.Holds options appended prepended) :
    (additions.foldl next table).Holds options (appended ++ entries options false additions)
      (prepended ++ entries options true additions) := by
  induction additions generalizing table appended prepended with
  | nil => simpa [entries] using h
  | cons addition additions ih =>
      rw [entries_cons, entries_cons options true, ← List.append_assoc, ← List.append_assoc]
      exact ih (h.next addition)

/-- After any additions the entries are those that were admitted, in order. -/
theorem Addition.holds_run (options : Pattern.Options) (additions : List Addition) :
    (run options additions).Holds options (entries options false additions)
      (entries options true additions) := by
  have h := holds_foldl additions (Table.holds_empty options)
  rwa [List.nil_append, List.nil_append] at h

end Adding

section Choosing

variable {url : Url}

theorem Entry.accept?_eq_some_iff {entry : Entry} {params : Pattern.Params} :
    entry.accept? url = some params ↔ entry.origin.accepts url ∧
      ∃ found, entry.matcher.matchPath url.path = some found ∧ found.params = params := by
  unfold accept?
  split <;> simp_all

theorem Entry.accept?_eq_none_iff {entry : Entry} :
    entry.accept? url = none ↔ ¬ entry.Accepts url := by
  unfold accept? Accepts
  split <;> simp_all

/-- A search from the end finds the last entry to accept, or there is none. -/
theorem Table.find?_cases (table : Table) (url : Url) :
    (table.find? url = none ∧ ∀ entry ∈ table.entries, ¬ entry.Accepts url) ∨
      ∃ index entry found, LastToAccept url table.entries index entry found ∧
        table.find? url = some (index, entry, found.params) := by
  cases hfind : table.find? url with
  | none =>
      refine .inl ⟨rfl, fun entry hentry => ?_⟩
      obtain ⟨index, hindex⟩ := List.mem_iff_getElem?.1 hentry
      have hnone := List.findSome?_eq_none_iff.1 hfind (entry, index)
        (List.mem_reverse.2 (List.mem_zipIdx_iff_getElem?.2 hindex))
      exact Entry.accept?_eq_none_iff.1 (Option.map_eq_none_iff.1 hnone)
  | some result =>
      obtain ⟨later, ⟨entry, index⟩, earlier, hsplit, haccept, hlater⟩ :=
        List.findSome?_eq_some_iff.1 hfind
      obtain ⟨params, hparams, rfl⟩ := Option.map_eq_some_iff.1 haccept
      obtain ⟨horigin, found, hfound, rfl⟩ := Entry.accept?_eq_some_iff.1 hparams
      have hzip : table.entries.zipIdx = earlier.reverse ++ (entry, index) :: later.reverse := by
        rw [← List.reverse_reverse table.entries.zipIdx, hsplit]
        simp
      have hentries : table.entries =
          earlier.reverse.map (·.1) ++ entry :: later.reverse.map (·.1) := by
        rw [← List.zipIdx_map_fst 0 table.entries, hzip]
        simp
      refine .inr ⟨index, entry, found, ⟨_, _, hentries, ?_, horigin, hfound, ?_⟩, rfl⟩
      · have hat : table.entries.zipIdx[earlier.reverse.length]? = some (entry, index) := by
          rw [hzip, List.getElem?_append_right (Nat.le_refl _)]
          simp
        rw [List.getElem?_zipIdx] at hat
        obtain ⟨_, -, heq⟩ := Option.map_eq_some_iff.1 hat
        simpa using congrArg Prod.snd heq
      · intro other hother
        obtain ⟨⟨_, position⟩, hmem, rfl⟩ := List.mem_map.1 hother
        have hnone := hlater _ (List.mem_reverse.1 hmem)
        exact Entry.accept?_eq_none_iff.1 (Option.map_eq_none_iff.1 hnone)

/-- A table without entries to accept a URL leads nowhere, another one to the last such entry. -/
theorem Table.resolve_cases (table : Table) {text : String} (h : Url.parseRelative text = .ok url) :
    ∃ resolution, table.resolve text = .ok resolution ∧ resolution.location = .ofUrl text url ∧
      ((resolution.target = none ∧ ∀ entry ∈ table.entries, ¬ entry.Accepts url) ∨
        ∃ index entry found, LastToAccept url table.entries index entry found ∧
          resolution.target = some (.ofEntry index entry found.params)) := by
  have hresolve : table.resolve text = .ok ⟨.ofUrl text url, (table.find? url).map
      fun found => Target.ofEntry found.1 found.2.1 found.2.2⟩ := by
    rw [resolve, h]
    rfl
  refine ⟨_, hresolve, rfl, ?_⟩
  rcases table.find?_cases url with ⟨hnone, hrefuse⟩ | ⟨index, entry, found, hlast, hsome⟩
  · exact .inl ⟨by simp [hnone], hrefuse⟩
  · exact .inr ⟨index, entry, found, hlast, by simp [hsome]⟩

/-- The last to accept of entries in two lists is the last in the second list, or the last in the
first if the second has none. -/
theorem LastToAccept.of_append {front back : List Entry} {index : Nat} {entry : Entry}
    {found : Pattern.PathMatch} (h : LastToAccept url (front ++ back) index entry found) :
    (∃ within, index = front.length + within ∧ LastToAccept url back within entry found) ∨
      (∀ other ∈ back, ¬ other.Accepts url) ∧ LastToAccept url front index entry found := by
  obtain ⟨earlier, later, hsplit, hindex, horigin, hfound, hlater⟩ := h
  rcases List.append_eq_append_iff.1 hsplit with ⟨gap, hearlier, hback⟩ | ⟨gap, hfront, hgap⟩
  · refine .inl ⟨gap.length, ?_, gap, later, hback, rfl, horigin, hfound, hlater⟩
    rw [← hindex, hearlier, List.length_append]
  · cases gap with
    | nil =>
        refine .inl ⟨0, ?_, [], later, by simpa using hgap.symm, rfl, horigin, hfound, hlater⟩
        rw [← hindex, hfront]
        simp
    | cons first gap =>
        obtain ⟨rfl, rfl⟩ := List.cons.inj hgap
        refine .inr ⟨fun other hother => hlater other (List.mem_append_right _ hother), earlier, gap,
          hfront, hindex, horigin, hfound, fun other hother => ?_⟩
        exact hlater other (List.mem_append_left _ hother)

end Choosing

/-- After any additions the count of prepended entries is within the table, the entries are those
appended and behind them those prepended, each in order, and an addition that fails changes nothing.
A URL goes to the last prepended entry that accepts it, or else to the last appended one, or else
nowhere, and then only has it no name. -/
theorem Addition.prioritized_run (options : Pattern.Options) (additions : List Addition) :
    let table := run options additions
    let appended := entries options false additions
    let prepended := entries options true additions
    table.prepended ≤ table.entries.length ∧
      table.entries = appended ++ prepended ∧ table.prepended = prepended.length ∧
      (∀ (addition : Addition) cause, table.add addition.route addition.prepend = .error cause →
        addition.next table = table) ∧
      ∀ text url, Url.parseRelative text = .ok url →
        ∃ resolution, table.resolve text = .ok resolution ∧
          resolution.location = .ofUrl text url ∧
          (resolution.target.map (·.name) = none ↔ resolution.target = none) ∧
          ((∃ index entry found, LastToAccept url prepended index entry found ∧
              resolution.target =
                some (.ofEntry (appended.length + index) entry found.params)) ∨
            (∀ other ∈ prepended, ¬ other.Accepts url) ∧
              ((∃ index entry found, LastToAccept url appended index entry found ∧
                  resolution.target = some (.ofEntry index entry found.params)) ∨
                (∀ other ∈ appended, ¬ other.Accepts url) ∧ resolution.target = none)) := by
  intro table appended prepended
  have hholds := holds_run options additions
  refine ⟨?_, hholds.entries, hholds.prepended, ?_, ?_⟩
  · rw [hholds.prepended, hholds.entries, List.length_append]
    exact Nat.le_add_left _ _
  · intro addition cause hfail
    simp only [next, hfail]
  · intro text url hurl
    obtain ⟨resolution, hresolve, hlocation, hcases⟩ := table.resolve_cases hurl
    refine ⟨resolution, hresolve, hlocation, Option.map_eq_none_iff, ?_⟩
    rw [hholds.entries] at hcases
    rcases hcases with ⟨hnone, hrefuse⟩ | ⟨index, entry, found, hlast, htarget⟩
    · exact .inr ⟨fun other hother => hrefuse other (List.mem_append_right _ hother),
        .inr ⟨fun other hother => hrefuse other (List.mem_append_left _ hother), hnone⟩⟩
    · rcases hlast.of_append with ⟨within, rfl, hwithin⟩ | ⟨hrefuse, hfront⟩
      · exact .inl ⟨within, entry, found, hwithin, htarget⟩
      · exact .inr ⟨hrefuse, .inl ⟨index, entry, found, hfront, htarget⟩⟩

section Overtaking

/-- A route of a title and a path that asks for an origin. -/
def plainRoute (title path : String) (origin : Option String) : RouteDefinition :=
  ⟨title, ⟨.one path, none, origin, none, none, none⟩⟩

/-- A page that is prepended, a group that is never closed, an origin that is no URL and further
pages. -/
def mixedAdditions : List Addition :=
  [⟨plainRoute "Early" "/:page" none, true⟩, ⟨plainRoute "Unclosed" "/(" none, true⟩,
    ⟨plainRoute "Nowhere" "/:page" (some "nowhere"), true⟩, ⟨plainRoute "Late" "/:page" none, true⟩,
    ⟨plainRoute "Exact" "/one" none, false⟩]

/-- The page that was prepended last gets the URL although another fits it better, and a group that is
never closed still changes nothing. -/
theorem prioritized_mixedAdditions :
    let table := Addition.run .standard mixedAdditions
    let unclosed : Addition := ⟨plainRoute "Unclosed" "/(" none, true⟩
    (∃ cause, table.add unclosed.route unclosed.prepend = .error cause ∧
        unclosed.next table = table) ∧
      ∃ url resolution index entry found, Url.parseRelative "/one" = .ok url ∧
        table.resolve "/one" = .ok resolution ∧
        LastToAccept url (Addition.entries .standard true mixedAdditions) index entry found ∧
        resolution.target = some (.ofEntry (1 + index) entry found.params) ∧
        resolution.target.map (·.title) = some "Late" := by
  intro table unclosed
  obtain ⟨-, -, -, hkept, hresolves⟩ := Addition.prioritized_run .standard mixedAdditions
  have hfails : (table.add unclosed.route unclosed.prepend).toOption.isNone := by decide +kernel
  have hreads : (Url.parseRelative "/one").toOption.isSome := by decide +kernel
  have htitle : ((table.resolve "/one").toOption.bind (·.target)).map (fun target =>
      (target.index, target.title)) = some (2, "Late") := by decide +kernel
  have hlength : (Addition.entries .standard false mixedAdditions).length = 1 := by decide +kernel
  constructor
  · cases hadd : table.add unclosed.route unclosed.prepend with
    | error cause => exact ⟨cause, rfl, hkept unclosed cause hadd⟩
    | ok result => simp [hadd, Except.toOption] at hfails
  · cases hurl : Url.parseRelative "/one" with
    | error cause => simp [hurl, Except.toOption] at hreads
    | ok url =>
        obtain ⟨resolution, hresolve, -, -, hcases⟩ := hresolves "/one" url hurl
        simp only [table, hresolve, Except.toOption, Option.bind_some] at htitle
        obtain ⟨target, htarget, hparts⟩ := Option.map_eq_some_iff.1 htitle
        obtain ⟨hindex, htitle⟩ := Prod.mk.inj hparts
        rw [htarget, hlength] at hcases
        rcases hcases with ⟨index, entry, found, hlast, hchosen⟩ | ⟨-, hrest⟩
        · refine ⟨url, resolution, index, entry, found, rfl, hresolve, hlast, ?_, ?_⟩
          · rw [htarget, hchosen]
          · rw [htarget, Option.map_some, htitle]
        · rcases hrest with ⟨index, entry, found, ⟨earlier, later, hsplit, hcount, -⟩, hchosen⟩ |
            ⟨-, hnone⟩
          · -- The only appended entry stands at index 0.
            obtain rfl := Option.some.inj hchosen
            have hle := congrArg List.length hsplit
            simp only [hlength, List.length_append, List.length_cons] at hle
            simp only [Target.ofEntry] at hindex
            omega
          · exact absurd hnone (by simp)

end Overtaking

end Waymark.Route
