import Waymark.Proofs.Pattern.Several
import Waymark.Proofs.Route.Priority
/-!
Which URLs go to an entry.

The patterns of a route are compiled to one expression, and an entry is asked by it. Where a URL goes to
an entry whose patterns can be told apart, one of them accepts the path on its own, unless there are
none: a route without patterns accepts every path (`Table.oneAccepts_iff_ne_nil`).
-/

namespace Waymark.Route

open Waymark.Pattern (Matcher HasSelfContained HasNoBackref)

/-- One of the patterns of an entry accepts a path, compiled on its own. -/
def Entry.OneAccepts (options : Pattern.Options) (entry : Entry) (path : String) : Prop :=
  ∃ pattern ∈ entry.route.spec.path.patterns, ∃ single,
    Matcher.compile options (.one pattern.toList) = .ok single ∧ (single.matchPath path).isSome

/-- The patterns of a list can be told apart in the expression of an entry: their custom expressions
are groups of their own that do not refer back, and no repetition requires more than it allows. -/
structure Entry.Separable (entry : Entry) (patterns : List String) : Prop where
  selfContained : ∀ pattern ∈ patterns, HasSelfContained pattern.toList
  noBackref : ∀ pattern ∈ patterns, HasNoBackref pattern.toList
  ordered : entry.matcher.regex.expr.loopsAreOrdered = true

/-- The entries of a table are those of given routes. -/
structure Table.Compiled (table : Table) (options : Pattern.Options) (routes : List RouteDefinition) :
    Prop where
  alike : table.options = options
  route : ∀ entry ∈ table.entries, entry.route ∈ routes
  matcher : ∀ entry ∈ table.entries,
    Matcher.compile options entry.route.spec.path.pathway = .ok entry.matcher

section Loading

variable {options : Pattern.Options} {routes : List RouteDefinition} {table after : Table}

theorem Table.Compiled.add (h : table.Compiled options routes) {route : RouteDefinition}
    (hroute : route ∈ routes) {prepend : Bool} {index : Nat}
    (hadd : table.add route prepend = .ok (index, after)) : after.Compiled options routes := by
  obtain ⟨entry, hentry, hadd⟩ := bind_eq_ok_iff.1 hadd
  obtain ⟨-, rfl⟩ := Prod.mk.inj (Except.ok.inj hadd)
  rw [h.alike] at hentry
  obtain ⟨matcher, origin, hmatcher, rfl⟩ := Entry.exists_of_ofRoute hentry
  refine ⟨h.alike, ?_, ?_⟩
  · intro other hother
    rcases List.mem_insertIdx (table.position_le prepend) |>.1 hother with rfl | hother
    · exact hroute
    · exact h.route other hother
  · intro other hother
    rcases List.mem_insertIdx (table.position_le prepend) |>.1 hother with rfl | hother
    · exact hmatcher
    · exact h.matcher other hother

theorem Table.Compiled.addAll (h : table.Compiled options routes) {rest : List RouteDefinition}
    (hrest : rest ⊆ routes)
    (hadd : rest.foldlM (fun table route => (·.2) <$> table.add route false) table = .ok after) :
    after.Compiled options routes := by
  induction rest generalizing table with
  | nil => rwa [← Except.ok.inj hadd]
  | cons route rest ih =>
      obtain ⟨hroute, hrest⟩ := List.cons_subset.1 hrest
      rw [List.foldlM_cons] at hadd
      obtain ⟨middle, hmiddle, hadd⟩ := bind_eq_ok_iff.1 hadd
      obtain ⟨added, hfirst, rfl⟩ := map_eq_ok_iff.1 hmiddle
      exact ih (h.add hroute hfirst) hrest hadd

/-- A table that has been loaded has the entries of the routes. -/
theorem Table.compiled_of_ofConfig {config : RoutesConfig} (hload : ofConfig config = .ok table) :
    table.Compiled config.options config.routes := by
  have hempty : (empty config.options).Compiled config.options config.routes :=
    ⟨rfl, fun _ h => absurd h List.not_mem_nil, fun _ h => absurd h List.not_mem_nil⟩
  exact hempty.addAll (List.Subset.refl _) hload

end Loading

/-- A URL that leads somewhere leads to an entry that is asked by its patterns. -/
theorem Table.exists_entry_of_resolve {table : Table} {text : String} {location : Location}
    {target : Target} (h : table.resolve text = .ok ⟨location, some target⟩) :
    ∃ entry, table.entries[target.index]? = some entry ∧
      (entry.matcher.matchPath location.path).isSome := by
  obtain ⟨url, -, h⟩ := bind_eq_ok_iff.1 h
  obtain ⟨rfl, htarget⟩ := Resolution.mk.inj (Except.ok.inj h)
  obtain ⟨⟨index, entry, params⟩, hfind, rfl⟩ := Option.map_eq_some_iff.1 htarget
  obtain ⟨hentry, haccept⟩ := Table.find?_eq_some hfind
  obtain ⟨-, found, hfound, -⟩ := Entry.accept?_eq_some_iff.1 haccept
  exact ⟨entry, hentry, Option.isSome_iff_exists.2 ⟨found, hfound⟩⟩

/-- A URL goes to an entry whose patterns can be told apart only if one of them accepts the path on its
own, or if there are none. An entry without patterns accepts every path. -/
theorem Table.oneAccepts_iff_ne_nil {config : RoutesConfig} {table : Table} {text : String}
    {location : Location} {target : Target} (hload : ofConfig config = .ok table)
    (hresolve : table.resolve text = .ok ⟨location, some target⟩) :
    ∃ entry, table.entries[target.index]? = some entry ∧ entry.route ∈ config.routes ∧
      ((∀ patterns, entry.route.spec.path = .many patterns → entry.Separable patterns) →
        (entry.OneAccepts config.options location.path ↔ entry.route.spec.path.patterns ≠ [])) ∧
      (entry.route.spec.path = .many [] → ∀ path, (entry.matcher.matchPath path).isSome) := by
  obtain ⟨entry, hentry, haccepts⟩ := exists_entry_of_resolve hresolve
  have hmem := List.mem_of_getElem? hentry
  have hcompiled := compiled_of_ofConfig hload
  have hmatcher := hcompiled.matcher entry hmem
  refine ⟨entry, hentry, hcompiled.route entry hmem, ?_, ?_⟩
  · intro hseparable
    constructor
    · intro hone hnone
      obtain ⟨pattern, hpattern, -⟩ := hone
      rw [hnone] at hpattern
      exact absurd hpattern List.not_mem_nil
    · intro hne
      rw [Entry.OneAccepts]
      cases hpath : entry.route.spec.path with
      | one pattern =>
          rw [hpath] at hmatcher
          exact ⟨pattern, List.mem_singleton_self pattern, entry.matcher, hmatcher, haccepts⟩
      | many patterns =>
          rw [hpath] at hmatcher hne
          have hapart := hseparable patterns hpath
          obtain ⟨_, hchars, single, hsingle, hmatch⟩ := Pattern.exists_one_of_alternatives
            (by simpa [RoutePath.patterns] using hne)
            (List.forall_mem_map.2 hapart.selfContained) (List.forall_mem_map.2 hapart.noBackref)
            hmatcher hapart.ordered haccepts
          obtain ⟨pattern, hpattern, rfl⟩ := List.mem_map.1 hchars
          exact ⟨pattern, hpattern, single, hsingle, hmatch⟩
  · intro hpath
    rw [hpath] at hmatcher
    exact Pattern.matchPath_no_alternatives hmatcher

section Pages

/-- A single route of some patterns. -/
def pageConfig (patterns : List String) : RoutesConfig :=
  ⟨.standard, [⟨"Page", ⟨.many patterns, none, none, none, none, none⟩⟩]⟩

/-- The second of two patterns accepts a path; a list without patterns lets any path through. -/
theorem oneAccepts_page_and_not_oneAccepts_nil :
    (∃ table location target entry, Table.ofConfig (pageConfig ["/:b(x+)/:a", "/:a"]) = .ok table ∧
      table.resolve "/q" = .ok ⟨location, some target⟩ ∧
      table.entries[target.index]? = some entry ∧
      entry.Separable ["/:b(x+)/:a", "/:a"] ∧ entry.OneAccepts .standard location.path) ∧
    ∃ table location target entry, Table.ofConfig (pageConfig []) = .ok table ∧
      table.resolve "/about" = .ok ⟨location, some target⟩ ∧
      table.entries[target.index]? = some entry ∧ ¬ entry.OneAccepts .standard location.path := by
  have hleads : ∀ {table : Table} {text : String},
      (table.resolve text).toOption.any (·.target.isSome) = true →
        ∃ location target, table.resolve text = .ok ⟨location, some target⟩ := by
    intro table text h
    obtain ⟨⟨location, target⟩, hresolve, hsome⟩ := exists_ok_of_any h
    obtain ⟨target, rfl⟩ := Option.isSome_iff_exists.1 hsome
    exact ⟨location, target, hresolve⟩
  constructor
  · obtain ⟨table, hload, htest⟩ : ∃ table,
        Table.ofConfig (pageConfig ["/:b(x+)/:a", "/:a"]) = .ok table ∧
          ((table.resolve "/q").toOption.any (·.target.isSome) && table.entries.all fun entry =>
            entry.matcher.regex.expr.loopsAreOrdered) = true :=
      exists_ok_of_any (by decide +kernel)
    rw [Bool.and_eq_true, List.all_eq_true] at htest
    obtain ⟨location, target, hresolve⟩ := hleads htest.1
    obtain ⟨entry, hentry, hroute, hone, -⟩ := Table.oneAccepts_iff_ne_nil hload hresolve
    have hpath : entry.route.spec.path = .many ["/:b(x+)/:a", "/:a"] := by
      rw [List.mem_singleton.1 hroute]
    have hname : "/:a".toList = ['/', ':', 'a'] := by decide
    have hseparable : entry.Separable ["/:b(x+)/:a", "/:a"] := by
      refine ⟨List.forall_mem_cons.2 ⟨Pattern.hasSelfContained_lettersAndName, ?_⟩,
        List.forall_mem_cons.2 ⟨Pattern.hasNoBackref_lettersAndName, ?_⟩,
        htest.2 entry (List.mem_of_getElem? hentry)⟩
      all_goals
        rw [List.forall_mem_singleton, hname]
        intro lexemes hlexemes text hcustom
        exact absurd hcustom (Pattern.hasNoCustom_slashName lexemes hlexemes text)
    refine ⟨table, location, target, entry, hload, hresolve, hentry, hseparable, (hone ?_).2 ?_⟩
    · intro patterns hpatterns
      rw [hpath] at hpatterns
      rwa [← RoutePath.many.inj hpatterns]
    · rw [hpath]
      exact List.cons_ne_nil _ _
  · obtain ⟨table, hload, htest⟩ : ∃ table, Table.ofConfig (pageConfig []) = .ok table ∧
        (table.resolve "/about").toOption.any (·.target.isSome) = true :=
      exists_ok_of_any (by decide +kernel)
    obtain ⟨location, target, hresolve⟩ := hleads htest
    obtain ⟨entry, hentry, hroute, -, -⟩ := Table.oneAccepts_iff_ne_nil hload hresolve
    have hpath : entry.route.spec.path = .many [] := by
      rw [List.mem_singleton.1 hroute]
    refine ⟨table, location, target, entry, hload, hresolve, hentry, ?_⟩
    intro hone
    obtain ⟨pattern, hpattern, -⟩ := hone
    rw [hpath] at hpattern
    exact absurd hpattern List.not_mem_nil

end Pages

end Waymark.Route
