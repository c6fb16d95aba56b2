import Mathlib.Data.List.Induction
import Waymark.Proofs.Route.Priority
/-!
What a table asks its loader for.

A load of a slot of an entry asks the loader unless the last successful load of that slot was
made for the same reference, and otherwise gives what that load gave (`Load.Lazy`). Entries are
told apart by their number in the order of addition, which stays when they move, so a run of any
operations leaves in each slot of each entry the document of the last successful load of that slot
of that entry (`Course.caches_run`).
-/

namespace Waymark.Route

open Waymark.Json

variable {σ : Type}

/-- What a loader has been asked for, and what it has answered. -/
structure Request where
  reference : String
  answer : Except String Value

/-- A loader that keeps a record of what it is asked for. -/
def Loader.recording (loader : Loader σ) : Loader (σ × List Request) :=
  fun reference (source, requests) =>
    let (answer, source) := loader reference source
    (answer, source, requests ++ [⟨reference, answer⟩])

/-- A load of a slot, with what the loader was asked for in it. -/
structure Load where
  /-- The number of the entry in the order of addition, if there is an entry at the index. -/
  number : Option Nat
  slot : Slot
  index : Nat
  reference : String
  requests : List Request
  result : Except Error Value
  before : Table
  after : Table

/-- A table with a document put into a slot of the entry at an index. -/
def Table.holding (table : Table) (slot : Slot) (index : Nat) (loaded : Loaded) : Table :=
  { table with entries := table.entries.modify index (·.store slot loaded) }

namespace Load

/-- The load of a slot that a table makes, given the numbers of its entries. -/
def make (loader : Loader σ) (numbers : List Nat) (table : Table) (source : σ) (slot : Slot)
    (index : Nat) (reference : String) : Load where
  number := numbers[index]?
  slot := slot
  index := index
  reference := reference
  requests := (table.load slot index reference loader.recording (source, [])).2.2.2
  result := (table.load slot index reference loader source).1
  before := table
  after := (table.load slot index reference loader source).2.1

/-- What a load has given, with its reference. -/
def given? (load : Load) : Option Loaded :=
  load.result.toOption.map (⟨load.reference, ·⟩)

/-- What the loader has answered last in a load, with the reference that it was asked for. -/
def answered? (load : Load) : Option Loaded :=
  (load.requests.filterMap fun request =>
    request.answer.toOption.map (⟨request.reference, ·⟩)).getLast?

/-- What loads of a slot of an entry have come to last, read off each load in some way. -/
def last? (read : Load → Option Loaded) (number : Nat) (slot : Slot) (loads : List Load) :
    Option Loaded :=
  let own := loads.filter fun load => load.number = some number ∧ load.slot = slot
  (own.filterMap read).getLast?

/-- How a load goes after earlier ones. -/
structure Lazy (earlier : List Load) (load : Load) : Prop where
  /-- Where there is no entry, the loader is not asked for anything. -/
  unknown : load.number = none →
    load.requests = [] ∧ load.result = .error (.unknownEntry load.index)
  /-- For a slot of an entry the loader is asked exactly if no load of the slot has been successful,
  or the last one that was, was made for another reference. -/
  asks : ∀ number, load.number = some number →
    (load.requests ≠ [] ↔
      ∀ last, last? given? number load.slot earlier = some last →
        last.reference ≠ load.reference)
  /-- The loader is asked once, for the reference, and what it answers is the result. -/
  answers : ∀ request ∈ load.requests, load.requests = [request] ∧
    request.reference = load.reference ∧
    load.result = request.answer.mapError (.notLoaded load.reference)
  /-- If it is not asked, the document is that of the last successful load, which was made for the
  reference. -/
  keeps : ∀ number, load.number = some number → load.requests = [] →
    ∃ last, last? given? number load.slot earlier = some last ∧
      last.reference = load.reference ∧ load.result = .ok last.document
  /-- A load that fails leaves the table as it is. -/
  fails : ∀ cause, load.result = .error cause → load.after = load.before
  /-- A load that is successful puts its document into its slot and does nothing else. -/
  succeeds : ∀ document, load.result = .ok document →
    load.after = load.before.holding load.slot load.index ⟨load.reference, document⟩

end Load

/-- An entry with what loads have come to last in its slots. -/
def Entry.remembering (entry : Entry) (number : Nat) (loads : List Load) : Entry :=
  { entry with
    settings := Load.last? Load.given? number .settings loads
    extender := Load.last? Load.given? number .extender loads }

/-- What is done with a navigator and its table, loads included. -/
inductive Operation where
  | act (action : Action)
  | load (slot : Slot) (index : Nat) (reference : String)

namespace Operation

/-- The navigator and the source of documents after an operation. -/
def next (loader : Loader σ) (state : Navigator × σ) : Operation → Navigator × σ
  | .act action => action.next loader state
  | .load slot index reference =>
      let (_, table, source) := state.1.table.load slot index reference loader state.2
      ({ state.1 with table }, source)

/-- The navigator and the source of documents after operations on an empty table. -/
def run (loader : Loader σ) (options : Pattern.Options) (source : σ)
    (operations : List Operation) : Navigator × σ :=
  operations.foldl (next loader) (.start (.empty options), source)

/-- The entry of an operation that adds a route, unless it fails. -/
def admitted? (options : Pattern.Options) : Operation → Option Entry
  | .act (.add route _) => (Entry.ofRoute options route).toOption
  | _ => none

end Operation

namespace Load

/-- The load of a slot for a target, if the target has a reference for it. -/
def ofReference (loader : Loader σ) (numbers : List Nat) (table : Table) (source : σ)
    (slot : Slot) (index : Nat) (reference : Option String) : List Load :=
  (reference.map (make loader numbers table source slot index)).toList

/-- The loads for a target. If the settings cannot be loaded, the extender is not tried. -/
def ofTarget (loader : Loader σ) (numbers : List Nat) (table : Table) (source : σ)
    (target : Target) : List Load :=
  let settings :=
    ofReference loader numbers table source .settings target.index target.settingsReference
  match Navigator.loadReference table .settings target.index target.settingsReference loader
    source with
  | (.error _, _, _) => settings
  | (.ok _, table, source) => settings ++
      ofReference loader numbers table source .extender target.index target.extenderReference

/-- The loads of a navigation. -/
def ofNavigation (loader : Loader σ) (numbers : List Nat) (navigator : Navigator) (source : σ)
    (url : String) : List Load :=
  match navigator.table.resolve url with
  | .ok ⟨_, some target⟩ =>
      if navigator.leaves target then []
      else ofTarget loader numbers navigator.table source target
  | _ => []

/-- The loads of an operation. -/
def ofOperation (loader : Loader σ) (numbers : List Nat) (state : Navigator × σ) :
    Operation → List Load
  | .act (.navigate url) => ofNavigation loader numbers state.1 state.2 url
  | .act _ => []
  | .load slot index reference =>
      [make loader numbers state.1.table state.2 slot index reference]

end Load

/-- A navigator and its source with what has happened to them. -/
structure Course (σ : Type) where
  state : Navigator × σ
  /-- The numbers of the entries in the order of addition, in table order. -/
  numbers : List Nat
  loads : List Load

namespace Course

/-- The numbers of entries after an operation. A new entry has the number of those before it. -/
def numbersAfter (table : Table) (numbers : List Nat) : Operation → List Nat
  | .act (.add route prepend) =>
      match table.add route prepend with
      | .ok (index, _) => numbers.insertIdx index numbers.length
      | .error _ => numbers
  | _ => numbers

/-- The course after a further operation. -/
def next (loader : Loader σ) (course : Course σ) (operation : Operation) : Course σ where
  state := operation.next loader course.state
  numbers := numbersAfter course.state.1.table course.numbers operation
  loads := course.loads ++ Load.ofOperation loader course.numbers course.state operation

/-- The course of a navigator with an empty table to which nothing has happened. -/
def start (options : Pattern.Options) (source : σ) : Course σ :=
  ⟨(.start (.empty options), source), [], []⟩

/-- The course of operations on an empty table. -/
def run (loader : Loader σ) (options : Pattern.Options) (source : σ)
    (operations : List Operation) : Course σ :=
  operations.foldl (next loader) (start options source)

end Course

section Loading

variable {table : Table} {slot : Slot} {index : Nat} {entry : Entry} {loaded : Loaded}

/-- How a table loads a document: the result, what becomes of the table, and what the loader is
asked for. -/
inductive Table.Loading (table : Table) (slot : Slot) (index : Nat) (reference : String) :
    Except Error Value → Table → List Request → Prop
  | unknown (hentry : table.entries[index]? = none) :
      Loading table slot index reference (.error (.unknownEntry index)) table []
  | kept {entry : Entry} {loaded : Loaded} (hentry : table.entries[index]? = some entry)
      (hloaded : entry.loaded? slot = some loaded) (hreference : loaded.reference = reference) :
      Loading table slot index reference (.ok loaded.document) table []
  | fetched {entry : Entry} {document : Value} (hentry : table.entries[index]? = some entry)
      (hloaded : ∀ loaded, entry.loaded? slot = some loaded → loaded.reference ≠ reference) :
      Loading table slot index reference (.ok document)
        (table.holding slot index ⟨reference, document⟩) [⟨reference, .ok document⟩]
  | failed {entry : Entry} {cause : String} (hentry : table.entries[index]? = some entry)
      (hloaded : ∀ loaded, entry.loaded? slot = some loaded → loaded.reference ≠ reference) :
      Loading table slot index reference (.error (.notLoaded reference cause)) table
        [⟨reference, .error cause⟩]

theorem Table.holding_eq_set (hentry : table.entries[index]? = some entry) (loaded : Loaded) :
    table.holding slot index loaded =
      { table with entries := table.entries.set index (entry.store slot loaded) } := by
  have hentries : table.entries.modify index (·.store slot loaded) =
      table.entries.set index (entry.store slot loaded) := by
    ext1 other
    rw [List.getElem?_modify, List.getElem?_set]
    by_cases hindex : index = other
    · subst hindex
      rw [if_pos rfl, if_pos (List.getElem?_eq_some_iff.1 hentry).1, hentry]
      simp
    · simp [hindex]
  rw [holding, hentries]

theorem Entry.store_eq_self (h : entry.loaded? slot = some loaded) :
    entry.store slot loaded = entry := by
  cases slot with
  | settings =>
    have hsettings : entry.settings = some loaded := h
    rw [store, ← hsettings]
  | extender =>
    have hextender : entry.extender = some loaded := h
    rw [store, ← hextender]

/-- A document that a slot has already may be put there. -/
theorem Table.holding_eq_self (hentry : table.entries[index]? = some entry)
    (hloaded : entry.loaded? slot = some loaded) : table.holding slot index loaded = table := by
  rw [holding_eq_set hentry, Entry.store_eq_self hloaded]
  obtain ⟨hlt, hget⟩ := List.getElem?_eq_some_iff.1 hentry
  rw [← hget, List.set_getElem_self]

theorem Load.loading_make (loader : Loader σ) (numbers : List Nat) (table : Table) (source : σ)
    (slot : Slot) (index : Nat) (reference : String) :
    let load := make loader numbers table source slot index reference
    table.Loading slot index reference load.result load.after load.requests := by
  dsimp only [make, Table.load]
  cases hentry : table.entries[index]? with
  | none => exact .unknown hentry
  | some entry =>
    dsimp only
    cases hloaded : entry.loaded? slot with
    | none =>
      rcases hask : loader reference source with ⟨cause | document, rest⟩
      · simpa [Loader.recording, hask] using .failed hentry (by simp [hloaded])
      · simpa [Loader.recording, hask, ← Table.holding_eq_set hentry] using
          .fetched hentry (by simp [hloaded])
    | some loaded =>
      by_cases hreference : loaded.reference = reference
      · simpa [hreference] using .kept hentry hloaded hreference
      · rcases hask : loader reference source with ⟨cause | document, rest⟩
        · simpa [Loader.recording, hask, hreference] using .failed hentry (by simpa [hloaded])
        · simpa [Loader.recording, hask, hreference, ← Table.holding_eq_set hentry] using
            .fetched hentry (by simpa [hloaded])

/-- A record does not change what is loaded, and holds what the loader is asked for. -/
theorem Table.load_recording (numbers : List Nat) (table : Table) (slot : Slot) (index : Nat)
    (reference : String) (loader : Loader σ) (source : σ) (requests : List Request) :
    table.load slot index reference loader.recording (source, requests) =
      ((table.load slot index reference loader source).1,
        (table.load slot index reference loader source).2.1,
        (table.load slot index reference loader source).2.2,
        requests ++ (Load.make loader numbers table source slot index reference).requests) := by
  unfold Load.make load
  cases table.entries[index]? with
  | none => simp
  | some entry =>
    dsimp only
    rcases hask : loader reference source with ⟨cause | document, rest⟩ <;>
      cases entry.loaded? slot with
      | none => simp [Loader.recording, hask]
      | some loaded =>
        by_cases hreference : loaded.reference = reference <;>
          simp [Loader.recording, hask, hreference]

end Loading

section Remembering

variable {options : Pattern.Options} {table : Table} {admitted : List Entry} {numbers : List Nat}
  {loads : List Load} {load : Load} {number index : Nat}

/-- What a table has come to by additions and loads: each entry is the one of its number, with what
the loads of its slots have come to last, and each load went by those before it. -/
structure Table.Remembers (table : Table) (options : Pattern.Options) (admitted : List Entry)
    (numbers : List Nat) (loads : List Load) : Prop where
  options : table.options = options
  numbered : numbers.Perm (List.range admitted.length)
  entries : ∀ index : Nat, table.entries[index]? =
    numbers[index]?.bind fun number => admitted[number]?.map (·.remembering number loads)
  known : ∀ load ∈ loads, ∀ number, load.number = some number → number < admitted.length
  lazily : ∀ front load back, loads = front ++ load :: back → load.Lazy front

theorem Load.last?_concat (read : Load → Option Loaded) (number : Nat) (slot : Slot)
    (loads : List Load) (load : Load) :
    last? read number slot (loads ++ [load]) =
      if load.number = some number ∧ load.slot = slot then
        (read load).or (last? read number slot loads)
      else last? read number slot loads := by
  by_cases h : load.number = some number ∧ load.slot = slot
  · cases hread : read load <;> simp [last?, h, hread, List.filter_append]
  · simp [last?, h, List.filter_append]

theorem Load.last?_eq_none (h : ∀ load ∈ loads, load.number ≠ some number)
    (read : Load → Option Loaded) (slot : Slot) : last? read number slot loads = none := by
  have hfilter : loads.filter (fun load => load.number = some number ∧ load.slot = slot) = [] := by
    refine List.filter_eq_nil_iff.2 fun load hload => ?_
    simp [h load hload]
  rw [last?, hfilter]
  rfl

theorem Entry.loaded?_remembering (entry : Entry) (number : Nat) (loads : List Load)
    (slot : Slot) :
    (entry.remembering number loads).loaded? slot = Load.last? Load.given? number slot loads := by
  cases slot <;> rfl

/-- A load of another entry is nothing to an entry. -/
theorem Entry.remembering_concat_of_ne (h : load.number ≠ some number) (entry : Entry) :
    entry.remembering number (loads ++ [load]) = entry.remembering number loads := by
  simp [remembering, Load.last?_concat, h]

/-- A load that fails is nothing to an entry. -/
theorem Entry.remembering_concat_of_none (h : load.given? = none) (entry : Entry) :
    entry.remembering number (loads ++ [load]) = entry.remembering number loads := by
  simp [remembering, Load.last?_concat, h]

theorem Entry.remembering_concat_self {loaded : Loaded} (hnumber : load.number = some number)
    (h : load.given? = some loaded) (entry : Entry) :
    entry.remembering number (loads ++ [load]) =
      (entry.remembering number loads).store load.slot loaded := by
  cases hslot : load.slot <;> simp [remembering, Load.last?_concat, hnumber, hslot, h, store]

/-- An entry stays as it is if its slots hold what loads have come to. -/
theorem Entry.remembering_eq_self {entry : Entry}
    (h : ∀ slot, Load.last? Load.given? number slot loads = entry.loaded? slot) :
    entry.remembering number loads = entry := by
  rw [remembering, h, h]
  rfl

namespace Table.Remembers

theorem number_lt (h : table.Remembers options admitted numbers loads)
    (hnumber : numbers[index]? = some number) : number < admitted.length :=
  List.mem_range.1 (h.numbered.mem_iff.1 (List.mem_of_getElem? hnumber))

/-- No two entries have one number. -/
theorem nodup (h : table.Remembers options admitted numbers loads) : numbers.Nodup :=
  h.numbered.nodup_iff.2 List.nodup_range

theorem count (h : table.Remembers options admitted numbers loads) :
    numbers.length = admitted.length := by
  simpa using h.numbered.length_eq

/-- Each number is the one of an entry. -/
theorem exists_entry (h : table.Remembers options admitted numbers loads)
    (hnumber : numbers[index]? = some number) :
    ∃ fresh, admitted[number]? = some fresh ∧
      table.entries[index]? = some (fresh.remembering number loads) := by
  obtain ⟨fresh, hfresh⟩ : ∃ fresh, admitted[number]? = some fresh :=
    ⟨_, List.getElem?_eq_getElem (h.number_lt hnumber)⟩
  refine ⟨fresh, hfresh, ?_⟩
  rw [h.entries, hnumber, Option.bind_some, hfresh]
  rfl

/-- Each entry has a number. -/
theorem exists_number (h : table.Remembers options admitted numbers loads) {entry : Entry}
    (hentry : table.entries[index]? = some entry) :
    ∃ number fresh, numbers[index]? = some number ∧ admitted[number]? = some fresh ∧
      entry = fresh.remembering number loads := by
  rw [h.entries] at hentry
  obtain ⟨number, hnumber, hentry⟩ := Option.bind_eq_some_iff.1 hentry
  obtain ⟨fresh, hfresh, rfl⟩ := Option.map_eq_some_iff.1 hentry
  exact ⟨number, fresh, hnumber, hfresh, rfl⟩

theorem getElem?_eq_none_iff (h : table.Remembers options admitted numbers loads) :
    table.entries[index]? = none ↔ numbers[index]? = none := by
  constructor
  · intro hentry
    refine Option.eq_none_iff_forall_ne_some.2 fun number hnumber => ?_
    obtain ⟨fresh, -, hfresh⟩ := h.exists_entry hnumber
    cases hentry.symm.trans hfresh
  · intro hnumber
    rw [h.entries, hnumber]
    rfl

theorem length_eq (h : table.Remembers options admitted numbers loads) :
    table.entries.length = numbers.length := by
  have hiff (index : Nat) : table.entries.length ≤ index ↔ numbers.length ≤ index := by
    rw [← List.getElem?_eq_none_iff, ← List.getElem?_eq_none_iff, h.getElem?_eq_none_iff]
  exact Nat.le_antisymm ((hiff _).2 (Nat.le_refl _)) ((hiff _).1 (Nat.le_refl _))

/-- A slot of an entry holds what the loads of that slot have come to last. -/
theorem loaded? (h : table.Remembers options admitted numbers loads) {entry : Entry}
    (hentry : table.entries[index]? = some entry) (hnumber : numbers[index]? = some number)
    (slot : Slot) : entry.loaded? slot = Load.last? Load.given? number slot loads := by
  obtain ⟨other, fresh, hother, -, rfl⟩ := h.exists_number hentry
  obtain rfl := Option.some.inj (hother.symm.trans hnumber)
  exact fresh.loaded?_remembering other loads slot

/-- A load goes by what the table remembers. -/
theorem lazy_of_loading (h : load.before.Remembers options admitted numbers loads)
    (hnumber : load.number = numbers[load.index]?)
    (hloading : load.before.Loading load.slot load.index load.reference load.result load.after
      load.requests) : load.Lazy loads := by
  obtain ⟨_, slot, index, reference, requests, result, table, after⟩ := load
  dsimp only at h hnumber hloading
  subst hnumber
  cases hloading with
  | unknown hentry =>
    have hnone := h.getElem?_eq_none_iff.1 hentry
    exact {
      unknown := fun _ => ⟨rfl, rfl⟩
      asks := fun number hnumber => by cases hnone.symm.trans hnumber
      answers := by simp
      keeps := fun number hnumber => by cases hnone.symm.trans hnumber
      fails := fun _ _ => rfl
      succeeds := by simp }
  | kept hentry hloaded hreference =>
    obtain ⟨number, fresh, hnumber, -, -⟩ := h.exists_number hentry
    have hlast := (h.loaded? hentry hnumber slot).symm.trans hloaded
    exact {
      unknown := fun hnone => by cases hnone.symm.trans hnumber
      asks := by simp_all
      answers := by simp
      keeps := by simp_all
      fails := by simp
      succeeds := by
        intro document hdocument
        obtain rfl := Except.ok.inj hdocument
        subst hreference
        exact (Table.holding_eq_self hentry hloaded).symm }
  | fetched hentry hloaded | failed hentry hloaded =>
    obtain ⟨number, fresh, hnumber, -, -⟩ := h.exists_number hentry
    rw [h.loaded? hentry hnumber slot] at hloaded
    exact {
      unknown := fun hnone => by cases hnone.symm.trans hnumber
      asks := by simp_all
      answers := by simp [Except.mapError]
      keeps := by simp
      fails := by simp
      succeeds := by simp }

/-- After a load the table remembers it. -/
theorem append (h : load.before.Remembers options admitted numbers loads)
    (hnumber : load.number = numbers[load.index]?) (hlazy : load.Lazy loads) :
    load.after.Remembers options admitted numbers (loads ++ [load]) where
  options := by
    rw [← h.options]
    cases hresult : load.result with
    | error cause => rw [hlazy.fails cause hresult]
    | ok document => rw [hlazy.succeeds document hresult]; rfl
  numbered := h.numbered
  entries := by
    intro index
    cases hresult : load.result with
    | error cause =>
      have hgiven : load.given? = none := by simp [Load.given?, hresult, Except.toOption]
      simp only [hlazy.fails cause hresult, h.entries, Entry.remembering_concat_of_none hgiven]
    | ok document =>
      have hgiven : load.given? = some ⟨load.reference, document⟩ := by
        simp [Load.given?, hresult, Except.toOption]
      rw [hlazy.succeeds document hresult, Table.holding, List.getElem?_modify, h.entries]
      cases hat : numbers[index]? with
      | none => rfl
      | some number =>
        by_cases hindex : load.index = index
        · have hself := hnumber.trans (hindex ▸ hat)
          simp [hindex, Entry.remembering_concat_self hself hgiven, Function.comp_def]
        · have hother : load.number ≠ some number := by
            intro hsame
            have hsame := hnumber.symm.trans (hsame.trans hat.symm)
            have hlt := (List.getElem?_eq_some_iff.1 hat).1
            exact hindex ((List.getElem?_inj hlt h.nodup).1 hsame.symm).symm
          simp [hindex, Entry.remembering_concat_of_ne hother]
  known := by
    intro other hother number hsome
    rcases List.mem_append.1 hother with hother | hother
    · exact h.known other hother number hsome
    · obtain rfl := List.mem_singleton.1 hother
      exact h.number_lt (hnumber.symm.trans hsome)
  lazily := by
    intro front other back heq
    rcases List.eq_nil_or_concat back with rfl | ⟨back, last, rfl⟩
    · obtain ⟨rfl, hlast⟩ := List.append_inj' heq rfl
      obtain rfl := List.singleton_inj.1 hlast
      exact hlazy
    · rw [List.concat_eq_append, ← List.cons_append, ← List.append_assoc] at heq
      exact h.lazily front other back (List.append_inj' heq rfl).1

/-- A new entry has the next number, and nothing has been loaded for it. -/
theorem insert (h : table.Remembers options admitted numbers loads) {fresh : Entry}
    (hfresh : ∀ slot, fresh.loaded? slot = none) (hindex : index ≤ table.entries.length)
    (prepended : Nat) :
    Table.Remembers { table with entries := table.entries.insertIdx index fresh, prepended }
      options (admitted ++ [fresh]) (numbers.insertIdx index numbers.length) loads where
  options := h.options
  numbered := by
    have hperm := List.perm_insertIdx numbers.length numbers (h.length_eq ▸ hindex)
    rw [List.length_append, List.length_singleton, List.range_succ]
    refine hperm.trans (.trans ?_ (List.perm_append_singleton _ _).symm)
    rw [h.count]
    exact h.numbered.cons _
  entries := by
    intro other
    have hkept (other : Nat) : (numbers[other]?.bind fun number =>
        (admitted ++ [fresh])[number]?.map (·.remembering number loads)) =
          table.entries[other]? := by
      rw [h.entries]
      cases hnumber : numbers[other]? with
      | none => rfl
      | some number =>
        rw [Option.bind_some, Option.bind_some, List.getElem?_append_left (h.number_lt hnumber)]
    have hnew : fresh.remembering admitted.length loads = fresh := by
      refine Entry.remembering_eq_self fun slot => ?_
      rw [hfresh, Load.last?_eq_none]
      exact fun load hload hnumber => Nat.lt_irrefl _ (h.known load hload _ hnumber)
    rw [List.getElem?_insertIdx, List.getElem?_insertIdx, ← h.length_eq]
    by_cases hbefore : other < index
    · rw [if_pos hbefore, if_pos hbefore, hkept]
    · by_cases hat : other = index
      · subst hat
        have hle : other ≤ admitted.length := h.count ▸ h.length_eq ▸ hindex
        simp [h.length_eq, h.count, hle, hnew]
      · rw [if_neg hbefore, if_neg hbefore, if_neg hat, if_neg hat, hkept]
  known := by
    intro load hload number hnumber
    rw [List.length_append]
    exact Nat.lt_add_right _ (h.known load hload number hnumber)
  lazily := h.lazily

end Table.Remembers

end Remembering

section Running

variable {options : Pattern.Options} {table : Table} {admitted : List Entry} {numbers : List Nat}
  {loads : List Load}

namespace Table.Remembers

theorem load (h : table.Remembers options admitted numbers loads) (loader : Loader σ) (source : σ)
    (slot : Slot) (index : Nat) (reference : String) :
    (table.load slot index reference loader source).2.1.Remembers options admitted numbers
      (loads ++ [Load.make loader numbers table source slot index reference]) := by
  have hbefore : (Load.make loader numbers table source slot index reference).before.Remembers
    options admitted numbers loads := h
  exact hbefore.append rfl (hbefore.lazy_of_loading rfl (Load.loading_make ..))

theorem loadReference (h : table.Remembers options admitted numbers loads) (loader : Loader σ)
    (source : σ) (slot : Slot) (index : Nat) (reference : Option String) :
    (Navigator.loadReference table slot index reference loader source).2.1.Remembers options
      admitted numbers (loads ++ Load.ofReference loader numbers table source slot index
        reference) := by
  cases reference with
  | none =>
    simp only [Load.ofReference, Option.map_none, Option.toList_none, List.append_nil]
    exact h
  | some reference => exact h.load loader source slot index reference

theorem loadTarget (h : table.Remembers options admitted numbers loads) (loader : Loader σ)
    (source : σ) (target : Target) :
    (Navigator.loadTarget table target loader source).2.1.Remembers options admitted numbers
      (loads ++ Load.ofTarget loader numbers table source target) := by
  have hsettings := h.loadReference loader source .settings target.index target.settingsReference
  unfold Navigator.loadTarget Load.ofTarget
  rcases hload : Navigator.loadReference table .settings target.index target.settingsReference
    loader source with ⟨cause | settings, between, rest⟩
  · rw [hload] at hsettings
    exact hsettings
  · rw [hload] at hsettings
    have hextender := hsettings.loadReference loader rest .extender target.index
      target.extenderReference
    rw [List.append_assoc] at hextender
    dsimp only at hextender ⊢
    rcases hagain : Navigator.loadReference between .extender target.index
      target.extenderReference loader rest with ⟨cause | extender, last, final⟩
    · rw [hagain] at hextender
      exact hextender
    · rw [hagain] at hextender
      exact hextender

theorem navigate {navigator : Navigator}
    (h : navigator.table.Remembers options admitted numbers loads) (loader : Loader σ) (source : σ)
    (url : String) :
    (navigator.navigate url loader source).2.1.table.Remembers options admitted numbers
      (loads ++ Load.ofNavigation loader numbers navigator source url) := by
  unfold Navigator.navigate Load.ofNavigation
  rcases navigator.table.resolve url with cause | ⟨location, _ | target⟩
  · simpa using h
  · simpa using h
  · dsimp only
    cases navigator.leaves target with
    | true => simpa using h
    | false =>
      have htarget := h.loadTarget loader source target
      rcases hload : Navigator.loadTarget navigator.table target loader source with
        ⟨cause | loaded, after, rest⟩
      · rw [hload] at htarget
        exact htarget
      · rw [hload] at htarget
        exact htarget

/-- Operations keep what a table remembers, with their own loads and the entry that they add. -/
theorem next {course : Course σ}
    (h : course.state.1.table.Remembers options admitted course.numbers course.loads)
    (loader : Loader σ) (operation : Operation) :
    (course.next loader operation).state.1.table.Remembers options
      (admitted ++ (operation.admitted? options).toList) (course.next loader operation).numbers
      (course.next loader operation).loads := by
  obtain rfl := h.options
  have hsame : course.state.1.table.Remembers course.state.1.table.options (admitted ++ [])
      course.numbers (course.loads ++ []) := by
    rwa [List.append_nil, List.append_nil]
  cases operation with
  | load slot index reference =>
    rw [List.append_nil course.loads] at hsame
    exact hsame.load loader course.state.2 slot index reference
  | act action =>
    cases action with
    | add route prepend =>
      have hadd := course.state.1.table.add_eq route prepend
      rw [← List.append_nil course.loads] at h
      cases hentry : Entry.ofRoute course.state.1.table.options route with
      | error cause =>
        rw [hentry] at hadd
        simp only [Course.next, Operation.next, Action.next, Course.numbersAfter,
          Operation.admitted?, hadd, hentry]
        exact hsame
      | ok fresh =>
        rw [hentry] at hadd
        have hinsert := h.insert (Entry.loaded?_of_ofRoute hentry)
          (course.state.1.table.position_le prepend)
          (if prepend then course.state.1.table.prepended + 1 else course.state.1.table.prepended)
        simp only [Course.next, Operation.next, Action.next, Course.numbersAfter,
          Operation.admitted?, hadd, hentry]
        exact hinsert
    | navigate url =>
      rw [List.append_nil course.loads] at hsame
      exact hsame.navigate loader course.state.2 url
    | resolve url => exact hsame

/-- What a run remembers. -/
theorem foldl {course : Course σ}
    (h : course.state.1.table.Remembers options admitted course.numbers course.loads)
    (loader : Loader σ) (operations : List Operation) :
    (operations.foldl (Course.next loader) course).state.1.table.Remembers options
      (admitted ++ operations.filterMap (Operation.admitted? options))
      (operations.foldl (Course.next loader) course).numbers
      (operations.foldl (Course.next loader) course).loads := by
  induction operations generalizing course admitted with
  | nil => simpa using h
  | cons operation operations ih =>
    have hrest := ih (h.next loader operation)
    rw [List.append_assoc] at hrest
    cases hadmitted : operation.admitted? options with
    | none => simpa [hadmitted] using hrest
    | some fresh => simpa [hadmitted] using hrest

theorem start (options : Pattern.Options) (source : σ) :
    (Course.start options source).state.1.table.Remembers options []
      (Course.start options source).numbers (Course.start options source).loads where
  options := rfl
  numbered := .refl _
  entries := fun _ => rfl
  known := by simp [Course.start]
  lazily := by simp [Course.start]

end Table.Remembers

end Running

section Recording

variable (numbers : List Nat) (table : Table) (loader : Loader σ) (source : σ)
  (requests : List Request)

theorem Navigator.loadReference_recording (slot : Slot) (index : Nat) (reference : Option String) :
    loadReference table slot index reference loader.recording (source, requests) =
      ((loadReference table slot index reference loader source).1,
        (loadReference table slot index reference loader source).2.1,
        (loadReference table slot index reference loader source).2.2,
        requests ++ (Load.ofReference loader numbers table source slot index reference).flatMap
          (·.requests)) := by
  cases reference with
  | none => simp [loadReference, Load.ofReference]
  | some reference =>
    simp [loadReference, Load.ofReference, table.load_recording numbers]

theorem Navigator.loadTarget_recording (target : Target) :
    loadTarget table target loader.recording (source, requests) =
      ((loadTarget table target loader source).1, (loadTarget table target loader source).2.1,
        (loadTarget table target loader source).2.2,
        requests ++ (Load.ofTarget loader numbers table source target).flatMap
          (·.requests)) := by
  unfold loadTarget Load.ofTarget
  rw [loadReference_recording numbers]
  rcases hload : loadReference table .settings target.index target.settingsReference loader source
    with ⟨cause | settings, between, rest⟩
  · rfl
  · dsimp only
    rw [loadReference_recording numbers, List.flatMap_append, List.append_assoc]
    rcases hagain : loadReference between .extender target.index target.extenderReference loader
      rest with ⟨cause | extender, last, final⟩ <;> rfl

theorem Navigator.navigate_recording (navigator : Navigator) (url : String) :
    navigator.navigate url loader.recording (source, requests) =
      ((navigator.navigate url loader source).1, (navigator.navigate url loader source).2.1,
        (navigator.navigate url loader source).2.2,
        requests ++ (Load.ofNavigation loader numbers navigator source url).flatMap
          (·.requests)) := by
  unfold navigate Load.ofNavigation
  rcases navigator.table.resolve url with cause | ⟨location, _ | target⟩
  · simp
  · simp
  · dsimp only
    cases navigator.leaves target with
    | true => simp
    | false =>
      rw [loadTarget_recording numbers]
      rcases hload : loadTarget navigator.table target loader source with
        ⟨cause | loaded, after, rest⟩ <;> rfl

/-- A record does not change what an operation does, and holds what its loads ask for. -/
theorem Operation.next_recording (state : Navigator × σ) (operation : Operation) :
    operation.next loader.recording (state.1, state.2, requests) =
      ((operation.next loader state).1, (operation.next loader state).2,
        requests ++ (Load.ofOperation loader numbers state operation).flatMap
          (·.requests)) := by
  cases operation with
  | load slot index reference =>
    simp [next, Load.ofOperation, Table.load_recording numbers]
  | act action =>
    cases action with
    | add route prepend =>
      simp only [next, Action.next, Load.ofOperation, List.flatMap_nil, List.append_nil]
      cases state.1.table.add route prepend <;> rfl
    | navigate url =>
      simp only [next, Action.next, Load.ofOperation, Navigator.navigate_recording numbers]
    | resolve url => simp [next, Action.next, Load.ofOperation]

theorem Operation.foldl_recording (course : Course σ) (operations : List Operation) :
    let after := operations.foldl (Course.next loader) course
    operations.foldl (next loader.recording)
        (course.state.1, course.state.2, course.loads.flatMap (·.requests)) =
      (after.state.1, after.state.2, after.loads.flatMap (·.requests)) := by
  induction operations generalizing course with
  | nil => rfl
  | cons operation operations ih =>
    rw [List.foldl_cons, List.foldl_cons, next_recording course.numbers, ← List.flatMap_append]
    exact ih (course.next loader operation)

end Recording

/-- The last successful load of a slot gives what the loader has answered last for the slot. -/
theorem Load.last?_answered_eq {loads : List Load}
    (h : ∀ front load back, loads = front ++ load :: back → load.Lazy front) (number : Nat)
    (slot : Slot) : last? answered? number slot loads = last? given? number slot loads := by
  induction loads using List.reverseRecOn with
  | nil => rfl
  | append_singleton loads load ih =>
    have hloads := ih fun front other back heq => h front other (back ++ [load]) (by simp [heq])
    have hload := h loads load [] rfl
    rw [last?_concat, last?_concat, hloads]
    split
    · next hof =>
      obtain ⟨hnumber, rfl⟩ := hof
      cases hrequests : load.requests with
      | nil =>
        obtain ⟨last, hlast, hreference, hresult⟩ := hload.keeps number hnumber hrequests
        simp [answered?, given?, hrequests, hlast, hresult, ← hreference, Except.toOption]
      | cons request rest =>
        obtain ⟨honce, hreference, hresult⟩ := hload.answers request (by simp [hrequests])
        cases hanswer : request.answer <;>
          simp [answered?, given?, honce, hresult, hreference, hanswer, Except.mapError,
            Except.toOption]
    · rfl

theorem Course.state_foldl (loader : Loader σ) (course : Course σ) (operations : List Operation) :
    (operations.foldl (next loader) course).state =
      operations.foldl (Operation.next loader) course.state := by
  induction operations generalizing course with
  | nil => rfl
  | cons operation operations ih => exact ih (course.next loader operation)

/-- What a course has come to, given the entries of the routes that were added. -/
structure Course.Caches (course : Course σ) (admitted : List Entry) : Prop where
  /-- Each load goes by those before it. -/
  lazily : ∀ front load back, course.loads = front ++ load :: back → load.Lazy front
  /-- The last successful load of a slot gave what the loader has answered last for the slot. -/
  answered : ∀ number slot,
    Load.last? Load.answered? number slot course.loads =
      Load.last? Load.given? number slot course.loads
  /-- Each entry that was added is in the table once. -/
  numbered : course.numbers.Perm (List.range admitted.length)
  /-- It is as it was added, but for its slots, which hold what the loads of each have come to
  last. -/
  entries : ∀ index : Nat, course.state.1.table.entries[index]? =
    course.numbers[index]?.bind fun number =>
      admitted[number]?.map (·.remembering number course.loads)

/-- However a loader answers, a run of additions, navigations and loads asks it for nothing but what
the loads of the run ask for. Each of these asks only if the last successful load of its slot of its
entry was not for its reference, and what they have come to is what the slots hold. -/
theorem Course.caches_run (loader : Loader σ) (options : Pattern.Options) (source : σ)
    (operations : List Operation) :
    let course := run loader options source operations
    course.state = Operation.run loader options source operations ∧
      Operation.run loader.recording options (source, []) operations =
        (course.state.1, course.state.2, course.loads.flatMap (·.requests)) ∧
      course.Caches (operations.filterMap (Operation.admitted? options)) := by
  have h := (Table.Remembers.start options source).foldl loader operations
  rw [List.nil_append] at h
  refine ⟨state_foldl loader (start options source) operations,
    Operation.foldl_recording loader (start options source) operations, ?_⟩
  exact {
    lazily := h.lazily
    answered := Load.last?_answered_eq h.lazily
    numbered := h.numbered
    entries := h.entries }

/-- A page that another one moves is not loaded again, unless for another slot or another
reference. -/
example :
    let count : Loader Nat := fun _ calls => (.ok (.ofNat calls), calls + 1)
    let page (title : String) (prepend : Bool) : Operation :=
      .act (.add (plainRoute title "/:page" none) prepend)
    (Operation.run count.recording .standard (0, [])
      [page "Front" true, .load .settings 0 "one", page "Back" false, .load .settings 1 "one",
        .load .extender 1 "one", .load .settings 1 "two"]).2.2.map (·.reference) =
      ["one", "one", "two"] := by
  decide +kernel

end Waymark.Route
