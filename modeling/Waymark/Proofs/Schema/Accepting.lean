import Waymark.Proofs.Json.Taking
import Waymark.Schema.Routes
/-!
What settings are like that were accepted.

Parameters are in name order. The options of a route are a document in order, which is not null and
nests three less deep than the text that it comes from.
-/

namespace Waymark.Schema

open Waymark.Json Waymark.Json.Decoder

variable {room : Nat}

namespace Params

theorem takes_textOrTexts {α : Type} (one : String → α) (many : List String → α) :
    (textOrTexts one many).Takes room fun _ => True := by
  intro document hfits failure rest value after h
  obtain ⟨events, middle, hbuffered, hgives⟩ := gives_bind_iff.1 h
  obtain ⟨rfl, -⟩ := takes_buffered document hfits failure rest events middle hbuffered
  split at hgives
  · exact ⟨(gives_pure_iff.1 hgives).2, trivial⟩
  · obtain ⟨texts, left, htexts, hgives⟩ := gives_bind_iff.1 hgives
    obtain ⟨-, rfl⟩ := gives_pure_iff.1 hgives
    exact ⟨(gives_within htexts).1, trivial⟩

theorem takes_param (name : String) {params : Pattern.Params} (h : Dict.Sorted params) :
    (param name params).Takes room Dict.Sorted :=
  (takes_textOrTexts Pattern.ParamValue.single Pattern.ParamValue.repeated).optional.map
    fun value _ => h.insert name value

/-- The parameters of a document are in name order. -/
theorem takes_decoder : decoder.Takes (room + 1) Dict.Sorted := by
  intro document hfits failure rest params after hgives
  obtain ⟨event, middle, hnext, hgives⟩ := gives_bind_iff.1 hgives
  split at hgives
  · obtain ⟨all, hvalues, rfl⟩ := exists_of_beginObject hfits (gives_next_iff.1 hnext)
    exact takes_fields (fun name params h => takes_param name h) List.Pairwise.nil hvalues hgives
  · exact absurd hgives not_gives_mismatch

end Params

namespace Options

theorem takes_field (name : String) (options : Pattern.Options) :
    (field name options).Takes room fun _ => True := by
  unfold field
  split
  all_goals first
    | exact takes_mismatch
    | exact takes_bool.map fun _ _ => trivial
    | exact takes_string.map fun _ _ => trivial

theorem takes_decoder : decoder.Takes (room + 1) fun _ => True :=
  takes_record (fun name options _ => takes_field name options) trivial

end Options

namespace Routes

/-- What a text with so much room can hold as the options of a route: a document in order. -/
def Holds (room : Nat) (found : Option Value) : Prop :=
  ∀ value, found = some value → value ≠ .null ∧ value.Ordered ∧ value.Fits Number.InRange room

theorem takes_options : (optional Decoder.value).Takes room (Holds room) := by
  refine takes_of_reads fun document hfits => ?_
  by_cases hnull : document = .null
  · subst hnull
    exact ⟨none, reads_optional_null _, nofun⟩
  · refine ⟨some document.normal, (reads_value document).optional_of_ne hnull, ?_⟩
    rintro _ ⟨⟩
    exact ⟨Value.normal_ne_null hnull, Value.ordered_normal document, hfits.normal⟩

/-- The fields of a route are taken as documents. -/
def Documents (room : Nat) (taken : Buffered) : Prop :=
  ∀ entry ∈ taken, ∃ document : Value, document.Fits Number.InRange room ∧
    entry.2 = document.events

theorem takes_take (name : String) {taken : Buffered} (h : Documents room taken) :
    (take name taken).Takes room (Documents room) := by
  refine takes_buffered.map fun events hevents entry hentry => ?_
  rcases List.mem_append.1 hentry with hentry | hentry
  · exact h entry hentry
  · obtain rfl := List.mem_singleton.1 hentry
    exact hevents

theorem takes_titled (name : String) {state : Option String × Buffered}
    (h : Documents room state.2) :
    (titled name state).Takes room fun state => Documents room state.2 := by
  unfold titled
  split
  · split
    · intro _ _ _ _ _ _ hgives
      obtain ⟨_, _, hmismatch, -⟩ := gives_bind_iff.1 hgives
      exact absurd hmismatch not_gives_mismatch
    · exact takes_string.map fun _ _ => h
  · exact (takes_take name h).map fun _ htaken => htaken

theorem field?_gives {α : Type} {taken : Buffered} {name : String} {decoder : Decoder α}
    {failure : Failure} {events rest : List Event} {found : Option α}
    (h : (field? taken name decoder).Gives failure events found rest) :
    rest = events ∧ ∀ value, found = some value → ∃ entry ∈ taken, ∃ left,
      decoder.Gives .mismatched entry.2 value left := by
  unfold field? at h
  split at h
  · obtain ⟨rfl, rfl⟩ := gives_pure_iff.1 h
    exact ⟨rfl, nofun⟩
  · next key buffered htaken =>
    obtain ⟨value, middle, hvalue, h⟩ := gives_bind_iff.1 h
    obtain ⟨rfl, rfl⟩ := gives_pure_iff.1 h
    obtain ⟨rfl, left, hgives⟩ := gives_within hvalue
    refine ⟨rfl, ?_⟩
    rintro _ ⟨⟩
    refine ⟨(key, buffered), ?_, left, hgives⟩
    exact List.mem_of_mem_filter (htaken ▸ List.mem_cons_self)
  · exact absurd h not_gives_mismatch

theorem text?_gives {taken : Buffered} {name : String} {failure : Failure}
    {events rest : List Event} {found : Option String}
    (h : (text? taken name).Gives failure events found rest) : rest = events := by
  obtain ⟨text, middle, htext, h⟩ := gives_bind_iff.1 h
  obtain ⟨-, rfl⟩ := gives_pure_iff.1 h
  exact (field?_gives htext).1

theorem specOf_gives {taken : Buffered} (htaken : Documents room taken) {failure : Failure}
    {events rest : List Event} {spec : Route.RouteSpec}
    (h : (specOf taken).Gives failure events spec rest) :
    rest = events ∧ Holds room spec.options := by
  obtain ⟨path, _, hpath, h⟩ := gives_bind_iff.1 h
  obtain ⟨name, _, hname, h⟩ := gives_bind_iff.1 h
  obtain ⟨origin, _, horigin, h⟩ := gives_bind_iff.1 h
  obtain ⟨settings, _, hsettings, h⟩ := gives_bind_iff.1 h
  obtain ⟨extender, _, hextender, h⟩ := gives_bind_iff.1 h
  obtain ⟨options, _, hoptions, hspec⟩ := gives_bind_iff.1 h
  obtain ⟨rfl, -⟩ := field?_gives hpath
  obtain rfl := text?_gives hname
  obtain rfl := text?_gives horigin
  obtain rfl := text?_gives hsettings
  obtain rfl := text?_gives hextender
  obtain ⟨rfl, hfound⟩ := field?_gives hoptions
  split at hspec
  · obtain ⟨rfl, rfl⟩ := gives_pure_iff.1 hspec
    refine ⟨rfl, ?_⟩
    cases options with
    | none => exact nofun
    | some found =>
        obtain ⟨entry, hentry, left, hgives⟩ := hfound found rfl
        obtain ⟨document, hfits, hevents⟩ := htaken entry hentry
        rw [hevents, ← List.append_nil document.events] at hgives
        exact (takes_options document hfits _ [] found left hgives).2
  · exact absurd hspec not_gives_mismatch

theorem takes_definition :
    definition.Takes (room + 1) fun route => Holds room route.spec.options := by
  intro document hfits failure rest route after h
  obtain ⟨event, middle, hnext, h⟩ := gives_bind_iff.1 h
  split at h
  · obtain ⟨all, hvalues, rfl⟩ := exists_of_beginObject hfits (gives_next_iff.1 hnext)
    obtain ⟨⟨title, taken⟩, left, hfields, hroute⟩ := gives_bind_iff.1 h
    have htitled : ∀ name (state : Option String × Buffered), Documents room state.2 →
        (titled name state).Takes room fun state => Documents room state.2 :=
      fun name state hstate => takes_titled name hstate
    obtain ⟨rfl, htaken⟩ := @takes_fields _ _ _ _ _ _ (fun state => Documents room state.2) _ _ _
      htitled (fun _ hentry => absurd hentry List.not_mem_nil) hvalues hfields
    dsimp only at hroute
    split at hroute
    · obtain ⟨spec, last, hspec, hroute⟩ := gives_bind_iff.1 hroute
      obtain ⟨rfl, rfl⟩ := gives_pure_iff.1 hroute
      exact specOf_gives htaken hspec
    · exact absurd hroute not_gives_mismatch
  · exact absurd h not_gives_mismatch

theorem takes_configField (name : String) {config : Route.RoutesConfig}
    (h : ∀ route ∈ config.routes, Holds room route.spec.options) :
    (configField name config).Takes (room + 2) fun config =>
      ∀ route ∈ config.routes, Holds room route.spec.options := by
  unfold configField
  split
  · exact Options.takes_decoder.map fun _ _ => h
  · exact takes_definition.list.map fun _ hroutes => hroutes
  · exact takes_mismatch

theorem takes_decoder :
    decoder.Takes (room + 3) fun config =>
      ∀ route ∈ config.routes, Holds room route.spec.options :=
  takes_record (fun name _ h => takes_configField name h) nofun

end Routes

end Waymark.Schema
