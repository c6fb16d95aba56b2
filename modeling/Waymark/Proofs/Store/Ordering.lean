import Waymark.Proofs.Store.Histories
/-!
In which order an observer is told of writes.

Within a cycle observers are called one after another, and a script that writes opens a cycle of its
own before it goes on. So an observer hears of a later write first where an observer before it has
made that write in answer to an earlier one, and the order of the writes is kept otherwise
(`inOrder_iff_not_overtaken`).
-/

namespace Waymark.Store

mutual

/-- How many writes a script has made, those of the scripts that answer it included. -/
def History.writes : History → Nat
  | .done => 0
  | .remarked _ _ rest => rest.writes
  | .wrote _ rest => 1 + rest.writes
  | .told _ round rest => 1 + round.writes + rest.writes
  | .notified _ _ round rest => round.writes + rest.writes

/-- How many writes the scripts of a cycle have made. -/
def Round.writes : Round → Nat
  | .done => 0
  | .consulted _ _ rest => rest.writes
  | .called _ _ script _ rest => script.writes + rest.writes

end

mutual

/-- What an observer has been told of writes: the number of each write, given how many there have
been before, and what it has changed. -/
def History.reports (observer : String) : History → Nat → List (Nat × Changes)
  | .done, _ => []
  | .remarked _ _ rest, number => rest.reports observer number
  | .wrote _ rest, number => rest.reports observer (number + 1)
  | .told changes round rest, number =>
      round.reports observer (some (number, changes)) (number + 1) ++
        rest.reports observer (number + 1 + round.writes)
  | .notified _ _ round rest, number =>
      round.reports observer none number ++ rest.reports observer (number + round.writes)

/-- What an observer has been told in a cycle that reports a write, or none. -/
def Round.reports (observer : String) (write : Option (Nat × Changes)) :
    Round → Nat → List (Nat × Changes)
  | .done, _ => []
  | .consulted _ _ rest, number => rest.reports observer write number
  | .called id _ script _ rest, number =>
      (if id = observer then write.toList else []) ++
        (script.reports observer number ++ rest.reports observer write (number + script.writes))

end

/-- Notifications tell of writes in the order in which they have been made. -/
def InOrder (reports : List (Nat × Changes)) : Prop :=
  reports.Pairwise fun earlier later => earlier.1 ≤ later.1

/-- An observer is called in a cycle. -/
def Round.Calls (observer : String) : Round → Prop
  | .done => False
  | .consulted _ _ rest => rest.Calls observer
  | .called id _ _ _ rest => id = observer ∨ rest.Calls observer

mutual

/-- An observer is told of a write that a script has made, or a script that answers it. -/
def History.Tells (observer : String) : History → Prop
  | .done => False
  | .remarked _ _ rest => rest.Tells observer
  | .wrote _ rest => rest.Tells observer
  | .told _ round rest => (round.Calls observer ∨ round.Tells observer) ∨ rest.Tells observer
  | .notified _ _ round rest => round.Tells observer ∨ rest.Tells observer

/-- An observer is told of a write that a script within a cycle has made. -/
def Round.Tells (observer : String) : Round → Prop
  | .done => False
  | .consulted _ _ rest => rest.Tells observer
  | .called _ _ script _ rest => script.Tells observer ∨ rest.Tells observer

end

mutual

/-- In the cycle of some write, an observer is called after another one whose script has had it told
of a later write. -/
def History.Overtaken (observer : String) : History → Prop
  | .done => False
  | .remarked _ _ rest => rest.Overtaken observer
  | .wrote _ rest => rest.Overtaken observer
  | .told _ round rest => round.Overtaken observer true ∨ rest.Overtaken observer
  | .notified _ _ round rest => round.Overtaken observer false ∨ rest.Overtaken observer

/-- The same in a cycle that reports a write, or none. -/
def Round.Overtaken (observer : String) (reporting : Bool) : Round → Prop
  | .done => False
  | .consulted _ _ rest => rest.Overtaken observer reporting
  | .called _ _ script _ rest =>
      (reporting = true ∧ script.Tells observer ∧ rest.Calls observer) ∨
        script.Overtaken observer ∨ rest.Overtaken observer reporting

end

section Numbers

variable {observer : String} {report : Nat × Changes}

mutual

/-- A script is told of the writes that have been made while it ran. -/
theorem History.bounds_of_mem_reports {history : History} {number : Nat}
    (h : report ∈ history.reports observer number) :
    number ≤ report.1 ∧ report.1 < number + history.writes := by
  cases history with
  | done => exact absurd h List.not_mem_nil
  | remarked id note rest => exact rest.bounds_of_mem_reports h
  | wrote changes rest =>
      have hrest := rest.bounds_of_mem_reports h
      rw [History.writes]
      omega
  | told changes round rest =>
      rw [History.writes]
      rcases List.mem_append.1 h with h | h
      · rcases round.bounds_of_mem_reports h with hdirect | hround
        · rw [← Option.some.inj hdirect]
          omega
        · omega
      · have hrest := rest.bounds_of_mem_reports h
        omega
  | notified changes args round rest =>
      rw [History.writes]
      rcases List.mem_append.1 h with h | h
      · rcases round.bounds_of_mem_reports h with hdirect | hround
        · cases hdirect
        · omega
      · have hrest := rest.bounds_of_mem_reports h
        omega

theorem Round.bounds_of_mem_reports {round : Round} {write : Option (Nat × Changes)} {number : Nat}
    (h : report ∈ round.reports observer write number) :
    write = some report ∨ number ≤ report.1 ∧ report.1 < number + round.writes := by
  cases round with
  | done => exact absurd h List.not_mem_nil
  | consulted id accepted rest => exact rest.bounds_of_mem_reports h
  | called id options script failure rest =>
      rw [Round.writes]
      rcases List.mem_append.1 h with h | h
      · split at h
        · exact .inl (Option.mem_toList.1 h)
        · exact absurd h List.not_mem_nil
      · rcases List.mem_append.1 h with h | h
        · have hscript := script.bounds_of_mem_reports h
          omega
        · rcases rest.bounds_of_mem_reports h with hdirect | hrest
          · exact .inl hdirect
          · omega

end

mutual

/-- A script has an observer told of a write if there is a report of it. -/
theorem History.tells_iff (history : History) (number : Nat) :
    history.Tells observer ↔ ∃ report, report ∈ history.reports observer number := by
  cases history with
  | done => simp [History.Tells, History.reports]
  | remarked id note rest => exact rest.tells_iff number
  | wrote changes rest => exact rest.tells_iff (number + 1)
  | told changes round rest =>
      have hround := round.tells_iff (some (number, changes)) (number + 1)
      have hrest := rest.tells_iff (number + 1 + round.writes)
      simp only [Option.isSome_some, true_and] at hround
      simp only [History.Tells, History.reports, List.mem_append, exists_or, hround, hrest]
  | notified changes args round rest =>
      have hround := round.tells_iff none number
      have hrest := rest.tells_iff (number + round.writes)
      simp only [Option.isSome_none, Bool.false_eq_true, false_and, false_or] at hround
      simp only [History.Tells, History.reports, List.mem_append, exists_or, hround, hrest]

theorem Round.tells_iff (round : Round) (write : Option (Nat × Changes)) (number : Nat) :
    (write.isSome = true ∧ round.Calls observer) ∨ round.Tells observer ↔
      ∃ report, report ∈ round.reports observer write number := by
  cases round with
  | done => simp [Round.Calls, Round.Tells, Round.reports]
  | consulted id accepted rest => exact rest.tells_iff write number
  | called id options script failure rest =>
      have hscript := script.tells_iff number
      have hrest := rest.tells_iff write (number + script.writes)
      have hdirect : (∃ report, report ∈ if id = observer then write.toList else []) ↔
          write.isSome = true ∧ id = observer := by
        split
        · next heq => simp [heq, Option.isSome_iff_exists]
        · next hne => simp [hne]
      simp only [Round.Calls, Round.Tells, Round.reports, List.mem_append, exists_or, hdirect,
        ← hscript, ← hrest]
      grind

end

/-- An observer is called in a cycle if the write of the cycle is among its reports. -/
theorem Round.calls_iff (round : Round) {write : Nat × Changes} {number : Nat}
    (hbefore : write.1 < number) :
    round.Calls observer ↔ write ∈ round.reports observer (some write) number := by
  cases round with
  | done => simp [Round.Calls, Round.reports]
  | consulted id accepted rest => exact rest.calls_iff hbefore
  | called id options script failure rest =>
      have hrest := rest.calls_iff (Nat.lt_of_lt_of_le hbefore (Nat.le_add_right _ script.writes))
      have hscript : write ∉ script.reports observer number := fun hmem =>
        absurd (script.bounds_of_mem_reports hmem).1 (Nat.not_le.2 hbefore)
      have hdirect : write ∈ (if id = observer then (some write).toList else []) ↔
          id = observer := by
        split <;> simp_all
      rw [Round.Calls, Round.reports, List.mem_append, List.mem_append, hdirect, hrest]
      simp [hscript]

end Numbers

section Order

variable {observer : String}

theorem inOrder_append {earlier later : List (Nat × Changes)} :
    InOrder (earlier ++ later) ↔ InOrder earlier ∧ InOrder later ∧
      ∀ report ∈ earlier, ∀ other ∈ later, report.1 ≤ other.1 :=
  List.pairwise_append

/-- What an observer is told in a cycle starts with the write of the cycle, and later writes
follow. -/
theorem le_of_mem_direct {script : History} {rest : Round} {write : Option (Nat × Changes)}
    {id : String} {number : Nat} (hbefore : ∀ report ∈ write, report.1 < number) :
    ∀ report ∈ (if id = observer then write.toList else []),
      ∀ other ∈ script.reports observer number ++
        rest.reports observer write (number + script.writes), report.1 ≤ other.1 := by
  intro report hreport other hother
  have hwrite : write = some report := by
    split at hreport
    · exact Option.mem_toList.1 hreport
    · exact absurd hreport List.not_mem_nil
  have hlt := hbefore report hwrite
  rcases List.mem_append.1 hother with hother | hother
  · have hbounds := script.bounds_of_mem_reports hother
    omega
  · rcases rest.bounds_of_mem_reports hother with hsame | hbounds
    · rw [hwrite] at hsame
      exact Nat.le_of_eq (congrArg (·.1) (Option.some.inj hsame))
    · omega

/-- What a script has an observer told comes before what the cycle goes on to tell it, unless that is
the write of the cycle. -/
theorem script_le_rest_iff {script : History} {rest : Round} {write : Option (Nat × Changes)}
    {number : Nat} (hbefore : ∀ report ∈ write, report.1 < number) :
    (∀ report ∈ script.reports observer number,
      ∀ other ∈ rest.reports observer write (number + script.writes), report.1 ≤ other.1) ↔
        ¬ (write.isSome = true ∧ script.Tells observer ∧ rest.Calls observer) := by
  constructor
  · rintro hle ⟨hsome, htells, hcalls⟩
    obtain ⟨current, rfl⟩ := Option.isSome_iff_exists.1 hsome
    obtain ⟨report, hreport⟩ := (script.tells_iff number).1 htells
    have hlt : current.1 < number := hbefore current rfl
    have hcurrent := (rest.calls_iff
      (Nat.lt_of_lt_of_le hlt (Nat.le_add_right _ script.writes))).1 hcalls
    have hlater := (script.bounds_of_mem_reports hreport).1
    have hbelow := hle report hreport current hcurrent
    omega
  · intro hnot report hreport other hother
    have hbounds := script.bounds_of_mem_reports hreport
    rcases rest.bounds_of_mem_reports hother with rfl | hlater
    · have hlt : other.1 < number := hbefore other rfl
      have hcalls := (rest.calls_iff
        (Nat.lt_of_lt_of_le hlt (Nat.le_add_right _ script.writes))).2 hother
      exact absurd ⟨rfl, (script.tells_iff number).2 ⟨report, hreport⟩, hcalls⟩ hnot
    · omega

/-- What an observer is told in a cycle comes before what it is told once the cycle has ended. -/
theorem round_le_rest {round : Round} {rest : History} {write : Option (Nat × Changes)}
    {number : Nat} (hbefore : ∀ report ∈ write, report.1 < number) :
    ∀ report ∈ round.reports observer write number,
      ∀ other ∈ rest.reports observer (number + round.writes), report.1 ≤ other.1 := by
  intro report hreport other hother
  have hafter := rest.bounds_of_mem_reports hother
  rcases round.bounds_of_mem_reports hreport with hdirect | hbounds
  · have hlt := hbefore report hdirect
    omega
  · omega

mutual

/-- A script keeps the order of writes for an observer unless the observer is overtaken. -/
theorem History.inOrder_iff (history : History) (number : Nat) :
    InOrder (history.reports observer number) ↔ ¬ history.Overtaken observer := by
  cases history with
  | done => simp [History.reports, InOrder, History.Overtaken]
  | remarked id note rest => exact rest.inOrder_iff number
  | wrote changes rest => exact rest.inOrder_iff (number + 1)
  | told changes round rest =>
      have hround := round.inOrder_iff (some (number, changes)) (number + 1) (by simp)
      have hrest := rest.inOrder_iff (number + 1 + round.writes)
      rw [History.reports, inOrder_append, History.Overtaken, not_or, hround, hrest]
      exact ⟨fun h => ⟨h.1, h.2.1⟩, fun h => ⟨h.1, h.2, round_le_rest (by simp)⟩⟩
  | notified changes args round rest =>
      have hround := round.inOrder_iff none number (by simp)
      have hrest := rest.inOrder_iff (number + round.writes)
      rw [History.reports, inOrder_append, History.Overtaken, not_or, hround, hrest]
      exact ⟨fun h => ⟨h.1, h.2.1⟩, fun h => ⟨h.1, h.2, round_le_rest (by simp)⟩⟩

theorem Round.inOrder_iff (round : Round) (write : Option (Nat × Changes)) (number : Nat)
    (hbefore : ∀ report ∈ write, report.1 < number) :
    InOrder (round.reports observer write number) ↔ ¬ round.Overtaken observer write.isSome := by
  cases round with
  | done => simp [Round.reports, InOrder, Round.Overtaken]
  | consulted id accepted rest => exact rest.inOrder_iff write number hbefore
  | called id options script failure rest =>
      have hscript := script.inOrder_iff number
      have hrest := rest.inOrder_iff write (number + script.writes) fun report hreport =>
        Nat.lt_of_lt_of_le (hbefore report hreport) (Nat.le_add_right _ _)
      have hdirect : InOrder (if id = observer then write.toList else []) := by
        cases write <;> split <;> simp [InOrder]
      have hfirst := @le_of_mem_direct observer script rest write id number hbefore
      have hovertaken := @script_le_rest_iff observer script rest write number hbefore
      rw [Round.reports, inOrder_append, inOrder_append, hscript, hrest, hovertaken,
        Round.Overtaken]
      grind

end

/-- Of the notifications that are singled out, such as those that tell of one key, the last one tells
of the newest write. -/
theorem InOrder.le_getLast {reports : List (Nat × Changes)} (h : InOrder reports)
    {about : Changes → Bool} {newest : Nat × Changes}
    (hnewest : (reports.filter fun report => about report.2).getLast? = some newest) :
    ∀ report ∈ reports, about report.2 = true → report.1 ≤ newest.1 := by
  intro report hreport habout
  obtain ⟨front, hfront⟩ := List.getLast?_eq_some_iff.1 hnewest
  have hfiltered : InOrder (reports.filter fun report => about report.2) := h.filter _
  have hmem : report ∈ reports.filter fun report => about report.2 :=
    List.mem_filter.2 ⟨hreport, habout⟩
  rw [hfront] at hmem hfiltered
  rcases List.mem_append.1 hmem with hmem | hmem
  · exact (inOrder_append.1 hfiltered).2.2 report hmem newest List.mem_cons_self
  · have hsame : report = newest := List.mem_singleton.1 hmem
    exact Nat.le_of_eq (congrArg Prod.fst hsame)

end Order

section Numbering

/-- What the writes in a journal have changed, in the order in which they have been made. -/
def written (journal : List Entry) : List Changes :=
  journal.filterMap fun entry =>
    match entry.event with
    | .wrote changes => some changes
    | _ => none

@[simp] theorem written_cons_wrote (changes : Changes) (depth : Nat) (journal : List Entry) :
    written (⟨.wrote changes, depth⟩ :: journal) = changes :: written journal := rfl

theorem written_cons_of_ne {event : Event} (h : ∀ changes, event ≠ .wrote changes) (depth : Nat)
    (journal : List Entry) : written (⟨event, depth⟩ :: journal) = written journal := by
  cases event with
  | wrote changes => exact absurd rfl (h changes)
  | _ => rfl

@[simp] theorem written_append (journal other : List Entry) :
    written (journal ++ other) = written journal ++ written other :=
  List.filterMap_append

theorem written_ending (id : String) (failure : Option String) (depth : Nat)
    (journal : List Entry) :
    written (⟨ending id failure, depth⟩ :: journal) = written journal := by
  cases failure <;> rfl

theorem written_told (depth : Nat) (changes : Changes) (round : Round) (rest : History) :
    written ((History.told changes round rest).entries depth) =
      changes :: (written (round.entries (depth + 1) changes []) ++
        written (rest.entries depth)) := by
  rw [History.entries, written_cons_wrote, written_cons_of_ne (by simp), written_append,
    written_cons_of_ne (by simp)]

theorem written_notified (depth : Nat) (changes : Changes) (args : List Json.Value)
    (round : Round) (rest : History) :
    written ((History.notified changes args round rest).entries depth) =
      written (round.entries (depth + 1) changes args) ++ written (rest.entries depth) := by
  rw [History.entries, written_cons_of_ne (by simp), written_append, written_cons_of_ne (by simp)]

theorem written_called (depth : Nat) (changes : Changes) (args : List Json.Value) (id : String)
    (options : Json.Value) (script : History) (failure : Option String) (rest : Round) :
    written ((Round.called id options script failure rest).entries depth changes args) =
      written (script.entries depth) ++ written (rest.entries depth changes args) := by
  rw [Round.entries, written_cons_of_ne (by simp), written_cons_of_ne (by simp), written_append,
    written_ending]

mutual

theorem History.length_written (history : History) (depth : Nat) :
    (written (history.entries depth)).length = history.writes := by
  cases history with
  | done => rfl
  | remarked id note rest => exact rest.length_written depth
  | wrote changes rest =>
      rw [History.writes, ← rest.length_written depth, Nat.add_comm]
      rfl
  | told changes round rest =>
      rw [written_told, History.writes, List.length_cons, List.length_append,
        round.length_written, rest.length_written]
      omega
  | notified changes args round rest =>
      rw [written_notified, History.writes, List.length_append, round.length_written,
        rest.length_written]

theorem Round.length_written (round : Round) (depth : Nat) (changes : Changes)
    (args : List Json.Value) :
    (written (round.entries depth changes args)).length = round.writes := by
  cases round with
  | done => rfl
  | consulted id accepted rest => exact rest.length_written depth changes args
  | called id options script failure rest =>
      rw [written_called, Round.writes, List.length_append, script.length_written,
        rest.length_written]

end

theorem getElem?_append_of_eq_some {α : Type} {items : List α} {index : Nat} {item : α}
    (h : items[index]? = some item) (others : List α) : (items ++ others)[index]? = some item := by
  rw [List.getElem?_append_left (List.getElem?_eq_some_iff.1 h).1, h]

mutual

/-- The number of a report is the place of its write among those in the journal. -/
theorem History.written_of_mem_reports {observer : String} {report : Nat × Changes}
    (history : History) (depth : Nat) (before : List Changes)
    (h : report ∈ history.reports observer before.length) :
    (before ++ written (history.entries depth))[report.1]? = some report.2 := by
  cases history with
  | done => exact absurd h List.not_mem_nil
  | remarked id note rest => exact rest.written_of_mem_reports depth before h
  | wrote changes rest =>
      have hrest := rest.written_of_mem_reports depth (before ++ [changes])
        (by simpa [History.reports] using h)
      rwa [List.append_assoc] at hrest
  | told changes round rest =>
      rw [written_told, List.append_cons, ← List.append_assoc]
      rcases List.mem_append.1 h with h | h
      · apply getElem?_append_of_eq_some
        refine round.written_of_mem_reports (depth + 1) changes [] (before ++ [changes]) ?_
          (by simpa using h)
        intro write hwrite
        rw [← Option.some.inj hwrite]
        simp
      · apply rest.written_of_mem_reports depth
        rwa [List.length_append, round.length_written, List.length_append]
  | notified changes args round rest =>
      rw [written_notified, ← List.append_assoc]
      rcases List.mem_append.1 h with h | h
      · apply getElem?_append_of_eq_some
        exact round.written_of_mem_reports (depth + 1) changes args before (by simp) h
      · apply rest.written_of_mem_reports depth
        rwa [List.length_append, round.length_written]

theorem Round.written_of_mem_reports {observer : String} {report : Nat × Changes}
    {write : Option (Nat × Changes)} (round : Round) (depth : Nat) (changes : Changes)
    (args : List Json.Value) (before : List Changes)
    (hwrite : ∀ current ∈ write, before[current.1]? = some current.2)
    (h : report ∈ round.reports observer write before.length) :
    (before ++ written (round.entries depth changes args))[report.1]? = some report.2 := by
  cases round with
  | done => exact absurd h List.not_mem_nil
  | consulted id accepted rest =>
      exact rest.written_of_mem_reports depth changes args before hwrite h
  | called id options script failure rest =>
      rw [written_called, ← List.append_assoc]
      rcases List.mem_append.1 h with h | h
      · rw [List.append_assoc]
        apply getElem?_append_of_eq_some
        split at h
        · exact hwrite report (Option.mem_toList.1 h)
        · exact absurd h List.not_mem_nil
      · rcases List.mem_append.1 h with h | h
        · apply getElem?_append_of_eq_some
          exact script.written_of_mem_reports depth before h
        · have hbefore : ∀ current ∈ write,
              (before ++ written (script.entries depth))[current.1]? = some current.2 :=
            fun current hcurrent => getElem?_append_of_eq_some (hwrite current hcurrent) _
          apply rest.written_of_mem_reports depth changes args _ hbefore
          rwa [List.length_append, script.length_written]

end

end Numbering

namespace Observable

/-- A run of a store that tells at once leaves the journal of a history, in which every report is of
the write of its number. An observer is told of writes in the order in which they have been made if
and only if it is never overtaken, and then the last notification of each kind tells of the newest
write. -/
theorem inOrder_iff_not_overtaken {depth : Nat} {script : Script} {config : ObservableConfig}
    {store : Core} {hasRuntime : Bool} {progress : Progress} {after : Observable}
    (hsync : config.dispatch = .sync)
    (h : run depth script (ofConfig config store hasRuntime) = some (progress, after)) :
    (∃ history : History, after.journal = history.entries 0) ∧
    ∀ history : History, after.journal = history.entries 0 → ∀ observer : String,
      (∀ report ∈ history.reports observer 0,
        (written after.journal)[report.1]? = some report.2) ∧
      (InOrder (history.reports observer 0) ↔ ¬ history.Overtaken observer) ∧
      (¬ history.Overtaken observer → ∀ (about : Changes → Bool) (newest : Nat × Changes),
        ((history.reports observer 0).filter fun report => about report.2).getLast? =
            some newest →
          ∀ report ∈ history.reports observer 0, about report.2 = true →
            report.1 ≤ newest.1) := by
  refine ⟨exists_history hsync h, fun history hjournal observer => ?_⟩
  refine ⟨fun report hreport => ?_, history.inOrder_iff 0, fun hnot about newest hnewest => ?_⟩
  · rw [hjournal]
    exact history.written_of_mem_reports 0 [] hreport
  · exact ((history.inOrder_iff 0).2 hnot).le_getLast hnewest

/-- The first of two observers answers a write with another one. -/
def answering : Script :=
  .subscribe "A" .null (fun _ => .write (.set "x" (.string "new") .standard) fun _ => .done) <|
    .subscribe "B" .null (fun _ => .done) <|
      .write (.set "x" (.string "old") .standard) fun _ => .done

/-- What comes of it: the second observer hears of the answer first. -/
def answered : History :=
  .told (.keys [("x", .string "old")])
    (.called "A" .null
      (.told (.keys [("x", .string "new")])
        (.called "A" .null (.wrote .none .done) none (.called "B" .null .done none .done))
        .done) none
      (.called "B" .null .done none .done))
    .done

/-- An observer hears of the old value last. -/
theorem not_inOrder_answered :
    ∃ after, run 1 answering (ofConfig .standard (.plain .empty) true) = some (.finished, after) ∧
      after.journal = answered.entries 0 ∧ ¬ InOrder (answered.reports "B" 0) ∧
        (answered.reports "B" 0).getLast? = some (0, .keys [("x", .string "old")]) := by
  obtain ⟨after, hrun, hjournal⟩ : ∃ after,
      run 1 answering (ofConfig .standard (.plain .empty) true) = some (.finished, after) ∧
        after.journal = answered.entries 0 := ⟨_, rfl, rfl⟩
  refine ⟨after, hrun, hjournal, fun horder => ?_, rfl⟩
  have hiff := ((inOrder_iff_not_overtaken rfl hrun).2 answered hjournal "B").2.1
  refine hiff.1 horder (.inl (.inl ⟨rfl, ?_, ?_⟩))
  · exact .inl (.inl (.inr (.inl rfl)))
  · exact .inl rfl

end Observable

end Waymark.Store
