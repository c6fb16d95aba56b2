import Waymark.Regex.Search
import Waymark.Proofs.Regex.Row
/-!
The texts that an expression matches, wherever they stand.

`Between text p w q` says that `w` stands in a text from one position to another. An expression
denotes a set of texts if its runs lead from a position to exactly those where one of them ends. Only
expressions that neither look around nor refer back can denote anything.
-/

namespace Waymark.Regex

/-- A text stands between two positions. -/
def Between (text : Array Char) : Nat → List Char → Nat → Prop
  | p, [], q => q = p
  | p, c :: w, q => text[p]? = some c ∧ Between text (p + 1) w q

section Between

variable {text : Array Char} {p q : Nat} {v w : List Char}

theorem between_append :
    Between text p (v ++ w) q ↔ ∃ m, Between text p v m ∧ Between text m w q := by
  induction v generalizing p with
  | nil =>
      constructor
      · exact fun h => ⟨p, rfl, h⟩
      · rintro ⟨m, rfl, h⟩
        exact h
  | cons c v ih =>
      constructor
      · rintro ⟨hc, h⟩
        obtain ⟨m, hm, hq⟩ := ih.1 h
        exact ⟨m, ⟨hc, hm⟩, hq⟩
      · rintro ⟨m, ⟨hc, hm⟩, hq⟩
        exact ⟨hc, ih.2 ⟨m, hm, hq⟩⟩

theorem Between.eq_add (h : Between text p w q) : q = p + w.length := by
  induction w generalizing p with
  | nil => exact h
  | cons c w ih =>
      rw [ih h.2, List.length_cons]
      omega

theorem Between.drop (h : Between text p w q) :
    text.toList.drop p = w ++ text.toList.drop q := by
  induction w generalizing p with
  | nil => rw [h, List.nil_append]
  | cons c w ih =>
      obtain ⟨hlt, hc⟩ := Array.getElem?_eq_some_iff.1 h.1
      rw [List.drop_eq_getElem_cons (by simpa using hlt), ih h.2]
      simp [hc]

theorem between_of_drop {rest : List Char} (h : text.toList.drop p = w ++ rest) :
    Between text p w (p + w.length) := by
  induction w generalizing p with
  | nil => rfl
  | cons c w ih =>
      have hlt : p < text.toList.length := by
        rw [← Nat.not_le]
        intro hle
        rw [List.drop_eq_nil_of_le hle] at h
        exact absurd h (by simp)
      rw [List.drop_eq_getElem_cons hlt, List.cons_append, List.cons.injEq] at h
      refine ⟨?_, ?_⟩
      · rw [← Array.getElem?_toList, List.getElem?_eq_getElem hlt, h.1]
      · rw [List.length_cons, Nat.add_comm w.length 1, ← Nat.add_assoc]
        exact ih h.2

/-- A text that stands between the ends of another one is that one. -/
theorem between_size : Between text 0 w text.size ↔ text.toList = w := by
  constructor
  · intro h
    have hdrop := h.drop
    rwa [List.drop_zero, List.drop_eq_nil_of_le (by simp), List.append_nil] at hdrop
  · intro h
    have hdrop : text.toList.drop 0 = w ++ [] := by simpa using h
    have hbetween := between_of_drop hdrop
    rw [← h] at hbetween ⊢
    simpa using hbetween

theorem Between.slice_eq (h : Between text p w q) : slice text p q = w := by
  rw [slice, h.drop, h.eq_add, Nat.add_sub_cancel_left, List.take_left]

end Between

namespace Expr

/-- The runs of an expression lead to where one of some texts ends. -/
def Denotes (expr : Expr) (language : List Char → Prop) : Prop :=
  ∀ (text : Array Char) (s : State) (q : Nat),
    (∃ t, expr.Runs text s t ∧ t.position = q) ↔ ∃ w, language w ∧ Between text s.position w q

/-- The runs of expressions in a row lead to where one of some texts ends. -/
def DenoteAll (items : List Expr) (language : List Char → Prop) : Prop :=
  ∀ (text : Array Char) (s : State) (q : Nat),
    (∃ t, RunsAll text items s t ∧ t.position = q) ↔ ∃ w, language w ∧ Between text s.position w q

/-- A text of one kind, and one of another kind after it. -/
def After (first second : List Char → Prop) (w : List Char) : Prop :=
  ∃ u v, w = u ++ v ∧ first u ∧ second v

/-- A number of texts of one kind, as many as a repetition may take. -/
def Repeated (least : Nat) (most : Option Nat) (once : List Char → Prop) (w : List Char) : Prop :=
  ∃ parts : List (List Char),
    Admits least most parts.length ∧ (∀ part ∈ parts, once part) ∧ w = parts.flatten

variable {language language' : List Char → Prop}

theorem Denotes.congr {expr : Expr} (h : expr.Denotes language)
    (hiff : ∀ w, language w ↔ language' w) : expr.Denotes language' := by
  intro text s q
  simp only [h text s q, hiff]

theorem DenoteAll.congr {items : List Expr} (h : DenoteAll items language)
    (hiff : ∀ w, language w ↔ language' w) : DenoteAll items language' := by
  intro text s q
  simp only [h text s q, hiff]

theorem denoteAll_nil : DenoteAll [] (· = []) := by
  intro text s q
  constructor
  · rintro ⟨t, rfl, rfl⟩
    exact ⟨[], rfl, rfl⟩
  · rintro ⟨w, rfl, hq⟩
    exact ⟨s, rfl, hq.symm⟩

theorem DenoteAll.append {items others : List Expr} (h : DenoteAll items language)
    (hothers : DenoteAll others language') :
    DenoteAll (items ++ others) (After language language') := by
  intro text s q
  constructor
  · rintro ⟨t, ht, hq⟩
    obtain ⟨m, hm, ht⟩ := runsAll_append.1 ht
    obtain ⟨u, hu, hfirst⟩ := (h text s m.position).1 ⟨m, hm, rfl⟩
    obtain ⟨v, hv, hsecond⟩ := (hothers text m q).1 ⟨t, ht, hq⟩
    exact ⟨u ++ v, ⟨u, v, rfl, hu, hv⟩, between_append.2 ⟨m.position, hfirst, hsecond⟩⟩
  · rintro ⟨_, ⟨u, v, rfl, hu, hv⟩, hbetween⟩
    obtain ⟨p, hfirst, hsecond⟩ := between_append.1 hbetween
    obtain ⟨m, hm, rfl⟩ := (h text s p).2 ⟨u, hu, hfirst⟩
    obtain ⟨t, ht, hq⟩ := (hothers text m q).2 ⟨v, hv, hsecond⟩
    exact ⟨t, runsAll_append.2 ⟨m, hm, ht⟩, hq⟩

theorem Denotes.all {item : Expr} (h : item.Denotes language) : DenoteAll [item] language := by
  intro text s q
  simp only [runsAll_singleton]
  exact h text s q

theorem DenoteAll.row {items : List Expr} (h : DenoteAll items language) :
    (row items).Denotes language := by
  intro text s q
  simp only [runs_row]
  exact h text s q

theorem denotes_empty : Expr.empty.Denotes (· = []) :=
  denoteAll_nil

theorem denotes_set (chars : CharSet) (caseless : Bool) :
    (Expr.set chars caseless).Denotes
      fun w => ∃ c, w = [c] ∧ chars.contains caseless c = true := by
  intro text s q
  constructor
  · rintro ⟨_, ⟨⟨c, hc, hmem⟩, rfl⟩, rfl⟩
    exact ⟨[c], ⟨c, rfl, hmem⟩, hc, rfl⟩
  · rintro ⟨_, ⟨c, rfl, hmem⟩, hc, rfl⟩
    exact ⟨s.moveTo (s.position + 1), ⟨⟨c, hc, hmem⟩, rfl⟩, rfl⟩

theorem Denotes.seq {first second : Expr} (hfirst : first.Denotes language)
    (hsecond : second.Denotes language') :
    (Expr.seq first second).Denotes (After language language') := by
  intro text s q
  rw [← hfirst.all.append hsecond.all text s q]
  simp only [runsAll_append, runsAll_singleton, Runs]

theorem Denotes.alt {first second : Expr} (hfirst : first.Denotes language)
    (hsecond : second.Denotes language') :
    (Expr.alt first second).Denotes fun w => language w ∨ language' w := by
  intro text s q
  simp only [Runs, or_and_right, exists_or, hfirst text s q, hsecond text s q]

theorem Denotes.group {body : Expr} (h : body.Denotes language) (index : Nat) :
    (Expr.group index body).Denotes language := by
  intro text s q
  rw [← h text s q]
  constructor
  · rintro ⟨_, ⟨m, hm, rfl⟩, rfl⟩
    exact ⟨m, hm, rfl⟩
  · rintro ⟨m, hm, rfl⟩
    exact ⟨m.capture index s.position, ⟨m, hm, rfl⟩, rfl⟩

/-- Runs of an expression one after the other match as many of its texts in a row. -/
theorem Denotes.repeats {body : Expr} (h : body.Denotes language) {text : Array Char}
    {count : Nat} {s : State} {q : Nat} :
    (∃ t, Repeats (body.Runs text) count s t ∧ t.position = q) ↔
      ∃ parts : List (List Char), parts.length = count ∧ (∀ part ∈ parts, language part) ∧
        Between text s.position parts.flatten q := by
  induction count generalizing s with
  | zero =>
      constructor
      · rintro ⟨_, ⟨⟩, rfl⟩
        exact ⟨[], rfl, fun _ hpart => absurd hpart List.not_mem_nil, rfl⟩
      · rintro ⟨parts, hlength, -, hbetween⟩
        rw [List.length_eq_zero_iff.1 hlength] at hbetween
        exact ⟨s, .zero s, hbetween.symm⟩
  | succ count ih =>
      constructor
      · rintro ⟨t, hrepeats, hq⟩
        cases hrepeats with
        | succ hfirst hrest =>
            obtain ⟨w, hw, hbetween⟩ := (h text s _).1 ⟨_, hfirst, rfl⟩
            obtain ⟨parts, hlength, hparts, hrest⟩ := ih.1 ⟨t, hrest, hq⟩
            refine ⟨w :: parts, congrArg Nat.succ hlength, ?_, between_append.2 ⟨_, hbetween, hrest⟩⟩
            exact List.forall_mem_cons.2 ⟨hw, hparts⟩
      · rintro ⟨parts, hlength, hparts, hbetween⟩
        obtain ⟨w, parts, rfl⟩ := List.exists_cons_of_length_eq_add_one hlength
        obtain ⟨hw, hparts⟩ := List.forall_mem_cons.1 hparts
        obtain ⟨p, hfirst, hrest⟩ := between_append.1 hbetween
        obtain ⟨m, hm, rfl⟩ := (h text s p).2 ⟨w, hw, hfirst⟩
        obtain ⟨t, ht, hq⟩ := ih.2 ⟨parts, Nat.succ.inj hlength, hparts, hrest⟩
        exact ⟨t, .succ hm ht, hq⟩

theorem Denotes.loop {body : Expr} (h : body.Denotes language) (least : Nat) (most : Option Nat)
    (greedy : Bool) : (Expr.loop body least most greedy).Denotes (Repeated least most language) := by
  intro text s q
  constructor
  · rintro ⟨t, ⟨count, hadmits, hrepeats⟩, hq⟩
    obtain ⟨parts, rfl, hparts, hbetween⟩ := h.repeats.1 ⟨t, hrepeats, hq⟩
    exact ⟨parts.flatten, ⟨parts, hadmits, hparts, rfl⟩, hbetween⟩
  · rintro ⟨_, ⟨parts, hadmits, hparts, rfl⟩, hbetween⟩
    obtain ⟨t, hrepeats, hq⟩ := h.repeats.2 ⟨parts, rfl, hparts, hbetween⟩
    exact ⟨t, ⟨parts.length, hadmits, hrepeats⟩, hq⟩

end Expr

end Waymark.Regex
