/-
**Runs: what holds along every sequence of steps of a transition system.**
-/

import Mathlib.Data.List.Basic

namespace EthosContracts.Lib

open List

/-- One step of a run. -/
structure Event (σ ι : Type) where
  before : σ
  input : ι
  after : σ

variable {α : Type} {items : List α} {last : α}

theorem forall_mem_concat {P : α → Prop} :
    (∀ item ∈ items ++ [last], P item) ↔ (∀ item ∈ items, P item) ∧ P last := by
  rw [forall_mem_append, forall_mem_singleton]

/-- The system went from `start` to `s`; the history lists the steps, each with the states before
and after it. -/
inductive Run {σ ι : Type} (step : σ → ι → σ → Prop) (start : σ) : List (Event σ ι) → σ → Prop
  | nil : Run step start [] start
  | snoc {history} {s t : σ} {input : ι} (run : Run step start history s)
      (stepped : step s input t) :
      Run step start (history ++ [⟨s, input, t⟩]) t

namespace Run

variable {σ ι : Type} {step : σ → ι → σ → Prop} {start s : σ} {history : List (Event σ ι)}

theorem stepped (run : Run step start history s) :
    ∀ event ∈ history, step event.before event.input event.after := by
  induction run with
  | nil => simp
  | snoc _ stepped ih =>
    exact forall_mem_concat.mpr ⟨ih, stepped⟩

theorem invariant (inv : σ → Prop) (allowed : σ → ι → Prop) (run : Run step start history s)
    (initial : inv start)
    (kept : ∀ s input t, inv s → allowed s input → step s input t → inv t)
    (all : ∀ event ∈ history, allowed event.before event.input) : inv s := by
  induction run with
  | nil => exact initial
  | snoc _ stepped ih =>
    obtain ⟨before, last⟩ := forall_mem_concat.mp all
    exact kept _ _ _ (ih before) last stepped

theorem invariant_before (inv : σ → Prop) (allowed : σ → ι → Prop)
    (run : Run step start history s) (initial : inv start)
    (kept : ∀ s input t, inv s → allowed s input → step s input t → inv t)
    (all : ∀ event ∈ history, allowed event.before event.input) :
    ∀ event ∈ history, inv event.before := by
  induction run with
  | nil => simp
  | snoc run _ ih =>
    have before := (forall_mem_concat.mp all).1
    exact forall_mem_concat.mpr ⟨ih before, run.invariant inv allowed initial kept before⟩

/-- **The invariant rule for what the history explains**: a property of the state together with the
events that led to it. -/
theorem history_invariant (inv : List (Event σ ι) → σ → Prop) (run : Run step start history s)
    (initial : inv [] start)
    (kept : ∀ history s input t, Run step start history s → inv history s → step s input t →
      inv (history ++ [⟨s, input, t⟩]) t) : inv history s := by
  induction run with
  | nil => exact initial
  | snoc run stepped ih => exact kept _ _ _ _ run ih stepped

variable {later : List (Event σ ι)} {event : Event σ ι}

theorem append {middle : σ} (first : Run step start history middle)
    (second : Run step middle later s) : Run step start (history ++ later) s := by
  induction second with
  | nil =>
    rw [append_nil]
    exact first
  | snoc _ stepped ih =>
    rw [← append_assoc]
    exact ih.snoc stepped

/-! ### Taking a run apart -/

theorem single (stepped : step event.before event.input event.after) :
    Run step event.before [event] event.after :=
  Run.snoc .nil stepped

theorem eq_start (run : Run step start [] s) : s = start := by
  generalize empty : ([] : List (Event σ ι)) = history at run
  cases run with
  | nil => rfl
  | snoc => simp at empty

/-- A run taken apart at a point of its history. -/
theorem split (run : Run step start history s) : ∀ earlier later, history = earlier ++ later →
    ∃ middle, Run step start earlier middle ∧ Run step middle later s := by
  induction run with
  | nil =>
    intro earlier later whole
    obtain ⟨rfl, rfl⟩ := append_eq_nil_iff.mp whole.symm
    exact ⟨start, .nil, .nil⟩
  | @snoc front s t input run stepped ih =>
    intro earlier later whole
    rcases eq_nil_or_concat' later with rfl | ⟨before, last, rfl⟩
    · rw [append_nil] at whole
      rw [← whole]
      exact ⟨t, run.snoc stepped, .nil⟩
    · rw [← append_assoc] at whole
      obtain ⟨same, final⟩ := append_inj' whole rfl
      obtain rfl := (singleton_inj.mp final).symm
      obtain ⟨middle, first, second⟩ := ih earlier before same
      exact ⟨middle, first, second.snoc stepped⟩

/-- The first step of a run. -/
theorem uncons (run : Run step start (event :: later) s) :
    start = event.before ∧ step event.before event.input event.after ∧
      Run step event.after later s := by
  obtain ⟨middle, first, second⟩ := run.split [event] later rfl
  generalize whole : [event] = front at first
  cases first with
  | nil => cases whole
  | @snoc before r t input prior stepped =>
    have joined : [] ++ [event] = before ++ [⟨r, input, middle⟩] := whole
    obtain ⟨rfl, final⟩ := append_inj' joined rfl
    obtain rfl := singleton_inj.mp final
    obtain rfl := prior.eq_start
    exact ⟨rfl, stepped, second⟩

theorem at_split (run : Run step start history s) {earlier : List (Event σ ι)}
    (whole : history = earlier ++ event :: later) :
    Run step start earlier event.before ∧ step event.before event.input event.after ∧
      Run step event.after later s := by
  obtain ⟨middle, first, second⟩ := run.split earlier (event :: later) whole
  obtain ⟨rfl, stepped, third⟩ := second.uncons
  exact ⟨first, stepped, third⟩

/-- A run taken apart at one of its events. -/
theorem at_event (run : Run step start history s) (member : event ∈ history) :
    ∃ earlier later, history = earlier ++ event :: later ∧ Run step start earlier event.before ∧
      step event.before event.input event.after ∧ Run step event.after later s := by
  obtain ⟨earlier, later, whole⟩ := append_of_mem member
  exact ⟨earlier, later, whole, run.at_split whole⟩

/-- **A condition on the events of a run and what went before them**, where the run up to an event
gives its meaning. -/
theorem forall_split_iff {kind condition : Event σ ι → Prop}
    {P : List (Event σ ι) → Event σ ι → Prop}
    (run : Run step start history s)
    (each : ∀ earlier event, Run step start earlier event.before →
      step event.before event.input event.after → kind event → (P earlier event ↔ condition event)) :
    (∀ earlier event later, history = earlier ++ event :: later → kind event → P earlier event) ↔
      ∀ event ∈ history, kind event → condition event := by
  constructor
  · intro all event member isKind
    obtain ⟨earlier, later, whole, before, stepped, -⟩ := run.at_event member
    exact (each earlier event before stepped isKind).mp (all earlier event later whole isKind)
  · intro all earlier event later whole isKind
    obtain ⟨before, stepped, -⟩ := run.at_split whole
    have member : event ∈ history := by simp [whole]
    exact (each earlier event before stepped isKind).mpr (all event member isKind)

theorem between_iff {R : σ → σ → Prop} (refl : ∀ s, R s s) (trans : ∀ s t u, R s t → R t u → R s u)
    (run : Run step start history s) :
    (∀ earlier middle later s t, history = earlier ++ middle ++ later → Run step start earlier s →
      Run step s middle t → R s t) ↔ ∀ event ∈ history, R event.before event.after := by
  constructor
  · intro between event member
    obtain ⟨earlier, later, whole, before, stepped, -⟩ := run.at_event member
    refine between earlier [event] later _ _ ?_ before (.single stepped)
    rw [whole, append_assoc, singleton_append]
  · intro each earlier middle later s t whole _ second
    have along : (∀ event ∈ middle, R event.before event.after) → R s t := by
      refine second.history_invariant
        (fun middle t => (∀ event ∈ middle, R event.before event.after) → R s t) (fun _ => refl s) ?_
      intro front r _ u _ ih _ all
      obtain ⟨before, last⟩ := forall_mem_concat.mp all
      exact trans s r u (ih before) last
    refine along fun event member => each event ?_
    rw [whole]
    exact mem_append_left _ (mem_append_right _ member)

theorem lasting {R : σ → σ → Prop} (trans : ∀ s t u, R s t → R t u → R s u)
    (run : Run step start history s) (each : ∀ event ∈ history, R event.before event.after) :
    ∀ event ∈ history, R event.before s := by
  induction run with
  | nil => exact forall_mem_nil _
  | snoc _ _ ih =>
    obtain ⟨earlier, last⟩ := forall_mem_concat.mp each
    refine forall_mem_concat.mpr ⟨fun event member => ?_, last⟩
    exact trans _ _ _ (ih earlier event member) last

end Run

theorem concat_eq_split {before after : List α} {item : α} :
    items ++ [last] = before ++ item :: after ↔ (items = before ∧ last = item ∧ after = []) ∨
      ∃ front, after = front ++ [last] ∧ items = before ++ item :: front := by
  rcases eq_nil_or_concat' after with rfl | ⟨front, final, rfl⟩
  · simp
  · constructor
    · intro whole
      rw [← cons_append, ← append_assoc] at whole
      obtain ⟨same, last⟩ := append_inj' whole rfl
      exact .inr ⟨front, by rw [last], same⟩
    · rintro (⟨-, -, none⟩ | ⟨others, same, rfl⟩)
      · simp at none
      · simp [same]

theorem forall_split_concat (P : List α → α → Prop) (items : List α) (last : α) :
    (∀ before item after, items ++ [last] = before ++ item :: after → P before item) ↔
      (∀ before item after, items = before ++ item :: after → P before item) ∧ P items last := by
  constructor
  · intro all
    refine ⟨fun before item after whole => all before item (after ++ [last]) ?_, all _ _ [] rfl⟩
    exact concat_eq_split.mpr (.inr ⟨after, rfl, whole⟩)
  · intro ⟨earlier, here⟩ before item after whole
    rcases concat_eq_split.mp whole with ⟨rfl, rfl, -⟩ | ⟨front, -, whole⟩
    · exact here
    · exact earlier before item front whole

end EthosContracts.Lib
