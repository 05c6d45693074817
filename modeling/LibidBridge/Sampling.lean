import LibidBridge.Histories
import Mathlib.Data.List.Forall2
import Mathlib.Order.Basic

/-!
# Values read while a system runs

A reader that takes several values one after another, each from the state it
finds, while the system goes on in between.  What it collects may be of no one
state.  Readings that no step lowers are each between what they are where the
reading starts and where it ends, and never fall from one reading to the next.
-/

namespace LibidBridge

variable {σ ε β : Type*}

/-- Values that readings give when they are taken in order while these labels
are followed. -/
inductive Sampled (step : σ → ε → Option σ) : σ → List ε → List (σ → β) → List β → Prop
  | done (state : σ) (labels : List ε) : Sampled step state labels [] []
  | read {state : σ} {labels : List ε} {readings : List (σ → β)} {values : List β}
      (reading : σ → β) (rest : Sampled step state labels readings values) :
      Sampled step state labels (reading :: readings) (reading state :: values)
  | wait {state next : σ} {label : ε} {labels : List ε} {readings : List (σ → β)}
      {values : List β} (stepped : step state label = some next)
      (rest : Sampled step next labels readings values) :
      Sampled step state (label :: labels) readings values

variable {step : σ → ε → Option σ} {start final : σ} {labels : List ε}
  {readings first second : List (σ → β)} {values : List β}

/-- Readings taken in two parts: the second from a state the run passes
through. -/
theorem Sampled.exists_of_append
    (sampled : Sampled step start labels (first ++ second) values) :
    ∃ earlier later middle taken rest, labels = earlier ++ later ∧
      run step start earlier = some middle ∧ values = taken ++ rest ∧
      Sampled step start earlier first taken ∧ Sampled step middle later second rest := by
  generalize whole : first ++ second = readings at sampled
  induction sampled generalizing first with
  | done state labels =>
      obtain ⟨rfl, rfl⟩ := List.append_eq_nil_iff.mp whole
      exact ⟨[], labels, state, [], [], rfl, rfl, rfl, .done _ _, .done _ _⟩
  | @read state labels readings values reading rest ih =>
      cases first with
      | nil =>
          subst whole
          exact ⟨[], labels, state, [], _, rfl, rfl, rfl, .done _ _, .read reading rest⟩
      | cons given first =>
          obtain ⟨rfl, same⟩ := List.cons.inj whole
          obtain ⟨earlier, later, middle, taken, left, split, ran, joined, before, after⟩ := ih same
          exact ⟨earlier, later, middle, given state :: taken, left, split, ran,
            congrArg _ joined, .read given before, after⟩
  | @wait state next label labels readings values stepped rest ih =>
      cases first with
      | nil =>
          subst whole
          exact ⟨[], label :: labels, state, [], _, rfl, rfl, rfl, .done _ _, .wait stepped rest⟩
      | cons given first =>
          obtain ⟨earlier, later, middle, taken, left, rfl, ran, joined, before, after⟩ := ih whole
          refine ⟨label :: earlier, later, middle, taken, left, rfl, ?_, joined,
            .wait stepped before, after⟩
          rw [run_cons, stepped]
          exact ran

/-- What was taken stays taken however the run goes on. -/
theorem Sampled.extend (sampled : Sampled step start labels readings values) (later : List ε) :
    Sampled step start (labels ++ later) readings values := by
  induction sampled with
  | done state labels => exact .done state _
  | read reading rest ih => exact .read reading ih
  | wait stepped rest ih => exact .wait stepped ih

/-- All readings may be taken of one state. -/
theorem Sampled.atOnce (state : σ) (labels : List ε) (readings : List (σ → β)) :
    Sampled step state labels readings (readings.map fun reading => reading state) := by
  induction readings with
  | nil => exact .done state labels
  | cons reading readings ih => exact .read reading ih

/-- A first part of the readings may be taken where the run starts, and the rest
where it ends. -/
theorem Sampled.inParts (ran : run step start labels = some final)
    (first second : List (σ → β)) :
    Sampled step start labels (first ++ second)
      ((first.map fun reading => reading start) ++ second.map fun reading => reading final) := by
  induction first with
  | nil =>
      induction labels generalizing start with
      | nil =>
          cases ran
          exact .atOnce _ [] second
      | cons label labels ih =>
          obtain ⟨next, stepped, rest⟩ := Option.bind_eq_some_iff.mp ran
          exact .wait stepped (ih rest)
  | cons reading first ih => exact .read reading ih

theorem Sampled.eq_nil (sampled : Sampled step start labels [] values) : values = [] := by
  generalize none : ([] : List (σ → β)) = readings at sampled
  induction sampled with
  | done state labels => rfl
  | read reading rest ih => cases none
  | wait stepped rest ih => exact ih none

/-- One reading gives what it is in a state the run passes through. -/
theorem Sampled.exists_of_singleton {reading : σ → β}
    (sampled : Sampled step start labels [reading] values) :
    ∃ earlier later middle, labels = earlier ++ later ∧ run step start earlier = some middle ∧
      values = [reading middle] := by
  generalize one : [reading] = readings at sampled
  induction sampled with
  | done state labels => cases one
  | @read state labels readings values given rest ih =>
      cases one
      rw [rest.eq_nil]
      exact ⟨[], labels, state, rfl, rfl, rfl⟩
  | @wait state next label labels readings values stepped rest ih =>
      obtain ⟨earlier, later, middle, rfl, ran, same⟩ := ih one
      refine ⟨label :: earlier, later, middle, rfl, ?_, same⟩
      rw [run_cons, stepped]
      exact ran

section Rising

variable [Preorder β] {invariant : σ → Prop}
  (kept : ∀ state label next, invariant state → step state label = some next → invariant next)

include kept

theorem rises_of_run {reading : σ → β}
    (rises : ∀ state label next, invariant state → step state label = some next →
      reading state ≤ reading next)
    (holds : invariant start) (ran : run step start labels = some final) :
    reading start ≤ reading final := by
  have both : invariant final ∧ reading start ≤ reading final := by
    apply @run_invariant _ _ step (fun state => invariant state ∧ reading start ≤ reading state)
      _ _ _ _ ⟨holds, le_refl _⟩ ran
    rintro state label next ⟨holds, below⟩ stepped
    exact ⟨kept state label next holds stepped,
      below.trans (rises state label next holds stepped)⟩
  exact both.2

/-- Each value is between what its reading is where the run starts and where it
ends. -/
theorem Sampled.between (sampled : Sampled step start labels readings values)
    (rises : ∀ reading ∈ readings, ∀ state label next, invariant state →
      step state label = some next → reading state ≤ reading next)
    (holds : invariant start) (ran : run step start labels = some final) :
    List.Forall₂ (fun reading value => reading start ≤ value ∧ value ≤ reading final)
      readings values := by
  induction sampled with
  | done state labels => exact .nil
  | @read state labels readings values reading rest ih =>
      obtain ⟨first, later⟩ := List.forall_mem_cons.mp rises
      exact .cons ⟨le_refl _, rises_of_run kept first holds ran⟩ (ih later holds ran)
  | @wait state next label labels readings values stepped rest ih =>
      obtain ⟨middle, entered, ranRest⟩ := Option.bind_eq_some_iff.mp ran
      cases stepped.symm.trans entered
      have within := ih rises (kept _ _ _ holds stepped) ranRest
      refine ((List.forall₂_and_left _ _).mpr ⟨rises, within⟩).imp ?_
      rintro reading value ⟨rises, above, below⟩
      exact ⟨(rises _ _ _ holds stepped).trans above, below⟩

/-- No value falls from one time the readings are taken to the next. -/
theorem Sampled.rises {later : List ε} {middle : σ} {again : List β}
    (sampled : Sampled step start labels readings values)
    (resampled : Sampled step middle later readings again)
    (rises : ∀ reading ∈ readings, ∀ state label next, invariant state →
      step state label = some next → reading state ≤ reading next)
    (holds : invariant start) (ran : run step start labels = some middle)
    (ranLater : run step middle later = some final) :
    List.Forall₂ (fun value next => value ≤ next) values again := by
  have before := sampled.between kept rises holds ran
  have after := resampled.between kept rises (run_invariant kept holds ran) ranLater
  clear sampled resampled rises
  induction before generalizing again with
  | nil =>
      cases after
      exact .nil
  | cons within _ ih =>
      cases after with
      | cons next rest => exact .cons (within.2.trans next.1) (ih rest)

end Rising

end LibidBridge
