import Mathlib.Data.List.Induction
import Mathlib.Tactic.Common

/-!
# Runs of a labelled system

A system whose step is decided by a label, and refused where the label is not
enabled.  A run follows a list of labels.  The induction rules say that a
property kept by every step holds after every run, that a property of the
labels so far and the state they lead to holds wherever a run stops, and that
a run goes through where that property enables every label.
-/

namespace LibidBridge

variable {σ ε : Type*}

/-- The state after following labels in order, where each is enabled. -/
def run (step : σ → ε → Option σ) : σ → List ε → Option σ
  | state, [] => some state
  | state, label :: labels => (step state label).bind fun next => run step next labels

variable {step : σ → ε → Option σ}

@[simp]
theorem run_nil (state : σ) : run step state [] = some state :=
  rfl

@[simp]
theorem run_cons (state : σ) (label : ε) (labels : List ε) :
    run step state (label :: labels) =
      (step state label).bind fun next => run step next labels :=
  rfl

theorem run_append (state : σ) (first second : List ε) :
    run step state (first ++ second) =
      (run step state first).bind fun middle => run step middle second := by
  induction first generalizing state with
  | nil => rfl
  | cons label first ih =>
      cases stepped : step state label with
      | none => simp [stepped]
      | some next => simp [stepped, ih]

theorem run_append_eq_some {state final : σ} {first second : List ε} :
    run step state (first ++ second) = some final ↔
      ∃ middle, run step state first = some middle ∧
        run step middle second = some final := by
  rw [run_append, Option.bind_eq_some_iff]

theorem run_snoc_eq_some {state final : σ} {labels : List ε} {label : ε} :
    run step state (labels ++ [label]) = some final ↔
      ∃ middle, run step state labels = some middle ∧
        step middle label = some final := by
  simp [run_append_eq_some]

/-- A property kept by every step is kept by every run. -/
theorem run_invariant {invariant : σ → Prop}
    (kept : ∀ state label next, invariant state → step state label = some next →
      invariant next)
    {state final : σ} {labels : List ε} (holds : invariant state)
    (ran : run step state labels = some final) : invariant final := by
  induction labels generalizing state with
  | nil =>
      cases ran
      exact holds
  | cons label labels ih =>
      obtain ⟨next, stepped, rest⟩ := Option.bind_eq_some_iff.mp ran
      exact ih (kept state label next holds stepped) rest

/-- The same for a property of the labels so far and the state they led to. -/
theorem run_history {invariant : List ε → σ → Prop} {state : σ}
    (start : invariant [] state)
    (kept : ∀ labels middle label next, run step state labels = some middle →
      invariant labels middle → step middle label = some next →
      invariant (labels ++ [label]) next)
    {final : σ} {labels : List ε} (ran : run step state labels = some final) :
    invariant labels final := by
  induction labels using List.reverseRecOn generalizing final with
  | nil =>
      cases ran
      exact start
  | append_singleton labels label ih =>
      obtain ⟨middle, before, stepped⟩ := run_snoc_eq_some.mp ran
      exact kept labels middle label final before (ih before) stepped

/-- Where what holds so far enables every label, every run goes through. -/
theorem exists_run {invariant : List ε → σ → Prop} {state : σ}
    (start : invariant [] state)
    (kept : ∀ labels middle label next, run step state labels = some middle →
      invariant labels middle → step middle label = some next →
      invariant (labels ++ [label]) next)
    (enabled : ∀ labels middle label, invariant labels middle → (step middle label).isSome)
    (labels : List ε) : ∃ final, run step state labels = some final := by
  induction labels using List.reverseRecOn with
  | nil => exact ⟨state, rfl⟩
  | append_singleton labels label ih =>
      obtain ⟨middle, before⟩ := ih
      obtain ⟨final, stepped⟩ := Option.isSome_iff_exists.mp
        (enabled labels middle label (run_history start kept before))
      exact ⟨final, run_snoc_eq_some.mpr ⟨middle, before, stepped⟩⟩

/-- The steps a run consists of: where each label is followed, the label, and
where it leads. -/
def transitions (step : σ → ε → Option σ) : σ → List ε → List (σ × ε × σ)
  | _, [] => []
  | state, label :: labels =>
      match step state label with
      | none => []
      | some next => (state, label, next) :: transitions step next labels

theorem transitions_cons {state next : σ} {label : ε} (stepped : step state label = some next)
    (labels : List ε) :
    transitions step state (label :: labels) =
      (state, label, next) :: transitions step next labels := by
  rw [transitions, stepped]

theorem transitions_snoc {state middle final : σ} {labels : List ε} {label : ε}
    (before : run step state labels = some middle) (stepped : step middle label = some final) :
    transitions step state (labels ++ [label]) =
      transitions step state labels ++ [(middle, label, final)] := by
  induction labels generalizing state with
  | nil =>
      cases before
      exact transitions_cons stepped []
  | cons first labels ih =>
      obtain ⟨next, entered, rest⟩ := Option.bind_eq_some_iff.mp before
      rw [List.cons_append, transitions_cons entered, transitions_cons entered, ih rest,
        List.cons_append]

theorem label_mem_of_mem_transitions {state : σ} {labels : List ε} {taken : σ × ε × σ}
    (member : taken ∈ transitions step state labels) : taken.2.1 ∈ labels := by
  induction labels generalizing state with
  | nil => cases member
  | cons label labels ih =>
      unfold transitions at member
      split at member
      · cases member
      · rcases List.mem_cons.mp member with rfl | later
        · exact List.mem_cons_self
        · exact List.mem_cons_of_mem _ (ih later)

/-- A property kept by every step that meets a condition is kept by every run
whose steps all meet it. -/
theorem run_invariant_of_forall {invariant : σ → Prop} {meets : σ → ε → Prop}
    (kept : ∀ state label next, meets state label → invariant state →
      step state label = some next → invariant next)
    {state final : σ} {labels : List ε}
    (every : ∀ taken ∈ transitions step state labels, meets taken.1 taken.2.1)
    (holds : invariant state) (ran : run step state labels = some final) :
    invariant final := by
  induction labels generalizing state with
  | nil =>
      cases ran
      exact holds
  | cons label labels ih =>
      obtain ⟨next, stepped, rest⟩ := Option.bind_eq_some_iff.mp ran
      rw [transitions_cons stepped, List.forall_mem_cons] at every
      exact ih every.2 (kept state label next every.1 holds stepped) rest

end LibidBridge
