import LibidBridge.LabelledRuns

/-!
# What a run passes through

The states a run of a labelled system passes through between its ends, and runs
of one system followed in another.  A property passed stays passed however the
run goes on; a relation between two systems under which every step of the first
is matched by a run of the second carries whole runs over.
-/

namespace LibidBridge

variable {σ ε τ δ : Type*} {step : σ → ε → Option σ}

/-- A state that the run of these labels passes through has the property. -/
def Passes (step : σ → ε → Option σ) (start : σ) (labels : List ε) (property : σ → Prop) :
    Prop :=
  ∃ earlier later middle, labels = earlier ++ later ∧ run step start earlier = some middle ∧
    property middle

/-- A state that the run passes through has the first property, and it or a
later one the second. -/
def PassesThen (step : σ → ε → Option σ) (start : σ) (labels : List ε)
    (first second : σ → Prop) : Prop :=
  ∃ earlier later middle, labels = earlier ++ later ∧ run step start earlier = some middle ∧
    first middle ∧ Passes step middle later second

variable {start final : σ} {labels : List ε} {property first second : σ → Prop}

theorem passes_of_final (ran : run step start labels = some final) (holds : property final) :
    Passes step start labels property :=
  ⟨labels, [], final, (List.append_nil labels).symm, ran, holds⟩

theorem Passes.mono (passes : Passes step start labels first)
    (implies : ∀ state, first state → second state) : Passes step start labels second := by
  obtain ⟨earlier, later, middle, same, ran, holds⟩ := passes
  exact ⟨earlier, later, middle, same, ran, implies middle holds⟩

/-- What is passed from the second state on is passed from the first on. -/
theorem Passes.cons {label : ε} {next : σ} (stepped : step start label = some next)
    (passes : Passes step next labels property) :
    Passes step start (label :: labels) property := by
  obtain ⟨earlier, later, middle, rfl, ran, holds⟩ := passes
  refine ⟨label :: earlier, later, middle, rfl, ?_, holds⟩
  rw [run_cons, stepped]
  exact ran

theorem PassesThen.cons {label : ε} {next : σ} (stepped : step start label = some next)
    (passes : PassesThen step next labels first second) :
    PassesThen step start (label :: labels) first second := by
  obtain ⟨earlier, later, middle, rfl, ran, rest⟩ := passes
  refine ⟨label :: earlier, later, middle, rfl, ?_, rest⟩
  rw [run_cons, stepped]
  exact ran

theorem Passes.snoc (passes : Passes step start labels property) (label : ε) :
    Passes step start (labels ++ [label]) property := by
  obtain ⟨earlier, later, middle, rfl, ran, holds⟩ := passes
  exact ⟨earlier, later ++ [label], middle, List.append_assoc _ _ _, ran, holds⟩

theorem PassesThen.snoc (passes : PassesThen step start labels first second) (label : ε) :
    PassesThen step start (labels ++ [label]) first second := by
  obtain ⟨earlier, later, middle, rfl, ran, holds, rest⟩ := passes
  exact ⟨earlier, later ++ [label], middle, List.append_assoc _ _ _, ran, holds,
    rest.snoc label⟩

/-- What was passed, and then what holds where the run ends. -/
theorem Passes.then_final (passes : Passes step start labels first)
    (ran : run step start labels = some final) (holds : second final) :
    PassesThen step start labels first second := by
  obtain ⟨earlier, later, middle, rfl, before, passed⟩ := passes
  obtain ⟨same, reached, rest⟩ := run_append_eq_some.mp ran
  cases before.symm.trans reached
  exact ⟨earlier, later, middle, rfl, before, passed, passes_of_final rest holds⟩

/-- A property of the labels so far and the state they led to, kept by every step
that meets a condition, holds of every run whose steps all meet it. -/
theorem run_history_of_forall {invariant : List ε → σ → Prop} {meets : σ × ε × σ → Prop}
    (begins : invariant [] start)
    (kept : ∀ labels middle label next, run step start labels = some middle →
      invariant labels middle → meets (middle, label, next) → step middle label = some next →
        invariant (labels ++ [label]) next)
    (every : ∀ taken ∈ transitions step start labels, meets taken)
    (ran : run step start labels = some final) : invariant labels final := by
  induction labels using List.reverseRecOn generalizing final with
  | nil =>
      cases ran
      exact begins
  | append_singleton labels label ih =>
      obtain ⟨middle, before, stepped⟩ := run_snoc_eq_some.mp ran
      rw [transitions_snoc before stepped] at every
      have met := every (middle, label, final) (by simp)
      refine kept labels middle label final before (ih ?_ before) met stepped
      intro taken member
      exact every taken (List.mem_append_left _ member)

variable {target : τ → δ → Option τ} {related : σ → τ → Prop} {standsFor : σ → ε → List δ}

/-- The labels that the steps of a run stand for in another system. -/
def followed (step : σ → ε → Option σ) (standsFor : σ → ε → List δ) (start : σ)
    (labels : List ε) : List δ :=
  (transitions step start labels).flatMap fun taken => standsFor taken.1 taken.2.1

theorem followed_eq_flatMap {stands : ε → List δ} (ran : run step start labels = some final) :
    followed step (fun _ => stands) start labels = labels.flatMap stands := by
  induction labels generalizing start with
  | nil => rfl
  | cons label labels ih =>
      obtain ⟨next, stepped, rest⟩ := Option.bind_eq_some_iff.mp ran
      have followedRest := ih rest
      rw [followed] at followedRest ⊢
      rw [transitions_cons stepped, List.flatMap_cons, List.flatMap_cons, followedRest]

/-- A relation under which every step is matched by a run of what it stands for
relates the ends of whole runs. -/
theorem run_followed
    (matched : ∀ state label next other, related state other → step state label = some next →
      ∃ after, run target other (standsFor state label) = some after ∧ related next after)
    {other : τ} (holds : related start other) (ran : run step start labels = some final) :
    ∃ after, run target other (followed step standsFor start labels) = some after ∧
      related final after := by
  induction labels generalizing start other with
  | nil =>
      cases ran
      exact ⟨other, rfl, holds⟩
  | cons label labels ih =>
      obtain ⟨next, stepped, rest⟩ := Option.bind_eq_some_iff.mp ran
      obtain ⟨middle, entered, kept⟩ := matched start label next other holds stepped
      obtain ⟨after, followedRest, ends⟩ := ih kept rest
      refine ⟨after, ?_, ends⟩
      rw [followed, transitions_cons stepped, List.flatMap_cons]
      exact run_append_eq_some.mpr ⟨middle, entered, followedRest⟩

end LibidBridge
