import LibidBridge.Accounting
import LibidBridge.Sampling
import Mathlib.Algebra.Order.BigOperators.Group.List
import Mathlib.Algebra.Order.Ring.Nat

/-!
# What a scrape reads

The registry is rendered by reading its metrics one after another, in the order
they were registered in, while retrievals and requests go on and count.  What a
scrape collects need be of no one instant, and still adds up: no counter falls
from one scrape to the next, the failures by kind are short of the failed
retrievals by one at most, and the series a scrape can find are never more than
those named here.
-/

namespace LibidBridge

variable {crates : Crates}

/-- The outcomes a retrieval is counted under. -/
def OUTCOMES : List Text :=
  ["published".toList, "unchanged".toList, "failed".toList]

/-- The kinds a failed retrieval is counted under. -/
def KINDS : List Text :=
  ["unreachable".toList, "redirect".toList, "status".toList, "media".toList,
    "encoded".toList, "unasked-not-modified".toList, "too-large".toList, "not-utf8".toList,
    "artifact".toList]

/-- What a callback request is counted under. -/
def ANSWERS : List Text :=
  ["document".toList, "unavailable".toList]

/-- A metric as it is registered: the labels its series may carry, one without
text where it has no labels, and the series it has. -/
structure Registered where
  name : Text
  help : Text
  labels : List Text
  series : Metrics → Family

namespace Metrics

def REGISTRY_PREFIX : Text :=
  "libid_bridge".toList

def register (name help : Text) (labels : List Text) (series : Metrics → Family) :
    Registered :=
  ⟨REGISTRY_PREFIX ++ "_".toList ++ name, help, labels, series⟩

/-- Every metric, in the order it is registered in. -/
def registry : List Registered :=
  [register "artifact_retrievals".toList
      "Retrievals of the callback artifact, by how each ended".toList OUTCOMES retrievals,
    register "artifact_retrieval_failures".toList
      "Retrievals that produced no document, by why".toList KINDS failures,
    register "callback_requests".toList
      "Requests for the callback document, by what each was answered with".toList ANSWERS
      callbacks,
    register "callback_document_available".toList
      "Whether a callback document is available to serve".toList [[]]
      fun metrics => [([], metrics.available)],
    register "callback_document_published_timestamp_seconds".toList
      "When the served callback document was published".toList [[]]
      fun metrics => [([], metrics.publishedAt)]]

end Metrics

/-- What a series of a metric stands at; one that is not there yet is none. -/
def Registered.reading (registered : Registered) (label : Text) (metrics : Metrics) : Nat :=
  (registered.series metrics).get label

/-- The readings of a metric's series, in the order of its labels. -/
def Registered.readings (registered : Registered) : List (System → Nat) :=
  registered.labels.map fun label system => registered.reading label system.state.metrics

/-- What a scrape reads, one series after another. -/
def System.scrape : List (System → Nat) :=
  Metrics.registry.flatMap Registered.readings

/-- What one step can do to the metrics: nothing, one more of a label, or the
write of a gauge. -/
inductive Metered (before : Metrics) : Metrics → Prop
  | same : Metered before before
  | retrieval (label : Text) (listed : label ∈ OUTCOMES) : Metered before (before.count label)
  | failure (kind : Text) (listed : kind ∈ KINDS) :
      Metered before { before with failures := before.failures.inc kind }
  | callback (label : Text) (listed : label ∈ ANSWERS) :
      Metered before { before with callbacks := before.callbacks.inc label }
  | available : Metered before { before with available := 1 }
  | publishedAt (now : Nat) : Metered before { before with publishedAt := now }

theorem kind_mem_KINDS (error : FetchError) : error.kind ∈ KINDS := by
  have listed : ∀ index (inside : index < KINDS.length), KINDS.get ⟨index, inside⟩ ∈ KINDS :=
    fun index inside => List.get_mem KINDS ⟨index, inside⟩
  cases error with
  | unreachable => exact listed 0 (by decide)
  | redirect => exact listed 1 (by decide)
  | status => exact listed 2 (by decide)
  | media => exact listed 3 (by decide)
  | encoded => exact listed 4 (by decide)
  | unaskedNotModified => exact listed 5 (by decide)
  | tooLarge => exact listed 6 (by decide)
  | notUtf8 => exact listed 7 (by decide)
  | artifact => exact listed 8 (by decide)

namespace System

variable {refresher : Refresher} {system next final : System} {event : Event}

theorem metered_proceed {now : Nat} (proceeds : proceed crates refresher system now = some next) :
    Metered system.state.metrics next.state.metrics := by
  obtain ⟨state, refreshing, returned, handlers⟩ := system
  cases refreshing with
  | idle | awaiting | panicked => cases proceeds
  | comparing | replacing | clearing | recording =>
      cases proceeds
      exact .same
  | countingPublished | countingUnchanged | countingFailed =>
      cases proceeds
      exact .retrieval _ (by decide)
  | settingAvailable =>
      cases proceeds
      exact .available
  | settingPublishedAt =>
      cases proceeds
      exact .publishedAt now
  | countingKind error =>
      cases proceeds
      exact .failure error.kind (kind_mem_KINDS error)

theorem metered_advance {state after : AppState} {handler next : Handler}
    (advances : advance state handler = some (after, next)) :
    Metered state.metrics after.metrics := by
  rcases handler with _ | (_ | published) | _ | response <;> cases advances
  · exact .same
  · exact .callback _ (by decide)
  · exact .callback _ (by decide)
  · exact .same

theorem metered_step (stepped : step crates refresher system event = some next) :
    Metered system.state.metrics next.state.metrics := by
  cases steps_of_step stepped with
  | begin idle => exact .same
  | receive answer etag awaiting => exact .same
  | proceed now next proceeds => exact metered_proceed proceeds
  | arrive body => exact .same
  | advance index handler state after present advances => exact metered_advance advances

end System

/-- The series of a family: each label once, and only these. -/
structure Family.Bounded (labels : List Text) (family : Family) : Prop where
  nodup : (family.map Prod.fst).Nodup
  listed : ∀ label ∈ family.map Prod.fst, label ∈ labels

namespace Family

theorem labels_inc (family : Family) (label : Text) :
    (family.inc label).map Prod.fst =
      if label ∈ family.map Prod.fst then family.map Prod.fst
      else family.map Prod.fst ++ [label] := by
  induction family with
  | nil => rfl
  | cons entry family ih =>
      obtain ⟨first, count⟩ := entry
      by_cases same : first = label
      · simp [inc, same]
      · simp only [inc, same, if_false, List.map_cons, ih, List.mem_cons, Ne.symm same, false_or]
        split_ifs <;> rfl

theorem Bounded.inc {labels : List Text} {family : Family} (bounded : family.Bounded labels)
    {label : Text} (listed : label ∈ labels) : (family.inc label).Bounded labels := by
  constructor
  · rw [labels_inc]
    split_ifs with present
    · exact bounded.nodup
    · exact List.nodup_append.mpr ⟨bounded.nodup, List.nodup_singleton label, by
        rintro other member _ (_ | ⟨_, ⟨⟩⟩) rfl
        exact present member⟩
  · intro other member
    rw [labels_inc] at member
    split_ifs at member
    · exact bounded.listed other member
    · rcases List.mem_append.mp member with before | new
      · exact bounded.listed other before
      · rw [List.mem_singleton.mp new]
        exact listed

theorem Bounded.length_le {labels : List Text} {family : Family}
    (bounded : family.Bounded labels) : family.length ≤ labels.length := by
  have within := (List.subperm_of_subset bounded.nodup bounded.listed).length_le
  rwa [List.length_map] at within

/-- One more of a label adds one to the sum over labels that name it once. -/
theorem sum_get_inc (family : Family) (label : Text) (labels : List Text) :
    (labels.map (family.inc label).get).sum =
      (labels.map family.get).sum + labels.count label := by
  induction labels with
  | nil => rfl
  | cons first labels ih =>
      rw [List.map_cons, List.map_cons, List.sum_cons, List.sum_cons, ih, get_inc,
        List.count_cons]
      by_cases same : first = label
      · simp only [same, if_true, beq_self_eq_true]
        omega
      · simp only [same, if_false, beq_iff_eq]
        omega

end Family

theorem Metered.bounded {before after : Metrics} (metered : Metered before after)
    (bounded : ∀ registered ∈ Metrics.registry,
      (registered.series before).Bounded registered.labels) :
    ∀ registered ∈ Metrics.registry, (registered.series after).Bounded registered.labels := by
  simp only [Metrics.registry, List.forall_mem_cons] at bounded ⊢
  obtain ⟨retrievals, failures, callbacks, available, publishedAt, _⟩ := bounded
  cases metered with
  | same => exact ⟨retrievals, failures, callbacks, available, publishedAt, nofun⟩
  | retrieval label listed =>
      exact ⟨retrievals.inc listed, failures, callbacks, available, publishedAt, nofun⟩
  | failure kind listed =>
      exact ⟨retrievals, failures.inc listed, callbacks, available, publishedAt, nofun⟩
  | callback label listed =>
      exact ⟨retrievals, failures, callbacks.inc listed, available, publishedAt, nofun⟩
  | available | publishedAt now =>
      exact ⟨retrievals, failures, callbacks, ⟨available.nodup, available.listed⟩,
        ⟨publishedAt.nodup, publishedAt.listed⟩, nofun⟩

/-- However long the service runs and whatever it is sent, the series it
renders are at most one for each label named here. -/
theorem System.series_bounded {settings : Settings} {bridge : Bridge}
    (started : Bridge.start crates settings = .ok bridge) {events : List Event}
    {system : System}
    (ran : run (step crates bridge.refresher) (start bridge) events = some system) :
    (∀ registered ∈ Metrics.registry,
      (registered.series system.state.metrics).Bounded registered.labels) ∧
    (Metrics.registry.flatMap fun registered =>
      registered.series system.state.metrics).length ≤ 16 := by
  have bounded : ∀ registered ∈ Metrics.registry,
      (registered.series system.state.metrics).Bounded registered.labels := by
    apply @run_invariant _ _ _ (fun system : System => ∀ registered ∈ Metrics.registry,
      (registered.series system.state.metrics).Bounded registered.labels) _ _ _ _ _ ran
    · intro state event next bounded stepped
      exact (metered_step stepped).bounded bounded
    · obtain ⟨_, _, _, _, rfl⟩ := Bridge.start_eq_ok_iff.mp started
      simp only [Metrics.registry, List.forall_mem_cons]
      refine ⟨⟨List.nodup_nil, nofun⟩, ⟨List.nodup_nil, nofun⟩, ⟨List.nodup_nil, nofun⟩,
        ⟨List.nodup_singleton _, ?_⟩, ⟨List.nodup_singleton _, ?_⟩, nofun⟩ <;>
      · intro label member
        exact member
  refine ⟨bounded, ?_⟩
  have fits : ∀ registry : List Registered,
      (∀ registered ∈ registry,
        (registered.series system.state.metrics).Bounded registered.labels) →
      (registry.flatMap fun registered => registered.series system.state.metrics).length ≤
        (registry.flatMap Registered.labels).length := by
    intro registry bounded
    induction registry with
    | nil => exact le_refl _
    | cons registered registry ih =>
        rw [List.forall_mem_cons] at bounded
        simp only [List.flatMap_cons, List.length_append]
        exact Nat.add_le_add bounded.1.length_le (ih bounded.2)
  exact fits Metrics.registry bounded

theorem System.series_bounded_request :
    ∃ system, run (step Reference.crates Reference.bridge.refresher) (start Reference.bridge)
        [.arrive ⟨true⟩, .advance 0, .advance 0, .advance 0] = some system ∧
      (Metrics.registry.flatMap fun registered =>
        registered.series system.state.metrics).length ≤ 16 := by
  have ran : run (step Reference.crates Reference.bridge.refresher) (start Reference.bridge)
      [.arrive ⟨true⟩, .advance 0, .advance 0, .advance 0] = some _ := rfl
  exact ⟨_, ran, (series_bounded Reference.start_settings ran).2⟩

/-- The revalidation under way is counted and has not returned. -/
def Refreshing.counted : Refreshing → Bool
  | .settingAvailable | .settingPublishedAt | .countingKind _ | .recording _ => true
  | _ => false

/-- The revalidation under way is counted as failed, and not by its kind. -/
def Refreshing.unclassed : Refreshing → Bool
  | .countingKind _ => true
  | _ => false

def Metrics.completed (metrics : Metrics) : Nat :=
  (OUTCOMES.map metrics.retrievals.get).sum

def Metrics.classed (metrics : Metrics) : Nat :=
  (KINDS.map metrics.failures.get).sum

namespace System

/-- What the metrics add up to, between any two steps. -/
structure Accrues (system : System) : Prop where
  completed : system.state.metrics.completed =
    system.returned.length + if system.refreshing.counted then 1 else 0
  failed : system.state.metrics.retrievals.get "failed".toList =
    system.state.metrics.classed + if system.refreshing.unclassed then 1 else 0
  available : system.state.metrics.available ≤ 1
  published : system.state.metrics.available = 1 ∨
    system.state.metrics.retrievals.get "published".toList =
      if system.refreshing = .settingAvailable then 1 else 0

end System

theorem Metrics.completed_count (metrics : Metrics) {label : Text} (listed : label ∈ OUTCOMES) :
    (metrics.count label).completed = metrics.completed + 1 := by
  have once : OUTCOMES.count label = 1 := by
    refine List.count_eq_one_of_mem ?_ listed
    decide +kernel
  rw [completed, count, Family.sum_get_inc, once, completed]

theorem Metrics.classed_inc (metrics : Metrics) {kind : Text} (listed : kind ∈ KINDS) :
    ({ metrics with failures := metrics.failures.inc kind } : Metrics).classed =
      metrics.classed + 1 := by
  have once : KINDS.count kind = 1 := by
    refine List.count_eq_one_of_mem ?_ listed
    decide +kernel
  rw [classed, Family.sum_get_inc, once, classed]

theorem Metrics.get_count (metrics : Metrics) (label other : Text) :
    (metrics.count label).retrievals.get other =
      if other = label then metrics.retrievals.get other + 1
      else metrics.retrievals.get other :=
  Family.get_inc _ _ _

namespace System

variable {refresher : Refresher} {system next final : System} {event : Event}

theorem accrues_proceed {now : Nat} (accrues : system.Accrues)
    (proceeds : proceed crates refresher system now = some next) : next.Accrues := by
  have unlike : "failed".toList ≠ "published".toList ∧ "failed".toList ≠ "unchanged".toList ∧
      "published".toList ≠ "unchanged".toList := by decide +kernel
  obtain ⟨state, refreshing, returned, handlers⟩ := system
  obtain ⟨completed, failed, available, published⟩ := accrues
  dsimp only at completed failed available published
  cases refreshing with
  | idle | awaiting | panicked => cases proceeds
  | comparing document =>
      cases proceeds
      cases state.serves document <;> exact ⟨completed, failed, available, published⟩
  | replacing document | clearing =>
      cases proceeds
      exact ⟨completed, failed, available, published⟩
  | countingPublished =>
      cases proceeds
      constructor
      · simp only [Metrics.completed_count _ (.head _ : "published".toList ∈ OUTCOMES), completed]
        rfl
      · simp only [Metrics.get_count, if_neg unlike.1, failed]
        rfl
      · exact available
      · simp only [Metrics.get_count, if_true]
        rcases published with set | none
        · exact Or.inl set
        · exact Or.inr (congrArg (· + 1) none)
  | settingAvailable =>
      cases proceeds
      exact ⟨completed, failed, le_refl 1, Or.inl rfl⟩
  | settingPublishedAt =>
      cases proceeds
      constructor
      · rw [List.length_append]
        exact completed
      · exact failed
      · exact available
      · exact published
  | countingUnchanged =>
      cases proceeds
      constructor
      · rw [List.length_append]
        exact (Metrics.completed_count _ (.tail _ (.head _))).trans (congrArg (· + 1) completed)
      · simp only [Metrics.unchanged, Metrics.get_count, if_neg unlike.2.1, failed]
        rfl
      · exact available
      · simp only [Metrics.unchanged, Metrics.get_count, if_neg unlike.2.2]
        exact published
  | countingFailed error =>
      cases proceeds
      constructor
      · simp only [Metrics.completed_count _ (.tail _ (.tail _ (.head _)) :
          "failed".toList ∈ OUTCOMES), completed]
        rfl
      · simp only [Metrics.get_count, if_true, failed]
        rfl
      · exact available
      · simp only [Metrics.get_count, if_neg unlike.1.symm]
        exact published
  | countingKind error =>
      cases proceeds
      constructor
      · exact completed
      · simp only [Metrics.classed_inc _ (kind_mem_KINDS error), failed]
        rfl
      · exact available
      · exact published
  | recording error =>
      cases proceeds
      constructor
      · rw [List.length_append]
        exact completed
      · exact failed
      · exact available
      · exact published

theorem accrues_step (accrues : system.Accrues)
    (stepped : step crates refresher system event = some next) : next.Accrues := by
  obtain ⟨completed, failed, available, published⟩ := accrues
  cases steps_of_step stepped with
  | begin idle =>
      rw [idle] at completed failed published
      exact ⟨completed, failed, available, published⟩
  | receive answer etag awaiting =>
      rw [awaiting] at completed failed published
      have unwritten : ∀ answer, (received crates refresher etag answer).counted = false ∧
          (received crates refresher etag answer).unclassed = false ∧
          received crates refresher etag answer ≠ .settingAvailable := by
        intro answer
        unfold received
        split <;> exact ⟨rfl, rfl, nofun⟩
      obtain ⟨uncounted, classed, other⟩ := unwritten answer
      constructor
      · rw [uncounted]
        exact completed
      · rw [classed]
        exact failed
      · exact available
      · rw [if_neg other]
        exact published
  | proceed now next proceeds =>
      exact accrues_proceed ⟨completed, failed, available, published⟩ proceeds
  | arrive body => exact ⟨completed, failed, available, published⟩
  | advance index handler state after present advances =>
      rcases handler with _ | (_ | document) | _ | response <;> cases advances <;>
      exact ⟨completed, failed, available, published⟩

theorem Accrues.after {later : List Event} (accrues : system.Accrues)
    (ran : run (step crates refresher) system later = some final) : final.Accrues :=
  run_invariant (fun _ _ _ accrues stepped => accrues_step accrues stepped) accrues ran

theorem accrues_of_run {settings : Settings} {bridge : Bridge}
    (started : Bridge.start crates settings = .ok bridge) {events : List Event}
    (ran : run (step crates bridge.refresher) (start bridge) events = some system) :
    system.Accrues := by
  have begins : (start bridge).Accrues := by
    obtain ⟨_, _, _, _, rfl⟩ := Bridge.start_eq_ok_iff.mp started
    exact ⟨rfl, rfl, Nat.zero_le 1, Or.inr rfl⟩
  exact begins.after ran

/-- Every reading but the last, which is a time. -/
def counters : List (System → Nat) :=
  scrape.dropLast

theorem scrape_eq : scrape = counters ++ [fun system => system.state.metrics.publishedAt] :=
  rfl

/-- No step lowers what a counter stands at, or the gauge that says whether
there is a document. -/
theorem rises_step (accrues : system.Accrues)
    (stepped : step crates refresher system event = some next) {reading : System → Nat}
    (counter : reading ∈ counters) : reading system ≤ reading next := by
  have grows : ∀ (family : Family) label other,
      family.get other ≤ (family.inc label).get other := by
    intro family label other
    rw [Family.get_inc]
    split_ifs
    · exact Nat.le_succ _
    · exact le_refl _
  have read : ∃ registered ∈ Metrics.registry.take 4, ∃ label ∈ registered.labels,
      reading = fun system => registered.reading label system.state.metrics := by
    have spread : counters = (Metrics.registry.take 4).flatMap Registered.readings := rfl
    rw [spread] at counter
    obtain ⟨registered, present, member⟩ := List.mem_flatMap.mp counter
    obtain ⟨label, listed, rfl⟩ := List.mem_map.mp member
    exact ⟨registered, present, label, listed, rfl⟩
  obtain ⟨registered, present, label, listed, rfl⟩ := read
  have metered := metered_step stepped
  have atMost := accrues.available
  simp only [Registered.reading]
  generalize system.state.metrics = before at *
  generalize next.state.metrics = after at *
  simp only [Metrics.registry, List.take_succ_cons, List.take_zero, List.mem_cons,
    List.not_mem_nil, or_false] at present
  rcases present with rfl | rfl | rfl | rfl
  · cases metered with
    | retrieval counted _ => exact grows before.retrievals counted label
    | _ => exact le_refl _
  · cases metered with
    | failure counted _ => exact grows before.failures counted label
    | _ => exact le_refl _
  · cases metered with
    | callback counted _ => exact grows before.callbacks counted label
    | _ => exact le_refl _
  · cases metered with
    | available =>
        rw [List.mem_singleton.mp listed]
        exact atMost
    | _ => exact le_refl _

section Runs

variable {settings : Settings} {bridge : Bridge} {events later : List Event} {values : List Nat}

theorem exists_counters_of_scrape
    (scraped : Sampled (step crates refresher) system later scrape values) :
    ∃ counted time, values = counted ++ [time] ∧
      Sampled (step crates refresher) system later counters counted := by
  rw [scrape_eq] at scraped
  obtain ⟨before, after, middle, counted, rest, rfl, _, rfl, sampled, last⟩ :=
    scraped.exists_of_append
  obtain ⟨_, _, _, _, _, rfl⟩ := last.exists_of_singleton
  exact ⟨counted, _, rfl, sampled.extend after⟩

/-- No counter falls from one scrape to the next, nor the gauge that says
whether there is a document, whatever is counted while they are read. -/
theorem scrapes_rise (started : Bridge.start crates settings = .ok bridge)
    (ran : run (step crates bridge.refresher) (start bridge) events = some system)
    {middle : System} {first again : List Nat} {between : List Event}
    (ranBetween : run (step crates bridge.refresher) system between = some middle)
    (ranLater : run (step crates bridge.refresher) middle later = some final)
    (scraped : Sampled (step crates bridge.refresher) system between scrape first)
    (rescraped : Sampled (step crates bridge.refresher) middle later scrape again) :
    ∃ counted time recounted retime, first = counted ++ [time] ∧
      again = recounted ++ [retime] ∧
      List.Forall₂ (fun value next => value ≤ next) counted recounted := by
  obtain ⟨counted, time, rfl, sampled⟩ := exists_counters_of_scrape scraped
  obtain ⟨recounted, retime, rfl, resampled⟩ := exists_counters_of_scrape rescraped
  refine ⟨counted, time, recounted, retime, rfl, rfl, ?_⟩
  exact sampled.rises (fun _ _ _ accrues stepped => accrues_step accrues stepped) resampled
    (fun reading counter _ _ _ accrues stepped => rises_step accrues stepped counter)
    (accrues_of_run started ran) ranBetween ranLater

theorem length_returned_step (stepped : step crates refresher system event = some next) :
    system.returned.length ≤ next.returned.length := by
  rcases step_uncounted stepped with ⟨_, _, same⟩ | ⟨now, _, proceeds⟩
  · rw [same]
  · obtain ⟨_, ⟨_, same, _⟩ | ⟨_, outcome, same, _⟩⟩ := finish_proceed proceeds
    · rw [same]
    · rw [same, List.length_append]
      exact Nat.le_add_right _ _

theorem length_returned_of_run (ran : run (step crates refresher) system later = some final) :
    system.returned.length ≤ final.returned.length := by
  apply @run_invariant _ _ _ (fun final : System =>
    system.returned.length ≤ final.returned.length) _ _ _ _ (le_refl _) ran
  intro middle event next fewer stepped
  exact fewer.trans (length_returned_step stepped)

theorem available_le_of_run (accrues : system.Accrues)
    (ran : run (step crates refresher) system later = some final) :
    system.state.metrics.available ≤ final.state.metrics.available := by
  have counter : (fun system : System => system.state.metrics.available) ∈ counters :=
    List.mem_of_getLast? rfl
  exact rises_of_run (fun _ _ _ accrues stepped => accrues_step accrues stepped)
    (fun _ _ _ accrues stepped => rises_step accrues stepped counter) accrues ran

/-- What each part of a scrape reads is between what it stands at where the part
begins and where it ends. -/
theorem between_of_counters {readings : List (System → Nat)} (accrues : system.Accrues)
    (ranLater : run (step crates refresher) system later = some final)
    (sampled : Sampled (step crates refresher) system later readings values)
    (within : readings ⊆ counters) :
    List.Forall₂ (fun reading value => reading system ≤ value ∧ value ≤ reading final)
      readings values :=
  sampled.between (fun _ _ _ accrues stepped => accrues_step accrues stepped)
    (fun _ member _ _ _ accrues stepped => rises_step accrues stepped (within member))
    accrues ranLater

/-- The parts of a scrape: the outcomes are read first, then the kinds and the
answers, and then the gauge. -/
theorem exists_parts_of_counters (accrues : system.Accrues)
    (ranLater : run (step crates refresher) system later = some final)
    (sampled : Sampled (step crates refresher) system later counters values) :
    ∃ first last outcomes kinds answers early middle late,
      values = outcomes ++ kinds ++ answers ++ [last.state.metrics.available] ∧
      run (step crates refresher) system early = some first ∧
      run (step crates refresher) first middle = some last ∧
      run (step crates refresher) last late = some final ∧
      List.Forall₂ (fun label value => system.state.metrics.retrievals.get label ≤ value ∧
        value ≤ first.state.metrics.retrievals.get label) OUTCOMES outcomes ∧
      List.Forall₂ (fun kind value => first.state.metrics.failures.get kind ≤ value) KINDS kinds ∧
      answers.length = ANSWERS.length := by
  have parts : counters =
      OUTCOMES.map (fun label system => system.state.metrics.retrievals.get label) ++
        (KINDS.map (fun kind system => system.state.metrics.failures.get kind) ++
          (ANSWERS.map (fun label system => system.state.metrics.callbacks.get label) ++
            [fun system => system.state.metrics.available])) := rfl
  have rightPart : ∀ {front back : List (System → Nat)}, back ⊆ front ++ back :=
    fun {front back} => List.subset_append_right front back
  rw [parts] at sampled
  obtain ⟨early, _, first, outcomes, _, rfl, ranFirst, rfl, readOutcomes, sampled⟩ :=
    sampled.exists_of_append
  obtain ⟨toKinds, _, second, kinds, _, rfl, ranSecond, rfl, readKinds, sampled⟩ :=
    sampled.exists_of_append
  obtain ⟨toAnswers, _, third, answers, _, rfl, ranThird, rfl, readAnswers, sampled⟩ :=
    sampled.exists_of_append
  obtain ⟨toGauge, late, last, rfl, ranLast, rfl⟩ := sampled.exists_of_singleton
  have atFirst := accrues.after ranFirst
  have outcomesWithin := between_of_counters accrues ranFirst readOutcomes
    (parts ▸ List.subset_append_left _ _)
  have kindsWithin := between_of_counters atFirst ranSecond readKinds
    (parts ▸ List.Subset.trans (List.subset_append_left _ _) rightPart)
  have answersWithin := between_of_counters (atFirst.after ranSecond) ranThird
    readAnswers (parts ▸ List.Subset.trans
      (List.Subset.trans (List.subset_append_left _ _) rightPart) rightPart)
  rw [List.forall₂_map_left_iff] at outcomesWithin kindsWithin answersWithin
  refine ⟨first, last, outcomes, kinds, answers, early, toKinds ++ (toAnswers ++ toGauge), late,
    by simp, ranFirst, ?_, ?_, outcomesWithin, kindsWithin.imp fun _ _ within => within.1,
    answersWithin.length_eq.symm⟩
  · rw [run_append, ranSecond, Option.bind_some, run_append, ranThird, Option.bind_some, ranLast]
  · rw [run_append, ranFirst, Option.bind_some, run_append, ranSecond, Option.bind_some,
      run_append, ranThird, Option.bind_some, run_append, ranLast, Option.bind_some] at ranLater
    exact ranLater

/-- What a scrape collects adds up, though its values are of different
instants: the retrievals are no fewer than had returned when it began and at
most one more than had when it ended; the failed ones are at most one more than
the failures by kind; where two publications are read the gauge is set, and
where the gauge is a document is served from then on. -/
theorem scrape_adds_up (started : Bridge.start crates settings = .ok bridge)
    (ran : run (step crates bridge.refresher) (start bridge) events = some system)
    (ranLater : run (step crates bridge.refresher) system later = some final)
    (scraped : Sampled (step crates bridge.refresher) system later scrape values) :
    ∃ published unchanged failed kinds answers available time,
      values = [published, unchanged, failed] ++ kinds ++ answers ++ [available, time] ∧
      kinds.length = KINDS.length ∧ answers.length = ANSWERS.length ∧
      system.returned.length ≤ published + unchanged + failed ∧
      published + unchanged + failed ≤ final.returned.length + 1 ∧
      failed ≤ kinds.sum + 1 ∧ available ≤ 1 ∧ (2 ≤ published → available = 1) ∧
      (available = 1 → final.state.callback.isSome) := by
  have accrues := accrues_of_run started ran
  obtain ⟨counted, time, rfl, sampled⟩ := exists_counters_of_scrape scraped
  obtain ⟨first, last, outcomes, kinds, answers, early, middle, late, rfl, ranFirst, ranMiddle,
    ranLate, outcomesWithin, kindsWithin, answersLength⟩ :=
      exists_parts_of_counters accrues ranLater sampled
  have atFirst := accrues.after ranFirst
  have atLast := atFirst.after ranMiddle
  have kindsLength := kindsWithin.length_eq
  have kindsSum : first.state.metrics.classed ≤ kinds.sum :=
    List.Forall₂.sum_le_sum (List.forall₂_map_left_iff.mpr kindsWithin)
  have stays := available_le_of_run atFirst ranMiddle
  have returns : first.returned.length ≤ final.returned.length :=
    (length_returned_of_run ranMiddle).trans (length_returned_of_run ranLate)
  have served : last.state.metrics.available = 1 → final.state.callback.isSome := by
    intro set
    have reached := run_append_eq_some.mpr
      ⟨system, ran, run_append_eq_some.mpr ⟨first, ranFirst, ranMiddle⟩⟩
    exact isSome_callback_of_run ((availableServed_of_run started reached).available set) ranLate
  have begins := accrues.completed
  have counts := atFirst.completed
  have fails := atFirst.failed
  have publishes := atFirst.published
  have atMost := atLast.available
  simp only [Metrics.completed, OUTCOMES, List.map_cons, List.map_nil, List.sum_cons,
    List.sum_nil] at begins counts
  unfold OUTCOMES at outcomesWithin
  rcases outcomesWithin with _ | @⟨_, published, _, _, publishedWithin, _ |
    @⟨_, unchanged, _, _, unchangedWithin, _ | @⟨_, failed, _, _, failedWithin, _ | _⟩⟩⟩
  refine ⟨published, unchanged, failed, kinds, answers, _, time, by simp, kindsLength.symm,
    answersLength, ?_, ?_, ?_, atMost, ?_, served⟩
  · omega
  · split_ifs at counts <;> omega
  · split_ifs at fails <;> omega
  · intro twice
    split_ifs at publishes <;> omega

end Runs

/-- The first publication comes between the outcomes that a scrape reads and the
rest of it. -/
theorem exists_torn_scrape :
    ∃ final values, run (step Reference.crates Reference.bridge.refresher)
        (start Reference.bridge) Reference.earlyPublication = some final ∧
      Sampled (step Reference.crates Reference.bridge.refresher) (start Reference.bridge)
        Reference.earlyPublication scrape values ∧
      values = List.replicate 12 0 ++ [0, 1] ++ [1, 0] := by
  have reads : (run (step Reference.crates Reference.bridge.refresher) (start Reference.bridge)
      Reference.earlyPublication).any fun final =>
        ((scrape.take 3).map fun reading => reading (start Reference.bridge)) ++
          ((scrape.drop 3).map fun reading => reading final) =
            List.replicate 12 0 ++ [0, 1] ++ [1, 0] := by
    decide +kernel
  obtain ⟨final, ran, values⟩ := (Option.any_eq_true _ _).mp reads
  have sampled := Sampled.inParts ran (scrape.take 3) (scrape.drop 3)
  rw [List.take_append_drop] at sampled
  exact ⟨final, _, ran, sampled, of_decide_eq_true values⟩

theorem scrapes_rise_request :
    ∃ middle first again, run (step Reference.crates Reference.bridge.refresher)
        (start Reference.bridge) Reference.earlyPublication = some middle ∧
      first = List.replicate 12 0 ++ [0, 1] ++ [1, 0] ∧
      Sampled (step Reference.crates Reference.bridge.refresher) (start Reference.bridge)
        Reference.earlyPublication scrape first ∧
      Sampled (step Reference.crates Reference.bridge.refresher) middle [] scrape again ∧
      ∃ counted time recounted retime, first = counted ++ [time] ∧
        again = recounted ++ [retime] ∧
        List.Forall₂ (fun value next => value ≤ next) counted recounted := by
  obtain ⟨middle, first, ranBetween, scraped, values⟩ := exists_torn_scrape
  have ran : run (step Reference.crates Reference.bridge.refresher) (start Reference.bridge) [] =
      some _ := rfl
  exact ⟨middle, first, _, ranBetween, values, scraped, .atOnce _ _ _,
    scrapes_rise Reference.start_settings ran ranBetween (run_nil middle) scraped
      (.atOnce _ _ _)⟩

theorem scrape_adds_up_request :
    ∃ final values, run (step Reference.crates Reference.bridge.refresher)
        (start Reference.bridge) Reference.earlyPublication = some final ∧
      values = List.replicate 12 0 ++ [0, 1] ++ [1, 0] ∧
      Sampled (step Reference.crates Reference.bridge.refresher) (start Reference.bridge)
        Reference.earlyPublication scrape values ∧
      ∃ front available time, values = front ++ [available, time] ∧ available ≤ 1 ∧
        (available = 1 → final.state.callback.isSome) := by
  obtain ⟨final, values, ranLater, scraped, read⟩ := exists_torn_scrape
  have ran : run (step Reference.crates Reference.bridge.refresher) (start Reference.bridge) [] =
      some _ := rfl
  obtain ⟨_, _, _, _, _, available, time, same, _, _, _, _, _, atMost, _, served⟩ :=
    scrape_adds_up Reference.start_settings ran ranLater scraped
  exact ⟨final, values, ranLater, read, scraped, _, available, time, same, atMost, served⟩

end System

end LibidBridge
