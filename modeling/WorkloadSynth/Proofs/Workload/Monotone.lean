import WorkloadSynth.Proofs.Workload.Raise

/-!
# Labels follow usage

A label is made of sums, products by factors that are not negative, maxima and clamps, and each of them keeps
the order of what it is made from, in rounded arithmetic too: a sum that overflows is above all others, and
the mean of so many values that their number is infinite is a zero.  The lower end of the clamp of a limit is
the request, which moves with the usage as well (`SizingPolicy.allocate_mono`).  Of an episode a label only
tells that there is one, and that in its confidence (`SizingPolicy.label_episode`).
-/

set_option autoImplicit false

namespace WorkloadSynth

open Binary64 (Within)

/-! ## Means -/

namespace Stats

theorem foldl_add_mono {xs ys : List Float} (h : List.Forall₂ Lifts xs ys) {x y : Float}
    (hx : Within 0.0 9007199254740992.0 x) (hy : Within 0.0 9007199254740992.0 y) (hxy : x ≤ y) :
    Within 0.0 9007199254740992.0 (xs.foldl (· + ·) x) ∧ Within 0.0 9007199254740992.0 (ys.foldl (· + ·) y) ∧
      xs.foldl (· + ·) x ≤ ys.foldl (· + ·) y := by
  induction h generalizing x y with
  | nil => exact ⟨hx, hy, hxy⟩
  | @cons v w vs ws hvw _ ih =>
      have hv := hvw.within_left
      have hw := hvw.within_right
      exact ih (hx.add hv (by decide)) (hy.add hw (by decide))
        (Binary64.add_mono hx.isFinite hy.isFinite hv.isFinite hw.isFinite hxy hvw.2.1)

theorem mean_mono {xs ys : List Float} (h : List.Forall₂ Lifts xs ys) : mean xs ≤ mean ys := by
  have hcount := h.length_eq
  have hstart : Within 0.0 9007199254740992.0 (-0.0) := by decide
  obtain ⟨hx, hy, hsum⟩ := foldl_add_mono h hstart hstart hstart.defined
  cases h with
  | nil => decide
  | @cons v w vs ws _ _ =>
      have hone : (1.0 : Float) ≤ Binary64.ofNat (v :: vs).length := Binary64.one_le_ofNat (Nat.succ_pos _)
      have hmeans := Binary64.div_mono_left hx.isFinite hy.isFinite hsum
        (Scalar.lt_of_lt_of_le (by decide) hone)
      simp only [mean, sum, List.isEmpty_cons, Bool.false_eq_true, if_false, ← hcount]
      exact hmeans

end Stats

/-! ## More usage -/

structure Usage.AtMost (u v : Usage Float) : Prop where
  cpuMedian : u.cpu.p50 ≤ v.cpu.p50
  cpuTail : u.cpu.p99 ≤ v.cpu.p99
  memoryMedian : u.memory.p50 ≤ v.memory.p50
  memoryTail : u.memory.p99 ≤ v.memory.p99

structure Recommendation.AtMost (l l' : Recommendation Float) : Prop where
  cpuRequest : l.cpu.request ≤ l'.cpu.request
  cpuLimit : l.cpu.limit ≤ l'.cpu.limit
  memoryRequest : l.memory.request ≤ l'.memory.request
  memoryLimit : l.memory.limit ≤ l'.memory.limit

structure Usage.Lifted (u v : Usage Float) : Prop where
  cpuMedian : Lifts u.cpu.p50 v.cpu.p50
  cpuTail : Lifts u.cpu.p99 v.cpu.p99
  memoryMedian : Lifts u.memory.p50 v.memory.p50
  memoryTail : Lifts u.memory.p99 v.memory.p99

theorem Usage.AtMost.lifted {u v : Usage Float} (h : u.AtMost v) (hu : u.WellFormed) (hv : v.WellFormed) :
    u.Lifted v :=
  ⟨⟨hu.1.1, h.cpuMedian, hv.1.2.1⟩, ⟨hu.1.tail_nonneg, h.cpuTail, hv.1.2.2.2.2⟩,
    ⟨hu.2.1.1, h.memoryMedian, hv.2.1.2.1⟩, ⟨hu.2.1.tail_nonneg, h.memoryTail, hv.2.1.2.2.2.2⟩⟩

theorem Usage.forall₂_lifted {steps steps' : List (Usage Float)} (h : ∀ u ∈ steps, u.WellFormed)
    (h' : ∀ u ∈ steps', u.WellFormed) (hmost : List.Forall₂ AtMost steps steps') :
    List.Forall₂ Lifted steps steps' := by
  have hright : List.Forall₂ (fun u v => WellFormed v ∧ AtMost u v) steps steps' :=
    ((List.forall₂_and_left _ _).mpr ⟨h', hmost.flip⟩).flip
  exact ((List.forall₂_and_left _ _).mpr ⟨h, hright⟩).imp fun u v ⟨hu, hv, huv⟩ => huv.lifted hu hv

/-! ## Allocations -/

namespace SizingPolicy

structure Nonnegative (policy : SizingPolicy Float) : Prop where
  cpuRequestFactor : 0.0 ≤ policy.cpuRequestFactor
  cpuLimitFactor : 0.0 ≤ policy.cpuLimitFactor
  memoryRequestFactor : 0.0 ≤ policy.memoryRequestFactor
  memoryLimitFactor : 0.0 ≤ policy.memoryLimitFactor

theorem standard_nonnegative : (standard : SizingPolicy Float).Nonnegative := by
  constructor <;> decide

variable {policy : SizingPolicy Float}

theorem allocate_mono (hp : policy.Finite) {median median' tail tail' requestFactor limitFactor b : Float}
    (hmedian : Within 0.0 b median) (hmedian' : Within 0.0 b median') (hle : median ≤ median')
    (htail : Lifts tail tail') (hr : requestFactor.isFinite = true) (hr₀ : 0.0 ≤ requestFactor)
    (hl : limitFactor.isFinite = true) (hl₀ : 0.0 ≤ limitFactor) {a a' : Allocation Float}
    (h : policy.allocate median tail requestFactor limitFactor = .ok a)
    (h' : policy.allocate median' tail' requestFactor limitFactor = .ok a') :
    a.request ≤ a'.request ∧ a.limit ≤ a'.limit := by
  have hneed := scaled_mono hmedian.isFinite hmedian'.isFinite hmedian'.lower hr hr₀ hp.requestOffset hle
  have hrequest := request_mono hneed h h'
  exact ⟨hrequest, limit_mono hrequest (headroom_mono hl hl₀ hp.limitOffset htail) h h'⟩

/-! ## Labels -/

theorem label_mono (hp : policy.Finite) (hf : policy.Nonnegative) {t t' : Trace Float}
    (ht : ∀ u ∈ t.steps, u.WellFormed) (ht' : ∀ u ∈ t'.steps, u.WellFormed)
    (h : List.Forall₂ Usage.AtMost t.steps t'.steps) {l l' : Recommendation Float}
    (hl : policy.label t = .ok l) (hl' : policy.label t' = .ok l') : l.AtMost l' := by
  have hlifted := Usage.forall₂_lifted ht ht' h
  obtain ⟨hcpu, hmemory, -⟩ := label_eq_ok.mp hl
  obtain ⟨hcpu', hmemory', -⟩ := label_eq_ok.mp hl'
  obtain ⟨hcpuRequest, hcpuLimit⟩ := allocate_mono hp
    (Stats.within_mean (within_series ht fun _ hu => hu.1.within_p50))
    (Stats.within_mean (within_series ht' fun _ hu => hu.1.within_p50))
    (Stats.mean_mono (Trace.forall₂_series hlifted fun _ _ huv => huv.cpuMedian))
    (Trace.maximum_series_lifts hlifted fun _ _ huv => huv.cpuTail) hp.cpuRequestFactor hf.cpuRequestFactor
    hp.cpuLimitFactor hf.cpuLimitFactor hcpu hcpu'
  obtain ⟨hmemoryRequest, hmemoryLimit⟩ := allocate_mono hp
    (Stats.within_mean (within_series ht fun _ hu => hu.2.1.within_p50))
    (Stats.within_mean (within_series ht' fun _ hu => hu.2.1.within_p50))
    (Stats.mean_mono (Trace.forall₂_series hlifted fun _ _ huv => huv.memoryMedian))
    (Trace.maximum_series_lifts hlifted fun _ _ huv => huv.memoryTail) hp.memoryRequestFactor
    hf.memoryRequestFactor hp.memoryLimitFactor hf.memoryLimitFactor hmemory hmemory'
  exact ⟨hcpuRequest, hcpuLimit, hmemoryRequest, hmemoryLimit⟩

theorem labelPoint_mono (hp : policy.Finite) (hf : policy.Nonnegative) {u v : Usage Float}
    (hu : u.WellFormed) (hv : v.WellFormed) (h : u.AtMost v) {c c' : Float}
    {anomaly anomaly' : Option Anomaly} {l l' : Recommendation Float} (hl : policy.labelPoint u c anomaly = .ok l)
    (hl' : policy.labelPoint v c' anomaly' = .ok l') : l.AtMost l' := by
  have hlifted := h.lifted hu hv
  obtain ⟨hcpu, hmemory, -⟩ := labelPoint_eq_ok.mp hl
  obtain ⟨hcpu', hmemory', -⟩ := labelPoint_eq_ok.mp hl'
  obtain ⟨hcpuRequest, hcpuLimit⟩ := allocate_mono hp hu.1.within_p50 hv.1.within_p50 h.cpuMedian
    hlifted.cpuTail hp.cpuRequestFactor hf.cpuRequestFactor hp.cpuLimitFactor hf.cpuLimitFactor hcpu hcpu'
  obtain ⟨hmemoryRequest, hmemoryLimit⟩ := allocate_mono hp hu.2.1.within_p50 hv.2.1.within_p50
    h.memoryMedian hlifted.memoryTail hp.memoryRequestFactor hf.memoryRequestFactor hp.memoryLimitFactor
    hf.memoryLimitFactor hmemory hmemory'
  exact ⟨hcpuRequest, hcpuLimit, hmemoryRequest, hmemoryLimit⟩

/-! ## Episodes -/

section

variable {α : Type} [Scalar α] (policy : SizingPolicy α)

def lowered (c : α) : α :=
  Scalar.confine (c * policy.anomalyConfidenceFactor) policy.minConfidence policy.maxConfidence

theorem confidence_anomalous (cpuTail memoryTail : List α) : policy.confidence cpuTail memoryTail true =
    (policy.confidence cpuTail memoryTail false).map policy.lowered := by
  unfold confidence
  by_cases h : policy.minConfidence ≤ policy.maxConfidence
  · simp only [Scalar.clamp_of_le h, bind, Except.bind, pure, Except.pure, if_true, Bool.false_eq_true,
      if_false]
    rfl
  · simp only [Scalar.clamp_of_not_le h, bind, Except.bind]
    rfl

theorem label_episode (t : Trace α) (e : Episode) :
    policy.label { t with episode := some e } =
      (policy.label { t with episode := none }).map fun l =>
        { l with confidence := policy.lowered l.confidence } := by
  simp only [label, Trace.series, Option.isSome_some, Option.isSome_none, confidence_anomalous]
  cases policy.allocateCpu (Stats.mean (t.steps.map (·.cpu.p50)))
      (Stats.maximum (t.steps.map (·.cpu.p99))) with
  | error fault => rfl
  | ok cpu =>
      cases policy.allocateMemory (Stats.mean (t.steps.map (·.memory.p50)))
          (Stats.maximum (t.steps.map (·.memory.p99))) with
      | error fault => rfl
      | ok memory =>
          cases policy.confidence (t.steps.map (·.cpu.p99)) (t.steps.map (·.memory.p99)) false <;> rfl

end

theorem lowered_le (hp : policy.Finite) (h₀ : 0.0 ≤ policy.minConfidence)
    (hfactor : policy.anomalyConfidenceFactor ≤ 1.0) {c : Float}
    (hc : policy.minConfidence ≤ c ∧ c ≤ policy.maxConfidence) : policy.lowered c ≤ c :=
  have hfinite : c.isFinite = true :=
    Binary64.isFinite_of_between hp.minConfidence hp.maxConfidence hc.1 hc.2
  have hshare : c * policy.anomalyConfidenceFactor ≤ c :=
    Binary64.mul_le hfinite (LawfulOrder.le_trans h₀ hc.1) hp.anomalyConfidenceFactor hfactor
  Scalar.confine_le hshare hc.1

theorem confidence_mem_of_defined {cpuTail memoryTail : List Float} {c : Float}
    (h : policy.confidence cpuTail memoryTail false = .ok c) (hc : c ≤ c) :
    policy.minConfidence ≤ c ∧ c ≤ policy.maxConfidence := by
  obtain ⟨nominal, hclamped, hnominal⟩ := bind_eq_ok.mp h
  obtain ⟨horder, rfl⟩ := Scalar.clamp_eq_ok.mp hclamped
  cases hnominal
  exact Scalar.confine_mem (Scalar.defined_of_confine hc) horder

/-- With finite coefficients, factors that are not negative and bounds in order, more usage is not labelled
with less.  Of two traces of well-formed steps, where each step of the first is at most that of the second,
both are labelled, and none of the four resource labels of the first is above that of the second, whatever
episodes the traces carry; and so of two single steps, whatever confidence and anomaly they are labelled with.
A trace is labelled with an episode as it is without, but for its confidence, which is the same for every
episode and, for a factor of at most one, never higher. -/
theorem label_follows_usage (hp : policy.Finite) (ho : policy.Orderly) (hf : policy.Nonnegative)
    (h₀ : 0.0 ≤ policy.minConfidence) :
    (∀ t t' : Trace Float, (∀ u ∈ t.steps, u.WellFormed) → (∀ u ∈ t'.steps, u.WellFormed) →
      List.Forall₂ Usage.AtMost t.steps t'.steps →
        ∃ l l', policy.label t = .ok l ∧ policy.label t' = .ok l' ∧ l.AtMost l') ∧
    (∀ u v : Usage Float, u.WellFormed → v.WellFormed → u.AtMost v →
      ∀ (c c' : Float) (anomaly anomaly' : Option Anomaly),
        ∃ l l', policy.labelPoint u c anomaly = .ok l ∧ policy.labelPoint v c' anomaly' = .ok l' ∧
          l.AtMost l') ∧
    ∀ (t : Trace Float) (e : Episode),
      policy.label { t with episode := some e } =
          (policy.label { t with episode := none }).map (fun l =>
            { l with confidence := policy.lowered l.confidence }) ∧
        (policy.anomalyConfidenceFactor ≤ 1.0 → ∀ l l', policy.label { t with episode := none } = .ok l →
          policy.label { t with episode := some e } = .ok l' → ¬ l.confidence < l'.confidence ∧
            ((∀ u ∈ t.steps, u.WellFormed) → l'.confidence ≤ l.confidence)) := by
  refine ⟨?_, ?_, ?_⟩
  · intro t t' ht ht' h
    obtain ⟨l, hl, -⟩ := label_spec hp ho ht
    obtain ⟨l', hl', -⟩ := label_spec hp ho ht'
    exact ⟨l, l', hl, hl', label_mono hp hf ht ht' h hl hl'⟩
  · intro u v hu hv h c c' anomaly anomaly'
    obtain ⟨l, hl⟩ := ho.exists_labelPoint hp hu c anomaly
    obtain ⟨l', hl'⟩ := ho.exists_labelPoint hp hv c' anomaly'
    exact ⟨l, l', hl, hl', labelPoint_mono hp hf hu hv h hl hl'⟩
  · intro t e
    have hepisode := policy.label_episode t e
    refine ⟨hepisode, fun hfactor l l' hl hl' => ?_⟩
    rw [hepisode, hl] at hl'
    obtain rfl := Except.ok.inj hl'
    obtain ⟨-, -, hconfidence⟩ := label_eq_ok.mp hl
    have hle (hc : l.confidence ≤ l.confidence) : policy.lowered l.confidence ≤ l.confidence :=
      lowered_le hp h₀ hfactor (confidence_mem_of_defined hconfidence hc)
    refine ⟨fun hlt => ?_, fun ht => ?_⟩
    · have hself := LawfulOrder.defined_left (Scalar.le_of_lt hlt)
      exact Scalar.not_lt_of_le (hle hself) hlt
    · obtain ⟨-, -, hlow, -⟩ := label_mem (t := { t with episode := none }) hp ht hl
      exact hle (LawfulOrder.defined_right hlow)

/-- Two traces of two steps under a policy whose limits overflow, the greater one with an episode; their last
steps on their own; and the smaller one with another episode. -/
theorem label_follows_usage_of_two_steps :
    let policy : SizingPolicy Float :=
      { standard with
        cpuRequestFactor := 0.0, cpuLimitFactor := Binary64.largest, limitOffset := Binary64.largest }
    let u (x y : Float) : Usage Float := ⟨⟨x, x, y⟩, ⟨x, y, y⟩, 0.1, 0.0, 0.0, 0.0, 0.0, 0.0⟩
    let t : Trace Float := ⟨.web, ⟨0.0, 0.0, 0.0⟩, none, [u 0.1 0.2, u 0.3 0.9]⟩
    let t' : Trace Float := ⟨.web, ⟨0.0, 0.0, 0.0⟩, some ⟨.noisy, 1⟩, [u 0.1 0.5, u 0.4 1.0]⟩
    (policy.Finite ∧ policy.Orderly ∧ policy.Nonnegative ∧ 0.0 ≤ policy.minConfidence) ∧
      List.Forall₂ Usage.AtMost t.steps t'.steps ∧
      (∃ l l', policy.label t = .ok l ∧ policy.label t' = .ok l' ∧ l.AtMost l') ∧
      (∃ l l', policy.labelPoint (u 0.3 0.9) 0.9 (some .noisy) = .ok l ∧
        policy.labelPoint (u 0.4 1.0) 0.8 none = .ok l' ∧ l.AtMost l') ∧
      policy.label { t with episode := some ⟨.memoryLeak, 0⟩ } =
        (policy.label { t with episode := none }).map fun l =>
          { l with confidence := policy.lowered l.confidence } := by
  intro policy u t t'
  have hp : policy.Finite := by constructor <;> decide
  have ho : policy.Orderly := by constructor <;> decide
  have hf : policy.Nonnegative := by constructor <;> decide
  have h₀ : 0.0 ≤ policy.minConfidence := by decide
  have hmost {x y x' y' : Float} (hx : x ≤ x') (hy : y ≤ y') : (u x y).AtMost (u x' y') := ⟨hx, hy, hx, hy⟩
  have hlast : (u 0.3 0.9).AtMost (u 0.4 1.0) := hmost (by decide) (by decide)
  have hsteps : List.Forall₂ Usage.AtMost t.steps t'.steps :=
    .cons (hmost (by decide) (by decide)) (.cons hlast .nil)
  obtain ⟨hlabel, hpoint, hepisode⟩ := label_follows_usage hp ho hf h₀
  exact ⟨⟨hp, ho, hf, h₀⟩, hsteps, hlabel t t' (by decide) (by decide) hsteps,
    hpoint _ _ (by decide) (by decide) hlast 0.9 0.8 (some .noisy) none, (hepisode t ⟨.memoryLeak, 0⟩).1⟩

end SizingPolicy

end WorkloadSynth
