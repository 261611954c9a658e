import WorkloadSynth.Proofs.Workload.Moment
import WorkloadSynth.Proofs.Workload.Usage
import WorkloadSynth.Workload.Trace

/-!
# One step of a trace

A step takes nine noise terms and clamps what it computes from them.  If none of the terms is undefined
then neither is any value that reaches a clamp, and each lower bound is a value that was clamped below
the upper bound before: `Profile.nominalStep_spec` and `Episode.strike_spec` say that a step succeeds
and that its readings are moderate.  How large a noise term is does not matter, infinities included.
-/

set_option autoImplicit false

namespace WorkloadSynth

open Binary64 (Within largest)

/-! ## Noise -/

/-- Proper calls are answered with defined values: normal deviates of a finite positive spread, and
uniform ones between finite bounds that are in order and not negative. -/
structure NoiseSource.Reliable {σ : Type} (source : NoiseSource σ Float) : Prop where
  normal : ∀ spread s, 0.0 < spread → spread.isFinite = true →
    ¬ Scalar.IsUndefined (source.normal spread s).1
  uniform : ∀ low high s, 0.0 ≤ low → low ≤ high → high.isFinite = true →
    ¬ Scalar.IsUndefined (source.uniform low high s).1

structure StepNoise.Defined (n : StepNoise Float) : Prop where
  cpuMedian : n.cpuMedian ≤ n.cpuMedian
  memoryMedian : n.memoryMedian ≤ n.memoryMedian
  cpuMiddle : n.cpuMiddle ≤ n.cpuMiddle
  cpuTail : n.cpuTail ≤ n.cpuTail
  memoryMiddle : n.memoryMiddle ≤ n.memoryMiddle
  memoryTail : n.memoryTail ≤ n.memoryTail
  variance : n.variance ≤ n.variance
  trend : n.trend ≤ n.trend
  throttle : n.throttle ≤ n.throttle

structure Profile.Usual (p : Profile Float) : Prop where
  baseCpu : Within (-1.0) 1.0 p.baseCpu
  baseMemory : Within 0.0 1.0 p.baseMemory
  cpuVariance : Within 0.1 1.0 p.cpuVariance
  memoryGrowth : Within 0.0 0.02 p.memoryGrowth
  burstiness : Within 0.0 1.0 p.burstiness
  diurnalFactor : Within (-1.0) 1.0 p.diurnalFactor
  autocorrelation : Within 0.0 1.0 p.autocorrelation

theorem Archetype.profile_usual (a : Archetype) : (a.profile : Profile Float).Usual := by
  cases a <;> constructor <;> decide

variable {σ τ : Type}

namespace NoiseSource

variable {source : NoiseSource σ Float}

theorem Reliable.defined_normal (h : source.Reliable) {spread : Float} (hs : Within 0.01 1.0 spread)
    (s : σ) : (source.normal spread s).1 ≤ (source.normal spread s).1 :=
  Decidable.not_not.mp
    (h.normal spread s (Scalar.lt_of_lt_of_le (by decide) hs.lower) hs.isFinite)

theorem Reliable.onFirst (h : source.Reliable) : (source.onFirst : NoiseSource (σ × τ) Float).Reliable :=
  ⟨fun spread s => h.normal spread s.1, fun low high s => h.uniform low high s.1⟩

theorem Reliable.onSecond (h : source.Reliable) : (source.onSecond : NoiseSource (τ × σ) Float).Reliable :=
  ⟨fun spread s => h.normal spread s.2, fun low high s => h.uniform low high s.2⟩

theorem Reliable.defined_uniform (h : source.Reliable) {high : Float} (hh : Within 0.0 1.0 high) (s : σ) :
    (source.uniform 0.0 high s).1 ≤ (source.uniform 0.0 high s).1 :=
  Decidable.not_not.mp (h.uniform 0.0 high s (by decide) hh.lower hh.isFinite)

end NoiseSource

theorem StepNoise.draw_defined {source : NoiseSource σ Float} (h : source.Reliable) {p : Profile Float}
    (hp : p.Usual) (s : σ) : (draw source p s).1.Defined := by
  have hspread : Within 0.01 1.0 (p.cpuVariance * 0.3) :=
    hp.cpuVariance.mul (Within.self (by decide)) (by decide)
  exact {
    cpuMedian := h.defined_normal hspread _
    memoryMedian := h.defined_normal (by decide) _
    cpuMiddle := h.defined_uniform (by decide) _
    cpuTail := h.defined_uniform (by decide) _
    memoryMiddle := h.defined_uniform (by decide) _
    memoryTail := h.defined_uniform (by decide) _
    variance := h.defined_uniform (by decide) _
    trend := h.defined_normal (by decide) _
    throttle := h.defined_uniform (by decide) _ }

/-! ## Medians -/

structure Carry.Held (c : Carry Float) : Prop where
  cpu : Within 0.01 0.95 c.cpu
  memory : Within 0.01 0.95 c.memory

theorem Profile.within_growth {p : Profile Float} (hp : p.Usual) {m : Moment Float} (hm : m.InRange) :
    Within 0.0 1e307 (p.memoryGrowth * m.ageDays) :=
  hp.memoryGrowth.mul hm.within_age (by decide +kernel)

theorem Profile.within_baseAt {p : Profile Float} (hp : p.Usual) {m : Moment Float} (hm : m.InRange) :
    Within (-4.0) 4.0 (p.baseAt m).cpu ∧ Within 0.0 largest (p.baseAt m).memory := by
  have hload := Season.within_load m.day hm.hour hp.diurnalFactor
  exact ⟨hp.baseCpu.mul_size hload (by decide),
    hp.baseMemory.add (within_growth hp hm) (by decide +kernel)⟩

theorem Carry.within_blend {base : Carry Float} (hc : Within (-4.0) 4.0 base.cpu)
    (hm : Within 0.0 largest base.memory) {weight : Float} (hw : Within 0.0 1.0 weight)
    {previous : Option (Carry Float)} (hprevious : ∀ c ∈ previous, c.Held) :
    Within (-8.0) 8.0 (blend previous weight base).cpu ∧
      Within 0.0 largest (blend previous weight base).memory := by
  cases previous with
  | none => exact ⟨hc.widen (by decide), hm⟩
  | some c =>
      have hheld := hprevious c rfl
      have hrest : Within 0.0 1.0 (1.0 - weight) :=
        (Within.self (by decide)).sub hw (by decide)
      have hcpu : Within 0.0 1.0 (weight * c.cpu) := hw.mul hheld.cpu (by decide)
      have hmemory : Within 0.0 1.0 (weight * c.memory) := hw.mul hheld.memory (by decide)
      have hrestSize : Within (-1.0) 1.0 (1.0 - weight) := hrest.widen (by decide)
      have hbaseCpu : Within (-4.0) 4.0 ((1.0 - weight) * base.cpu) :=
        hrestSize.mul_size hc (by decide)
      have hbaseMemory : Within 0.0 largest ((1.0 - weight) * base.memory) :=
        hrest.mul hm (by decide)
      exact ⟨hcpu.add hbaseCpu (by decide), hmemory.add hbaseMemory (by decide +kernel)⟩

theorem Profile.within_median {base noise : Float} (hb : base.isFinite = true) (hn : noise ≤ noise) :
    Within 0.01 0.95 (median base noise) :=
  Within.confine (Binary64.defined_add_right hb hn) (by decide)

/-! ## Percentiles -/

def Quantiles.stretched {α : Type} [Scalar α] (p50 f g : α) : Except RangeFault (Quantiles α) := do
  let p95 ← Scalar.clamp (p50 * f) p50 0.98
  let p99 ← Scalar.clamp (p95 * g) p95 1.0
  pure ⟨p50, p95, p99⟩

theorem Profile.cpuQuantiles_eq {α : Type} [Scalar α] (p : Profile α) (p50 : α) (n : StepNoise α) :
    p.cpuQuantiles p50 n = Quantiles.stretched p50 (1.0 + p.burstiness * 0.5 + n.cpuMiddle)
      (1.0 + p.burstiness * 0.3 + n.cpuTail) := rfl

theorem Profile.memoryQuantiles_eq {α : Type} [Scalar α] (p50 : α) (n : StepNoise α) :
    memoryQuantiles p50 n = Quantiles.stretched p50 (1.0 + 0.1 + n.memoryMiddle)
      (1.0 + 0.05 + n.memoryTail) := rfl

structure Quantiles.SpreadFrom (q : Quantiles Float) (p50 : Float) : Prop where
  median : q.p50 = p50
  middle : p50 ≤ q.p95 ∧ q.p95 ≤ 0.98
  tail : q.p95 ≤ q.p99 ∧ q.p99 ≤ 1.0

/-- Whatever the factors, as long as they are defined, each lower bound is below its upper bound. -/
theorem Quantiles.stretched_spec {p50 f g : Float} (h50 : Within 0.01 0.95 p50) (hf : f ≤ f)
    (hg : g ≤ g) : ∃ q, stretched p50 f g = .ok q ∧ q.SpreadFrom p50 := by
  have nonzero {x : Float} (hx : Within 0.01 0.98 x) : Binary64.real x ≠ 0 :=
    (Within.real_pos hx.isFinite (Scalar.lt_of_lt_of_le (by decide) hx.lower)).ne'
  have hmedian : Within 0.01 0.98 p50 := h50.widen (by decide)
  have hmiddle := Scalar.confine_mem (Binary64.defined_mul_right h50.isFinite (nonzero hmedian) hf)
    hmedian.upper
  generalize h95 : Scalar.confine (p50 * f) p50 0.98 = p95 at hmiddle
  have hrise : Within 0.01 0.98 p95 :=
    ⟨LawfulOrder.le_trans h50.lower hmiddle.1, hmiddle.2, h50.finite_lower, by decide⟩
  have hone : p95 ≤ 1.0 := LawfulOrder.le_trans hmiddle.2 (by decide)
  have htail := Scalar.confine_mem (Binary64.defined_mul_right hrise.isFinite (nonzero hrise) hg) hone
  refine ⟨⟨p50, p95, Scalar.confine (p95 * g) p95 1.0⟩, ?_, rfl, hmiddle, htail⟩
  simp only [stretched, Scalar.clamp_of_le hmedian.upper, h95, Scalar.clamp_of_le hone, bind, Except.bind,
    pure, Except.pure]

theorem Profile.cpuQuantiles_spec {p : Profile Float} (hp : p.Usual) {p50 : Float}
    (h50 : Within 0.01 0.95 p50) {n : StepNoise Float} (hn : n.Defined) :
    ∃ q, p.cpuQuantiles p50 n = .ok q ∧ q.SpreadFrom p50 := by
  have hstretch {factor : Float} (h : Within 0.0 1.0 factor) :
      Within 0.0 2.0 (1.0 + p.burstiness * factor) := by
    have hextra : Within 0.0 1.0 (p.burstiness * factor) := hp.burstiness.mul h (by decide)
    exact (Within.self (by decide)).add hextra (by decide)
  rw [cpuQuantiles_eq]
  exact Quantiles.stretched_spec h50
    (Binary64.defined_add_right (hstretch (by decide)).isFinite hn.cpuMiddle)
    (Binary64.defined_add_right (hstretch (by decide)).isFinite hn.cpuTail)

theorem Profile.memoryQuantiles_spec {p50 : Float} (h50 : Within 0.01 0.95 p50) {n : StepNoise Float}
    (hn : n.Defined) : ∃ q, memoryQuantiles p50 n = .ok q ∧ q.SpreadFrom p50 := by
  rw [memoryQuantiles_eq]
  exact Quantiles.stretched_spec h50 (Binary64.defined_add_right (by decide) hn.memoryMiddle)
    (Binary64.defined_add_right (by decide) hn.memoryTail)

theorem Profile.throttling_defined {cpuTail noise : Float} (ht : Within 0.0 1.0 cpuTail)
    (hn : noise ≤ noise) : throttling cpuTail noise ≤ throttling cpuTail noise := by
  have hexcess : Within (-1.0) 1.0 (cpuTail - 0.8) :=
    ht.sub (Within.self (by decide)) (by decide)
  have hlarger : Within (-1.0) 1.0 (Scalar.larger (cpuTail - 0.8) 0.0) :=
    ⟨LawfulOrder.le_trans hexcess.lower (Scalar.larger_spec hexcess.defined (by decide)).1,
      Scalar.larger_le hexcess.upper (by decide), by decide, by decide⟩
  have hdouble : Within (-2.0) 2.0 (Scalar.larger (cpuTail - 0.8) 0.0 * 2.0) :=
    hlarger.mul_size (b := 2.0) (by decide) (by decide)
  have hmem := Scalar.confineUnit_mem (Binary64.defined_add_right hdouble.isFinite hn)
  exact LawfulOrder.defined_right hmem.1

/-! ## Usages -/

/-- The lower percentiles are in order and keep away from the ends of the unit interval. -/
structure Quantiles.Low (q : Quantiles Float) : Prop where
  median : 0.01 ≤ q.p50 ∧ q.p50 ≤ 0.95
  middle : q.p50 ≤ q.p95 ∧ q.p95 ≤ 0.98

structure Usage.Moderate (u : Usage Float) : Prop where
  wellFormed : u.WellFormed
  cpu : u.cpu.Low
  memory : u.memory.Low

structure Usage.At {α : Type} [Scalar α] (u : Usage α) (m : Moment α) : Prop where
  hour : u.hour = m.hour
  day : u.day = m.day
  age : u.age = m.relativeAge

theorem Quantiles.Low.rising {q : Quantiles Float} (h : q.Low) : q.Rising :=
  ⟨LawfulOrder.le_trans (by decide) h.median.1, h.middle.1,
    LawfulOrder.le_trans h.middle.2 (by decide)⟩

theorem Quantiles.SpreadFrom.low {q : Quantiles Float} {p50 : Float} (h : q.SpreadFrom p50)
    (h50 : Within 0.01 0.95 p50) : q.Low := by
  obtain ⟨rfl, hmiddle, -⟩ := h
  exact ⟨⟨h50.lower, h50.upper⟩, hmiddle⟩

theorem Usage.bounded_moderate {u : Usage Float} (hc : u.cpu.Low) (hm : u.memory.Low) (h : u.Readable) :
    u.bounded = .ok u.trimmed ∧ u.trimmed.Moderate :=
  ⟨bounded_of_rising hc.rising hm.rising,
    trimmed_wellFormed hc.rising hm.rising h, ⟨hc.median, hc.middle⟩, ⟨hm.median, hm.middle⟩⟩

theorem Profile.nominalStep_spec {p : Profile Float} (hp : p.Usual) {m : Moment Float} (hm : m.InRange)
    {previous : Option (Carry Float)} (hprevious : ∀ c ∈ previous, c.Held) {n : StepNoise Float}
    (hn : n.Defined) : ∃ u c, p.nominalStep m previous n = .ok (u, c) ∧ u.Moderate ∧ u.At m ∧ c.Held := by
  obtain ⟨hbaseCpu, hbaseMemory⟩ := p.within_baseAt hp hm
  obtain ⟨hcpuBase, hmemoryBase⟩ :=
    Carry.within_blend hbaseCpu hbaseMemory hp.autocorrelation hprevious
  unfold nominalStep
  generalize Carry.blend previous p.autocorrelation (p.baseAt m) = base at *
  have hcpu50 := within_median hcpuBase.isFinite hn.cpuMedian
  have hmemory50 := within_median hmemoryBase.isFinite hn.memoryMedian
  obtain ⟨cpu, hcpu, hcpuSpread⟩ := p.cpuQuantiles_spec hp hcpu50 hn
  obtain ⟨memory, hmemory, hmemorySpread⟩ := memoryQuantiles_spec hmemory50 hn
  have htail : Within 0.0 1.0 cpu.p99 := by
    have hlow := (hcpuSpread.low hcpu50).rising
    exact ⟨LawfulOrder.le_trans hlow.1 (LawfulOrder.le_trans hlow.2.1 hcpuSpread.tail.1),
      hcpuSpread.tail.2, rfl, rfl⟩
  -- Zero times an infinite noise term would be undefined.
  have hspread : Binary64.real p.cpuVariance ≠ 0 :=
    (Within.real_pos hp.cpuVariance.isFinite
      (Scalar.lt_of_lt_of_le (by decide) hp.cpuVariance.lower)).ne'
  obtain ⟨hbounded, hmoderate⟩ := Usage.bounded_moderate
    (u := {
      cpu := cpu
      memory := memory
      cpuVariance := p.cpuVariance * (0.5 + n.variance)
      memoryTrend := p.memoryGrowth + n.trend
      throttle := throttling cpu.p99 n.throttle
      hour := m.hour
      day := m.day
      age := m.relativeAge })
    (hcpuSpread.low hcpu50) (hmemorySpread.low hmemory50) {
      cpu := LawfulOrder.defined_right hcpuSpread.tail.1
      memory := LawfulOrder.defined_right hmemorySpread.tail.1
      cpuVariance := Binary64.defined_mul_right hp.cpuVariance.isFinite hspread
        (Binary64.defined_add_right (by decide) hn.variance)
      memoryTrend := Binary64.defined_add_right hp.memoryGrowth.isFinite hn.trend
      throttle := throttling_defined htail hn.throttle }
  simp only [hcpu, hmemory, hbounded, bind, Except.bind, pure, Except.pure]
  exact ⟨_, _, rfl, hmoderate, ⟨rfl, rfl, rfl⟩, ⟨hcpu50, hmemory50⟩⟩

/-! ## Anomalies -/

namespace Episode

/-- An anomaly touches neither the lower percentiles nor the time, and leaves nothing undefined. -/
theorem distort_spec (anomaly : Anomaly) {source : NoiseSource σ Float} (h : source.Reliable)
    {u : Usage Float} (hu : u.Moderate) {m : Moment Float} (ht : u.At m) (s : σ) :
    (distort anomaly source u s).1.cpu.Low ∧ (distort anomaly source u s).1.memory.Low ∧
      (distort anomaly source u s).1.Readable ∧ (distort anomaly source u s).1.At m := by
  obtain ⟨hcpu, hmemory, hvariance, htrend, hthrottle⟩ := hu.wellFormed
  have scaled {x factor : Float} (hx : Within 0.0 1.0 x) (hf : Within 0.0 3.0 factor) :
      x * factor ≤ x * factor := by
    have hbounds : Within 0.0 3.0 (x * factor) := hx.mul hf (by decide)
    exact hbounds.defined
  have confined {x : Float} (hx : x ≤ x) : Scalar.confineUnit x ≤ Scalar.confineUnit x :=
    LawfulOrder.defined_right (Scalar.confineUnit_mem hx).1
  have tail {q : Quantiles Float} (hq : q.Ordered) : Within 0.0 1.0 q.p99 :=
    ⟨LawfulOrder.le_trans hq.1 (LawfulOrder.le_trans hq.2.2.1 hq.2.2.2.1), hq.2.2.2.2, rfl, rfl⟩
  have hspread : Within 0.0 1.0 u.cpuVariance := ⟨hvariance.1, hvariance.2, rfl, rfl⟩
  have hreadable : u.Readable :=
    ⟨(tail hcpu).defined, (tail hmemory).defined, hspread.defined, LawfulOrder.defined_right htrend.1,
      LawfulOrder.defined_right hthrottle.1⟩
  cases anomaly with
  | memoryLeak =>
      have hextra := h.defined_uniform (by decide : Within 0.0 1.0 0.2) s
      exact ⟨hu.cpu, ⟨hu.memory.median, hu.memory.middle⟩,
        { hreadable with
          memory := confined (scaled (tail hmemory) (by decide))
          memoryTrend := Binary64.defined_add_right (by decide) hextra },
        ⟨ht.hour, ht.day, ht.age⟩⟩
  | cpuSpike =>
      have hthrottled : Within 0.0 1.0 u.throttle := ⟨hthrottle.1, hthrottle.2, rfl, rfl⟩
      exact ⟨⟨hu.cpu.median, hu.cpu.middle⟩, hu.memory,
        { hreadable with
          cpu := confined (scaled (tail hcpu) (by decide))
          cpuVariance := scaled hspread (by decide)
          throttle := confined (scaled hthrottled (by decide)) },
        ⟨ht.hour, ht.day, ht.age⟩⟩
  | noisy =>
      exact ⟨hu.cpu, hu.memory,
        { hreadable with cpuVariance := scaled hspread (by decide) },
        ⟨ht.hour, ht.day, ht.age⟩⟩

theorem strike_spec (e : Episode) {source : NoiseSource σ Float} (h : source.Reliable) (index : ℕ)
    {u : Usage Float} (hu : u.Moderate) {m : Moment Float} (ht : u.At m) (s : σ) :
    ∃ v s', e.strike source index u s = .ok (v, s') ∧ v.Moderate ∧ v.At m := by
  unfold strike
  split_ifs with hcovers
  · obtain ⟨hcpu, hmemory, hreadable, hat⟩ := distort_spec e.anomaly h hu ht s
    obtain ⟨hbounded, hmoderate⟩ := Usage.bounded_moderate hcpu hmemory hreadable
    simp only [hbounded, bind, Except.bind, pure, Except.pure]
    exact ⟨_, _, rfl, hmoderate, ⟨hat.hour, hat.day, hat.age⟩⟩
  · exact ⟨u, s, rfl, hu, ht⟩

end Episode

end WorkloadSynth
