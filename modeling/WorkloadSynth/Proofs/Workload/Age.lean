import WorkloadSynth.Proofs.Random.Draw
import WorkloadSynth.Proofs.Workload.Influence
import WorkloadSynth.Proofs.Workload.Monotone

/-!
# Older workloads are no smaller

Age enters a step through the base of its memory median and through the age it shows.  Sums, products by
what is not negative, clamps and blends keep the order of what they are made from, so of two runs on the same
noise the one that starts at the greater age reads no less memory at any step and otherwise the same
(`TraceModel.stepsFrom_agedTo`), and so it is labelled (`SizingPolicy.label_agedTo`).
-/

set_option autoImplicit false

namespace WorkloadSynth

open Binary64 (Within largest)

variable {σ : Type}

/-! ## What grows with age -/

structure Moment.AgedTo (m m' : Moment Float) : Prop where
  hour : m'.hour = m.hour
  day : m'.day = m.day
  age : m.ageDays ≤ m'.ageDays

structure Carry.AgedTo (c c' : Carry Float) : Prop where
  cpu : c'.cpu = c.cpu
  memory : c.memory ≤ c'.memory

structure Quantiles.Below (q q' : Quantiles Float) : Prop where
  median : q.p50 ≤ q'.p50
  middle : q.p95 ≤ q'.p95
  tail : q.p99 ≤ q'.p99

/-- The same readings but for memory and age, which are no smaller. -/
structure Usage.AgedTo (u u' : Usage Float) : Prop where
  cpu : u'.cpu = u.cpu
  memory : u.memory.Below u'.memory
  cpuVariance : u'.cpuVariance = u.cpuVariance
  memoryTrend : u'.memoryTrend = u.memoryTrend
  throttle : u'.throttle = u.throttle
  hour : u'.hour = u.hour
  day : u'.day = u.day
  age : u.age ≤ u'.age

structure Recommendation.AgedTo (l l' : Recommendation Float) : Prop where
  cpu : l'.cpu = l.cpu
  memoryRequest : l.memory.request ≤ l'.memory.request
  memoryLimit : l.memory.limit ≤ l'.memory.limit

/-! ## Moments -/

namespace Moment

variable {m m' : Moment Float}

theorem later_agedTo (hm : m.InRange) (hm' : m'.InRange) (h : m.AgedTo m') {n : ℕ} {stepHours : Float}
    (hn : n ≤ 2 ^ 64) (hs : Within 0.0 168.0 stepHours) :
    (m.later n stepHours).AgedTo (m'.later n stepHours) := by
  have hdays : Within 0.0 4e20 (Scalar.ofNat n * stepHours / 24.0) :=
    (within_elapsed hn hs).div (by decide)
  refine ⟨?_, ?_, ?_⟩
  · simp only [later, h.hour]
  · simp only [later, h.day]
  · exact Binary64.add_mono hm.age.2 hm'.age.2 hdays.isFinite hdays.isFinite h.age hdays.defined

theorem relativeAge_mono (hm : m.InRange) (hm' : m'.InRange) (h : m.AgedTo m') :
    m.relativeAge ≤ m'.relativeAge := by
  have hfull : (fullAgeDays : Float).isFinite = true := by decide
  have hshare := Binary64.div_mono hm.age.2 hm'.age.2 hfull h.age (Within.real_pos hfull (by decide))
  exact Scalar.confine_mono LawfulOrder.zero_le_one hshare

end Moment

/-! ## Medians -/

theorem Profile.baseAt_agedTo {p : Profile Float} (hp : p.Usual) {m m' : Moment Float} (hm : m.InRange)
    (hm' : m'.InRange) (h : m.AgedTo m') : (p.baseAt m).AgedTo (p.baseAt m') := by
  have hgrowth := within_growth hp hm
  have hgrowth' := within_growth hp hm'
  have hbase := hp.baseMemory
  refine ⟨?_, ?_⟩
  · simp only [baseAt, loadAt, h.hour, h.day]
  · have hle := hp.memoryGrowth.mul_le_mul_left hm.within_age hm'.age.2 h.age
    exact Binary64.add_mono hbase.isFinite hbase.isFinite hgrowth.isFinite hgrowth'.isFinite hbase.defined hle

theorem Carry.blend_agedTo {weight : Float} (hw : Within 0.0 1.0 weight) {base base' : Carry Float}
    (hbase : Within 0.0 largest base.memory) (hbase' : Within 0.0 largest base'.memory)
    (h : base.AgedTo base') {previous previous' : Option (Carry Float)}
    (hheld : ∀ c ∈ previous, c.Held) (hheld' : ∀ c ∈ previous', c.Held)
    (hprevious : Option.Rel AgedTo previous previous') :
    (blend previous weight base).AgedTo (blend previous' weight base') := by
  cases hprevious with
  | none => exact h
  | @some c c' hcarried =>
      have hc : Within 0.0 1.0 c.memory := (hheld c rfl).memory.widen (by decide)
      have hc' : Within 0.0 1.0 c'.memory := (hheld' c' rfl).memory.widen (by decide)
      have hrest : Within 0.0 1.0 (1.0 - weight) := (Within.self (by decide)).sub hw (by decide)
      refine ⟨?_, ?_⟩
      · simp only [blend, hcarried.cpu, h.cpu]
      · exact Binary64.add_mono (hw.mul_share hc).isFinite (hw.mul_share hc').isFinite
          (hrest.mul_share hbase).isFinite (hrest.mul_share hbase').isFinite
          (hw.mul_le_mul_left hc hc'.isFinite hcarried.memory)
          (hrest.mul_le_mul_left hbase hbase'.isFinite h.memory)

theorem Profile.median_mono {base base' noise : Float} (hb : base.isFinite = true)
    (hb' : base'.isFinite = true) (h : base ≤ base') (hn : noise ≤ noise) :
    median base noise ≤ median base' noise :=
  Scalar.confine_mono (by decide) (Binary64.add_mono_left hb hb' h hn)

/-! ## Percentiles -/

theorem Quantiles.stretched_below {p50 p50' f g : Float} (h50 : Within 0.01 0.95 p50)
    (h50' : Within 0.01 0.95 p50') (h : p50 ≤ p50') (hf : 0.0 ≤ f) (hg : 0.0 ≤ g) {q q' : Quantiles Float}
    (hq : stretched p50 f g = .ok q) (hq' : stretched p50' f g = .ok q') : q.Below q' := by
  have stretch {x y k : Float} (hx : Within 0.01 0.98 x) (hy : y.isFinite = true) (hxy : x ≤ y)
      (hk : 0.0 ≤ k) : x * k ≤ y * k := by
    have hpos := Within.real_pos hx.isFinite (Scalar.lt_of_lt_of_le (by decide) hx.lower)
    exact Binary64.mul_mono_left hx.isFinite hy hpos hxy hk
  have hmedian : Within 0.01 0.98 p50 := h50.widen (by decide)
  have hmedian' : Within 0.01 0.98 p50' := h50'.widen (by decide)
  have hmiddle := Scalar.confine_le_confine h hmedian'.upper (stretch hmedian h50'.isFinite h hf)
  have hlow := (Scalar.confine_mem (stretch hmedian h50.isFinite h50.defined hf) hmedian.upper)
  have hlow' := (Scalar.confine_mem (stretch hmedian' h50'.isFinite h50'.defined hf) hmedian'.upper)
  obtain ⟨-, -, rfl⟩ := of_stretched hq
  obtain ⟨-, hone, rfl⟩ := of_stretched hq'
  have hrise : Within 0.01 0.98 (Scalar.confine (p50 * f) p50 0.98) :=
    ⟨LawfulOrder.le_trans h50.lower hlow.1, hlow.2, by decide, by decide⟩
  have hrise' : Within 0.01 0.98 (Scalar.confine (p50' * f) p50' 0.98) :=
    ⟨LawfulOrder.le_trans h50'.lower hlow'.1, hlow'.2, by decide, by decide⟩
  exact ⟨h, hmiddle, Scalar.confine_le_confine hmiddle hone (stretch hrise hrise'.isFinite hmiddle hg)⟩

/-! ## Steps -/

structure NoiseSource.Upward (source : NoiseSource σ Float) : Prop extends source.Reliable where
  nonneg : ∀ low high s, 0.0 ≤ low → low ≤ high → high.isFinite = true → 0.0 ≤ (source.uniform low high s).1

theorem StepNoise.draw_nonneg {source : NoiseSource σ Float} (h : source.Upward) (p : Profile Float) (s : σ) :
    0.0 ≤ (draw source p s).1.memoryMiddle ∧ 0.0 ≤ (draw source p s).1.memoryTail :=
  ⟨h.nonneg _ _ _ (by decide) (by decide) (by decide), h.nonneg _ _ _ (by decide) (by decide) (by decide)⟩

theorem Random.Generator.source_upward : Random.Generator.source.Upward where
  toReliable := source_reliable
  nonneg low high g h₀ h hf := by
    have hlow : low.isFinite = true := Binary64.isFinite_of_between (by decide) hf h₀ h
    have hwidth := Within.sub_nonneg h₀ h hf
    have hshare := within_fraction g
    obtain ⟨hdefined, hvalue⟩ := Binary64.mul_spec hwidth.isFinite hshare.isFinite
    have hspan := Within.zero_le_of_value hdefined hvalue (mul_nonneg
      (Within.real_nonneg hwidth.isFinite hwidth.lower) (Within.real_nonneg hshare.isFinite hshare.lower))
    rw [source_uniform]
    exact Binary64.zero_le_add hlow h₀ hspan

theorem Profile.nominalStep_agedTo {p : Profile Float} (hp : p.Usual) {m m' : Moment Float} (hm : m.InRange)
    (hm' : m'.InRange) (h : m.AgedTo m') {previous previous' : Option (Carry Float)}
    (hheld : ∀ c ∈ previous, c.Held) (hheld' : ∀ c ∈ previous', c.Held)
    (hprevious : Option.Rel Carry.AgedTo previous previous') {n : StepNoise Float} (hn : n.Defined)
    (hupward : 0.0 ≤ n.memoryMiddle ∧ 0.0 ≤ n.memoryTail) :
    ∃ u u' c c', p.nominalStep m previous n = .ok (u, c) ∧ p.nominalStep m' previous' n = .ok (u', c') ∧
      (u.WellFormed ∧ u'.WellFormed) ∧ u.AgedTo u' ∧ (c.Held ∧ c'.Held) ∧ c.AgedTo c' := by
  obtain ⟨u, c, hstep, hu, hat, hc⟩ := nominalStep_spec hp hm hheld hn
  obtain ⟨u', c', hstep', hu', hat', hc'⟩ := nominalStep_spec hp hm' hheld' hn
  have hmakes := makes_of_nominalStep hstep
  have hmakes' := makes_of_nominalStep hstep'
  obtain ⟨hcpuBase, hmemoryBase⟩ := p.within_baseAt hp hm
  obtain ⟨hcpuBase', hmemoryBase'⟩ := p.within_baseAt hp hm'
  have hblend := Carry.blend_agedTo hp.autocorrelation hmemoryBase hmemoryBase' (baseAt_agedTo hp hm hm' h)
    hheld hheld' hprevious
  have hblended := (Carry.within_blend hcpuBase hmemoryBase hp.autocorrelation hheld).2
  have hblended' := (Carry.within_blend hcpuBase' hmemoryBase' hp.autocorrelation hheld').2
  have hcarry : c.AgedTo c' := by
    refine ⟨?_, ?_⟩
    · rw [hmakes'.cpuMedian, hmakes.cpuMedian, hblend.cpu]
    · rw [hmakes'.memoryMedian, hmakes.memoryMedian]
      exact median_mono hblended.isFinite hblended'.isFinite hblend.memory hn.memoryMedian
  have hcpu : u.cpu = u'.cpu := hmakes.cpu_eq hmakes' hcarry.cpu.symm rfl rfl
  have hmemory : u.memory.Below u'.memory :=
    Quantiles.stretched_below hc.memory hc'.memory hcarry.memory
      (Binary64.zero_le_add (by decide) (by decide) hupward.1)
      (Binary64.zero_le_add (by decide) (by decide) hupward.2) hmakes.memory hmakes'.memory
  refine ⟨u, u', c, c', hstep, hstep', ⟨hu.wellFormed, hu'.wellFormed⟩, ?_, ⟨hc, hc'⟩, hcarry⟩
  exact {
    cpu := hcpu.symm
    memory := hmemory
    cpuVariance := by rw [hmakes'.cpuVariance, hmakes.cpuVariance]
    memoryTrend := by rw [hmakes'.memoryTrend, hmakes.memoryTrend]
    throttle := by rw [hmakes'.throttle, hmakes.throttle, hcpu]
    hour := by rw [hat'.hour, hat.hour, h.hour]
    day := by rw [hat'.day, hat.day, h.day]
    age := by
      rw [hat'.age, hat.age]
      exact Moment.relativeAge_mono hm hm' h }

/-! ## Episodes -/

theorem Usage.AgedTo.trimmed {u u' : Usage Float} (h : u.AgedTo u') (hroom : u'.memory.p95 ≤ 1.0) :
    u.trimmed.AgedTo u'.trimmed where
  cpu := congrArg Quantiles.trimmed h.cpu
  memory := ⟨h.memory.median, h.memory.middle,
    Scalar.confine_le_confine h.memory.middle hroom h.memory.tail⟩
  cpuVariance := congrArg Scalar.confineUnit h.cpuVariance
  memoryTrend := congrArg (Scalar.confine · (-1.0) 1.0) h.memoryTrend
  throttle := congrArg Scalar.confineUnit h.throttle
  hour := h.hour
  day := h.day
  age := h.age

namespace Episode

/-- A leak raises the greater tail to the greater value, and the other anomalies leave memory alone. -/
theorem distort_agedTo (k : Anomaly) (source : NoiseSource σ Float) {u u' : Usage Float} (hu : u.WellFormed)
    (hu' : u'.WellFormed) (h : u.AgedTo u') (s : σ) :
    (distort k source u s).1.AgedTo (distort k source u' s).1 ∧
      (distort k source u' s).2 = (distort k source u s).2 := by
  cases k with
  | memoryLeak =>
      have htail := hu.2.1.within_p99
      have htail' := hu'.2.1.within_p99
      have hscaled : u.memory.p99 * 1.3 ≤ u'.memory.p99 * 1.3 :=
        Binary64.mul_mono htail.isFinite htail'.isFinite (by decide) (by decide) h.memory.tail (by decide)
          (Within.real_nonneg htail'.isFinite htail'.lower) (Within.real_nonneg (by decide) (by decide))
      exact ⟨⟨h.cpu, ⟨h.memory.median, h.memory.middle, Scalar.confine_mono LawfulOrder.zero_le_one hscaled⟩,
        h.cpuVariance, rfl, h.throttle, h.hour, h.day, h.age⟩, rfl⟩
  | cpuSpike =>
      refine ⟨⟨?_, h.memory, ?_, h.memoryTrend, ?_, h.hour, h.day, h.age⟩, rfl⟩
      · simp only [distort, h.cpu]
      · simp only [distort, h.cpuVariance]
      · simp only [distort, h.throttle]
  | noisy =>
      refine ⟨⟨h.cpu, h.memory, ?_, h.memoryTrend, h.throttle, h.hour, h.day, h.age⟩, rfl⟩
      simp only [distort, h.cpuVariance]

theorem strike_agedTo (e : Episode) (source : NoiseSource σ Float) (index : ℕ) {u u' : Usage Float}
    (hu : u.WellFormed) (hu' : u'.WellFormed) (h : u.AgedTo u') (s : σ) :
    ∃ v v' r, e.strike source index u s = .ok (v, r) ∧ e.strike source index u' s = .ok (v', r) ∧
      v.AgedTo v' := by
  unfold strike
  split_ifs
  · obtain ⟨hdistorted, hstate⟩ := distort_agedTo e.anomaly source hu hu' h s
    have hbounded := (distort_raises e.anomaly source hu s).1
    have hbounded' := (distort_raises e.anomaly source hu' s).1
    have hroom : (distort e.anomaly source u' s).1.memory.p95 ≤ 1.0 := by
      cases e.anomaly <;> exact hu'.2.1.rising.2.2
    simp only [hbounded, hbounded', hstate, bind, Except.bind, pure, Except.pure]
    exact ⟨_, _, _, rfl, rfl, hdistorted.trimmed hroom⟩
  · exact ⟨u, u', s, rfl, rfl, h⟩

end Episode

/-! ## Runs -/

namespace TraceModel

variable {model : TraceModel Float} {nominal : NoiseSource σ Float} {start start' : Moment Float}

theorem step_agedTo (injected : NoiseSource σ Float) (hnominal : nominal.Upward) (hstart : start.InRange) (hstart' : start'.InRange)
    (hage : start.AgedTo start') (hhours : Within 0.0 168.0 model.stepHours) (episode : Option Episode)
    {index : ℕ} (hindex : index ≤ 2 ^ 64) {previous previous' : Option (Carry Float)}
    (hheld : ∀ c ∈ previous, c.Held) (hheld' : ∀ c ∈ previous', c.Held)
    (hprevious : Option.Rel Carry.AgedTo previous previous') (s : σ) :
    ∃ u u' carry carry' r, model.step nominal injected start episode index previous s = .ok (u, carry, r) ∧
      model.step nominal injected start' episode index previous' s = .ok (u', carry', r) ∧ u.AgedTo u' ∧
      (∀ c ∈ carry, c.Held) ∧ (∀ c ∈ carry', c.Held) ∧ Option.Rel Carry.AgedTo carry carry' := by
  have hp := model.archetype.profile_usual
  obtain ⟨u, u', c, c', hstep, hstep', ⟨hu, hu'⟩, huu', ⟨hc, hc'⟩, hcc'⟩ := Profile.nominalStep_agedTo hp
    (Moment.later_inRange hstart hindex hhours) (Moment.later_inRange hstart' hindex hhours)
    (Moment.later_agedTo hstart hstart' hage hindex hhours) hheld hheld' hprevious
    (StepNoise.draw_defined hnominal.toReliable hp s) (StepNoise.draw_nonneg hnominal _ s)
  have hcarry : (∀ d ∈ model.handOn c, d.Held) ∧ (∀ d ∈ model.handOn c', d.Held) ∧
      Option.Rel Carry.AgedTo (model.handOn c) (model.handOn c') := by
    refine ⟨fun d hd => eq_of_mem_handOn hd ▸ hc, fun d hd => eq_of_mem_handOn hd ▸ hc', ?_⟩
    unfold handOn
    split_ifs
    · exact .some hcc'
    · exact .none
  unfold step
  simp only [hstep, hstep', bind, Except.bind]
  cases episode with
  | none => exact ⟨u, u', _, _, _, rfl, rfl, huu', hcarry⟩
  | some e =>
      obtain ⟨v, v', r, hstrike, hstrike', hvv'⟩ := e.strike_agedTo injected index hu hu' huu'
        (StepNoise.draw nominal model.archetype.profile s).2
      simp only [hstrike, hstrike']
      exact ⟨v, v', _, _, r, rfl, rfl, hvv', hcarry⟩

theorem stepsFrom_agedTo (injected : NoiseSource σ Float) (hnominal : nominal.Upward) (hstart : start.InRange)
    (hstart' : start'.InRange) (hage : start.AgedTo start') (hhours : Within 0.0 168.0 model.stepHours)
    (episode : Option Episode) {count index : ℕ} (hcount : index + count ≤ 2 ^ 64)
    {previous previous' : Option (Carry Float)} (hheld : ∀ c ∈ previous, c.Held)
    (hheld' : ∀ c ∈ previous', c.Held) (hprevious : Option.Rel Carry.AgedTo previous previous') (s : σ) :
    ∃ steps steps' r,
      model.stepsFrom nominal injected start episode count index previous s = .ok (steps, r) ∧
      model.stepsFrom nominal injected start' episode count index previous' s = .ok (steps', r) ∧
      List.Forall₂ Usage.AgedTo steps steps' := by
  -- Both runs leave their source in one state, and the medians they hand on keep their order.
  induction count generalizing index previous previous' s with
  | zero => exact ⟨[], [], s, rfl, rfl, .nil⟩
  | succ count ih =>
      obtain ⟨u, u', carry, carry', s₁, hstep, hstep', huu', hcarry, hcarry', hrel⟩ :=
        step_agedTo injected hnominal hstart hstart' hage hhours episode
          (by omega : index ≤ 2 ^ 64) hheld hheld' hprevious s
      obtain ⟨rest, rest', r, hrest, hrest', hall⟩ :=
        ih (by omega : index + 1 + count ≤ 2 ^ 64) hcarry hcarry' hrel s₁
      refine ⟨u :: rest, u' :: rest', r, ?_, ?_, .cons huu' hall⟩
      · simp only [stepsFrom, hstep, hrest, bind, Except.bind, pure, Except.pure]
      · simp only [stepsFrom, hstep', hrest', bind, Except.bind, pure, Except.pure]

end TraceModel

/-! ## Labels -/

theorem Usage.AgedTo.atMost {u u' : Usage Float} (h : u.AgedTo u') (hu : u.WellFormed) : u.AtMost u' where
  cpuMedian := by rw [h.cpu]; exact LawfulOrder.defined_right hu.1.1
  cpuTail := by rw [h.cpu]; exact hu.1.tail_self.2.1
  memoryMedian := h.memory.median
  memoryTail := h.memory.tail

namespace SizingPolicy

theorem label_agedTo {t t' : Trace Float} (ht : ∀ u ∈ t.steps, u.WellFormed)
    (ht' : ∀ u ∈ t'.steps, u.WellFormed) (h : List.Forall₂ Usage.AgedTo t.steps t'.steps)
    {l l' : Recommendation Float} (hl : standard.label t = .ok l) (hl' : standard.label t' = .ok l') :
    l.AgedTo l' := by
  have hmost : List.Forall₂ Usage.AtMost t.steps t'.steps :=
    ((List.forall₂_and_left _ _).mpr ⟨ht, h⟩).imp fun u u' ⟨hu, huu'⟩ => huu'.atMost hu
  have hlabels := label_mono standard_finite standard_nonnegative ht ht' hmost hl hl'
  obtain ⟨hcpu, -⟩ := label_eq_ok.mp hl
  obtain ⟨hcpu', -⟩ := label_eq_ok.mp hl'
  refine ⟨?_, hlabels.memoryRequest, hlabels.memoryLimit⟩
  rw [Trace.series_eq h fun _ _ huu' => congrArg Quantiles.p50 huu'.cpu,
    Trace.series_eq h fun _ _ huu' => congrArg Quantiles.p99 huu'.cpu, hcpu] at hcpu'
  exact (Except.ok.inj hcpu').symm

end SizingPolicy

/-! ## The law -/

namespace TraceModel

variable {model : TraceModel Float} {nominal injected : NoiseSource σ Float} {start start' : Moment Float}

/-- Of two traces on the same noise, with the same episode and from the same hour and day, the one that starts
at the greater age has at every step the same processor readings, variance, trend, throttling and time of day
and week, no smaller memory percentiles and no smaller age.  Both are labelled, with the same allocation of
the processor and with no smaller a request and limit of memory for the older. -/
theorem never_smaller_with_age (hnominal : nominal.Upward) (hinjected : injected.Reliable)
    (hstart : start.InRange) (hstart' : start'.InRange) (hage : start.AgedTo start')
    (hhours : 0.0 < model.stepHours ∧ model.stepHours ≤ 168.0) {length : ℕ} (hlength : length < 2 ^ 64)
    (episode : Option Episode) (s : σ) :
    ∃ t t' r, model.trace nominal injected start length episode s = .ok (t, r) ∧
      model.trace nominal injected start' length episode s = .ok (t', r) ∧ t.length = length ∧
      List.Forall₂ Usage.AgedTo t.steps t'.steps ∧
      ∃ l l', SizingPolicy.standard.label t = .ok l ∧ SizingPolicy.standard.label t' = .ok l' ∧
        l.AgedTo l' := by
  have hwithin : Within 0.0 168.0 model.stepHours :=
    ⟨Scalar.le_of_lt hhours.1, hhours.2, by decide, by decide +kernel⟩
  have hnone : ∀ c : Carry Float, none = some c → c.Held := fun _ h => nomatch h
  obtain ⟨steps, steps', r, hrun, hrun', hall⟩ := stepsFrom_agedTo injected hnominal hstart
    hstart' hage hwithin episode (by omega : 0 + length ≤ 2 ^ 64) hnone hnone .none s
  obtain ⟨_, _, hspec, hcount, hmoderate⟩ := stepsFrom_spec hnominal.toReliable hinjected hstart hwithin
    episode (by omega : 0 + length ≤ 2 ^ 64) hnone s
  obtain ⟨_, _, hspec', -, hmoderate'⟩ := stepsFrom_spec hnominal.toReliable hinjected hstart' hwithin
    episode (by omega : 0 + length ≤ 2 ^ 64) hnone s
  cases hrun.symm.trans hspec
  cases hrun'.symm.trans hspec'
  have hformed : ∀ u ∈ steps, u.WellFormed := by
    intro u hu
    obtain ⟨i, hi⟩ := List.mem_iff_getElem?.mp hu
    exact (hmoderate i u hi).1.wellFormed
  have hformed' : ∀ u ∈ steps', u.WellFormed := by
    intro u hu
    obtain ⟨i, hi⟩ := List.mem_iff_getElem?.mp hu
    exact (hmoderate' i u hi).1.wellFormed
  obtain ⟨l, hl, -⟩ := SizingPolicy.label_spec SizingPolicy.standard_finite SizingPolicy.standard_orderly
    (t := ⟨model.archetype, start, episode, steps⟩) hformed
  obtain ⟨l', hl', -⟩ := SizingPolicy.label_spec SizingPolicy.standard_finite SizingPolicy.standard_orderly
    (t := ⟨model.archetype, start', episode, steps'⟩) hformed'
  refine ⟨_, _, r, bind_eq_ok.mpr ⟨_, hrun, rfl⟩, bind_eq_ok.mpr ⟨_, hrun', rfl⟩, hcount, hall, l, l', hl, hl',
    SizingPolicy.label_agedTo hformed hformed' hall hl hl'⟩

theorem database_never_smaller_with_age :
    let source := Random.Generator.source
    let model : TraceModel Float := ⟨.database, 0.5, true⟩
    let start : Moment Float := ⟨0.25, 0.5, 3.0⟩
    let start' : Moment Float := { start with ageDays := 40.0 }
    let leak : Option Episode := some ⟨.memoryLeak, 1⟩
    (source.Upward ∧ source.Reliable ∧ start.InRange ∧ start'.InRange ∧ start.AgedTo start' ∧
      (0.0 < model.stepHours ∧ model.stepHours ≤ 168.0) ∧ 4 < 2 ^ 64) ∧
    ∃ t t' r, model.trace source source start 4 leak (.ofSeed 1) = .ok (t, r) ∧
      model.trace source source start' 4 leak (.ofSeed 1) = .ok (t', r) ∧ t.length = 4 ∧
      List.Forall₂ Usage.AgedTo t.steps t'.steps ∧
      ∃ l l', SizingPolicy.standard.label t = .ok l ∧ SizingPolicy.standard.label t' = .ok l' ∧
        l.AgedTo l' := by
  intro source model start start' leak
  have hupward : source.Upward := Random.Generator.source_upward
  have hstart : start.InRange := ⟨by decide, by decide, by decide⟩
  have hstart' : start'.InRange := ⟨by decide, by decide, by decide⟩
  have hage : start.AgedTo start' := ⟨rfl, rfl, by decide⟩
  have hhours : 0.0 < model.stepHours ∧ model.stepHours ≤ 168.0 := by decide
  exact ⟨⟨hupward, hupward.toReliable, hstart, hstart', hage, hhours, by norm_num⟩,
    never_smaller_with_age hupward hupward.toReliable hstart hstart' hage hhours (by norm_num) leak _⟩

end TraceModel

end WorkloadSynth
