import WorkloadSynth.Proofs.Workload.Bounding
import WorkloadSynth.Proofs.Workload.Raise
import WorkloadSynth.Workload.Injector

/-!
# What one injector does to readings in any order

An injector distorts readings and has them bounded again, which goes through every reading.  Readings that
were well-formed are not moved by the bounding, so only those the anomaly touches can change, and the factors
of the anomalies lower none of them (`Episode.distort_touches`).  Other readings come out well-formed too, as
long as none of them is undefined: no product and no sum of the anomalies makes an undefined value
(`Episode.distort_repairs`).  Whatever was applied before, the injector keeps its episode, so the same holds
of every application in a sequence (`Injector.applyAll_spec`).
-/

set_option autoImplicit false

namespace WorkloadSynth

variable {σ α : Type} [Scalar α]

/-! ## Readings that an anomaly touches -/

def Anomaly.Touches : Anomaly → Usage α → Usage α → Prop
  | memoryLeak, u, v =>
    v = { u with memoryTrend := v.memoryTrend, memory := { u.memory with p99 := v.memory.p99 } }
  | cpuSpike, u, v =>
    v = { u with
      cpu := { u.cpu with p99 := v.cpu.p99 }, cpuVariance := v.cpuVariance, throttle := v.throttle }
  | noisy, u, v => v = { u with cpuVariance := v.cpuVariance }

structure Usage.NotLowered (u v : Usage α) : Prop where
  cpu : u.cpu.p99 ≤ v.cpu.p99
  memory : u.memory.p99 ≤ v.memory.p99
  cpuVariance : u.cpuVariance ≤ v.cpuVariance
  throttle : u.throttle ≤ v.throttle

theorem Usage.founded_and_readable {u : Usage α} (h : ∀ x ∈ u.toList, x ≤ x) : u.Founded ∧ u.Readable := by
  refine ⟨⟨⟨h _ ?_, h _ ?_⟩, h _ ?_, h _ ?_⟩, h _ ?_, h _ ?_, h _ ?_, h _ ?_, h _ ?_⟩ <;> simp [toList]

section

variable [LawfulOrder α] {u : Usage α}

theorem Usage.WellFormed.trimmed_eq (h : u.WellFormed) : u.trimmed = u := by
  have hbounded := bounded_of_rising h.1.rising h.2.1.rising
  rw [h.bounded_eq] at hbounded
  exact (Except.ok.inj hbounded).symm

theorem Usage.WellFormed.readable (h : u.WellFormed) : u.Readable := by
  obtain ⟨hcpu, hmemory, hvariance, htrend, hthrottle⟩ := h
  exact ⟨LawfulOrder.defined_left hcpu.2.2.2.2, LawfulOrder.defined_left hmemory.2.2.2.2,
    LawfulOrder.defined_right hvariance.1, LawfulOrder.defined_right htrend.1,
    LawfulOrder.defined_right hthrottle.1⟩

/-- Trimming puts back in place what a distortion leaves alone. -/
theorem Episode.touches_trimmed (k : Anomaly) (source : NoiseSource σ α) (hu : u.WellFormed) (s : σ) :
    k.Touches u (distort k source u s).1.trimmed := by
  have htrimmed := hu.trimmed_eq
  have hcpu : u.cpu.trimmed = u.cpu := congrArg Usage.cpu htrimmed
  have hmemory : u.memory.trimmed = u.memory := congrArg Usage.memory htrimmed
  have hvariance : Scalar.confineUnit u.cpuVariance = u.cpuVariance := congrArg Usage.cpuVariance htrimmed
  have htrend : Scalar.confine u.memoryTrend (-1.0) 1.0 = u.memoryTrend :=
    congrArg Usage.memoryTrend htrimmed
  have hthrottle : Scalar.confineUnit u.throttle = u.throttle := congrArg Usage.throttle htrimmed
  cases k with
  | memoryLeak =>
      simp only [Anomaly.Touches, distort, Usage.trimmed, hcpu, hvariance, hthrottle]
      rfl
  | cpuSpike =>
      simp only [Anomaly.Touches, distort, Usage.trimmed, hmemory, htrend]
      rfl
  | noisy => simp only [Anomaly.Touches, distort, Usage.trimmed, hcpu, hmemory, htrend, hthrottle]

end

/-! ## Distorted doubles -/

namespace Episode

variable (k : Anomaly) (source : NoiseSource σ Float) {u : Usage Float}

theorem distort_founded (s : σ) : (distort k source u s).1.Founded ↔ u.Founded := by
  cases k <;> exact Iff.rfl

theorem distort_readable (hdraws : ∀ s, (source.uniform 0.0 0.2 s).1.isNaN = false) (hu : u.Readable)
    (s : σ) : (distort k source u s).1.Readable := by
  have hclamped {x : Float} (hx : x ≤ x) : Scalar.confineUnit x ≤ Scalar.confineUnit x :=
    LawfulOrder.defined_right (Scalar.confineUnit_mem hx).1
  cases k with
  | memoryLeak =>
      have htail : u.memory.p99 * 1.3 ≤ u.memory.p99 * 1.3 :=
        Binary64.defined_mul_of_pos hu.memory (by decide) (by decide)
      have htrend := Binary64.defined_add_right (x := 0.3) (by decide) (Binary64.defined_of_isNaN (hdraws s))
      exact ⟨hu.cpu, hclamped htail, hu.cpuVariance, htrend, hu.throttle⟩
  | cpuSpike =>
      have hdouble {x : Float} (hx : x ≤ x) : x * 2.0 ≤ x * 2.0 :=
        Binary64.defined_mul_of_pos hx (by decide) (by decide)
      exact ⟨hclamped (hdouble hu.cpu), hu.memory, hdouble hu.cpuVariance, hu.memoryTrend,
        hclamped (hdouble hu.throttle)⟩
  | noisy =>
      have hvariance : u.cpuVariance * 3.0 ≤ u.cpuVariance * 3.0 :=
        Binary64.defined_mul_of_pos hu.cpuVariance (by decide) (by decide)
      exact ⟨hu.cpu, hu.memory, hvariance, hu.memoryTrend, hu.throttle⟩

theorem distort_repairs (hdraws : ∀ s, (source.uniform 0.0 0.2 s).1.isNaN = false) (hfounded : u.Founded)
    (hreadable : u.Readable) (s : σ) :
    ∃ v, (distort k source u s).1.bounded = .ok v ∧ v.WellFormed := by
  have h := (distort_founded k source s).mpr hfounded
  exact ⟨_, Usage.bounded_eq_ok_iff.mpr ⟨h, rfl⟩,
    (Usage.wellFormed_leveled h).mpr (distort_readable k source hdraws hreadable s)⟩

theorem le_confineUnit_scaled {x f : Float} (h : 0.0 ≤ x ∧ x ≤ 1.0) (hf : f.isFinite = true) (h₁ : 1.0 ≤ f) :
    x ≤ Scalar.confineUnit (x * f) :=
  have hx : x.isFinite = true := Binary64.isFinite_of_between (by decide) (by decide) h.1 h.2
  Scalar.le_confine (Binary64.le_mul hx h.1 hf h₁) h.2

theorem notLowered_trimmed (hu : u.WellFormed) (s : σ) : u.NotLowered (distort k source u s).1.trimmed := by
  obtain ⟨-, hraised⟩ := distort_raises k source hu s
  obtain ⟨-, -, hvariance, -, hthrottle⟩ := hu
  have hkept {x : Float} (hx : 0.0 ≤ x ∧ x ≤ 1.0) : x ≤ Scalar.confineUnit x :=
    Scalar.le_confine (LawfulOrder.defined_left hx.2) hx.2
  refine ⟨hraised.cpuTail.2.1, hraised.memoryTail.2.1, ?_, ?_⟩
  · cases k with
    | memoryLeak => exact hkept hvariance
    | cpuSpike => exact le_confineUnit_scaled hvariance (by decide) (by decide)
    | noisy => exact le_confineUnit_scaled hvariance (by decide) (by decide)
  · cases k with
    | memoryLeak => exact hkept hthrottle
    | cpuSpike =>
        have hdoubled := le_confineUnit_scaled (f := 2.0) hthrottle (by decide) (by decide)
        exact Scalar.le_confine hdoubled hthrottle.2
    | noisy => exact hkept hthrottle

theorem distort_touches (hu : u.WellFormed) (s : σ) :
    ∃ v, (distort k source u s).1.bounded = .ok v ∧ k.Touches u v ∧ u.NotLowered v :=
  ⟨_, (distort_raises k source hu s).1, touches_trimmed k source hu s, notLowered_trimmed k source hu s⟩

end Episode

/-! ## Applications -/

namespace Injector

theorem strike_eq_apply (e : Episode) (source : NoiseSource σ α) (index : Nat) (u : Usage α) (s : σ) :
    e.strike source index u s =
      (apply source ⟨e, s⟩ index u).1.map fun r => (r.2, (apply source ⟨e, s⟩ index u).2.noise) := by
  unfold Episode.strike apply
  split
  · cases h : (Episode.distort e.anomaly source u s).1.bounded <;>
      simp only [h, bind, Except.bind, Except.map, pure, Except.pure]
  · rfl

variable (source : NoiseSource σ α) (i : Injector σ) (index : Nat) (u : Usage α)

theorem apply_of_lt (h : index < i.episode.onset) : i.apply source index u = (.ok (false, u), i) :=
  if_neg (Nat.not_le.mpr h)

theorem apply_of_le (h : i.episode.onset ≤ index) : i.apply source index u =
    ((Episode.distort i.episode.anomaly source u i.noise).1.bounded.map fun v => (true, v),
      ⟨i.episode, (Episode.distort i.episode.anomaly source u i.noise).2⟩) :=
  if_pos h

theorem episode_apply : (i.apply source index u).2.episode = i.episode := by
  unfold apply
  split <;> rfl

/-- What an application to some readings gives. -/
structure Applied (e : Episode) (index : Nat) (u : Usage Float) (outcome : Outcome Float) : Prop where
  before : index < e.onset → outcome = .ok (false, u)
  touched : e.onset ≤ index → ∀ r, outcome = .ok r → r.1 = true
  repaired : e.onset ≤ index → (∀ x ∈ u.toList, x.isNaN = false) →
    ∃ v, outcome = .ok (true, v) ∧ v.WellFormed
  framed : e.onset ≤ index → u.WellFormed →
    ∃ v, outcome = .ok (true, v) ∧ v.WellFormed ∧ e.anomaly.Touches u v ∧ u.NotLowered v

theorem apply_spec {source : NoiseSource σ Float}
    (hdraws : ∀ s, (source.uniform 0.0 0.2 s).1.isNaN = false) (i : Injector σ) (index : Nat)
    (u : Usage Float) : Applied i.episode index u (i.apply source index u).1 := by
  have hok {v : Usage Float} (hle : i.episode.onset ≤ index)
      (hv : (Episode.distort i.episode.anomaly source u i.noise).1.bounded = .ok v) :
      (i.apply source index u).1 = .ok (true, v) := by
    rw [apply_of_le source i index u hle, hv]
    rfl
  have hrepaired (hle : i.episode.onset ≤ index) (hfounded : u.Founded) (hreadable : u.Readable) :
      ∃ v, (i.apply source index u).1 = .ok (true, v) ∧ v.WellFormed := by
    obtain ⟨v, hv, hwell⟩ :=
      Episode.distort_repairs i.episode.anomaly source hdraws hfounded hreadable i.noise
    exact ⟨v, hok hle hv, hwell⟩
  refine ⟨?_, ?_, ?_, ?_⟩
  · intro hlt
    rw [apply_of_lt source i index u hlt]
  · intro hle r hr
    rw [apply_of_le source i index u hle] at hr
    cases hbounded : (Episode.distort i.episode.anomaly source u i.noise).1.bounded <;>
      rw [hbounded] at hr <;> cases hr
    rfl
  · intro hle hdefined
    obtain ⟨hfounded, hreadable⟩ :=
      Usage.founded_and_readable fun x hx => Binary64.defined_of_isNaN (hdefined x hx)
    exact hrepaired hle hfounded hreadable
  · intro hle hu
    obtain ⟨v, hv, hwell⟩ := hrepaired hle ⟨hu.1.founded, hu.2.1.founded⟩ hu.readable
    obtain ⟨w, hw, htouches, hkept⟩ := Episode.distort_touches i.episode.anomaly source hu i.noise
    obtain ⟨-, rfl⟩ := Prod.mk.inj (Except.ok.inj (hv.symm.trans (hok hle hw)))
    exact ⟨v, hv, hwell, htouches, hkept⟩

/-! ## Sequences of applications -/

def calls (e : Episode) (applications : List (Nat × Usage α)) : List (NoiseCall α) :=
  applications.flatMap fun a => if e.Covers a.1 then Episode.anomalyCalls e.anomaly else []

theorem apply_recorded (source : NoiseSource σ α) (e : Episode) (s : σ) (noted : List (NoiseCall α))
    (index : Nat) (u : Usage α) :
    apply (source.recorded id) ⟨e, s, noted⟩ index u = ((apply source ⟨e, s⟩ index u).1,
      ⟨e, (apply source ⟨e, s⟩ index u).2.noise, (calls e [(index, u)]).reverse ++ noted⟩) := by
  simp only [calls, List.flatMap_cons, List.flatMap_nil, List.append_nil]
  unfold apply
  split
  · rw [Episode.distort_recorded]
    cases e.anomaly <;> rfl
  · rfl

theorem applyAll_recorded (source : NoiseSource σ α) (i : Injector σ) (noted : List (NoiseCall α))
    (applications : List (Nat × Usage α)) :
    applyAll (source.recorded id) ⟨i.episode, i.noise, noted⟩ applications =
      ((i.applyAll source applications).1, ⟨i.episode, (i.applyAll source applications).2.noise,
        (calls i.episode applications).reverse ++ noted⟩) := by
  induction applications generalizing i noted with
  | nil => rfl
  | cons a rest ih =>
      obtain ⟨index, u⟩ := a
      have hepisode := episode_apply source i index u
      have hcalls : calls i.episode ((index, u) :: rest) =
          calls i.episode [(index, u)] ++ calls i.episode rest := by
        simp [calls]
      have hrest := ih (i.apply source index u).2 ((calls i.episode [(index, u)]).reverse ++ noted)
      rw [hepisode] at hrest
      simp only [applyAll, apply_recorded, hrest, hcalls, List.reverse_append, List.append_assoc]

theorem applyAll_applied {source : NoiseSource σ Float}
    (hdraws : ∀ s, (source.uniform 0.0 0.2 s).1.isNaN = false) (i : Injector σ)
    (applications : List (Nat × Usage Float)) :
    List.Forall₂ (fun a outcome => Applied i.episode a.1 a.2 outcome) applications
      (i.applyAll source applications).1 := by
  induction applications generalizing i with
  | nil => exact .nil
  | cons a rest ih =>
      have hrest := ih (i.apply source a.1 a.2).2
      rw [episode_apply] at hrest
      exact .cons (apply_spec hdraws i a.1 a.2) hrest

/-- However often an injector is applied, to whatever readings and in whatever order of steps: an application
before the onset leaves the readings alone, and from the onset on it touches them and gives something
well-formed for all readings of which none is undefined; of well-formed readings it changes those of its
anomaly alone, and lowers no tail, no variance and no throttle.  The calls of its source are those of a memory
leak, one for each application from the onset on. -/
theorem applyAll_spec {source : NoiseSource σ Float}
    (hdraws : ∀ s, (source.uniform 0.0 0.2 s).1.isNaN = false) (i : Injector σ)
    (applications : List (Nat × Usage Float)) :
    List.Forall₂ (fun a outcome => Applied i.episode a.1 a.2 outcome) applications
        (i.applyAll source applications).1 ∧
      ∀ noted : List (NoiseCall Float),
        applyAll (source.recorded id) ⟨i.episode, i.noise, noted⟩ applications =
          ((i.applyAll source applications).1, ⟨i.episode, (i.applyAll source applications).2.noise,
            (calls i.episode applications).reverse ++ noted⟩) :=
  ⟨applyAll_applied hdraws i applications, fun noted => applyAll_recorded source i noted applications⟩

theorem leak_applied_three_times :
    let source : NoiseSource Nat Float :=
      ⟨fun _ n => (0.0, n), fun low high n => (if n % 2 = 0 then low else high, n + 1)⟩
    let calm : Usage Float := ⟨⟨0.1, 0.2, 0.3⟩, ⟨0.9, 0.95, 0.97⟩, 0.0, -1.0, 1.0, 5.0, -0.0, 0.5⟩
    let wild : Usage Float :=
      ⟨⟨1.0 / 0.0, 0.25, -3.0⟩, ⟨0.3, 0.2, 0.25⟩, 7.0, -2.0, -1.0 / 0.0, 5.0, -0.0, 0.5⟩
    let i : Injector Nat := ⟨⟨.memoryLeak, 3⟩, 0⟩
    let applications := [(2, wild), (7, calm), (3, wild)]
    (∀ s, (source.uniform 0.0 0.2 s).1.isNaN = false) ∧
      (∃ v w, (i.applyAll source applications).1 = [.ok (false, wild), .ok (true, v), .ok (true, w)] ∧
        v.WellFormed ∧ Anomaly.memoryLeak.Touches calm v ∧ calm.NotLowered v ∧ w.WellFormed) ∧
      (applyAll (source.recorded id) ⟨i.episode, i.noise, []⟩ applications).2.noise.2 =
        [.uniform 0.0 0.2, .uniform 0.0 0.2] := by
  intro source calm wild i applications
  have hdraws : ∀ s, (source.uniform 0.0 0.2 s).1.isNaN = false := by
    intro s
    change (if s % 2 = 0 then (0.0 : Float) else 0.2).isNaN = false
    split <;> decide
  obtain ⟨hall, hcalls⟩ := applyAll_spec hdraws i applications
  refine ⟨hdraws, ?_, ?_⟩
  · obtain ⟨first, _, h₁, hlater, houtcomes⟩ := List.forall₂_cons_left_iff.mp hall
    obtain ⟨second, _, h₂, hlast, rfl⟩ := List.forall₂_cons_left_iff.mp hlater
    obtain ⟨third, _, h₃, hnone, rfl⟩ := List.forall₂_cons_left_iff.mp hlast
    obtain rfl := List.forall₂_nil_left_iff.mp hnone
    obtain ⟨v, rfl, hv, htouches, hkept⟩ := h₂.framed (by decide) (by decide)
    obtain ⟨w, rfl, hw⟩ := h₃.repaired (by decide) (by decide)
    obtain rfl := h₁.before (by decide)
    exact ⟨v, w, houtcomes, hv, htouches, hkept, hw⟩
  · rw [hcalls []]
    rfl

end Injector

end WorkloadSynth
