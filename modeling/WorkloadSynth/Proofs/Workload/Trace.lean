import WorkloadSynth.Proofs.Workload.Step

/-!
# Traces succeed and stay in range

The invariant of a run is that the medians handed on lie between the bounds that medians are clamped
to.  One step keeps it and yields a moderate usage at its own moment (`TraceModel.step_spec`); by
induction so does every step of a run (`TraceModel.stepsFrom_spec`).
-/

set_option autoImplicit false

namespace WorkloadSynth

open Binary64 (Within)

variable {σ : Type}

namespace TraceModel

section Runs

variable {model : TraceModel Float} {nominal injected : NoiseSource σ Float} {start : Moment Float}

theorem step_spec (hnominal : nominal.Reliable) (hinjected : injected.Reliable) (hstart : start.InRange)
    (hhours : Within 0.0 168.0 model.stepHours) (episode : Option Episode) {index : ℕ}
    (hindex : index ≤ 2 ^ 64) {previous : Option (Carry Float)} (hprevious : ∀ c ∈ previous, c.Held)
    (s : σ) : ∃ u carry s', model.step nominal injected start episode index previous s =
        .ok (u, carry, s') ∧
      u.Moderate ∧ u.At (start.later index model.stepHours) ∧ ∀ c ∈ carry, c.Held := by
  have hp := model.archetype.profile_usual
  have hm := Moment.later_inRange hstart hindex hhours
  have hnoise := StepNoise.draw_defined hnominal hp s
  obtain ⟨u, c, hstep, hu, hat, hheld⟩ := Profile.nominalStep_spec hp hm hprevious hnoise
  have hcarry : ∀ c' ∈ (if model.carries then some c else none), c'.Held := by
    split_ifs
    · rintro c' ⟨⟩
      exact hheld
    · exact nofun
  unfold step
  simp only [hstep, bind, Except.bind]
  cases episode with
  | none => exact ⟨u, _, _, rfl, hu, hat, hcarry⟩
  | some e =>
      obtain ⟨v, s', hstrike, hv, hvat⟩ := e.strike_spec hinjected index hu hat
        (StepNoise.draw nominal model.archetype.profile s).2
      simp only [hstrike]
      exact ⟨v, _, s', rfl, hv, hvat, hcarry⟩

theorem stepsFrom_spec (hnominal : nominal.Reliable) (hinjected : injected.Reliable)
    (hstart : start.InRange) (hhours : Within 0.0 168.0 model.stepHours) (episode : Option Episode)
    {count index : ℕ} (hcount : index + count ≤ 2 ^ 64) {previous : Option (Carry Float)}
    (hprevious : ∀ c ∈ previous, c.Held) (s : σ) :
    ∃ steps s', model.stepsFrom nominal injected start episode count index previous s =
        .ok (steps, s') ∧ steps.length = count ∧
      ∀ (i : ℕ) (u : Usage Float), steps[i]? = some u → u.Moderate ∧ u.At (start.later (index + i) model.stepHours) := by
  induction count generalizing index previous s with
  | zero => exact ⟨[], s, rfl, rfl, fun i u h => by simp at h⟩
  | succ count ih =>
      obtain ⟨u, carry, s₁, hstep, hu, hat, hcarry⟩ :=
        step_spec hnominal hinjected hstart hhours episode (by omega : index ≤ 2 ^ 64) hprevious s
      obtain ⟨rest, s₂, hrest, hlength, hall⟩ :=
        ih (by omega : index + 1 + count ≤ 2 ^ 64) hcarry s₁
      refine ⟨u :: rest, s₂, ?_, by rw [List.length_cons, hlength], ?_⟩
      · simp only [stepsFrom, hstep, hrest, bind, Except.bind, pure, Except.pure]
      · intro i v hv
        cases i with
        | zero =>
            obtain rfl : u = v := by simpa using hv
            exact ⟨hu, hat⟩
        | succ i =>
            obtain ⟨hmoderate, hvat⟩ := hall i v (by simpa using hv)
            exact ⟨hmoderate, by rwa [show index + (i + 1) = index + 1 + i by omega]⟩

theorem trace_spec (hnominal : nominal.Reliable) (hinjected : injected.Reliable)
    (hstart : start.InRange) (hhours : Within 0.0 168.0 model.stepHours) {length : ℕ}
    (hlength : length ≤ 2 ^ 64) (episode : Option Episode) (s : σ) :
    ∃ steps s', model.trace nominal injected start length episode s =
        .ok (⟨model.archetype, start, episode, steps⟩, s') ∧ steps.length = length ∧
      ∀ (i : ℕ) (u : Usage Float), steps[i]? = some u → u.Moderate ∧ u.At (start.later i model.stepHours) := by
  have hnone : ∀ c : Carry Float, none = some c → c.Held := fun _ h => nomatch h
  obtain ⟨steps, s', hrun, hsteps, hall⟩ := stepsFrom_spec hnominal hinjected hstart hhours episode
    (by omega : 0 + length ≤ 2 ^ 64) hnone s
  refine ⟨steps, s', ?_, hsteps, fun i u h => by simpa using hall i u h⟩
  simp only [trace, hrun, bind, Except.bind, pure, Except.pure]

/-- From a start in range and with noise that is never undefined, a trace of any length that a word can
hold is made: it has that many steps, and each is well-formed, keeps its lower percentiles from the ends
of the unit interval and shows the time that many steps after the start. -/
theorem trace_in_range (hnominal : nominal.Reliable) (hinjected : injected.Reliable)
    (hstart : start.InRange) (hhours : 0.0 < model.stepHours ∧ model.stepHours ≤ 168.0) {length : ℕ}
    (hlength : length < 2 ^ 64) (episode : Option Episode) (s : σ) :
    ∃ t s', model.trace nominal injected start length episode s = .ok (t, s') ∧ t.length = length ∧
      ∀ (i : ℕ) (u : Usage Float), t.steps[i]? = some u →
        u.WellFormed ∧ (0.01 ≤ u.cpu.p50 ∧ u.cpu.p50 ≤ 0.95 ∧ u.cpu.p95 ≤ 0.98) ∧
        (0.01 ≤ u.memory.p50 ∧ u.memory.p50 ≤ 0.95 ∧ u.memory.p95 ≤ 0.98) ∧
        (u.hour = (start.later i model.stepHours).hour ∧ u.day = (start.later i model.stepHours).day ∧
          u.age = (start.later i model.stepHours).relativeAge) ∧
        (0.0 ≤ u.hour ∧ u.hour < 1.0) ∧ (0.0 ≤ u.day ∧ u.day < 1.0) ∧ (0.0 ≤ u.age ∧ u.age ≤ 1.0) := by
  have hwithin : Within 0.0 168.0 model.stepHours :=
    ⟨Scalar.le_of_lt hhours.1, hhours.2, by decide, by decide +kernel⟩
  obtain ⟨steps, s', htrace, hsteps, hall⟩ :=
    trace_spec hnominal hinjected hstart hwithin hlength.le episode s
  refine ⟨_, s', htrace, hsteps, fun i u hu => ?_⟩
  obtain ⟨hmoderate, hat⟩ := hall i u hu
  have hi : i < length := hsteps ▸ (List.getElem?_eq_some_iff.mp hu).1
  have hlater := Moment.later_inRange hstart (by omega : i ≤ 2 ^ 64) hwithin
  refine ⟨hmoderate.wellFormed, ⟨hmoderate.cpu.median.1, hmoderate.cpu.median.2, hmoderate.cpu.middle.2⟩,
    ⟨hmoderate.memory.median.1, hmoderate.memory.median.2, hmoderate.memory.middle.2⟩,
    ⟨hat.hour, hat.day, hat.age⟩, ?_⟩
  rw [hat.hour, hat.day, hat.age]
  exact ⟨hlater.hour, hlater.day, Moment.relativeAge_mem hlater⟩

end Runs

/-- Nor do infinite noise terms keep a trace from being made. -/
theorem trace_in_range_under_infinite_noise :
    let noise : NoiseSource Unit Float := ⟨fun _ s => (-1.0 / 0.0, s), fun _ _ s => (1.0 / 0.0, s)⟩
    let model : TraceModel Float := ⟨.database, 168.0, true⟩
    let start : Moment Float := ⟨0.5, 0.25, 1e300⟩
    (noise.Reliable ∧ start.InRange ∧ 0.0 < model.stepHours ∧ model.stepHours ≤ 168.0 ∧ 3 < 2 ^ 64) ∧
    ∃ t s', model.trace noise noise start 3 (some ⟨.memoryLeak, 1⟩) () = .ok (t, s') ∧ t.length = 3 ∧
      ∀ (i : ℕ) (u : Usage Float), t.steps[i]? = some u →
        u.WellFormed ∧ (0.01 ≤ u.cpu.p50 ∧ u.cpu.p50 ≤ 0.95 ∧ u.cpu.p95 ≤ 0.98) ∧
        (0.01 ≤ u.memory.p50 ∧ u.memory.p50 ≤ 0.95 ∧ u.memory.p95 ≤ 0.98) ∧
        (u.hour = (start.later i model.stepHours).hour ∧ u.day = (start.later i model.stepHours).day ∧
          u.age = (start.later i model.stepHours).relativeAge) ∧
        (0.0 ≤ u.hour ∧ u.hour < 1.0) ∧ (0.0 ≤ u.day ∧ u.day < 1.0) ∧
        (0.0 ≤ u.age ∧ u.age ≤ 1.0) := by
  intro noise model start
  have hlow : ¬ Scalar.IsUndefined (-1.0 / 0.0 : Float) := by decide +kernel
  have hhigh : ¬ Scalar.IsUndefined (1.0 / 0.0 : Float) := by decide +kernel
  have hnoise : noise.Reliable := ⟨fun _ _ _ _ => hlow, fun _ _ _ _ _ _ => hhigh⟩
  have hstart : start.InRange :=
    ⟨by decide +kernel, by decide +kernel, by decide +kernel⟩
  have hhours : 0.0 < model.stepHours ∧ model.stepHours ≤ 168.0 := by decide +kernel
  exact ⟨⟨hnoise, hstart, hhours.1, hhours.2, by norm_num⟩,
    trace_in_range hnoise hnoise hstart hhours (by norm_num) (some ⟨.memoryLeak, 1⟩) ()⟩

end TraceModel

end WorkloadSynth
