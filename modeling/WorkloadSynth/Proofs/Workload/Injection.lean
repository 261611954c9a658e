import WorkloadSynth.Proofs.Number.Order
import WorkloadSynth.Workload.Trace

/-!
# An episode strikes a finished trace

The trace with an episode is the trace without one, followed by a pass of the episode over its steps
(`TraceModel.trace_episode`): the medians handed on are taken before a step is struck, and each source
keeps to its own state.  `Episode.strikeFrom` is that pass.  It changes nothing before the onset, and the
only calls it makes are those of a memory leak, one for each step it covers.
-/

set_option autoImplicit false

namespace WorkloadSynth

variable {σ τ α : Type} [Scalar α]

/-! ## Two sources on a pair of states -/

theorem StepNoise.draw_onFirst (source : NoiseSource σ α) (p : Profile α) (s : σ × τ) :
    draw source.onFirst p s = ((draw source p s.1).1, (draw source p s.1).2, s.2) := rfl

namespace Episode

theorem distort_onSecond (anomaly : Anomaly) (source : NoiseSource τ α) (u : Usage α) (s : σ × τ) :
    distort anomaly source.onSecond u s =
      ((distort anomaly source u s.2).1, s.1, (distort anomaly source u s.2).2) := by
  cases anomaly <;> rfl

theorem strike_onSecond (e : Episode) (source : NoiseSource τ α) (index : Nat) (u : Usage α)
    (s : σ × τ) : e.strike source.onSecond index u s =
      (e.strike source index u s.2).map fun r => (r.1, s.1, r.2) := by
  unfold strike
  split
  · rw [distort_onSecond]
    cases h : (distort e.anomaly source u s.2).1.bounded <;>
      simp only [h, bind, Except.bind, Except.map, pure, Except.pure]
  · rfl

theorem strike_of_lt {e : Episode} {index : Nat} (h : index < e.onset) (source : NoiseSource τ α)
    (u : Usage α) (s : τ) : e.strike source index u s = .ok (u, s) :=
  if_neg (Nat.not_le.mpr h)

/-! ## The pass over a trace -/

def strikeFrom (e : Episode) (source : NoiseSource τ α) :
    (index : Nat) → List (Usage α) → τ → Except RangeFault (List (Usage α) × τ)
  | _, [], s => pure ([], s)
  | index, u :: rest, s => do
    let (v, s) ← e.strike source index u s
    let (struck, s) ← strikeFrom e source (index + 1) rest s
    pure (v :: struck, s)

theorem strikeFrom_spec {e : Episode} {source : NoiseSource τ α} {steps : List (Usage α)} {index : Nat}
    {s s' : τ} {struck : List (Usage α)} (h : e.strikeFrom source index steps s = .ok (struck, s')) :
    struck.length = steps.length ∧ ∃ states : Nat → τ, states 0 = s ∧ states steps.length = s' ∧
      ∀ (i : Nat) (u : Usage α), steps[i]? = some u → ∃ v, struck[i]? = some v ∧
        e.strike source (index + i) u (states i) = .ok (v, states (i + 1)) := by
  induction steps generalizing index s struck with
  | nil =>
      cases h
      exact ⟨rfl, fun _ => s', rfl, rfl, fun i u hu => by simp at hu⟩
  | cons u rest ih =>
      obtain ⟨⟨v, s₁⟩, hstrike, h⟩ := bind_eq_ok.mp h
      obtain ⟨⟨tail, s₂⟩, hrest, h⟩ := bind_eq_ok.mp h
      cases h
      obtain ⟨hlength, states, hzero, hlast, hall⟩ := ih hrest
      refine ⟨by simp [hlength], fun i => i.casesOn s states, rfl, hlast, fun i w hw => ?_⟩
      cases i with
      | zero =>
          obtain rfl : u = w := by simpa using hw
          refine ⟨v, rfl, ?_⟩
          change e.strike source index u s = .ok (v, states 0)
          rw [hzero, hstrike]
      | succ i =>
          obtain ⟨x, hx, hstruck⟩ := hall i w (by simpa using hw)
          refine ⟨x, by simpa using hx, ?_⟩
          rw [show index + (i + 1) = index + 1 + i by omega]
          exact hstruck

theorem getElem?_strikeFrom_of_lt {e : Episode} {source : NoiseSource τ α} {steps : List (Usage α)}
    {s s' : τ} {struck : List (Usage α)} (h : e.strikeFrom source 0 steps s = .ok (struck, s')) {i : Nat}
    (hi : i < e.onset) : struck[i]? = steps[i]? := by
  obtain ⟨hlength, states, -, -, hall⟩ := strikeFrom_spec h
  cases hu : steps[i]? with
  | none =>
      rw [List.getElem?_eq_none_iff] at hu ⊢
      omega
  | some u =>
      obtain ⟨v, hv, hstrike⟩ := hall i u hu
      rw [Nat.zero_add, strike_of_lt hi] at hstrike
      rw [hv, (Prod.mk.inj (Except.ok.inj hstrike)).1]

/-! ## Calls -/

def anomalyCalls : Anomaly → List (NoiseCall α)
  | .memoryLeak => [.uniform 0.0 0.2]
  | .cpuSpike | .noisy => []

def callsFrom (e : Episode) (index count : Nat) : List (NoiseCall α) :=
  (List.replicate (count - (e.onset - index)) (anomalyCalls e.anomaly)).flatten

theorem distort_recorded {β : Type} (note : NoiseCall α → β) (anomaly : Anomaly)
    (source : NoiseSource τ α) (u : Usage α) (s : τ × List β) :
    distort anomaly (source.recorded note) u s = ((distort anomaly source u s.1).1,
      (distort anomaly source u s.1).2, (anomalyCalls anomaly).map note ++ s.2) := by
  cases anomaly <;> rfl

theorem strike_recorded {β : Type} (note : NoiseCall α → β) (e : Episode) (source : NoiseSource τ α)
    (index : Nat) (u : Usage α) (s : τ × List β) :
    e.strike (source.recorded note) index u s = (e.strike source index u s.1).map
      fun r => (r.1, r.2, (if e.Covers index then (anomalyCalls e.anomaly).map note else []) ++ s.2) := by
  unfold strike
  split
  · rw [distort_recorded]
    cases h : (distort e.anomaly source u s.1).1.bounded <;>
      simp only [h, bind, Except.bind, Except.map, pure, Except.pure]
  · rfl

/-- The first step of a run adds its calls to those of the rest.  All calls of an episode are alike, so
it does not matter at which end. -/
theorem callsFrom_succ (e : Episode) (index count : Nat) :
    (e.callsFrom index (count + 1) : List (NoiseCall α)) =
      e.callsFrom (index + 1) count ++ if e.Covers index then anomalyCalls e.anomaly else [] := by
  unfold callsFrom
  split
  · next h =>
    have hfirst : count + 1 - (e.onset - index) = count - (e.onset - (index + 1)) + 1 := by
      have : e.onset ≤ index := h
      omega
    rw [hfirst, List.replicate_succ', List.flatten_append]
    simp
  · next h =>
    have hfirst : count + 1 - (e.onset - index) = count - (e.onset - (index + 1)) := by
      have : ¬ e.onset ≤ index := h
      omega
    rw [hfirst, List.append_nil]

theorem strikeFrom_recorded {β : Type} (note : NoiseCall α → β) (e : Episode)
    (source : NoiseSource τ α) (index : Nat) (steps : List (Usage α)) (s : τ × List β) :
    e.strikeFrom (source.recorded note) index steps s = (e.strikeFrom source index steps s.1).map
      fun r => (r.1, r.2, (e.callsFrom index steps.length).map note ++ s.2) := by
  induction steps generalizing index s with
  | nil => simp [strikeFrom, callsFrom, Except.map, pure, Except.pure]
  | cons u rest ih =>
      simp only [strikeFrom, strike_recorded]
      cases e.strike source index u s.1 with
      | error fault => rfl
      | ok v =>
          simp only [Except.map, bind, Except.bind, ih]
          cases e.strikeFrom source (index + 1) rest v.2 with
          | error fault => rfl
          | ok tail =>
              simp only [pure, Except.pure, List.length_cons, callsFrom_succ, List.map_append,
                List.append_assoc]
              split <;> rfl

end Episode

/-! ## Runs with and without an episode -/

namespace TraceModel

variable (model : TraceModel α) (nominal : NoiseSource σ α) (injected : NoiseSource τ α)
  (start : Moment α)

theorem step_nominal (index : Nat) (previous : Option (Carry α)) (s : σ × τ) :
    model.step nominal.onFirst injected.onSecond start none index previous s =
      (model.step nominal nominal start none index previous s.1).map
        fun r => (r.1, r.2.1, r.2.2, s.2) := by
  simp only [step, StepNoise.draw_onFirst]
  cases model.archetype.profile.nominalStep (start.later index model.stepHours) previous
      (StepNoise.draw nominal model.archetype.profile s.1).1 <;>
    simp only [bind, Except.bind, Except.map, pure, Except.pure]

theorem step_episode (e : Episode) (index : Nat) (previous : Option (Carry α)) (s : σ × τ) :
    model.step nominal.onFirst injected.onSecond start (some e) index previous s =
      (do
        let (u, carry, s₁) ← model.step nominal nominal start none index previous s.1
        let (v, s₂) ← e.strike injected index u s.2
        pure (v, carry, s₁, s₂)) := by
  simp only [step, StepNoise.draw_onFirst]
  cases model.archetype.profile.nominalStep (start.later index model.stepHours) previous
      (StepNoise.draw nominal model.archetype.profile s.1).1 with
  | error fault => simp only [bind, Except.bind]
  | ok r =>
      simp only [bind, Except.bind, pure, Except.pure, Episode.strike_onSecond]
      cases e.strike injected index r.1 s.2 <;> rfl

theorem stepsFrom_nominal (count index : Nat) (previous : Option (Carry α)) (s : σ × τ) :
    model.stepsFrom nominal.onFirst injected.onSecond start none count index previous s =
      (model.stepsFrom nominal nominal start none count index previous s.1).map
        fun r => (r.1, r.2, s.2) := by
  induction count generalizing index previous s with
  | zero => rfl
  | succ count ih =>
      rw [stepsFrom, stepsFrom, step_nominal]
      cases model.step nominal nominal start none index previous s.1 with
      | error fault => rfl
      | ok r =>
          simp only [Except.map, bind, Except.bind, ih]
          cases model.stepsFrom nominal nominal start none count (index + 1) r.2.1 r.2.2 <;> rfl

/-- A run with an episode is the run without one and the pass of the episode over its steps; where
either stops so does the other, since there is one way to stop. -/
theorem stepsFrom_episode (e : Episode) (count index : Nat) (previous : Option (Carry α)) (s : σ × τ) :
    model.stepsFrom nominal.onFirst injected.onSecond start (some e) count index previous s =
      (do
        let (steps, s₁) ← model.stepsFrom nominal nominal start none count index previous s.1
        let (struck, s₂) ← e.strikeFrom injected index steps s.2
        pure (struck, s₁, s₂)) := by
  induction count generalizing index previous s with
  | zero => rfl
  | succ count ih =>
      rw [stepsFrom, stepsFrom, step_episode]
      cases model.step nominal nominal start none index previous s.1 with
      | error fault => rfl
      | ok r =>
          obtain ⟨u, carry, s₁⟩ := r
          cases hstrike : e.strike injected index u s.2 with
          | error fault =>
              simp only [bind, Except.bind, hstrike]
              cases model.stepsFrom nominal nominal start none count (index + 1) carry s₁ with
              | error fault' => exact congrArg _ (RangeFault.eq _ _)
              | ok rest => simp only [Episode.strikeFrom, hstrike, bind, Except.bind, pure, Except.pure]
          | ok v =>
              simp only [bind, Except.bind, hstrike, ih, pure, Except.pure]
              cases model.stepsFrom nominal nominal start none count (index + 1) carry s₁ with
              | error fault => rfl
              | ok rest =>
                  simp only [Episode.strikeFrom, hstrike, bind, Except.bind, pure, Except.pure]
                  cases e.strikeFrom injected (index + 1) rest.1 v.2 <;> rfl

theorem length_of_stepsFrom {source : NoiseSource σ α} {episode : Option Episode} {count index : Nat}
    {previous : Option (Carry α)} {s s' : σ} {steps : List (Usage α)}
    (h : model.stepsFrom source source start episode count index previous s = .ok (steps, s')) :
    steps.length = count := by
  induction count generalizing index previous s steps with
  | zero =>
      cases h
      rfl
  | succ count ih =>
      obtain ⟨⟨u, carry, s₁⟩, -, h⟩ := bind_eq_ok.mp h
      obtain ⟨⟨rest, s₂⟩, hrest, h⟩ := bind_eq_ok.mp h
      cases h
      rw [List.length_cons, ih hrest]

theorem trace_nominal (length : Nat) (s : σ × τ) :
    model.trace nominal.onFirst injected.onSecond start length none s =
      (model.trace nominal nominal start length none s.1).map fun r => (r.1, r.2, s.2) := by
  simp only [trace, stepsFrom_nominal]
  cases model.stepsFrom nominal nominal start none length 0 none s.1 <;> rfl

theorem trace_episode (e : Episode) (length : Nat) (s : σ × τ) :
    model.trace nominal.onFirst injected.onSecond start length (some e) s =
      (do
        let (t, s₁) ← model.trace nominal nominal start length none s.1
        let (struck, s₂) ← e.strikeFrom injected 0 t.steps s.2
        pure ({ t with episode := some e, steps := struck }, s₁, s₂)) := by
  simp only [trace, stepsFrom_episode]
  cases model.stepsFrom nominal nominal start none length 0 none s.1 with
  | error fault => rfl
  | ok r =>
      simp only [bind, Except.bind, pure, Except.pure]
      cases e.strikeFrom injected 0 r.1 s.2 <;> rfl

/-- A trace with an episode is the trace without it, struck step after step.  The steps before the onset
stay, and each other one is struck in the state that the step before left to the episode's own source.
The source of the steps is called alike in both runs, and that of the episode as often as the anomaly
asks for it, once for each step concerned. -/
theorem trace_episode_eq_strikes (e : Episode) (length : Nat) (s : σ × τ) :
    (∀ t s', model.trace nominal.onFirst injected.onSecond start length none s = .ok (t, s') →
      s'.2 = s.2) ∧
    model.trace nominal.onFirst injected.onSecond start length (some e) s =
      (do
        let (t, s') ← model.trace nominal.onFirst injected.onSecond start length none s
        let (struck, s₂) ← e.strikeFrom injected 0 t.steps s.2
        pure ({ t with episode := some e, steps := struck }, s'.1, s₂)) ∧
    (∀ steps struck s₂, e.strikeFrom injected 0 steps s.2 = .ok (struck, s₂) →
      struck.length = steps.length ∧ (∀ i < e.onset, struck[i]? = steps[i]?) ∧
        ∃ states : Nat → τ, states 0 = s.2 ∧ states steps.length = s₂ ∧
          ∀ (i : Nat) (u : Usage α), steps[i]? = some u → ∃ v, struck[i]? = some v ∧
            e.strike injected i u (states i) = .ok (v, states (i + 1))) ∧
    ∀ calls calls' : List (NoiseCall α),
      model.trace (nominal.recorded id).onFirst (injected.recorded id).onSecond start length (some e)
          ((s.1, calls), s.2, calls') =
        (do
          let (t, s') ← model.trace (nominal.recorded id).onFirst (injected.recorded id).onSecond start
            length none ((s.1, calls), s.2, calls')
          let (struck, s₂) ← e.strikeFrom injected 0 t.steps s.2
          pure ({ t with episode := some e, steps := struck }, s'.1, s₂,
            (List.replicate (length - e.onset) (Episode.anomalyCalls e.anomaly)).flatten ++ calls')) := by
  refine ⟨?_, ?_, ?_, ?_⟩
  · intro t s' h
    rw [trace_nominal] at h
    cases hrun : model.trace nominal nominal start length none s.1 <;> rw [hrun] at h <;> cases h
    rfl
  · rw [trace_episode, trace_nominal]
    cases model.trace nominal nominal start length none s.1 <;> rfl
  · intro steps struck s₂ h
    obtain ⟨hlength, states, hzero, hlast, hall⟩ := Episode.strikeFrom_spec h
    refine ⟨hlength, fun i hi => Episode.getElem?_strikeFrom_of_lt h hi, states, hzero, hlast, ?_⟩
    intro i u hu
    simpa using hall i u hu
  · intro calls calls'
    rw [trace_episode, trace_nominal]
    cases hrun : model.trace (nominal.recorded id) (nominal.recorded id) start length none
        (s.1, calls) with
    | error fault => rfl
    | ok r =>
        obtain ⟨⟨steps, s₁⟩, hsteps, hr⟩ := bind_eq_ok.mp hrun
        cases hr
        have hlength := length_of_stepsFrom model start hsteps
        simp only [Except.map, bind, Except.bind, Episode.strikeFrom_recorded, Episode.callsFrom, hlength,
          Nat.sub_zero, List.map_id]
        cases e.strikeFrom injected 0 steps s.2 <;> rfl

end TraceModel

end WorkloadSynth
