import WorkloadSynth.Proofs.Workload.Injection

/-!
# The schedule of a run

A step makes the nine calls of `StepNoise.calls` before it looks at any answer, so neither its readings nor
the medians it is handed have a say in what is drawn.  A nominal run is therefore its noise, and what the
profile makes of it afterwards (`TraceModel.stepsFrom_eq_nominalFrom`).  A transcript of the source shows the
same calls step after step (`TraceModel.trace_transcribed`), and a run begins with every shorter one
(`TraceModel.trace_take`).
-/

set_option autoImplicit false

namespace WorkloadSynth

variable {σ τ α : Type}

/-! ## Transcripts -/

abbrev Transcript (α : Type) := List (NoiseCall α × α)

namespace Transcript

def calls (t : Transcript α) : List (NoiseCall α) := t.map Prod.fst

/-- The answer to call `k` of step `i`, both counted from zero, where every step makes nine calls. -/
def answer? (t : Transcript α) (i k : Nat) : Option α := t[i * 9 + k]?.map Prod.snd

end Transcript

def NoiseSource.transcribed (source : NoiseSource σ α) : NoiseSource (σ × Transcript α) α where
  normal spread s :=
    let (x, s₁) := source.normal spread s.1
    (x, (s₁, s.2 ++ [(.normal spread, x)]))
  uniform low high s :=
    let (x, s₁) := source.uniform low high s.1
    (x, (s₁, s.2 ++ [(.uniform low high, x)]))

variable [Scalar α]

/-! ## The noise of a run -/

namespace StepNoise

def calls (p : Profile α) : List (NoiseCall α) :=
  [.normal (p.cpuVariance * 0.3), .normal 0.05, .uniform 0.0 0.2, .uniform 0.0 0.1, .uniform 0.0 0.1,
    .uniform 0.0 0.05, .uniform 0.0 0.5, .normal 0.02, .uniform 0.0 0.1]

def toList (n : StepNoise α) : List α :=
  [n.cpuMedian, n.memoryMedian, n.cpuMiddle, n.cpuTail, n.memoryMiddle, n.memoryTail, n.variance, n.trend,
    n.throttle]

def transcript (p : Profile α) (n : StepNoise α) : Transcript α := (calls p).zip n.toList

theorem length_transcript (p : Profile α) (n : StepNoise α) : (transcript p n).length = 9 := rfl

theorem draw_transcribed (source : NoiseSource σ α) (p : Profile α) (s : σ × Transcript α) :
    draw source.transcribed p s = ((draw source p s.1).1, (draw source p s.1).2,
      s.2 ++ transcript p (draw source p s.1).1) := by
  simp [draw, NoiseSource.transcribed, transcript, calls, toList]

def drawMany (source : NoiseSource σ α) (p : Profile α) : (count : Nat) → σ → List (StepNoise α) × σ
  | 0, s => ([], s)
  | count + 1, s =>
    let first := draw source p s
    let rest := drawMany source p count first.2
    (first.1 :: rest.1, rest.2)

theorem length_drawMany (source : NoiseSource σ α) (p : Profile α) (count : Nat) (s : σ) :
    (drawMany source p count s).1.length = count := by
  induction count generalizing s with
  | zero => rfl
  | succ count ih => simp [drawMany, ih]

theorem drawMany_transcribed (source : NoiseSource σ α) (p : Profile α) (count : Nat) (s : σ × Transcript α) :
    drawMany source.transcribed p count s = ((drawMany source p count s.1).1, (drawMany source p count s.1).2,
      s.2 ++ (drawMany source p count s.1).1.flatMap (transcript p)) := by
  induction count generalizing s with
  | zero => simp [drawMany]
  | succ count ih => simp [drawMany, draw_transcribed, ih]

theorem calls_flatMap_transcript (p : Profile α) (noises : List (StepNoise α)) :
    Transcript.calls (noises.flatMap (transcript p)) = (List.replicate noises.length (calls p)).flatten := by
  induction noises with
  | nil => rfl
  | cons n rest ih =>
      rw [List.flatMap_cons, List.length_cons, List.replicate_succ, List.flatten_cons, ← ih]
      exact List.map_append

end StepNoise

namespace TraceModel

variable (model : TraceModel α) (start : Moment α)

def handOn (c : Carry α) : Option (Carry α) := if model.carries then some c else none

omit [Scalar α] in
theorem eq_of_mem_handOn {model : TraceModel α} {c d : Carry α} (h : d ∈ model.handOn c) : d = c := by
  unfold handOn at h
  split_ifs at h
  · exact (Option.some.inj h).symm
  · cases h

def nominalFrom : (index : Nat) → Option (Carry α) → List (StepNoise α) →
    Except RangeFault (List (Usage α))
  | _, _, [] => pure []
  | index, previous, n :: rest => do
    let (u, c) ← model.archetype.profile.nominalStep (start.later index model.stepHours) previous n
    let tail ← nominalFrom (index + 1) (model.handOn c) rest
    pure (u :: tail)

/-- All noise of a run without an episode may be drawn before the first step is made. -/
theorem stepsFrom_eq_nominalFrom (nominal injected : NoiseSource σ α) (count index : Nat)
    (previous : Option (Carry α)) (s : σ) :
    model.stepsFrom nominal injected start none count index previous s =
      (model.nominalFrom start index previous (StepNoise.drawMany nominal model.archetype.profile count s).1).map
        fun steps => (steps, (StepNoise.drawMany nominal model.archetype.profile count s).2) := by
  induction count generalizing index previous s with
  | zero => rfl
  | succ count ih =>
      simp only [stepsFrom, step, StepNoise.drawMany, nominalFrom]
      cases model.archetype.profile.nominalStep (start.later index model.stepHours) previous
          (StepNoise.draw nominal model.archetype.profile s).1 with
      | error fault => rfl
      | ok r =>
          simp only [bind, Except.bind, pure, Except.pure, ih, handOn]
          cases model.nominalFrom start (index + 1) (if model.carries then some r.2 else none)
              (StepNoise.drawMany nominal model.archetype.profile count
                (StepNoise.draw nominal model.archetype.profile s).2).1 <;> rfl

theorem stepsFrom_transcribed (nominal injected : NoiseSource σ α) (count index : Nat)
    (previous : Option (Carry α)) (s : σ × Transcript α) :
    model.stepsFrom nominal.transcribed injected.transcribed start none count index previous s =
      (model.stepsFrom nominal injected start none count index previous s.1).map fun r =>
        (r.1, r.2, s.2 ++ (StepNoise.drawMany nominal model.archetype.profile count s.1).1.flatMap
          (StepNoise.transcript model.archetype.profile)) := by
  rw [stepsFrom_eq_nominalFrom, stepsFrom_eq_nominalFrom, StepNoise.drawMany_transcribed]
  cases model.nominalFrom start index previous
    (StepNoise.drawMany nominal model.archetype.profile count s.1).1 <;> rfl

theorem trace_transcribed (nominal injected : NoiseSource σ α) (length : Nat) (s : σ × Transcript α) :
    model.trace nominal.transcribed injected.transcribed start length none s =
      (model.trace nominal injected start length none s.1).map fun r =>
        (r.1, r.2, s.2 ++ (StepNoise.drawMany nominal model.archetype.profile length s.1).1.flatMap
          (StepNoise.transcript model.archetype.profile)) := by
  simp only [trace, stepsFrom_transcribed]
  cases model.stepsFrom nominal injected start none length 0 none s.1 <;> rfl

theorem trace_onFirst_transcribed (nominal : NoiseSource σ α) (injected : NoiseSource τ α)
    (episode : Option Episode) (length : Nat) (s : σ × τ) (log : Transcript α) :
    model.trace nominal.transcribed.onFirst injected.onSecond start length episode ((s.1, log), s.2) =
      (model.trace nominal.onFirst injected.onSecond start length episode s).map fun r =>
        (r.1, (r.2.1, log ++ (StepNoise.drawMany nominal model.archetype.profile length s.1).1.flatMap
          (StepNoise.transcript model.archetype.profile)), r.2.2) := by
  cases episode with
  | none =>
      rw [trace_nominal, trace_nominal, trace_transcribed]
      cases model.trace nominal nominal start length none s.1 <;> rfl
  | some e =>
      rw [trace_episode, trace_episode, trace_transcribed]
      cases model.trace nominal nominal start length none s.1 with
      | error fault => rfl
      | ok r =>
          simp only [Except.map, bind, Except.bind]
          cases e.strikeFrom injected 0 r.1.steps s.2 <;> rfl

/-! ## Beginnings -/

theorem stepsFrom_take (nominal injected : NoiseSource σ α) (episode : Option Episode) {n count index : Nat}
    {previous : Option (Carry α)} {s r : σ} {steps : List (Usage α)} (hn : n ≤ count)
    (h : model.stepsFrom nominal injected start episode count index previous s = .ok (steps, r)) :
    ∃ r', model.stepsFrom nominal injected start episode n index previous s = .ok (steps.take n, r') := by
  induction n generalizing count index previous s steps with
  | zero => exact ⟨s, rfl⟩
  | succ n ih =>
      obtain ⟨count, rfl⟩ : ∃ k, count = k + 1 := ⟨count - 1, by omega⟩
      obtain ⟨⟨u, carry, s₁⟩, hstep, h⟩ := bind_eq_ok.mp h
      obtain ⟨⟨rest, s₂⟩, hrest, h⟩ := bind_eq_ok.mp h
      cases h
      obtain ⟨r', htake⟩ := ih (by omega) hrest
      refine ⟨r', ?_⟩
      simp only [stepsFrom, hstep, htake, bind, Except.bind, pure, Except.pure, List.take_succ_cons]

theorem trace_take (nominal injected : NoiseSource σ α) (episode : Option Episode) {n length : Nat} {s r : σ}
    {t : Trace α} (hn : n ≤ length)
    (h : model.trace nominal injected start length episode s = .ok (t, r)) :
    ∃ r', model.trace nominal injected start n episode s = .ok ({ t with steps := t.steps.take n }, r') := by
  obtain ⟨⟨steps, r⟩, hsteps, h⟩ := bind_eq_ok.mp h
  cases h
  obtain ⟨r', htake⟩ := model.stepsFrom_take start nominal injected episode hn hsteps
  exact ⟨r', bind_eq_ok.mpr ⟨_, htake, rfl⟩⟩

end TraceModel

end WorkloadSynth
