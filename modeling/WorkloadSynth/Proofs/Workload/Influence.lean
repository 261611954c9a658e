import WorkloadSynth.Proofs.Storage.NumericArray
import WorkloadSynth.Proofs.Workload.Schedule
import WorkloadSynth.Proofs.Workload.Trace

/-!
# What a noise term reaches

A step hands on its two medians and nothing else, and a median is made from the one before it, from the base
of its own resource and from one term of noise.  So of all the noise of a run a resource sees the terms of its
own median up to a step and those of its own tails at that step (`TraceModel.handed_agree`); without medians
handed on it sees those of the step alone.  Every other reading is made from one term of its step, throttling
from the processor tail as well.
-/

set_option autoImplicit false

namespace WorkloadSynth

variable {σ τ α : Type}

/-! ## Steps taken apart -/

section

variable [Scalar α]

namespace Carry

theorem blend_cpu (previous : Option (Carry α)) (weight : α) (base : Carry α) :
    (blend previous weight base).cpu = (previous.map (·.cpu)).elim base.cpu
      fun c => weight * c + (1.0 - weight) * base.cpu := by
  cases previous <;> rfl

theorem blend_memory (previous : Option (Carry α)) (weight : α) (base : Carry α) :
    (blend previous weight base).memory = (previous.map (·.memory)).elim base.memory
      fun c => weight * c + (1.0 - weight) * base.memory := by
  cases previous <;> rfl

end Carry

namespace Quantiles

variable {p50 f g : α} {q : Quantiles α}

theorem of_stretched (h : stretched p50 f g = .ok q) :
    p50 ≤ 0.98 ∧ Scalar.confine (p50 * f) p50 0.98 ≤ 1.0 ∧
      q = ⟨p50, Scalar.confine (p50 * f) p50 0.98,
        Scalar.confine (Scalar.confine (p50 * f) p50 0.98 * g) (Scalar.confine (p50 * f) p50 0.98) 1.0⟩ := by
  obtain ⟨p95, h95, h⟩ := bind_eq_ok.mp h
  obtain ⟨p99, h99, h⟩ := bind_eq_ok.mp h
  cases h
  obtain ⟨hroom, rfl⟩ := Scalar.clamp_eq_ok.mp h95
  obtain ⟨hone, rfl⟩ := Scalar.clamp_eq_ok.mp h99
  exact ⟨hroom, hone, rfl⟩

theorem bounded_stretched [LawfulOrder α] (h₀ : 0.0 ≤ p50) (h : stretched p50 f g = .ok q) :
    q.bounded = .ok q := by
  obtain ⟨hroom, hone, rfl⟩ := of_stretched h
  have hmiddle := Scalar.confine_mem (Scalar.defined_of_confine (LawfulOrder.defined_left hone)) hroom
  rw [bounded_of_rising ⟨h₀, hmiddle.1, hone⟩, trimmed, Scalar.confine_confine hone]

end Quantiles

namespace Profile

structure Makes (p : Profile α) (m : Moment α) (previous : Option (Carry α)) (n : StepNoise α) (u : Usage α)
    (c : Carry α) : Prop where
  cpuMedian : c.cpu = median (Carry.blend previous p.autocorrelation (p.baseAt m)).cpu n.cpuMedian
  memoryMedian : c.memory = median (Carry.blend previous p.autocorrelation (p.baseAt m)).memory n.memoryMedian
  cpu : p.cpuQuantiles c.cpu n = .ok u.cpu
  memory : memoryQuantiles c.memory n = .ok u.memory
  cpuVariance : u.cpuVariance = Scalar.confineUnit (p.cpuVariance * (0.5 + n.variance))
  memoryTrend : u.memoryTrend = Scalar.confine (p.memoryGrowth + n.trend) (-1.0) 1.0
  throttle : u.throttle = Scalar.confineUnit (throttling u.cpu.p99 n.throttle)
  time : u.At m

class MedianRange (α : Type) [Scalar α] : Prop where
  zero_le_least : (0.0 : α) ≤ 0.01
  least_le_greatest : (0.01 : α) ≤ 0.95

instance : MedianRange Float where
  zero_le_least := by decide
  least_le_greatest := by decide

variable [LawfulOrder α] [MedianRange α]

theorem zero_le_median {base noise f g : α} {q : Quantiles α}
    (h : Quantiles.stretched (median base noise) f g = .ok q) : 0.0 ≤ median base noise := by
  obtain ⟨hroom, -⟩ := Quantiles.of_stretched h
  have hdefined := Scalar.defined_of_confine (LawfulOrder.defined_left hroom)
  exact LawfulOrder.le_trans MedianRange.zero_le_least
    (Scalar.confine_mem hdefined MedianRange.least_le_greatest).1

/-- A step that succeeds leaves nothing for the last bounding of its percentiles to do. -/
theorem makes_of_nominalStep {p : Profile α} {m : Moment α} {previous : Option (Carry α)}
    {n : StepNoise α} {u : Usage α} {c : Carry α} (h : p.nominalStep m previous n = .ok (u, c)) :
    p.Makes m previous n u c := by
  obtain ⟨cpu, hcpu, h⟩ := bind_eq_ok.mp h
  obtain ⟨memory, hmemory, h⟩ := bind_eq_ok.mp h
  obtain ⟨v, hv, h⟩ := bind_eq_ok.mp h
  cases h
  obtain ⟨cpu', hcpu', hv⟩ := bind_eq_ok.mp hv
  obtain ⟨memory', hmemory', hv⟩ := bind_eq_ok.mp hv
  cases hv
  have hcpuKept : cpu.bounded = .ok cpu := Quantiles.bounded_stretched (zero_le_median hcpu) hcpu
  have hmemoryKept : memory.bounded = .ok memory :=
    Quantiles.bounded_stretched (zero_le_median hmemory) hmemory
  obtain rfl : cpu' = cpu := Except.ok.inj (hcpu'.symm.trans hcpuKept)
  obtain rfl : memory' = memory := Except.ok.inj (hmemory'.symm.trans hmemoryKept)
  exact ⟨rfl, rfl, hcpu, hmemory, rfl, rfl, rfl, ⟨rfl, rfl, rfl⟩⟩

end Profile

end

/-! ## Two steps -/

namespace Profile

section

variable {p : Profile Float} {m m' : Moment Float} {previous previous' : Option (Carry Float)}
  {n n' : StepNoise Float} {u u' : Usage Float} {c c' : Carry Float}

theorem Makes.cpuMedian_eq (h : p.Makes m previous n u c) (h' : p.Makes m previous' n' u' c')
    (hprevious : previous.map (·.cpu) = previous'.map (·.cpu)) (hn : n.cpuMedian = n'.cpuMedian) :
    c.cpu = c'.cpu := by
  rw [h.cpuMedian, h'.cpuMedian, Carry.blend_cpu, Carry.blend_cpu, hprevious, hn]

theorem Makes.memoryMedian_eq (h : p.Makes m previous n u c) (h' : p.Makes m previous' n' u' c')
    (hprevious : previous.map (·.memory) = previous'.map (·.memory)) (hn : n.memoryMedian = n'.memoryMedian) :
    c.memory = c'.memory := by
  rw [h.memoryMedian, h'.memoryMedian, Carry.blend_memory, Carry.blend_memory, hprevious, hn]

theorem Makes.cpu_eq (h : p.Makes m previous n u c) (h' : p.Makes m' previous' n' u' c')
    (hc : c.cpu = c'.cpu) (hmiddle : n.cpuMiddle = n'.cpuMiddle) (htail : n.cpuTail = n'.cpuTail) :
    u.cpu = u'.cpu := by
  have hsame : p.cpuQuantiles c.cpu n = p.cpuQuantiles c'.cpu n' := by
    rw [cpuQuantiles_eq, cpuQuantiles_eq, hc, hmiddle, htail]
  exact Except.ok.inj (h.cpu.symm.trans (hsame.trans h'.cpu))

theorem Makes.memory_eq (h : p.Makes m previous n u c) (h' : p.Makes m' previous' n' u' c')
    (hc : c.memory = c'.memory) (hmiddle : n.memoryMiddle = n'.memoryMiddle)
    (htail : n.memoryTail = n'.memoryTail) : u.memory = u'.memory := by
  have hsame : memoryQuantiles c.memory n = memoryQuantiles c'.memory n' := by
    rw [memoryQuantiles_eq, memoryQuantiles_eq, hc, hmiddle, htail]
  exact Except.ok.inj (h.memory.symm.trans (hsame.trans h'.memory))

end

end Profile

/-! ## Runs taken apart -/

namespace TraceModel

structure Unfolds (model : TraceModel Float) (start : Moment Float) (noises : List (StepNoise Float))
    (steps : List (Usage Float)) (handed : ℕ → Option (Carry Float)) : Prop where
  length : steps.length = noises.length
  first : handed 0 = none
  step : ∀ (i : ℕ) (n : StepNoise Float), noises[i]? = some n → ∃ u c, steps[i]? = some u ∧
    model.archetype.profile.Makes (start.later i model.stepHours) (handed i) n u c ∧
    handed (i + 1) = model.handOn c

theorem nominalFrom_spec {model : TraceModel Float} {start : Moment Float} {noises : List (StepNoise Float)}
    {index : ℕ} {previous : Option (Carry Float)} {steps : List (Usage Float)}
    (h : model.nominalFrom start index previous noises = .ok steps) :
    steps.length = noises.length ∧ ∃ handed : ℕ → Option (Carry Float), handed 0 = previous ∧
      ∀ (i : ℕ) (n : StepNoise Float), noises[i]? = some n → ∃ u c, steps[i]? = some u ∧
        model.archetype.profile.Makes (start.later (index + i) model.stepHours) (handed i) n u c ∧
        handed (i + 1) = model.handOn c := by
  induction noises generalizing index previous steps with
  | nil =>
      cases h
      exact ⟨rfl, fun _ => previous, rfl, fun i n hn => by simp at hn⟩
  | cons n rest ih =>
      obtain ⟨⟨u, c⟩, hstep, h⟩ := bind_eq_ok.mp h
      obtain ⟨tail, htail, h⟩ := bind_eq_ok.mp h
      cases h
      obtain ⟨hlength, handed, hfirst, hall⟩ := ih htail
      refine ⟨by simp [hlength], fun i => i.casesOn previous handed, rfl, ?_⟩
      intro i w hw
      cases i with
      | zero =>
          obtain rfl : n = w := by simpa using hw
          exact ⟨u, c, rfl, Profile.makes_of_nominalStep hstep, hfirst⟩
      | succ i =>
          obtain ⟨v, d, hv, hmakes, hnext⟩ := hall i w (by simpa using hw)
          refine ⟨v, d, by simpa using hv, ?_, hnext⟩
          rwa [show index + (i + 1) = index + 1 + i by omega]

theorem unfolds_of_trace {model : TraceModel Float} {nominal injected : NoiseSource σ Float}
    {start : Moment Float} {length : ℕ} {s r : σ} {t : Trace Float}
    (h : model.trace nominal injected start length none s = .ok (t, r)) :
    ∃ handed, model.Unfolds start (StepNoise.drawMany nominal model.archetype.profile length s).1 t.steps
      handed := by
  obtain ⟨⟨steps, r⟩, hsteps, h⟩ := bind_eq_ok.mp h
  cases h
  rw [stepsFrom_eq_nominalFrom] at hsteps
  cases hrun : model.nominalFrom start 0 none
      (StepNoise.drawMany nominal model.archetype.profile length s).1 with
  | error fault =>
      rw [hrun] at hsteps
      cases hsteps
  | ok steps' =>
      rw [hrun] at hsteps
      cases hsteps
      obtain ⟨hlength, handed, hfirst, hall⟩ := nominalFrom_spec hrun
      exact ⟨handed, hlength, hfirst, by simpa using hall⟩

/-- Noise of the medians of step `j` has a part in those of step `i`. -/
def Reaches (model : TraceModel α) (j i : ℕ) : Prop := j = i ∨ model.carries = true ∧ j < i

section Pairs

variable {model : TraceModel Float} {start : Moment Float} {noises noises' : List (StepNoise Float)}
  {steps steps' : List (Usage Float)} {handed handed' : ℕ → Option (Carry Float)}
  {part : Carry Float → Float} {term : StepNoise Float → Float}

/-- A part of the medians that is made from the same part of those before and from one term of noise. -/
def FollowsTerm (p : Profile Float) (part : Carry Float → Float) (term : StepNoise Float → Float) : Prop :=
  ∀ {m previous previous' n n' u u' c c'}, p.Makes m previous n u c → p.Makes m previous' n' u' c' →
    previous.map part = previous'.map part → term n = term n' → part c = part c'

theorem handed_agree (h : model.Unfolds start noises steps handed)
    (h' : model.Unfolds start noises' steps' handed') (hpart : FollowsTerm model.archetype.profile part term)
    {i : ℕ} (hi : i ≤ noises.length) (hi' : i ≤ noises'.length)
    (hterm : ∀ j, model.Reaches j i → j ≠ i → noises[j]?.map term = noises'[j]?.map term) :
    (handed i).map part = (handed' i).map part := by
  induction i with
  | zero => rw [h.first, h'.first]
  | succ i ih =>
      have hn : noises[i]? = some noises[i] := List.getElem?_eq_getElem hi
      have hn' : noises'[i]? = some noises'[i] := List.getElem?_eq_getElem hi'
      obtain ⟨u, c, -, hmakes, hnext⟩ := h.step i _ hn
      obtain ⟨u', c', -, hmakes', hnext'⟩ := h'.step i _ hn'
      rw [hnext, hnext', handOn, handOn]
      split_ifs with hcarries
      · have hprevious : (handed i).map part = (handed' i).map part := by
          apply ih (by omega) (by omega)
          intro j hj hne
          have hlt : j < i := (hj.resolve_left hne).2
          exact hterm j (.inr ⟨hcarries, by omega⟩) (by omega)
        have hnoise := hterm i (.inr ⟨hcarries, by omega⟩) (by omega)
        rw [hn, hn'] at hnoise
        rw [Option.map_some, Option.map_some, hpart hmakes hmakes' hprevious (Option.some.inj hnoise)]
      · rfl

theorem Unfolds.exists_makes (h : model.Unfolds start noises steps handed) {i : ℕ} {u : Usage Float}
    (hu : steps[i]? = some u) : ∃ n c, noises[i]? = some n ∧
      model.archetype.profile.Makes (start.later i model.stepHours) (handed i) n u c := by
  have hi : i < noises.length := h.length ▸ (List.getElem?_eq_some_iff.mp hu).1
  have hn : noises[i]? = some noises[i] := List.getElem?_eq_getElem hi
  obtain ⟨v, c, hv, hmakes, -⟩ := h.step i _ hn
  obtain rfl : u = v := Option.some.inj (hu.symm.trans hv)
  exact ⟨_, c, hn, hmakes⟩

section Step

variable (h : model.Unfolds start noises steps handed) (h' : model.Unfolds start noises' steps' handed')
  {i : ℕ} {u u' : Usage Float} (hu : steps[i]? = some u) (hu' : steps'[i]? = some u')

include h h' hu hu'

theorem exists_makes_agree (hpart : FollowsTerm model.archetype.profile part term)
    (hterm : ∀ j, model.Reaches j i → noises[j]?.map term = noises'[j]?.map term) :
    ∃ n n' c c', noises[i]? = some n ∧ noises'[i]? = some n' ∧
      model.archetype.profile.Makes (start.later i model.stepHours) (handed i) n u c ∧
      model.archetype.profile.Makes (start.later i model.stepHours) (handed' i) n' u' c' ∧
      part c = part c' := by
  obtain ⟨n, c, hn, hmakes⟩ := h.exists_makes hu
  obtain ⟨n', c', hn', hmakes'⟩ := h'.exists_makes hu'
  have hi : i < noises.length := (List.getElem?_eq_some_iff.mp hn).1
  have hi' : i < noises'.length := (List.getElem?_eq_some_iff.mp hn').1
  have hprevious : (handed i).map part = (handed' i).map part :=
    handed_agree h h' hpart hi.le hi'.le fun j hj _ => hterm j hj
  have hnoise := hterm i (.inl rfl)
  rw [hn, hn'] at hnoise
  exact ⟨n, n', c, c', hn, hn', hmakes, hmakes', hpart hmakes hmakes' hprevious (Option.some.inj hnoise)⟩

theorem cpu_agree (hmedian : ∀ j, model.Reaches j i →
      noises[j]?.map (·.cpuMedian) = noises'[j]?.map (·.cpuMedian))
    (hmiddle : noises[i]?.map (·.cpuMiddle) = noises'[i]?.map (·.cpuMiddle))
    (htail : noises[i]?.map (·.cpuTail) = noises'[i]?.map (·.cpuTail)) : u.cpu = u'.cpu := by
  obtain ⟨n, n', c, c', hn, hn', hmakes, hmakes', hc⟩ :=
    exists_makes_agree h h' hu hu' Profile.Makes.cpuMedian_eq hmedian
  rw [hn, hn'] at hmiddle htail
  exact hmakes.cpu_eq hmakes' hc (Option.some.inj hmiddle) (Option.some.inj htail)

theorem memory_agree (hmedian : ∀ j, model.Reaches j i →
      noises[j]?.map (·.memoryMedian) = noises'[j]?.map (·.memoryMedian))
    (hmiddle : noises[i]?.map (·.memoryMiddle) = noises'[i]?.map (·.memoryMiddle))
    (htail : noises[i]?.map (·.memoryTail) = noises'[i]?.map (·.memoryTail)) : u.memory = u'.memory := by
  obtain ⟨n, n', c, c', hn, hn', hmakes, hmakes', hc⟩ :=
    exists_makes_agree h h' hu hu' Profile.Makes.memoryMedian_eq hmedian
  rw [hn, hn'] at hmiddle htail
  exact hmakes.memory_eq hmakes' hc (Option.some.inj hmiddle) (Option.some.inj htail)

theorem rest_agree :
    (noises[i]?.map (·.variance) = noises'[i]?.map (·.variance) → u.cpuVariance = u'.cpuVariance) ∧
    (noises[i]?.map (·.trend) = noises'[i]?.map (·.trend) → u.memoryTrend = u'.memoryTrend) ∧
    (noises[i]?.map (·.throttle) = noises'[i]?.map (·.throttle) → u.cpu.p99 = u'.cpu.p99 →
      u.throttle = u'.throttle) ∧
    u.hour = u'.hour ∧ u.day = u'.day ∧ u.age = u'.age := by
  obtain ⟨n, c, hn, hmakes⟩ := h.exists_makes hu
  obtain ⟨n', c', hn', hmakes'⟩ := h'.exists_makes hu'
  simp only [hn, hn', Option.map_some, Option.some.injEq]
  refine ⟨?_, ?_, ?_, ?_, ?_, ?_⟩
  · intro hvariance
    rw [hmakes.cpuVariance, hmakes'.cpuVariance, hvariance]
  · intro htrend
    rw [hmakes.memoryTrend, hmakes'.memoryTrend, htrend]
  · intro hthrottle htail
    rw [hmakes.throttle, hmakes'.throttle, htail, hthrottle]
  · rw [hmakes.time.hour, hmakes'.time.hour]
  · rw [hmakes.time.day, hmakes'.time.day]
  · rw [hmakes.time.age, hmakes'.time.age]

end Step

end Pairs

end TraceModel

/-! ## Answers -/

namespace Transcript

def AgreeAt (t t' : Transcript α) (i k : ℕ) : Prop := t.answer? i k = t'.answer? i k

theorem answer?_flatMap [Scalar α] {p : Profile α} {noises : List (StepNoise α)} {term : StepNoise α → α}
    {i k : ℕ} (hk : k < 9) (hterm : ∀ n : StepNoise α, n.toList[k]? = some (term n)) :
    Transcript.answer? (noises.flatMap (StepNoise.transcript p)) i k = noises[i]?.map term := by
  have hcall : (noises.flatMap (StepNoise.transcript p))[i * 9 + k]? =
      noises[i]?.bind fun n => (StepNoise.transcript p n)[k]? :=
    getElem?_flatMap_of_length (fun n _ => StepNoise.length_transcript p n) hk
  have hanswer (n : StepNoise α) : (StepNoise.transcript p n)[k]?.map Prod.snd = some (term n) := by
    rw [← List.getElem?_map, StepNoise.transcript, List.map_snd_zip (by rfl), hterm]
  rw [answer?, hcall, Option.map_bind]
  simp only [Function.comp_def, hanswer, Option.map_eq_bind]

end Transcript

namespace TraceModel

/-- In two nominal runs of one length from one start, whatever their sources, a feature of a step can differ
only where answers of its own do: the nine calls of a step are always the same, the percentiles of a resource
follow its median calls up to that step (those of the step alone if no medians are handed on) and its two tail
calls of the step, variance and trend follow one call of the step, throttling one call and the processor tail,
and the time follows none. -/
theorem features_keep_apart (model : TraceModel Float) (start : Moment Float) (length : ℕ)
    {nominal injected : NoiseSource σ Float} {nominal' injected' : NoiseSource τ Float} {s r : σ} {s' r' : τ}
    {t t' : Trace Float} (h : model.trace nominal injected start length none s = .ok (t, r))
    (h' : model.trace nominal' injected' start length none s' = .ok (t', r')) :
    ∃ made made' : Transcript Float,
      model.trace nominal.transcribed injected.transcribed start length none (s, []) = .ok (t, r, made) ∧
      model.trace nominal'.transcribed injected'.transcribed start length none (s', []) =
        .ok (t', r', made') ∧
      (made.calls = (List.replicate length (StepNoise.calls model.archetype.profile)).flatten ∧
        made'.calls = made.calls) ∧
      (t.length = length ∧ t'.length = length) ∧
      ∀ (i : ℕ) (u u' : Usage Float), t.steps[i]? = some u → t'.steps[i]? = some u' →
        ((∀ j, model.Reaches j i → made.AgreeAt made' j 0) → made.AgreeAt made' i 2 →
          made.AgreeAt made' i 3 → u.cpu = u'.cpu) ∧
        ((∀ j, model.Reaches j i → made.AgreeAt made' j 1) → made.AgreeAt made' i 4 →
          made.AgreeAt made' i 5 → u.memory = u'.memory) ∧
        (made.AgreeAt made' i 6 → u.cpuVariance = u'.cpuVariance) ∧
        (made.AgreeAt made' i 7 → u.memoryTrend = u'.memoryTrend) ∧
        (made.AgreeAt made' i 8 → u.cpu.p99 = u'.cpu.p99 → u.throttle = u'.throttle) ∧
        u.hour = u'.hour ∧ u.day = u'.day ∧ u.age = u'.age := by
  have hlength := StepNoise.length_drawMany nominal model.archetype.profile length s
  have hlength' := StepNoise.length_drawMany nominal' model.archetype.profile length s'
  obtain ⟨handed, hunfolds⟩ := unfolds_of_trace h
  obtain ⟨handed', hunfolds'⟩ := unfolds_of_trace h'
  have hrun := model.trace_transcribed start nominal injected length (s, [])
  have hrun' := model.trace_transcribed start nominal' injected' length (s', [])
  rw [h] at hrun
  rw [h'] at hrun'
  generalize (StepNoise.drawMany nominal model.archetype.profile length s).1 = noises at *
  generalize (StepNoise.drawMany nominal' model.archetype.profile length s').1 = noises' at *
  refine ⟨noises.flatMap (StepNoise.transcript model.archetype.profile),
    noises'.flatMap (StepNoise.transcript model.archetype.profile), hrun, hrun', ⟨?_, ?_⟩,
    ⟨hunfolds.length.trans hlength, hunfolds'.length.trans hlength'⟩, ?_⟩
  · rw [StepNoise.calls_flatMap_transcript, hlength]
  · rw [StepNoise.calls_flatMap_transcript, StepNoise.calls_flatMap_transcript, hlength, hlength']
  intro i u u' hu hu'
  have agree {term : StepNoise Float → Float} {j k : ℕ} (hk : k < 9)
      (hterm : ∀ n : StepNoise Float, n.toList[k]? = some (term n))
      (hanswers : Transcript.AgreeAt (noises.flatMap (StepNoise.transcript model.archetype.profile))
        (noises'.flatMap (StepNoise.transcript model.archetype.profile)) j k) :
      noises[j]?.map term = noises'[j]?.map term := by
    rwa [Transcript.AgreeAt, Transcript.answer?_flatMap hk hterm,
      Transcript.answer?_flatMap hk hterm] at hanswers
  obtain ⟨hvariance, htrend, hthrottle, htime⟩ := rest_agree hunfolds hunfolds' hu hu'
  refine ⟨?_, ?_, ?_, ?_, ?_, htime⟩
  · intro hmedian hmiddle htail
    exact cpu_agree hunfolds hunfolds' hu hu'
      (fun j hj => agree (by decide) (fun _ => rfl) (hmedian j hj))
      (agree (by decide) (fun _ => rfl) hmiddle) (agree (by decide) (fun _ => rfl) htail)
  · intro hmedian hmiddle htail
    exact memory_agree hunfolds hunfolds' hu hu'
      (fun j hj => agree (by decide) (fun _ => rfl) (hmedian j hj))
      (agree (by decide) (fun _ => rfl) hmiddle) (agree (by decide) (fun _ => rfl) htail)
  · intro hanswer
    exact hvariance (agree (by decide) (fun _ => rfl) hanswer)
  · intro hanswer
    exact htrend (agree (by decide) (fun _ => rfl) hanswer)
  · intro hanswer
    exact hthrottle (agree (by decide) (fun _ => rfl) hanswer)

theorem processor_apart_from_memory_noise :
    let quiet : NoiseSource Unit Float := .silent
    let loud : NoiseSource Unit Float :=
      { quiet with normal := fun spread s => (if spread = 0.05 then 0.5 else 0.0, s) }
    let model : TraceModel Float := ⟨.database, 0.5, true⟩
    let start : Moment Float := ⟨0.25, 0.5, 3.0⟩
    ∃ t t', model.trace quiet quiet start 2 none () = .ok (t, ()) ∧
      model.trace loud loud start 2 none () = .ok (t', ()) ∧ (t.length = 2 ∧ t'.length = 2) ∧
      ∀ (i : ℕ) (u u' : Usage Float), t.steps[i]? = some u → t'.steps[i]? = some u' → u.cpu = u'.cpu := by
  intro quiet loud model start
  have hstart : start.InRange := ⟨by decide, by decide, by decide⟩
  have hhours : Binary64.Within 0.0 168.0 model.stepHours := by decide
  have hzero : ¬ Scalar.IsUndefined (0.0 : Float) := by decide
  have hhalf : ¬ Scalar.IsUndefined (0.5 : Float) := by decide
  have hquiet : quiet.Reliable :=
    ⟨fun _ _ _ _ => hzero, fun _ _ _ _ h _ => not_not_intro (LawfulOrder.defined_left h)⟩
  have hloud : loud.Reliable := by
    refine ⟨fun spread _ _ _ => ?_, hquiet.uniform⟩
    dsimp only [loud]
    split_ifs
    · exact hhalf
    · exact hzero
  obtain ⟨steps, ⟨⟩, hrun, -⟩ :=
    trace_spec hquiet hquiet hstart hhours (by norm_num : 2 ≤ 2 ^ 64) none ()
  obtain ⟨steps', ⟨⟩, hrun', -⟩ :=
    trace_spec hloud hloud hstart hhours (by norm_num : 2 ≤ 2 ^ 64) none ()
  obtain ⟨made, made', hmade, hmade', -, hlength, hall⟩ := features_keep_apart model start 2 hrun hrun'
  have hwritten := model.trace_transcribed start quiet quiet 2 ((), [])
  have hwritten' := model.trace_transcribed start loud loud 2 ((), [])
  rw [hrun, hmade] at hwritten
  rw [hrun', hmade'] at hwritten'
  cases hwritten
  cases hwritten'
  refine ⟨_, _, hrun, hrun', hlength, fun i u u' hu hu' => ?_⟩
  have hi : i < 2 := hlength.1 ▸ (List.getElem?_eq_some_iff.mp hu).1
  refine (hall i u u' hu hu').1 ?_ ?_ ?_
  · intro j hj
    have hj : j < 2 := by
      rcases hj with rfl | ⟨-, hj⟩ <;> omega
    unfold Transcript.AgreeAt
    interval_cases j <;> decide +kernel
  · unfold Transcript.AgreeAt
    interval_cases i <;> decide +kernel
  · unfold Transcript.AgreeAt
    interval_cases i <;> decide +kernel

end TraceModel

end WorkloadSynth
