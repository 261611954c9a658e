import WorkloadSynth.Proofs.Workload.Exact
import WorkloadSynth.Proofs.Dataset.Sampling

/-!
# A sample with and without its anomaly

The runs of a plan with and without an anomaly share the trace stream, so the second is the first with an
episode's pass over it, and in flat mode both draw the same base confidence.  The anomaly lowers no request
and no limit, and in flat mode it scales the confidence down.
-/

set_option autoImplicit false

namespace WorkloadSynth

open Binary64 (Within)
open WorkloadSynth.Random (Generator)

/-- Where the trace without an episode is made so is the one with it.  Both leave the source of the steps
alike, and the episode raises what it strikes. -/
theorem TraceModel.trace_raises {σ τ α : Type} [Scalar α] [LawfulOrder α] [Amplifies α]
    {model : TraceModel α} {nominal : NoiseSource σ α} {injected : NoiseSource τ α} {start : Moment α}
    {length : ℕ} (e : Episode) {s r : σ × τ} {t : Trace α}
    (h : model.trace nominal.onFirst injected.onSecond start length none s = .ok (t, r))
    (ht : ∀ u ∈ t.steps, u.WellFormed) :
    ∃ t' s₂, model.trace nominal.onFirst injected.onSecond start length (some e) s = .ok (t', r.1, s₂) ∧
      List.Forall₂ (Usage.Raised e.anomaly) t.steps t'.steps := by
  rw [trace_nominal] at h
  rw [trace_episode]
  cases hrun : model.trace nominal nominal start length none s.1 with
  | error fault =>
      rw [hrun] at h
      cases h
  | ok run =>
      rw [hrun] at h
      cases h
      obtain ⟨struck, s₂, hstruck, hraised⟩ := e.strikeFrom_raises injected 0 ht s.2
      refine ⟨{ run.1 with episode := some e, steps := struck }, s₂, ?_, hraised⟩
      simp only [hstruck, bind, Except.bind, pure, Except.pure]

namespace SizingPolicy

theorem scaled_confidence {c : Float} (h : Within 0.85 0.95 c) (k : Anomaly) :
    Scalar.confineUnit (c * 1.0) = c ∧ Scalar.confineUnit (c * k.pointConfidence) = c * k.pointConfidence ∧
      c * k.pointConfidence ≤ c := by
  have hlow : 0.0 ≤ c := LawfulOrder.le_trans (by decide) h.lower
  have hpos : (0.0 : Float) < c := Scalar.lt_of_lt_of_le (by decide) h.lower
  have hfactor : Within 0.5 1.0 (k.pointConfidence : Float) := by cases k <;> exact by decide
  have hscaled : Within 0.0 1.0 (c * k.pointConfidence) := h.mul hfactor (by decide)
  rw [Binary64.mul_one_eq h.isFinite (Within.real_pos h.isFinite hpos).ne']
  exact ⟨Scalar.confine_eq_self hlow (LawfulOrder.le_trans h.upper (by decide)),
    Scalar.confine_eq_self hscaled.lower hscaled.upper,
    Binary64.mul_le h.isFinite hlow hfactor.isFinite hfactor.upper⟩

end SizingPolicy

namespace Assembly

variable {a : Assembly} {p : Plan}

theorem exists_both (hlength : a.recipe.val.sampleLength < 2 ^ 64) (hp : p.start.InRange) (k : Anomaly) :
    ∃ t t' streams streams', a.trace { p with anomaly := none } = .ok (t, streams) ∧
      a.trace { p with anomaly := some k } = .ok (t', streams') ∧ streams'.1 = streams.1 ∧
      List.Forall₂ (Usage.Raised k) t.steps t'.steps ∧
      t.Follows { p with anomaly := none } a.recipe.val.sampleLength ∧
      t'.Follows { p with anomaly := some k } a.recipe.val.sampleLength := by
  obtain ⟨t, streams, ht, hfollows⟩ := a.trace_spec hlength (p := { p with anomaly := none }) hp
  obtain ⟨t', streams', ht', hfollows'⟩ := a.trace_spec hlength (p := { p with anomaly := some k }) hp
  obtain ⟨t₂, s₂, ht₂, hraised⟩ := TraceModel.trace_raises
    (Episode.secondHalf k a.recipe.val.sampleLength) ht hfollows.wellFormed
  obtain ⟨rfl, rfl⟩ := Prod.mk.inj (Except.ok.inj (ht'.symm.trans ht₂))
  exact ⟨t, t', streams, _, ht, ht', rfl, hraised, hfollows, hfollows'⟩

theorem raised_of_flat (hmode : a.recipe.val.mode = .flat) (hpolicy : a.policy.Increasing) {k : Anomaly}
    {nominal anomalous : Plan} (hnone : nominal.anomaly = none) (hsome : anomalous.anomaly = some k)
    {t t' : Trace Float} {streams streams' : Generator × Generator} (hstreams : streams'.1 = streams.1)
    (ht : a.trace nominal = .ok (t, streams)) (ht' : a.trace anomalous = .ok (t', streams'))
    (hsteps : t.steps ≠ []) (hraised : List.Forall₂ (Usage.Raised k) t.steps t'.steps) {s s' : Sample Float}
    (hs : a.sample nominal = .ok s) (hs' : a.sample anomalous = .ok s') :
    s.label.Raised k s'.label ∧
      s.label.confidence = (Generator.source.uniform 0.85 0.95 streams.1).1 ∧
      s'.label.confidence = s.label.confidence * k.pointConfidence ∧
      s'.label.confidence ≤ s.label.confidence := by
  cases hfirst : t.steps with
  | nil => exact absurd hfirst hsteps
  | cons u rest =>
      rw [hfirst] at hraised
      obtain ⟨v, rest', huv, -, hfirst'⟩ := List.forall₂_cons_left_iff.mp hraised
      obtain ⟨-, -, hl⟩ := (a.sample_eq_ok_of_flat hmode ht hfirst).mp hs
      obtain ⟨-, -, hl'⟩ := (a.sample_eq_ok_of_flat hmode ht' hfirst').mp hs'
      rw [hnone] at hl
      rw [hstreams, hsome] at hl'
      obtain ⟨hkept, hscaled, hle⟩ := SizingPolicy.scaled_confidence (within_baseConfidence streams.1) k
      have hdrawn := (SizingPolicy.labelPoint_eq_ok.mp hl).2.2.symm.trans hkept
      have hleft := (SizingPolicy.labelPoint_eq_ok.mp hl').2.2.symm.trans hscaled
      rw [← hdrawn] at hleft hle
      exact ⟨SizingPolicy.labelPoint_raised hpolicy huv hl hl', hdrawn, hleft, hleft.symm ▸ hle⟩

/-- An anomaly lowers no allocation.  Whatever a plan of a checked recipe calls for, the sample without an
anomaly and the one with a given anomaly are both made, with the same requests; no limit of the second is
lower, and one that the anomaly does not concern is the same.  In flat mode both begin from one draw of the
confidence, which the anomaly scales down.  The same holds of traces and of their first steps in exact
arithmetic, with any noise. -/
theorem anomaly_lowers_no_allocation (recipe : CheckedRecipe) (hlength : recipe.val.traceLength < 2 ^ 64) :
    let a : Assembly := ⟨recipe, .standard⟩
    (∀ (index : UInt64) (k : Anomaly),
      let nominal : Plan := { a.plan index with anomaly := none }
      let anomalous : Plan := { a.plan index with anomaly := some k }
      ∃ s s', a.sample nominal = .ok s ∧ a.sample anomalous = .ok s' ∧ s.label.Raised k s'.label ∧
        (recipe.val.mode = .flat → ∃ t g g', a.trace nominal = .ok (t, g, g') ∧
          s.label.confidence = (Generator.source.uniform 0.85 0.95 g).1 ∧
          s'.label.confidence = s.label.confidence * k.pointConfidence ∧
          s'.label.confidence ≤ s.label.confidence)) ∧
    ∀ (K : Type) [Field K] [LinearOrder K] [IsStrictOrderedRing K] [ElementaryFunctions K] (σ τ : Type)
      (model : TraceModel K) (nominal : NoiseSource σ K) (injected : NoiseSource τ K) (start : Moment K)
      (length : ℕ) (e : Episode) (s : σ × τ), ∃ t t' r r',
        model.trace nominal.onFirst injected.onSecond start length none s = .ok (t, r) ∧
        model.trace nominal.onFirst injected.onSecond start length (some e) s = .ok (t', r') ∧
        r'.1 = r.1 ∧
        (∃ l l', SizingPolicy.standard.label t = .ok l ∧ SizingPolicy.standard.label t' = .ok l' ∧
          l.Raised e.anomaly l') ∧
        ∀ u ∈ t.steps.head?, ∃ v ∈ t'.steps.head?, ∀ c : K, 0.85 ≤ c → c ≤ 0.95 →
          ∃ l l', SizingPolicy.standard.labelPoint u c none = .ok l ∧
            SizingPolicy.standard.labelPoint v c (some e.anomaly) = .ok l' ∧ l.Raised e.anomaly l' ∧
            l'.confidence = l.confidence * e.anomaly.pointConfidence ∧ l'.confidence ≤ l.confidence := by
  intro a
  constructor
  · intro index k nominal anomalous
    have hword : a.recipe.val.sampleLength < 2 ^ 64 := recipe.val.sampleLength_lt hlength
    have hstart : (a.plan index).start.InRange := (Plan.draw_fits recipe index).start.inRange
    obtain ⟨t, t', streams, streams', ht, ht', hstreams, hraised, hfollows, hfollows'⟩ :=
      exists_both hword hstart k
    have hfinite := SizingPolicy.standard_finite
    have horderly := SizingPolicy.standard_orderly
    have hincreasing := SizingPolicy.standard_increasing
    obtain ⟨l, hl, -⟩ := a.label_spec hfinite horderly hfollows streams.1
    obtain ⟨l', hl', -⟩ := a.label_spec hfinite horderly hfollows' streams'.1
    have hs := a.sample_eq ht hl
    have hs' := a.sample_eq ht' hl'
    refine ⟨_, _, hs, hs', ?_⟩
    cases hmode : recipe.val.mode with
    | sequence =>
        obtain ⟨-, -, hl⟩ := (a.sample_eq_ok_of_sequence hmode ht).mp hs
        obtain ⟨-, -, hl'⟩ := (a.sample_eq_ok_of_sequence hmode ht').mp hs'
        exact ⟨SizingPolicy.label_raised hincreasing hraised hl hl', nofun⟩
    | flat =>
        have hsteps := hfollows.steps_ne_nil recipe.property.sampleLength_pos
        obtain ⟨hlabels, hconfidence⟩ :=
          raised_of_flat hmode hincreasing rfl rfl hstreams ht ht' hsteps hraised hs hs'
        exact ⟨hlabels, fun _ => ⟨t, streams.1, streams.2, ht, hconfidence⟩⟩
  · intro K _ _ _ _ σ τ model nominal injected start length e s
    obtain ⟨t, r, ht, hall⟩ := model.exists_trace nominal.onFirst injected.onSecond start length s
    obtain ⟨t', s₂, ht', hraised⟩ := TraceModel.trace_raises e ht hall
    have hincreasing := SizingPolicy.standard_increasing_exact (K := K)
    refine ⟨t, t', r, (r.1, s₂), ht, ht', rfl, ?_, ?_⟩
    · obtain ⟨l, hl⟩ := SizingPolicy.exists_label_exact t
      obtain ⟨l', hl'⟩ := SizingPolicy.exists_label_exact t'
      exact ⟨l, l', hl, hl', SizingPolicy.label_raised hincreasing hraised hl hl'⟩
    · intro u hu
      obtain ⟨rest, hsteps⟩ := List.head?_eq_some_iff.mp hu
      rw [hsteps] at hraised
      obtain ⟨v, rest', huv, -, hsteps'⟩ := List.forall₂_cons_left_iff.mp hraised
      refine ⟨v, by rw [hsteps']; rfl, fun c hlow hhigh => ?_⟩
      exact SizingPolicy.exists_labelPoint_exact huv ⟨hlow, hhigh⟩

theorem leak_keeps_processor :
    ∃ h : Recipe.standard.Valid, Recipe.standard.traceLength < 2 ^ 64 ∧
      let a : Assembly := ⟨⟨Recipe.standard, h⟩, .standard⟩
      ∃ s s', a.sample { a.plan 7 with anomaly := none } = .ok s ∧
        a.sample { a.plan 7 with anomaly := some .memoryLeak } = .ok s' ∧
        s'.label.cpu.limit = s.label.cpu.limit ∧ s.label.memory.limit ≤ s'.label.memory.limit := by
  have hlength : Recipe.standard.traceLength < 2 ^ 64 := by decide
  refine ⟨Recipe.standard_valid, hlength, ?_⟩
  intro a
  obtain ⟨hsamples, -⟩ := anomaly_lowers_no_allocation ⟨Recipe.standard, Recipe.standard_valid⟩ hlength
  obtain ⟨s, s', hs, hs', hraised, -⟩ := hsamples 7 .memoryLeak
  exact ⟨s, s', hs, hs', hraised.cpuKept (by decide), hraised.memoryLimit⟩

end Assembly

end WorkloadSynth
