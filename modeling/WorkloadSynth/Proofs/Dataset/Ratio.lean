import WorkloadSynth.Proofs.Dataset.Pool

/-!
# More anomalies, and nothing else

The share that is held against the anomaly ratio is drawn after the archetype and the start, and the kind
is drawn after the share.  So of two recipes that differ in the ratio alone the greater ratio keeps every
anomaly that the smaller one has, and its kind.  The making of a sample reads the ratio only through the
plan, from streams of its own, and the order of the pool reads neither.
-/

set_option autoImplicit false

namespace WorkloadSynth

open WorkloadSynth.Random (Generator)

namespace Plan

/-- A share below a ratio is below every greater one, and the kind is drawn from the same state. -/
theorem drawAnomaly?_mono {ratio ratio' : Float} (h : ratio ≤ ratio') {kinds : List Anomaly} {g : Generator}
    {k : Anomaly} (hdrawn : drawAnomaly? ratio kinds g = some (some k)) :
    drawAnomaly? ratio' kinds g = some (some k) := by
  unfold drawAnomaly? at hdrawn ⊢
  dsimp only at hdrawn ⊢
  by_cases hshare : g.fraction.1 < ratio
  · rw [if_pos hshare] at hdrawn
    rw [if_pos (Scalar.lt_of_lt_of_le hshare h)]
    exact hdrawn
  · rw [if_neg hshare] at hdrawn
    cases hdrawn

theorem draw?_eq_some {r : Recipe} {index : UInt64} {p : Plan} (h : draw? r index = some p) :
    ∃ drawn, (Generator.ofStream r.seed .plan index).choose? r.archetypes = some drawn ∧
      p.index = index ∧ p.archetype = drawn.1 ∧ p.start = (drawStart drawn.2).1 ∧
      drawAnomaly? r.anomalyRatio r.anomalies (drawStart drawn.2).2 = some p.anomaly := by
  unfold draw? at h
  obtain ⟨drawn, hdrawn, h⟩ := Option.bind_eq_some_iff.mp h
  obtain ⟨anomaly, hanomaly, rfl⟩ := Option.map_eq_some_iff.mp h
  exact ⟨drawn, hdrawn, rfl, rfl, rfl, hanomaly⟩

theorem draw?_mono {r : Recipe} {ratio' : Float} (h : r.anomalyRatio ≤ ratio') {index : UInt64}
    {p p' : Plan} (hp : draw? r index = some p)
    (hp' : draw? { r with anomalyRatio := ratio' } index = some p') :
    p'.index = p.index ∧ p'.archetype = p.archetype ∧ p'.start = p.start ∧
      ∀ k, p.anomaly = some k → p'.anomaly = some k := by
  obtain ⟨drawn, hdrawn, hindex, harchetype, hstart, hanomaly⟩ := draw?_eq_some hp
  obtain ⟨drawn', hdrawn', hindex', harchetype', hstart', hanomaly'⟩ := draw?_eq_some hp'
  -- The archetype is drawn from one state, so both come to the ratio in one state as well.
  obtain rfl : drawn = drawn' := Option.some.inj (hdrawn.symm.trans hdrawn')
  refine ⟨hindex'.trans hindex.symm, harchetype'.trans harchetype.symm, hstart'.trans hstart.symm, ?_⟩
  intro k hk
  rw [hk] at hanomaly
  exact Option.some.inj (hanomaly'.symm.trans (drawAnomaly?_mono h hanomaly))

theorem eq_of_anomaly_eq {p p' : Plan} (hindex : p'.index = p.index) (harchetype : p'.archetype = p.archetype)
    (hstart : p'.start = p.start) (hanomaly : p.anomaly = p'.anomaly) : p' = p := by
  cases p
  cases p'
  simp_all

theorem episode_eq_none {p : Plan} {length : ℕ} : p.episode length = none ↔ p.anomaly = none :=
  Option.map_eq_none_iff

end Plan

namespace Assembly

variable {a b : Assembly}

section Ratio

variable (hrecipe : b.recipe.val = { a.recipe.val with anomalyRatio := b.recipe.val.anomalyRatio })

include hrecipe

theorem sampleLength_congr_ratio : b.recipe.val.sampleLength = a.recipe.val.sampleLength := by
  rw [hrecipe]
  rfl

theorem plan_mono (hratio : a.recipe.val.anomalyRatio ≤ b.recipe.val.anomalyRatio) (index : UInt64) :
    (b.plan index).index = (a.plan index).index ∧ (b.plan index).archetype = (a.plan index).archetype ∧
      (b.plan index).start = (a.plan index).start ∧
      ∀ k, (a.plan index).anomaly = some k → (b.plan index).anomaly = some k := by
  have hdrawn := Plan.draw?_eq_some_draw b.recipe index
  rw [hrecipe] at hdrawn
  exact Plan.draw?_mono hratio (Plan.draw?_eq_some_draw a.recipe index) hdrawn

theorem numbered_congr_ratio (hpolicy : b.policy = a.policy)
    (hratio : a.recipe.val.anomalyRatio ≤ b.recipe.val.anomalyRatio) {i : ℕ}
    {s s' : Sample Float} (hs : a.numbered i = .ok s) (hs' : b.numbered i = .ok s') :
    s.index = s'.index ∧ ((a.plan s.index).anomaly = (b.plan s.index).anomaly → s = s') ∧
      (s.trace.episode = none → s'.trace.episode = none → s = s') := by
  have hindex := a.index_numbered hs
  obtain ⟨hi, harchetype, hstart, -⟩ := plan_mono hrecipe hratio (UInt64.ofNat i)
  have hsame : (a.plan s.index).anomaly = (b.plan s.index).anomaly → s = s' := by
    intro hanomaly
    rw [hindex] at hanomaly
    have hplan := Plan.eq_of_anomaly_eq hi harchetype hstart hanomaly
    have hmade : b.sample (b.plan (UInt64.ofNat i)) = a.sample (a.plan (UInt64.ofNat i)) := by
      rw [hplan, sample_congr (by rw [hrecipe]) (sampleLength_congr_ratio hrecipe) (by rw [hrecipe])
        (by rw [hrecipe]) hpolicy]
    exact Except.ok.inj (hs.symm.trans (hmade.symm.trans hs'))
  refine ⟨hindex.trans (b.index_numbered hs').symm, hsame, ?_⟩
  intro hnominal hnominal'
  rw [a.episode_of_sample hs, Plan.episode_eq_none] at hnominal
  rw [b.episode_of_sample hs', Plan.episode_eq_none] at hnominal'
  rw [hindex, hnominal, hnominal'] at hsame
  exact hsame rfl

end Ratio

theorem forall₂_of_map_ok {ε β γ : Type} {R : β → γ → Prop} {f : ℕ → Except ε β} {g : ℕ → Except ε γ}
    (hR : ∀ i x y, f i = .ok x → g i = .ok y → R x y) {indices : List ℕ} {xs : List β} {ys : List γ}
    (hxs : indices.map f = xs.map .ok) (hys : indices.map g = ys.map .ok) : List.Forall₂ R xs ys := by
  induction indices generalizing xs ys with
  | nil =>
      obtain rfl : xs = [] := by simpa using hxs.symm
      obtain rfl : ys = [] := by simpa using hys.symm
      exact .nil
  | cons i indices ih =>
      obtain ⟨x, xs, rfl, hx, hxs⟩ := List.map_eq_cons_iff.mp hxs.symm
      obtain ⟨y, ys, rfl, hy, hys⟩ := List.map_eq_cons_iff.mp hys.symm
      exact .cons (hR i x y hx.symm hy.symm) (ih hxs.symm hys.symm)

/-- Of two checked recipes that differ in the ratio alone, the one with the greater ratio plans the same
archetypes and starts and keeps every anomaly.  Both give a dataset; the two hold the same indices at every
position of every part, and the same samples wherever the plans have the same anomaly, hence wherever
neither has one. -/
theorem greater_ratio_adds_anomalies (recipe recipe' : CheckedRecipe)
    (hrecipe : recipe'.val = { recipe.val with anomalyRatio := recipe'.val.anomalyRatio })
    (hratio : recipe.val.anomalyRatio ≤ recipe'.val.anomalyRatio)
    (hlength : recipe.val.traceLength < 2 ^ 64) :
    let a : Assembly := ⟨recipe, .standard⟩
    let b : Assembly := ⟨recipe', .standard⟩
    (∀ index, (b.plan index).archetype = (a.plan index).archetype ∧
      (b.plan index).start = (a.plan index).start ∧
      ∀ k, (a.plan index).anomaly = some k → (b.plan index).anomaly = some k) ∧
    ∀ observed observed' : Observation, ∃ d o d' o',
      a.dataset observed = .ok (d, o) ∧ b.dataset observed' = .ok (d', o') ∧
      ∀ part, List.Forall₂ (fun s s' => s.index = s'.index ∧
          ((a.plan s.index).anomaly = (b.plan s.index).anomaly → s = s') ∧
          (s.trace.episode = none → s'.trace.episode = none → s = s'))
        (d.part part) (d'.part part) := by
  intro a b
  refine ⟨fun index => (plan_mono (a := a) (b := b) hrecipe hratio index).2, ?_⟩
  intro observed observed'
  have hlength' : b.recipe.val.traceLength < 2 ^ 64 := by
    change recipe'.val.traceLength < 2 ^ 64
    rw [hrecipe]
    exact hlength
  obtain ⟨samples, o, hsamples, ho⟩ :=
    a.exists_dataset (a.recipe.val.sampleLength_lt hlength) SizingPolicy.standard_finite
      SizingPolicy.standard_orderly observed
  obtain ⟨samples', o', hsamples', ho'⟩ :=
    b.exists_dataset (b.recipe.val.sampleLength_lt hlength') SizingPolicy.standard_finite
      SizingPolicy.standard_orderly observed'
  refine ⟨a.dealt samples, o, b.dealt samples', o', ho, ho', ?_⟩
  intro part
  have hcount : recipe'.val.sampleCount = recipe.val.sampleCount := by rw [hrecipe]
  change (List.range recipe'.val.sampleCount).map b.numbered = _ at hsamples'
  rw [hcount] at hsamples'
  have hdealt : b.dealt samples' = a.dealt samples' :=
    dealt_congr (by rw [hrecipe]) (sampleLength_congr_ratio hrecipe) (by rw [hrecipe]) samples'
  rw [hdealt]
  exact Dataset.deal_forall₂ _ _ _ (forall₂_of_map_ok
    (fun _ _ _ hs hs' => numbered_congr_ratio (a := a) (b := b) hrecipe rfl hratio hs hs')
    hsamples hsamples') part

theorem ratio_zero_against_one :
    let r : Recipe := { Recipe.standard with sampleCount := 12, anomalyRatio := 0.0 }
    let r' : Recipe := { r with anomalyRatio := 1.0 }
    r.traceLength < 2 ^ 64 ∧ r.anomalyRatio ≤ r'.anomalyRatio ∧ ∃ (h : r.Valid) (h' : r'.Valid),
      let a : Assembly := ⟨⟨r, h⟩, .standard⟩
      let b : Assembly := ⟨⟨r', h'⟩, .standard⟩
      (b.plan 7).archetype = (a.plan 7).archetype ∧ (a.plan 7).anomaly = none ∧
      (b.plan 7).anomaly ≠ none ∧ ∃ d o d' o', a.dataset .none = .ok (d, o) ∧
        b.dataset .none = .ok (d', o') ∧ d.train.map (·.index) = d'.train.map (·.index) := by
  intro r r'
  have hvalid : r.Valid := Recipe.valid_of_fault?_eq_none (by decide)
  have hvalid' : r'.Valid := Recipe.valid_of_fault?_eq_none (by decide)
  have hlength : r.traceLength < 2 ^ 64 := by decide
  have hratio : r.anomalyRatio ≤ r'.anomalyRatio := by decide
  refine ⟨hlength, hratio, hvalid, hvalid', ?_⟩
  intro a b
  obtain ⟨hplans, hdatasets⟩ := greater_ratio_adds_anomalies ⟨r, hvalid⟩ ⟨r', hvalid'⟩ rfl hratio hlength
  obtain ⟨d, o, d', o', hd, hd', hparts⟩ := hdatasets .none .none
  have hnone : r.anomalyRatio ≤ 0.0 := by decide
  have hall : (1.0 : Float) ≤ r'.anomalyRatio := by decide
  refine ⟨(hplans 7).1, (Plan.draw_fits ⟨r, hvalid⟩ 7).nominal hnone,
    (Plan.draw_fits ⟨r', hvalid'⟩ 7).anomalous hall, d, o, d', o', hd, hd', ?_⟩
  rw [← List.forall₂_eq_eq_eq, List.forall₂_map_left_iff, List.forall₂_map_right_iff]
  exact (hparts .train).imp fun _ _ h => h.1

end Assembly

end WorkloadSynth
