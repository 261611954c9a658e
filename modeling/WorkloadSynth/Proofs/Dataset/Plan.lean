import WorkloadSynth.Dataset.Sample
import WorkloadSynth.Proofs.Random.Draw

/-!
# Plans of checked recipes

A checked recipe never draws from an empty list: it has archetypes, and a share below its ratio is only
drawn where the ratio is positive, so that it has anomalies too.  `Plan.Fits` says what a plan of the
recipe looks like.
-/

set_option autoImplicit false

namespace WorkloadSynth

open WorkloadSynth.Random (Generator)

namespace Recipe

variable {r : Recipe}

theorem Valid.archetypes_ne_nil (h : r.Valid) : r.archetypes ≠ [] := h.2.2.2.2.1

theorem Valid.anomalies_ne_nil (h : r.Valid) (hratio : 0.0 < r.anomalyRatio) : r.anomalies ≠ [] :=
  fun hnone => h.2.2.2.2.2 ⟨hratio, hnone⟩

theorem Valid.sampleLength_pos (h : r.Valid) : 0 < r.sampleLength := by
  unfold sampleLength
  split
  · exact Nat.pos_of_ne_zero h.2.1
  · exact Nat.one_pos

theorem standard_valid : standard.Valid := by
  refine ⟨by decide, by decide, by decide, by decide, by decide, ?_⟩
  intro h
  cases h.2

end Recipe

namespace Plan

structure Fresh (m : Moment Float) : Prop where
  hour : 0.0 ≤ m.hour ∧ m.hour < 1.0
  day : 0.0 ≤ m.day ∧ m.day < 1.0
  age : minAgeDays ≤ m.ageDays ∧ m.ageDays < maxAgeDays

structure Fits (p : Plan) (r : Recipe) : Prop where
  archetype : p.archetype ∈ r.archetypes
  start : Fresh p.start
  kind : ∀ k, p.anomaly = some k → k ∈ r.anomalies
  nominal : r.anomalyRatio ≤ 0.0 → p.anomaly = none
  anomalous : 1.0 ≤ r.anomalyRatio → p.anomaly ≠ none

theorem Fresh.inRange {m : Moment Float} (h : Fresh m) : m.InRange where
  hour := h.hour
  day := h.day
  age :=
    have hpositive : 0.0 ≤ m.ageDays := LawfulOrder.le_trans (by decide) h.age.1
    ⟨hpositive, Binary64.isFinite_of_between (by decide) (by decide) hpositive
      (Scalar.le_of_lt h.age.2)⟩

theorem fresh_mk {hour day ageDays : Float} (hhour : 0.0 ≤ hour ∧ hour < 1.0) (hday : 0.0 ≤ day ∧ day < 1.0)
    (hage : minAgeDays ≤ ageDays ∧ ageDays < maxAgeDays) : Fresh ⟨hour, day, ageDays⟩ :=
  ⟨hhour, hday, hage⟩

theorem drawStart_fresh (g : Generator) : Fresh (drawStart g).1 := by
  have hbounds : minAgeDays < maxAgeDays := by decide
  have hage := Generator.between_mem (by decide) (by decide) (by decide) hbounds
    g.fraction.2.fraction.2
  exact fresh_mk (Generator.fraction_mem g) (Generator.fraction_mem g.fraction.2) hage

/-- An anomaly is drawn only where the ratio is positive, and always where it is one. -/
theorem drawAnomaly?_spec {ratio : Float} {kinds : List Anomaly} (h : 0.0 < ratio → kinds ≠ [])
    (g : Generator) : ∃ anomaly, drawAnomaly? ratio kinds g = some anomaly ∧
      (∀ k, anomaly = some k → k ∈ kinds) ∧ (ratio ≤ 0.0 → anomaly = none) ∧
      (1.0 ≤ ratio → anomaly ≠ none) := by
  have hshare := Generator.fraction_mem g
  unfold drawAnomaly?
  generalize g.fraction = share at hshare ⊢
  dsimp only
  split
  · next hbelow =>
      have hratio : 0.0 < ratio := Scalar.lt_of_le_of_lt hshare.1 hbelow
      obtain ⟨k, hk, g', hchoice⟩ := Generator.exists_choose? (h hratio) share.2
      refine ⟨some k, by rw [hchoice]; rfl, ?_, ?_, fun _ => nofun⟩
      · rintro _ ⟨⟩
        exact hk
      · intro hnone
        exact absurd hratio (Scalar.not_lt_of_le hnone)
  · next habove =>
      refine ⟨none, rfl, nofun, fun _ => rfl, ?_⟩
      intro hone
      exact absurd (Scalar.lt_of_lt_of_le hshare.2 hone) habove

theorem draw?_eq {r : Recipe} {index : UInt64} {archetype : Archetype} {g : Generator}
    {start : Moment Float × Generator} {anomaly : Option Anomaly}
    (harchetype : (Generator.ofStream r.seed .plan index).choose? r.archetypes = some (archetype, g))
    (hstart : drawStart g = start)
    (hanomaly : drawAnomaly? r.anomalyRatio r.anomalies start.2 = some anomaly) :
    draw? r index = some ⟨index, archetype, start.1, anomaly⟩ := by
  unfold draw?
  rw [harchetype, Option.bind_some, hstart]
  simp only [hanomaly, Option.map_some]

theorem draw?_spec {r : Recipe} (h : r.Valid) (index : UInt64) :
    ∃ p, draw? r index = some p ∧ p.index = index ∧ p.Fits r := by
  obtain ⟨archetype, hmem, g, hchoice⟩ := Generator.exists_choose? h.archetypes_ne_nil
    (Generator.ofStream r.seed .plan index)
  have hstart := drawStart_fresh g
  obtain ⟨start, hdrawn⟩ : ∃ start, drawStart g = start := ⟨_, rfl⟩
  rw [hdrawn] at hstart
  obtain ⟨anomaly, hanomaly, hkind, hnominal, hanomalous⟩ :=
    drawAnomaly?_spec h.anomalies_ne_nil start.2
  exact ⟨⟨index, archetype, start.1, anomaly⟩, draw?_eq hchoice hdrawn hanomaly, rfl,
    hmem, hstart, hkind, hnominal, hanomalous⟩

variable (recipe : CheckedRecipe) (index : UInt64)

theorem draw?_eq_some_draw : draw? recipe.val index = some (draw recipe index) := by
  obtain ⟨p, hp, -⟩ := draw?_spec recipe.property index
  rw [draw, hp]
  rfl

theorem index_draw : (draw recipe index).index = index := by
  obtain ⟨p, hp, hindex, -⟩ := draw?_spec recipe.property index
  obtain rfl : p = draw recipe index := Option.some.inj (hp.symm.trans (draw?_eq_some_draw recipe index))
  exact hindex

theorem draw_fits : (draw recipe index).Fits recipe.val := by
  obtain ⟨p, hp, -, hfits⟩ := draw?_spec recipe.property index
  obtain rfl : p = draw recipe index := Option.some.inj (hp.symm.trans (draw?_eq_some_draw recipe index))
  exact hfits

end Plan

end WorkloadSynth
