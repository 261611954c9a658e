import WorkloadSynth.Proofs.Dataset.Plan
import WorkloadSynth.Proofs.Settings.Names

/-!
# From settings to a recipe, stage by stage

Settings are resolved in four stages: the archetypes, the anomalies, the mode, and the check of what they make
together.  The first stage that fails gives the fault (`Settings.ComesTo`), and a recipe is what is left if none
does.  The values of such a recipe have names that mention each of them once, so as settings it comes to itself.
-/

set_option autoImplicit false

namespace WorkloadSynth

/-! ## Checks -/

theorem Recipe.map_check (r : Recipe) : r.check.map Subtype.val = r.fault?.elim (.ok r) .error := by
  unfold check
  split
  · next h => simp only [h, Except.map, Option.elim]
  · next h => simp only [h, Except.map, Option.elim]

theorem Mode.ofName?_name (m : Mode) : ofName? m.name = some m := by
  cases m <;> decide

theorem Mode.parse_eq (text : String) : parse text = (ofName? text).elim (.error (.unknownMode text)) .ok := by
  delta parse
  cases ofName? text <;> rfl

theorem Recipe.fault?_ne (r : Recipe) (text : String) :
    r.fault? ≠ some (.unknownArchetype text) ∧ r.fault? ≠ some (.unknownAnomaly text) := by
  unfold fault?
  split_ifs <;> simp

def Recipe.settings (r : Recipe) (output : Path) : Settings where
  sampleCount := r.sampleCount
  traceLength := r.traceLength
  anomalyRatio := r.anomalyRatio
  seed := r.seed
  stepHours := r.stepHours
  mode := r.mode.name
  archetypes := r.archetypes.map Archetype.name
  anomalies := r.anomalies.map Anomaly.name
  output

namespace Settings

/-! ## Stages -/

def asked (s : Settings) (mode : Mode) (archetypes : List Archetype) (anomalies : List Anomaly) : Recipe where
  sampleCount := s.sampleCount
  traceLength := s.traceLength
  anomalyRatio := s.anomalyRatio
  seed := s.seed
  stepHours := s.stepHours
  mode
  archetypes
  anomalies

def withValues (s : Settings) (archetypes : List Archetype) (anomalies : List Anomaly) :
    Except RecipeFault CheckedRecipe :=
  (Mode.parse s.mode).bind fun mode => (s.asked mode archetypes anomalies).check

/-- What settings come to.  A stage is reached if those before it have a result. -/
inductive ComesTo (s : Settings) : Except RecipeFault Recipe → Prop where
  | unknownArchetype {text : String} (h : Archetype.vocabulary.FirstUnknown s.archetypes text) :
      ComesTo s (.error (.unknownArchetype text))
  | unknownAnomaly {archetypes : List Archetype} {text : String}
      (harchetypes : Archetype.vocabulary.StandsFor s.archetypes archetypes)
      (h : Anomaly.vocabulary.FirstUnknown s.anomalies text) : ComesTo s (.error (.unknownAnomaly text))
  | unknownMode {archetypes : List Archetype} {anomalies : List Anomaly}
      (harchetypes : Archetype.vocabulary.StandsFor s.archetypes archetypes)
      (hanomalies : Anomaly.vocabulary.StandsFor s.anomalies anomalies)
      (h : Mode.ofName? s.mode = none) : ComesTo s (.error (.unknownMode s.mode))
  | refused {archetypes : List Archetype} {anomalies : List Anomaly} {mode : Mode} {fault : RecipeFault}
      (harchetypes : Archetype.vocabulary.StandsFor s.archetypes archetypes)
      (hanomalies : Anomaly.vocabulary.StandsFor s.anomalies anomalies)
      (hmode : Mode.ofName? s.mode = some mode)
      (h : (s.asked mode archetypes anomalies).fault? = some fault) : ComesTo s (.error fault)
  | accepted {archetypes : List Archetype} {anomalies : List Anomaly} {mode : Mode}
      (harchetypes : Archetype.vocabulary.StandsFor s.archetypes archetypes)
      (hanomalies : Anomaly.vocabulary.StandsFor s.anomalies anomalies)
      (hmode : Mode.ofName? s.mode = some mode)
      (h : (s.asked mode archetypes anomalies).fault? = none) : ComesTo s (.ok (s.asked mode archetypes anomalies))

variable {s : Settings} {archetypes : List Archetype} {anomalies : List Anomaly} {mode : Mode}

theorem recipe_eq_bind (s : Settings) : s.recipe =
    (resolveOr Archetype.vocabulary.all Archetype.vocabulary.parse s.archetypes).bind fun archetypes =>
      (resolveOr Anomaly.vocabulary.all Anomaly.vocabulary.parse s.anomalies).bind fun anomalies =>
        s.withValues archetypes anomalies := by
  rw [recipe, Archetype.vocabulary, Anomaly.vocabulary]
  simp only [bind, withValues, asked]

theorem recipe_of_unknownArchetype {text : String} (h : Archetype.vocabulary.FirstUnknown s.archetypes text) :
    s.recipe = .error (.unknownArchetype text) := by
  rw [recipe_eq_bind, Vocabulary.resolveOr_eq_error.mpr ⟨text, h, rfl⟩]
  rfl

section

variable (harchetypes : Archetype.vocabulary.StandsFor s.archetypes archetypes)

include harchetypes

theorem recipe_of_unknownAnomaly {text : String} (h : Anomaly.vocabulary.FirstUnknown s.anomalies text) :
    s.recipe = .error (.unknownAnomaly text) := by
  rw [recipe_eq_bind, Vocabulary.resolveOr_eq_ok.mpr harchetypes,
    Vocabulary.resolveOr_eq_error.mpr ⟨text, h, rfl⟩]
  rfl

variable (hanomalies : Anomaly.vocabulary.StandsFor s.anomalies anomalies)

include hanomalies

theorem recipe_of_resolved : s.recipe = s.withValues archetypes anomalies := by
  rw [recipe_eq_bind, Vocabulary.resolveOr_eq_ok.mpr harchetypes, Vocabulary.resolveOr_eq_ok.mpr hanomalies]
  simp only [Except.bind]

theorem recipe_of_unknownMode (h : Mode.ofName? s.mode = none) : s.recipe = .error (.unknownMode s.mode) := by
  rw [recipe_of_resolved harchetypes hanomalies, withValues, Mode.parse_eq, h]
  rfl

theorem recipe_of_mode (h : Mode.ofName? s.mode = some mode) :
    s.recipe = (s.asked mode archetypes anomalies).check := by
  rw [recipe_of_resolved harchetypes hanomalies, withValues, Mode.parse_eq, h]
  rfl

end

theorem recipe_of_comesTo {outcome : Except RecipeFault Recipe} (h : s.ComesTo outcome) :
    s.recipe.map Subtype.val = outcome := by
  cases h with
  | unknownArchetype h => rw [recipe_of_unknownArchetype h]; rfl
  | unknownAnomaly harchetypes h => rw [recipe_of_unknownAnomaly harchetypes h]; rfl
  | unknownMode harchetypes hanomalies h => rw [recipe_of_unknownMode harchetypes hanomalies h]; rfl
  | refused harchetypes hanomalies hmode h =>
      rw [recipe_of_mode harchetypes hanomalies hmode, Recipe.map_check, h]
      rfl
  | accepted harchetypes hanomalies hmode h =>
      rw [recipe_of_mode harchetypes hanomalies hmode, Recipe.map_check, h]
      rfl

theorem exists_comesTo (s : Settings) : ∃ outcome, s.ComesTo outcome := by
  rcases Archetype.vocabulary.standsFor_or_firstUnknown s.archetypes with ⟨archetypes, harchetypes⟩ | ⟨text, h⟩
  · rcases Anomaly.vocabulary.standsFor_or_firstUnknown s.anomalies with ⟨anomalies, hanomalies⟩ | ⟨text, h⟩
    · cases hmode : Mode.ofName? s.mode with
      | none => exact ⟨_, .unknownMode harchetypes hanomalies hmode⟩
      | some mode =>
          cases h : (s.asked mode archetypes anomalies).fault? with
          | none => exact ⟨_, .accepted harchetypes hanomalies hmode h⟩
          | some fault => exact ⟨_, .refused harchetypes hanomalies hmode h⟩
    · exact ⟨_, .unknownAnomaly harchetypes h⟩
  · exact ⟨_, .unknownArchetype h⟩

theorem recipe_eq_iff {outcome : Except RecipeFault Recipe} :
    s.recipe.map Subtype.val = outcome ↔ s.ComesTo outcome := by
  constructor
  · rintro rfl
    obtain ⟨outcome, h⟩ := exists_comesTo s
    exact (recipe_of_comesTo h).symm ▸ h
  · exact recipe_of_comesTo

/-! ## Names and back -/

theorem ComesTo.ok_spec {r : Recipe} (h : s.ComesTo (.ok r)) : r.fault? = none ∧
    Archetype.vocabulary.StandsFor s.archetypes r.archetypes ∧
    Anomaly.vocabulary.StandsFor s.anomalies r.anomalies := by
  cases h with
  | accepted harchetypes hanomalies hmode h => exact ⟨h, harchetypes, hanomalies⟩

theorem comesTo_settings {r : Recipe} (hfault : r.fault? = none) (harchetypes : r.archetypes.Nodup)
    (hanomalies : r.anomalies.Nodup) (hsome : r.anomalies ≠ []) (output : Path) :
    (r.settings output).ComesTo (.ok r) :=
  .accepted (Vocabulary.standsFor_names (Recipe.valid_of_fault?_eq_none hfault).archetypes_ne_nil harchetypes)
    (Vocabulary.standsFor_names hsome hanomalies) r.mode.ofName?_name hfault

theorem recipe_eq_ok {c : CheckedRecipe} : s.recipe = .ok c ↔ s.ComesTo (.ok c.val) := by
  rw [← recipe_eq_iff]
  cases s.recipe with
  | error f => exact ⟨nofun, nofun⟩
  | ok c' => rw [Except.ok.injEq, Except.map, Except.ok.injEq, Subtype.ext_iff]

theorem recipe_eq_error {f : RecipeFault} : s.recipe = .error f ↔ s.ComesTo (.error f) := by
  rw [← recipe_eq_iff]
  cases s.recipe with
  | error f' => rw [Except.error.injEq, Except.map, Except.error.injEq]
  | ok c => exact ⟨nofun, nofun⟩

theorem unknownArchetype_iff : (∃ text, s.recipe = .error (.unknownArchetype text)) ↔
    ∃ n ∈ s.archetypes, Archetype.vocabulary.Unknown n := by
  rw [← Vocabulary.exists_firstUnknown]
  constructor
  · rintro ⟨text, h⟩
    cases recipe_eq_error.mp h with
    | unknownArchetype h => exact ⟨text, h⟩
    | refused _ _ _ h => exact absurd h (Recipe.fault?_ne _ text).1
  · rintro ⟨text, h⟩
    exact ⟨text, recipe_of_unknownArchetype h⟩

theorem unknownAnomaly_iff : (∃ text, s.recipe = .error (.unknownAnomaly text)) ↔
    (∀ n ∈ s.archetypes, ¬ Archetype.vocabulary.Unknown n) ∧
      ∃ n ∈ s.anomalies, Anomaly.vocabulary.Unknown n := by
  rw [← Vocabulary.exists_firstUnknown]
  constructor
  · rintro ⟨text, h⟩
    cases recipe_eq_error.mp h with
    | unknownAnomaly harchetypes h => exact ⟨harchetypes.1, text, h⟩
    | refused _ _ _ h => exact absurd h (Recipe.fault?_ne _ text).2
  · rintro ⟨hknown, text, h⟩
    obtain ⟨archetypes, harchetypes⟩ := Vocabulary.exists_standsFor hknown
    exact ⟨text, recipe_of_unknownAnomaly harchetypes h⟩

theorem quotes_unknown {f : RecipeFault} {text : String}
    (h : f = .unknownArchetype text ∨ f = .unknownAnomaly text) : f.Quotes text := by
  rcases h with rfl | rfl
  · have hbefore : "unknown workload archetype '" = "unknown workload archetype " ++ "'" := by decide
    have hafter : "' (expected one of: web, batch, database, microservice, cron)" =
        "'" ++ " (expected one of: web, batch, database, microservice, cron)" := by decide
    exact ⟨_, _, congrArg₂ (fun before after => before ++ text ++ after) hbefore hafter⟩
  · have hbefore : "unknown anomaly kind '" = "unknown anomaly kind " ++ "'" := by decide
    have hafter : "' (expected one of: memory_leak, cpu_spike, noisy)" =
        "'" ++ " (expected one of: memory_leak, cpu_spike, noisy)" := by decide
    exact ⟨_, _, congrArg₂ (fun before after => before ++ text ++ after) hbefore hafter⟩

/-- Settings come to what their stages come to.  A list of archetypes or anomalies is refused if a name in it is
neither blank nor known, and the message quotes the first such name.  A recipe passes its own check, and unless it
has no anomalies the settings that name what it has come to the same recipe. -/
theorem recipe_by_stages (s : Settings) :
    (∀ outcome, s.recipe.map Subtype.val = outcome ↔ s.ComesTo outcome) ∧
    ((∃ text, s.recipe = .error (.unknownArchetype text)) ↔
      ∃ n ∈ s.archetypes, Archetype.vocabulary.Unknown n) ∧
    ((∃ text, s.recipe = .error (.unknownAnomaly text)) ↔
      (∀ n ∈ s.archetypes, ¬ Archetype.vocabulary.Unknown n) ∧
        ∃ n ∈ s.anomalies, Anomaly.vocabulary.Unknown n) ∧
    (∀ f text, s.recipe = .error f → f = .unknownArchetype text ∨ f = .unknownAnomaly text → f.Quotes text) ∧
    ∀ c, s.recipe = .ok c → c.val.fault? = none ∧
      (c.val.anomalies ≠ [] → ∀ output, (c.val.settings output).recipe = .ok c) := by
  refine ⟨fun _ => recipe_eq_iff, unknownArchetype_iff, unknownAnomaly_iff, fun _ _ _ => quotes_unknown,
    fun c hc => ?_⟩
  obtain ⟨hfault, harchetypes, hanomalies⟩ := (recipe_eq_ok.mp hc).ok_spec
  refine ⟨hfault, fun hsome output => ?_⟩
  exact recipe_eq_ok.mpr (comesTo_settings hfault harchetypes.nodup hanomalies.nodup hsome output)

def spelled : Settings :=
  { standard with archetypes := [" Web", "", "cron", "WEB"], anomalies := ["cpu-spike", "noisy", "CPU_SPIKE"] }

theorem spelled_by_stages : ∃ c : CheckedRecipe, spelled.recipe = .ok c ∧ c.val.archetypes = [.web, .cron] ∧
    c.val.anomalies = [.cpuSpike, .noisy] ∧ (c.val.settings spelled.output).recipe = .ok c ∧
    { spelled with anomalies := ["noisy", "tpu", "gpu"] }.recipe = .error (.unknownAnomaly "tpu") := by
  have hfault : (spelled.asked .sequence [.web, .cron] [.cpuSpike, .noisy]).fault? = none := by decide
  have hrecipe : spelled.recipe = .ok ⟨_, Recipe.valid_of_fault?_eq_none hfault⟩ := rfl
  obtain ⟨-, -, -, -, hback⟩ := recipe_by_stages spelled
  refine ⟨_, hrecipe, rfl, rfl, (hback _ hrecipe).2 (List.cons_ne_nil _ _) spelled.output, ?_⟩
  rfl

end Settings

end WorkloadSynth
