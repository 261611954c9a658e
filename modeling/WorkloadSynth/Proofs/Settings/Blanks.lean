import WorkloadSynth.Proofs.Settings.Stages

/-!
# Blank names

Blank names are dropped when a list is read, but whether a list is empty, and so stands for everything, is asked
of it as it was given.  So blanks may come and go beside other names, while a list that has blanks only stands
for no value at all: its recipe fails for want of archetypes, and has no anomalies.
-/

set_option autoImplicit false

namespace WorkloadSynth

namespace Settings

def named (names : List String) : List String := names.filter fun n => !Text.isBlankText n

/-- Two lists that differ by blank names, and are both empty or neither. -/
structure SameNames (names names' : List String) : Prop where
  named : named names = named names'
  empty : names = [] ↔ names' = []

structure BlanksOnly (names : List String) : Prop where
  some : names ≠ []
  named : named names = []

/-- The fault of a recipe without archetypes, by what it comes to with all of them.  Archetypes are checked before
anomalies. -/
def withoutArchetypes : Except RecipeFault Recipe → RecipeFault
  | .ok _ => .noArchetypes
  | .error (.noAnomalies _) => .noArchetypes
  | .error fault => fault

def withoutAnomalies : Except RecipeFault Recipe → Except RecipeFault Recipe
  | .ok r => if 0.0 < r.anomalyRatio then .error (.noAnomalies r.anomalyRatio) else .ok { r with anomalies := [] }
  | .error fault => .error fault

section

variable {α : Type} [DecidableEq α] {all : List α} {parse : String → Except RecipeFault α}
  {names names' : List String}

theorem resolve_eq_named : resolve parse names = ((named names).mapM parse).map List.eraseDups := by
  unfold resolve named
  cases (names.filter fun n => !Text.isBlankText n).mapM parse <;> rfl

theorem resolveOr_nil : resolveOr all parse [] = .ok all := rfl

theorem SameNames.resolveOr_eq (h : SameNames names names') :
    resolveOr all parse names = resolveOr all parse names' := by
  simp only [resolveOr, List.isEmpty_iff, h.empty, resolve_eq_named, h.named]

theorem BlanksOnly.resolveOr_eq (h : BlanksOnly names) : resolveOr all parse names = .ok [] := by
  have hread : resolve parse names = .ok [] := by
    rw [resolve_eq_named, h.named]
    rfl
  simp [resolveOr, h.some, hread]

end

end Settings

/-! ## Checks without values -/

namespace Recipe

variable {r : Recipe}

theorem check_withoutArchetypes (h : r.archetypes ≠ []) : { r with archetypes := [] }.check.map Subtype.val =
    .error (Settings.withoutArchetypes (r.check.map Subtype.val)) := by
  simp only [map_check, fault?, h, if_true, if_false]
  split_ifs <;> rfl

theorem check_withoutAnomalies (h : r.anomalies ≠ []) : { r with anomalies := [] }.check.map Subtype.val =
    Settings.withoutAnomalies (r.check.map Subtype.val) := by
  simp only [map_check, fault?, h, and_true, and_false, if_false]
  split_ifs with _ _ _ _ _ hratio
  all_goals simp [Settings.withoutAnomalies, *]

end Recipe

namespace Settings

variable {s : Settings}

theorem withValues_eq {f : Except RecipeFault Recipe → Except RecipeFault Recipe}
    {archetypes archetypes' : List Archetype} {anomalies anomalies' : List Anomaly}
    (hmode : f (.error (.unknownMode s.mode)) = .error (.unknownMode s.mode))
    (hcheck : ∀ mode, (s.asked mode archetypes anomalies).check.map Subtype.val =
      f ((s.asked mode archetypes' anomalies').check.map Subtype.val)) :
    (s.withValues archetypes anomalies).map Subtype.val =
      f ((s.withValues archetypes' anomalies').map Subtype.val) := by
  unfold withValues
  rw [Mode.parse_eq]
  cases Mode.ofName? s.mode with
  | none => exact hmode.symm
  | some mode => exact hcheck mode

theorem recipe_of_sameNames {archetypes anomalies : List String} (harchetypes : SameNames archetypes s.archetypes)
    (hanomalies : SameNames anomalies s.anomalies) : { s with archetypes, anomalies }.recipe = s.recipe := by
  rw [recipe_eq_bind s, ← harchetypes.resolveOr_eq, ← hanomalies.resolveOr_eq]
  exact recipe_eq_bind _

theorem recipe_of_blank_archetypes (h : BlanksOnly s.archetypes) : s.recipe.map Subtype.val =
    .error (withoutArchetypes ({ s with archetypes := [] }.recipe.map Subtype.val)) := by
  rw [recipe_eq_bind, recipe_eq_bind, h.resolveOr_eq, resolveOr_nil]
  cases hread : resolveOr Anomaly.vocabulary.all Anomaly.vocabulary.parse s.anomalies with
  | error f =>
      obtain ⟨text, -, rfl⟩ := Vocabulary.resolveOr_eq_error.mp hread
      rfl
  | ok anomalies =>
      simp only [Except.bind]
      exact withValues_eq (f := fun outcome => .error (withoutArchetypes outcome)) rfl
        fun _ => Recipe.check_withoutArchetypes (r := s.asked _ Archetype.all anomalies) (List.cons_ne_nil _ _)

theorem recipe_of_blank_anomalies (h : BlanksOnly s.anomalies) : s.recipe.map Subtype.val =
    withoutAnomalies ({ s with anomalies := [] }.recipe.map Subtype.val) := by
  rw [recipe_eq_bind, recipe_eq_bind, h.resolveOr_eq, resolveOr_nil]
  cases resolveOr Archetype.vocabulary.all Archetype.vocabulary.parse s.archetypes with
  | error f => rfl
  | ok archetypes =>
      simp only [Except.bind]
      exact withValues_eq rfl
        fun _ => Recipe.check_withoutAnomalies (r := s.asked _ archetypes Anomaly.all) (List.cons_ne_nil _ _)

/-- Names decide what settings come to, blank ones aside, but a list of blanks only stands for no value where an empty
one stands for all. -/
theorem recipe_despite_blanks (s : Settings) :
    (∀ archetypes anomalies, SameNames archetypes s.archetypes → SameNames anomalies s.anomalies →
      { s with archetypes, anomalies }.recipe = s.recipe) ∧
    (BlanksOnly s.archetypes → s.recipe.map Subtype.val =
      .error (withoutArchetypes ({ s with archetypes := [] }.recipe.map Subtype.val))) ∧
    (BlanksOnly s.anomalies → s.recipe.map Subtype.val =
      withoutAnomalies ({ s with anomalies := [] }.recipe.map Subtype.val)) :=
  ⟨fun _ _ => recipe_of_sameNames, recipe_of_blank_archetypes, recipe_of_blank_anomalies⟩

theorem recipe_of_web_and_blanks :
    { standard with archetypes := ["", "web", " "] }.recipe = { standard with archetypes := ["web"] }.recipe ∧
    { standard with archetypes := [" "] }.recipe.map Subtype.val = .error .noArchetypes := by
  obtain ⟨hsame, -, -⟩ := recipe_despite_blanks { standard with archetypes := ["web"] }
  obtain ⟨-, hnone, -⟩ := recipe_despite_blanks { standard with archetypes := [" "] }
  constructor
  · exact hsame ["", "web", " "] [] ⟨by decide, by decide⟩ ⟨rfl, Iff.rfl⟩
  · rw [hnone ⟨by decide, by decide⟩]
    rfl

/-- An empty name does matter on its own: it takes the archetypes away from the standard settings, and the anomalies
from settings that need none. -/
theorem blanks_only_are_not_empty :
    ¬ (∀ (s : Settings) (names : List String), named names = named s.archetypes →
      { s with archetypes := names }.recipe = s.recipe) ∧
    ¬ (∀ (s : Settings) (names : List String), named names = named s.anomalies →
      { s with anomalies := names }.recipe = s.recipe) := by
  constructor
  · intro h
    have hblank : { standard with archetypes := [""] }.recipe = .error .noArchetypes := rfl
    have hempty : standard.recipe = .ok ⟨Recipe.standard, Recipe.standard_valid⟩ := rfl
    have hsame := h standard [""] (by decide)
    rw [hblank, hempty] at hsame
    cases hsame
  · intro h
    have hfault : ({ Recipe.standard with anomalyRatio := 0.0, anomalies := [] } : Recipe).fault? = none := by decide
    have hfault' : ({ Recipe.standard with anomalyRatio := 0.0 } : Recipe).fault? = none := by decide
    have hblank : { standard with anomalyRatio := 0.0, anomalies := [""] }.recipe =
        .ok ⟨_, Recipe.valid_of_fault?_eq_none hfault⟩ := rfl
    have hempty : { standard with anomalyRatio := 0.0 }.recipe =
        .ok ⟨_, Recipe.valid_of_fault?_eq_none hfault'⟩ := rfl
    have hsame := h { standard with anomalyRatio := 0.0 } [""] (by decide)
    rw [hblank, hempty] at hsame
    have hanomalies := congrArg (fun c : CheckedRecipe => c.val.anomalies) (Except.ok.inj hsame)
    cases hanomalies

end Settings

end WorkloadSynth
