import WorkloadSynth.Proofs.Number.Order
import WorkloadSynth.Settings.Load

/-!
# Layers over each other

The environment is laid over the file, variable after variable.  A variable that spells a single value puts
it in the place of whatever its setting was before, and leaves every other setting alone.
-/

set_option autoImplicit false

namespace WorkloadSynth

namespace Layer

theorem ofEnvironment_append (env env' : Environment) :
    ofEnvironment (env ++ env') = ofEnvironment env ++ ofEnvironment env' := List.filterMap_append

theorem ofVariable?_of_name {longName name : String} {a : Address}
    (hname : (Text.lowerKey longName).toList = variableStart.toList ++ name.toList)
    (ha : Address.ofName (Text.lowerKey name) = a) (value : String) :
    ofVariable? (longName, value) = some (a, variableSetting name value) := by
  unfold ofVariable?
  simp [hname, entry, ha]

def spelled (value : String) : RawValue :=
  if Text.lower value = "true" then .bool true
  else if Text.lower value = "false" then .bool false
  else match Decimal.readInteger? value, Decimal.readFloat? value with
    | some i, _ => .integer i
    | none, some x => .float x
    | none, none => .text value

theorem variableSetting_of_not_mem {name : String} (h : name ∉ listNames) (value : String) :
    variableSetting name value = fromEnvironment (spelled value) := by
  unfold variableSetting spelled
  dsimp only
  split_ifs
  · rfl
  · rfl
  · cases Decimal.readInteger? value with
    | some i => rfl
    | none =>
        cases Decimal.readFloat? value with
        | some x => rfl
        | none => rfl

theorem onto_of_agree {l : Layer} {key : String} {below below' above : Entries}
    (hothers : ∀ e ∈ l, e.1.name ≠ key) (hagree : ∀ k ≠ key, below'.find? k = below.find? k)
    (h : l.onto below = .ok above) :
    ∃ above', l.onto below' = .ok above' ∧ above'.find? key = below'.find? key ∧
      ∀ k ≠ key, above'.find? k = above.find? k := by
  induction l generalizing below below' with
  | nil =>
      cases h
      exact ⟨below', rfl, rfl, hagree⟩
  | cons e rest ih =>
      obtain ⟨hfirst, hrest⟩ := List.forall_mem_cons.mp hothers
      obtain ⟨next, hnext, h⟩ := bind_eq_ok.mp (List.foldlM_cons.symm.trans h)
      obtain ⟨inner, hinner, hset⟩ := bind_eq_ok.mp hnext
      cases hset
      have hnext' : ∀ k ≠ key, (below'.set e.1.name inner).find? k = (below.set e.1.name inner).find? k := by
        intro k hk
        rw [Entries.find?_set, Entries.find?_set, hagree k hk]
      obtain ⟨above', habove, hkept, hsame⟩ := ih hrest hnext' h
      refine ⟨above', ?_, ?_, hsame⟩
      · refine List.foldlM_cons.trans (bind_eq_ok.mpr ⟨below'.set e.1.name inner, ?_, habove⟩)
        refine bind_eq_ok.mpr ⟨inner, ?_, rfl⟩
        rw [hagree _ hfirst]
        exact hinner
      · rw [hkept, Entries.find?_set, if_neg hfirst.symm]

/-- A setting that a layer leaves alone may as well be put in after the layer. -/
theorem exists_onto_set {l : Layer} {key : String} {below above : Entries} (hothers : ∀ e ∈ l, e.1.name ≠ key)
    (v : Setting) (h : l.onto below = .ok above) :
    ∃ above', l.onto (below.set key v) = .ok above' ∧ ∀ k, above'.find? k = (above.set key v).find? k := by
  have hagree : ∀ k ≠ key, (below.set key v).find? k = below.find? k := by
    intro k hk
    rw [Entries.find?_set, if_neg hk]
  obtain ⟨above', habove, hkept, hsame⟩ := onto_of_agree hothers hagree h
  refine ⟨above', habove, ?_⟩
  intro k
  by_cases hk : k = key
  · rw [hk, hkept, Entries.find?_set, Entries.find?_set, if_pos rfl, if_pos rfl]
  · rw [hsame k hk, Entries.find?_set, if_neg hk]

end Layer

namespace Settings

variable {env : Environment} {file : Option Layer} {e : Entries} {s : Settings}

theorem combine_eq_ok : combine env file = .ok s ↔ ∃ e, entries env file = .ok e ∧ ofEntries e = .ok s := by
  unfold combine
  constructor
  · intro h
    split at h
    · cases h
    · next e he =>
        split at h
        · next hs =>
            cases h
            exact ⟨e, he, hs⟩
        · cases h
  · rintro ⟨e, he, hs⟩
    simp only [he, hs]

theorem entries_append_eq_ok {env' : Environment} : entries (env ++ env') file = .ok e ↔
    ∃ e₁, entries env file = .ok e₁ ∧ (Layer.ofEnvironment env').onto e₁ = .ok e := by
  unfold entries
  rw [Layer.ofEnvironment_append]
  cases hbelow : (file.getD []).onto [] with
  | error fault => exact ⟨nofun, nofun⟩
  | ok below =>
      change (Layer.ofEnvironment env ++ Layer.ofEnvironment env').foldlM _ below = _ ↔ _
      rw [List.foldlM_append, bind_eq_ok]
      rfl

/-! ## Reading entries -/

theorem lookup_set {α : Type} (name key : String) (v : Setting)
    (convert : Setting → String → Except SettingFault α) (default : α) :
    lookup (e.set name v) key convert default =
      if key = name then convert v key else lookup e key convert default := by
  unfold lookup
  rw [Entries.find?_set]
  split_ifs <;> rfl

theorem ofEntries_congr {e' : Entries} (h : ∀ key, e.find? key = e'.find? key) : ofEntries e = ofEntries e' := by
  unfold ofEntries lookup
  simp only [h]

theorem ofEntries_eq_ok : ofEntries e = .ok s ↔
    lookup e "num_samples" Setting.toNatural standard.sampleCount = .ok s.sampleCount ∧
    lookup e "seq_len" Setting.toNatural standard.traceLength = .ok s.traceLength ∧
    lookup e "anomaly_ratio" Setting.toFloat standard.anomalyRatio = .ok s.anomalyRatio ∧
    (∃ n, lookup e "seed" Setting.toNatural standard.seed.toNat = .ok n ∧ UInt64.ofNat n = s.seed) ∧
    lookup e "step_hours" Setting.toFloat standard.stepHours = .ok s.stepHours ∧
    lookup e "mode" Setting.toText standard.mode = .ok s.mode ∧
    lookup e "archetypes" Setting.toTexts standard.archetypes = .ok s.archetypes ∧
    lookup e "anomaly_kinds" Setting.toTexts standard.anomalies = .ok s.anomalies ∧
    lookup e "output" Setting.toText standard.output.text = .ok s.output.text := by
  unfold ofEntries
  simp only [bind_eq_ok]
  constructor
  · rintro ⟨n, hn, l, hl, r, hr, w, hw, t, ht, m, hm, a, ha, k, hk, o, ho, ⟨⟩⟩
    exact ⟨hn, hl, hr, ⟨w, hw, rfl⟩, ht, hm, ha, hk, ho⟩
  · rintro ⟨hn, hl, hr, ⟨w, hw, hseed⟩, ht, hm, ha, hk, ho⟩
    refine ⟨_, hn, _, hl, _, hr, w, hw, _, ht, _, hm, _, ha, _, hk, _, ho, ?_⟩
    rw [hseed]
    rfl

end Settings

end WorkloadSynth
