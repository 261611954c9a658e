import WorkloadSynth.Proofs.Binary64.Natural
import WorkloadSynth.Proofs.Decimal.Numeral
import WorkloadSynth.Proofs.Settings.Fields

/-!
# Variables and the command line

A setting may come from a variable or from the command line, and the two read a text differently: a variable
is first taken for a truth value, an integer with a sign or a double.  A number beyond the signed integers
therefore passes through a double and comes back as a multiple of `2 ^ 11`, and the path of the output is
spelled again if it reads as a value.  All this is about a variable that no later one of its name replaces;
variables for parts of its setting cannot stand after it, since they would leave no single value to read.
-/

set_option autoImplicit false

namespace WorkloadSynth

open Settings (Field)

/-! ## What a text spells -/

namespace Layer

def loaded (n : ℕ) : ℕ :=
  if n < 2 ^ 63 then n else min Binary64.maxNatural (Binary64.roundShift n 11 * 2 ^ 11)

def respelled (p : String) : String :=
  if Text.lower p = "true" ∨ Text.lower p = "false" then Text.lower p
  else match Decimal.readInteger? p, Decimal.readFloat? p with
    | some i, _ => toString i
    | none, some x => Decimal.text x
    | none, none => p

theorem loaded_lt {n : ℕ} : loaded n < 2 ^ 64 := by
  have hmax : Binary64.maxNatural = 2 ^ 64 - 1 := rfl
  unfold loaded
  split_ifs <;> omega

theorem loaded_eq_iff {n : ℕ} (h : n < 2 ^ 64) :
    loaded n = n ↔ n < 2 ^ 63 ∨ 2 ^ 11 ∣ n ∨ n = 2 ^ 64 - 1 := by
  unfold loaded
  split_ifs with hsmall
  · exact iff_of_true rfl (.inl hsmall)
  · rw [Binary64.min_roundShift_eq_iff h]
    exact (or_iff_right hsmall).symm

theorem spelled_numeral (n : ℕ) : spelled (toString n) =
    if n < 2 ^ 63 then .integer n else .float (Decimal.toFloat n 0) := by
  have htrue : toString n ≠ "true" := Decimal.numeral_ne (by decide)
  have hfalse : toString n ≠ "false" := Decimal.numeral_ne (by decide)
  rw [spelled, Decimal.lower_numeral, if_neg htrue, if_neg hfalse, Decimal.readInteger?_numeral,
    Decimal.readFloat?_numeral]
  split_ifs <;> rfl

theorem toNatural_numeral {n : ℕ} (h : n < 2 ^ 64) (key : String) :
    (fromEnvironment (spelled (toString n))).toNatural key = .ok (loaded n) := by
  rw [spelled_numeral, loaded]
  split_ifs with hsmall
  · simp [fromEnvironment, Setting.toNatural]
  · have hlarge : 2 ^ (11 + 52) ≤ n := Nat.not_lt.mp hsmall
    have hdouble : Decimal.toFloat n 0 = Float.ofScientific n false 0 :=
      Decimal.toFloat_eq_ofScientific (by omega) (h.trans (by norm_num))
    have hrounded := Binary64.toNatural_ofScientific hlarge h (by norm_num) (by norm_num)
    rw [hdouble, ← hrounded]
    rfl

theorem toText_spelled (p key : String) : (fromEnvironment (spelled p)).toText key = .ok (respelled p) := by
  unfold spelled respelled
  by_cases htrue : Text.lower p = "true"
  · rw [if_pos htrue, if_pos (.inl htrue), htrue]
    rfl
  by_cases hfalse : Text.lower p = "false"
  · rw [if_neg htrue, if_pos hfalse, if_pos (.inr hfalse), hfalse]
    rfl
  rw [if_neg htrue, if_neg hfalse, if_neg (not_or.mpr ⟨htrue, hfalse⟩)]
  cases Decimal.readInteger? p with
  | some i => rfl
  | none =>
      cases Decimal.readFloat? p with
      | some x => rfl
      | none => rfl

theorem respelled_of_mem {p : String} {c : Char} (hc : c ∈ p.toList) (h : ¬ Decimal.IsPlain c) :
    respelled p = p := by
  have hword : ¬ (Text.lower p = "true" ∨ Text.lower p = "false") := by
    rintro (hword | hword)
    · exact h (Decimal.isPlain_of_word hword (by decide) c hc)
    · exact h (Decimal.isPlain_of_word hword (by decide) c hc)
  have hinteger : Decimal.readInteger? p = none := by
    cases hi : Decimal.readInteger? p with
    | none => rfl
    | some i => exact absurd (Decimal.isPlain_of_readInteger? hi c hc) h
  have hdouble : Decimal.readFloat? p = none := by
    cases hx : Decimal.readFloat? p with
    | none => rfl
    | some x => exact absurd (Decimal.isPlain_of_readFloat? hx c hc) h
  rw [respelled, if_neg hword, hinteger, hdouble]

end Layer

/-! ## A variable among others -/

theorem Setting.putAt_ne_single {s inner : Setting} {steps : List Address.Step} {old : Option Setting}
    (hsteps : steps ≠ []) (h : s.putAt steps old = .ok inner) (v : RawValue) (o : Option Origin) :
    inner ≠ .single v o := by
  cases steps with
  | nil => exact absurd rfl hsteps
  | cons step rest =>
      cases step with
      | entry name =>
          obtain ⟨_, -, h⟩ := bind_eq_ok.mp h
          cases h
          exact nofun
      | item position =>
          obtain ⟨_, -, h⟩ := bind_eq_ok.mp h
          dsimp only at h
          split at h
          · cases h
            exact nofun
          · obtain ⟨_, -, h⟩ := bind_eq_ok.mp h
            cases h
            exact nofun

theorem Settings.Field.exists_single {f : Field} (hf : f.key ∉ Layer.listNames) {s : Setting} {v : f.Value}
    (h : f.convert s = .ok v) : ∃ value origin, s = .single value origin := by
  cases s with
  | single value origin => exact ⟨value, origin, rfl⟩
  | table entries origin => exact absurd h (convert_table f entries origin v)
  | list items origin =>
      exfalso
      cases f with
      | archetypes => exact hf (by decide)
      | anomalies => exact hf (by decide)
      | _ => cases h

namespace Layer

/-- Parts of a setting alone never add up to a single value. -/
theorem forall_ne_of_settle {key : String} {l : Layer} {old found : Option Setting}
    (hparts : ∀ e ∈ l, e.1.name = key → e.1.steps ≠ []) (h : settle key l old = .ok found)
    (hfound : ∀ s ∈ found, ∃ v o, s = .single v o) : ∀ e ∈ l, e.1.name ≠ key := by
  induction l generalizing old with
  | nil => exact nofun
  | cons e rest ih =>
      obtain ⟨hfirst, hrest⟩ := List.forall_mem_cons.mp hparts
      by_cases hname : e.1.name = key
      · rw [settle_cons_of_name hname] at h
        obtain ⟨inner, hinner, h⟩ := bind_eq_ok.mp h
        rw [settle_of_ne (ih hrest h)] at h
        cases h
        obtain ⟨v, o, hsingle⟩ := hfound inner rfl
        exact absurd hsingle (Setting.putAt_ne_single (hfirst hname) hinner v o)
      · rw [settle_cons_of_ne hname] at h
        exact List.forall_mem_cons.mpr ⟨hname, ih hrest h⟩

theorem steps_ne_nil_of_variable {key : String} {env : Environment}
    (h : ∀ v ∈ env, Text.lowerKey v.1 ≠ variableStart ++ key) :
    ∀ e ∈ ofEnvironment env, e.1.name = key → e.1.steps ≠ [] := by
  intro e he hkey hsteps
  obtain ⟨v, hv, hspells⟩ := List.mem_filterMap.mp he
  obtain ⟨name, hlower, haddress, -⟩ := ofVariable?_eq_some.mp hspells
  rw [haddress] at hkey hsteps
  rw [Address.ofName_of_steps hsteps] at hkey
  exact h v hv (hlower.trans (congrArg _ hkey))

theorem ofVariable?_of_field {f : Field} (hf : f.key ∉ listNames) {longName : String}
    (hname : Text.lowerKey longName = variableStart ++ f.key) (value : String) :
    ofVariable? (longName, value) = some (⟨f.key, []⟩, fromEnvironment (spelled value)) := by
  rw [← variableSetting_of_not_mem hf]
  exact ofVariable?_eq_some.mpr ⟨f.key, hname, (Address.ofName_key f).symm, rfl⟩

end Layer

namespace Settings

variable {before after : Environment} {file : Option Layer} {s : Settings}

/-- Wherever the variable of a single value stands, it is as if it were set last, unless there is a later one
of its name. -/
theorem combine_insert {f : Field} (hf : f.key ∉ Layer.listNames) {longName : String}
    (hname : Text.lowerKey longName = Layer.variableStart ++ f.key) (value : String)
    (hlater : ∀ v ∈ after, Text.lowerKey v.1 ≠ Text.lowerKey longName)
    (h : combine (before ++ after) file = .ok s) :
    ∃ e, ofEntries e = .ok s ∧
      ∀ s', ofEntries (e.set f.key (Layer.fromEnvironment (Layer.spelled value))) = .ok s' →
        combine (before ++ (longName, value) :: after) file = .ok s' := by
  obtain ⟨e, he, hs⟩ := combine_eq_ok.mp h
  obtain ⟨below, hbelow, habove⟩ := entries_append_eq_ok.mp he
  have hfound : ∀ found ∈ e.find? f.key, ∃ v o, found = .single v o := by
    intro found hfound
    have hread := Field.read_of_ofEntries hs f
    rw [Option.mem_def.mp hfound] at hread
    exact Field.exists_single hf hread
  have hsettled : Layer.settle f.key (Layer.ofEnvironment after) (below.find? f.key) = .ok (e.find? f.key) :=
    Layer.settle_of_onto habove
  have hothers := Layer.forall_ne_of_settle (Layer.steps_ne_nil_of_variable (hname ▸ hlater)) hsettled hfound
  obtain ⟨e', he', hfind⟩ :=
    Layer.exists_onto_set hothers (Layer.fromEnvironment (Layer.spelled value)) habove
  refine ⟨e, hs, ?_⟩
  intro s' hs'
  refine combine_eq_ok.mpr ⟨e', entries_append_eq_ok.mpr ⟨below, hbelow, ?_⟩, (ofEntries_congr hfind).trans hs'⟩
  rw [Layer.ofEnvironment_cons_some (Layer.ofVariable?_of_field hf hname value), ← he']
  rfl

end Settings

/-! ## Settings that are numbers -/

inductive Count where
  | sampleCount
  | traceLength
  | seed

namespace Count

def field : Count → Field
  | sampleCount => .sampleCount
  | traceLength => .traceLength
  | seed => .seed

def longName : Count → String
  | sampleCount => "DATAGEN_NUM_SAMPLES"
  | traceLength => "DATAGEN_SEQ_LEN"
  | seed => "DATAGEN_SEED"

def override (w : UInt64) : Count → Overrides
  | sampleCount => { Overrides.empty with sampleCount := some w.toNat }
  | traceLength => { Overrides.empty with traceLength := some w.toNat }
  | seed => { Overrides.empty with seed := some w }

theorem lowerKey_longName (c : Count) : Text.lowerKey c.longName = Layer.variableStart ++ c.field.key := by
  cases c <;> decide

theorem key_not_mem_listNames (c : Count) : c.field.key ∉ Layer.listNames := by
  cases c <;> decide

theorem override_apply_inj {c : Count} {w v : UInt64} {s : Settings} :
    (c.override w).apply s = (c.override v).apply s ↔ w = v := by
  constructor
  · intro h
    cases c with
    | sampleCount => exact UInt64.toNat_inj.mp (congrArg Settings.sampleCount h)
    | traceLength => exact UInt64.toNat_inj.mp (congrArg Settings.traceLength h)
    | seed => exact congrArg Settings.seed h
  · rintro rfl
    rfl

end Count

def Overrides.ofOutput (p : String) : Overrides := { Overrides.empty with output := some ⟨p⟩ }

namespace Settings

variable {e : Entries} {s : Settings}

theorem ofEntries_set_count (h : ofEntries e = .ok s) (c : Count) {v : Setting} {n : ℕ}
    (hn : v.toNatural c.field.key = .ok n) (hword : n < 2 ^ 64) :
    ofEntries (e.set c.field.key v) = .ok ((c.override (UInt64.ofNat n)).apply s) := by
  have hw : (UInt64.ofNat n).toNat = n := UInt64.toNat_ofNat_of_lt' hword
  obtain ⟨hcount, hlength, hratio, hseed, hhours, hmode, harchetypes, hanomalies, houtput⟩ :=
    ofEntries_eq_ok.mp h
  rw [ofEntries_eq_ok]
  cases c with
  | sampleCount =>
      have hnew : v.toNatural "num_samples" = .ok (UInt64.ofNat n).toNat := hw.symm ▸ hn
      simp [lookup_set, Count.field, Field.key, Count.override, Overrides.apply, Overrides.empty, *]
  | traceLength =>
      have hnew : v.toNatural "seq_len" = .ok (UInt64.ofNat n).toNat := hw.symm ▸ hn
      simp [lookup_set, Count.field, Field.key, Count.override, Overrides.apply, Overrides.empty, *]
  | seed =>
      have hnew : v.toNatural "seed" = .ok n := hn
      simp [lookup_set, Count.field, Field.key, Count.override, Overrides.apply, Overrides.empty, *]

theorem ofEntries_set_output (h : ofEntries e = .ok s) {v : Setting} {p : String}
    (hp : v.toText Field.output.key = .ok p) :
    ofEntries (e.set Field.output.key v) = .ok ((Overrides.ofOutput p).apply s) := by
  obtain ⟨hcount, hlength, hratio, hseed, hhours, hmode, harchetypes, hanomalies, houtput⟩ :=
    ofEntries_eq_ok.mp h
  have hnew : v.toText "output" = .ok p := hp
  rw [ofEntries_eq_ok]
  simp [lookup_set, Field.key, Overrides.ofOutput, Overrides.apply, Overrides.empty, *]

/-- A number as a variable comes to the same as on the command line if it is a signed integer, and beyond
only if it survives as a double; in any case the rest of the settings is what it was.  The output is the
path that is given unless it reads as a value, and then it is the text of this value.  A path with a
character that no value has, such as a slash, is kept.  The variable may stand anywhere among others, as long
as no later one has its name in small or capital letters. -/
theorem variable_agrees_with_override {before after : Environment} {file : Option Layer} {s : Settings}
    (h : combine (before ++ after) file = .ok s) :
    (∀ (c : Count) (n : UInt64), (∀ v ∈ after, Text.lowerKey v.1 ≠ Text.lowerKey c.longName) →
      let result := combine (before ++ (c.longName, toString n.toNat) :: after) file
      result = .ok ((c.override (UInt64.ofNat (Layer.loaded n.toNat))).apply s) ∧
      (result = .ok ((c.override n).apply s) ↔
        n.toNat < 2 ^ 63 ∨ 2 ^ 11 ∣ n.toNat ∨ n.toNat = 2 ^ 64 - 1)) ∧
    ∀ p : String, (∀ v ∈ after, Text.lowerKey v.1 ≠ Text.lowerKey "DATAGEN_OUTPUT") →
      let result := combine (before ++ ("DATAGEN_OUTPUT", p) :: after) file
      result = .ok ((Overrides.ofOutput (Layer.respelled p)).apply s) ∧
      (result = .ok ((Overrides.ofOutput p).apply s) ↔ Layer.respelled p = p) ∧
      ∀ c ∈ p.toList, ¬ Decimal.IsPlain c → result = .ok ((Overrides.ofOutput p).apply s) := by
  constructor
  · intro c n hlater result
    obtain ⟨e, hs, hresult⟩ :=
      combine_insert c.key_not_mem_listNames c.lowerKey_longName (toString n.toNat) hlater h
    have hloaded : result = .ok ((c.override (UInt64.ofNat (Layer.loaded n.toNat))).apply s) :=
      hresult _ (ofEntries_set_count hs c (Layer.toNatural_numeral n.toNat_lt _) Layer.loaded_lt)
    refine ⟨hloaded, ?_⟩
    rw [hloaded, Except.ok.injEq, Count.override_apply_inj, ← Layer.loaded_eq_iff n.toNat_lt,
      ← UInt64.toNat_inj, UInt64.toNat_ofNat_of_lt' Layer.loaded_lt]
  · intro p hlater result
    have hsingle : Field.output.key ∉ Layer.listNames := by decide
    obtain ⟨e, hs, hresult⟩ := combine_insert hsingle (by decide) p hlater h
    have hspelled : result = .ok ((Overrides.ofOutput (Layer.respelled p)).apply s) :=
      hresult _ (ofEntries_set_output hs (Layer.toText_spelled p _))
    refine ⟨hspelled, ?_, ?_⟩
    · rw [hspelled, Except.ok.injEq]
      constructor
      · intro heq
        exact congrArg (fun s => s.output.text) heq
      · intro hsame
        rw [hsame]
    · intro c hc hplain
      rw [hspelled, Layer.respelled_of_mem hc hplain]

/-- Over the standard settings: the largest signed integer, the first number beyond it, and one that
moves.  Then a number among other variables, the first of which has its name. -/
theorem variables_over_standard :
    combine [] none = .ok standard ∧
    combine [("DATAGEN_SEED", "9223372036854775807")] none =
      .ok ((Count.seed.override 9223372036854775807).apply standard) ∧
    combine [("DATAGEN_SEED", "9223372036854775808")] none =
      .ok ((Count.seed.override 9223372036854775808).apply standard) ∧
    combine [("DATAGEN_NUM_SAMPLES", "9223372036854776833")] none =
      .ok ((Count.sampleCount.override 9223372036854777856).apply standard) ∧
    combine [("DATAGEN_OUTPUT", "runs/1e3")] none =
      .ok ((Overrides.ofOutput "runs/1e3").apply standard) ∧
    ∃ s, combine [("datagen_seed", "5"), ("DATAGEN_MODE", "flat")] none = .ok s ∧
      combine [("datagen_seed", "5"), ("DATAGEN_SEED", "7"), ("DATAGEN_MODE", "flat")] none =
        .ok ((Count.seed.override 7).apply s) := by
  have hstandard : combine ([] ++ []) none = .ok standard := rfl
  obtain ⟨hcount, houtput⟩ := variable_agrees_with_override hstandard
  refine ⟨hstandard, ?_, ?_, ?_, ?_, ?_⟩
  · exact (hcount .seed 9223372036854775807 nofun).2.mpr (.inl (by decide))
  · exact (hcount .seed 9223372036854775808 nofun).2.mpr (.inr (.inl (by decide)))
  · have hmoved : UInt64.ofNat (Layer.loaded (9223372036854776833 : UInt64).toNat) = 9223372036854777856 := by
      decide +kernel
    rw [← hmoved]
    exact (hcount .sampleCount 9223372036854776833 nofun).1
  · exact (houtput "runs/1e3" nofun).2.2 '/' (by decide) (by unfold Decimal.IsPlain; decide)
  · obtain ⟨s, hs⟩ : ∃ s, combine ([("datagen_seed", "5")] ++ [("DATAGEN_MODE", "flat")]) none = .ok s :=
      exists_of_isOk (by decide +kernel)
    have hseven := (variable_agrees_with_override hs).1 .seed 7 (by decide)
    exact ⟨s, hs, hseven.2.mpr (.inl (by decide))⟩

-- A later variable of the same name is the one that counts.
example : (combine [("DATAGEN_SEED", "7"), ("datagen_seed", "5")] none).toOption.map (·.seed) = some 5 := by
  decide +kernel

/-- The first odd number beyond the signed integers loses its last bit, and a path of digits its zeros. -/
theorem variables_differ_from_overrides :
    ((combine [("DATAGEN_SEED", "9223372036854775809")] none).toOption.map (·.seed) =
        some 9223372036854775808 ∧
      ((Count.seed.override 9223372036854775809).apply standard).seed = 9223372036854775809) ∧
    (combine [("DATAGEN_OUTPUT", "007")] none).toOption.map (·.output.text) = some "7" ∧
      ((Overrides.ofOutput "007").apply standard).output.text = "007" := by
  decide +kernel

end Settings

end WorkloadSynth
