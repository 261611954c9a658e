import WorkloadSynth.Proofs.Settings.Loading

/-!
# Settings field by field

Every setting is decided by its own part of each layer: an override, else a variable, else the file, else what
is standard.  This holds as long as no variable has the address of a part of the setting; such a variable puts
one item or entry into what the layers below give.
-/

set_option autoImplicit false

namespace WorkloadSynth

inductive Settings.Field where
  | sampleCount
  | traceLength
  | anomalyRatio
  | seed
  | stepHours
  | mode
  | archetypes
  | anomalies
  | output
deriving DecidableEq

namespace Settings.Field

def key : Field → String
  | sampleCount => "num_samples"
  | traceLength => "seq_len"
  | anomalyRatio => "anomaly_ratio"
  | seed => "seed"
  | stepHours => "step_hours"
  | mode => "mode"
  | archetypes => "archetypes"
  | anomalies => "anomaly_kinds"
  | output => "output"

def all : List Field :=
  [sampleCount, traceLength, anomalyRatio, seed, stepHours, mode, archetypes, anomalies, output]

@[reducible]
def Value : Field → Type
  | sampleCount | traceLength => Nat
  | anomalyRatio | stepHours => Float
  | seed => UInt64
  | mode => String
  | archetypes | anomalies => List String
  | output => Path

def get (s : Settings) : (f : Field) → f.Value
  | sampleCount => s.sampleCount
  | traceLength => s.traceLength
  | anomalyRatio => s.anomalyRatio
  | seed => s.seed
  | stepHours => s.stepHours
  | mode => s.mode
  | archetypes => s.archetypes
  | anomalies => s.anomalies
  | output => s.output

def override? (o : Overrides) : (f : Field) → Option f.Value
  | sampleCount => o.sampleCount
  | traceLength => o.traceLength
  | anomalyRatio => o.anomalyRatio
  | seed => o.seed
  | stepHours => o.stepHours
  | mode => o.mode
  | archetypes => o.archetypes
  | anomalies => o.anomalies
  | output => o.output

def convert : (f : Field) → Setting → Except SettingFault f.Value
  | sampleCount, s => s.toNatural sampleCount.key
  | traceLength, s => s.toNatural traceLength.key
  | anomalyRatio, s => s.toFloat anomalyRatio.key
  | seed, s => UInt64.ofNat <$> s.toNatural seed.key
  | stepHours, s => s.toFloat stepHours.key
  | mode, s => s.toText mode.key
  | archetypes, s => s.toTexts archetypes.key
  | anomalies, s => s.toTexts anomalies.key
  | output, s => Path.mk <$> s.toText output.key

/-- The value of a field if the layers have these values for it. -/
def resolve (f : Field) (override? : Option f.Value) (text? : Option String) (file? : Option Setting) :
    Except SettingFault f.Value :=
  match override?, text?, file? with
  | some v, _, _ => .ok v
  | none, some text, _ => f.convert (Layer.variableSetting f.key text)
  | none, none, some s => f.convert s
  | none, none, none => .ok (get standard f)

theorem eq_of_resolve {f : Field} {override? : Option f.Value} {text? : Option String} {file? : Option Setting}
    {v v' : f.Value} (h : f.resolve override? text? file? = .ok v)
    (h' : (f.resolve override? text? file?).toOption = some v') : v = v' := by
  rw [h] at h'
  exact Option.some.inj h'

def read (f : Field) : Option Setting → Except SettingFault f.Value
  | some s => f.convert s
  | none => .ok (get standard f)

theorem read_map {α β : Type} {g : α → β} {convert : Setting → String → Except SettingFault α} {key : String}
    {default : α} {e : Entries} {b : β} : lookup e key (fun s k => g <$> convert s k) (g default) = .ok b ↔
      ∃ a, lookup e key convert default = .ok a ∧ g a = b := by
  unfold lookup
  cases e.find? key with
  | none => simp
  | some s =>
      dsimp only
      cases convert s key <;> simp [Functor.map, Except.map]

theorem read_of_ofEntries {e : Entries} {s : Settings} (h : ofEntries e = .ok s) (f : Field) :
    f.read (e.find? f.key) = .ok (get s f) := by
  obtain ⟨hcount, hlength, hratio, hseed, hhours, hmode, harchetypes, hanomalies, houtput⟩ := ofEntries_eq_ok.mp h
  cases f with
  | sampleCount => exact hcount
  | traceLength => exact hlength
  | anomalyRatio => exact hratio
  | seed => exact read_map.mpr hseed
  | stepHours => exact hhours
  | mode => exact hmode
  | archetypes => exact harchetypes
  | anomalies => exact hanomalies
  | output => exact read_map.mpr ⟨_, houtput, rfl⟩

theorem get_apply (o : Overrides) (s : Settings) (f : Field) :
    get (o.apply s) f = (override? o f).getD (get s f) := by
  cases f <;> rfl

theorem ext_get {s s' : Settings} (h : ∀ f : Field, get s f = get s' f) : s = s' := by
  obtain ⟨_, _, _, _, _, _, _, _, _⟩ := s
  obtain ⟨_, _, _, _, _, _, _, _, _⟩ := s'
  rw [Settings.mk.injEq]
  exact ⟨h .sampleCount, h .traceLength, h .anomalyRatio, h .seed, h .stepHours, h .mode, h .archetypes,
    h .anomalies, h .output⟩

end Settings.Field

open Settings (Field)

theorem Overrides.apply_apply (o : Overrides) (s : Settings) : o.apply (o.apply s) = o.apply s := by
  refine Field.ext_get fun f => ?_
  rw [Field.get_apply, Field.get_apply]
  cases Field.override? o f <;> rfl

def Entries.Known (entries : Entries) : Prop := ∀ e ∈ entries, ∃ f ∈ Field.all, e.1 = f.key

instance (entries : Entries) : Decidable entries.Known :=
  inferInstanceAs (Decidable (∀ e ∈ entries, ∃ f ∈ Field.all, e.1 = f.key))

/-! ## Names and addresses -/

namespace Text

def smallForm (c : Char) : Char := if c = '\u212a' then 'k' else c.toLower

theorem smallForm_smallForm (c : Char) : smallForm (smallForm c) = smallForm c := by
  have hbasic : ∀ n < 128, smallForm (smallForm (Char.ofNat n)) = smallForm (Char.ofNat n) := by decide
  by_cases hc : c.toNat < 128
  · rw [← Char.ofNat_toNat c]
    exact hbasic _ hc
  · have hkept : c.toLower = c := dif_neg fun h => hc (Nat.lt_of_le_of_lt h.2 (by decide))
    by_cases hsign : c = '\u212a'
    · rw [hsign]
      decide
    · have hsmall : smallForm c = c := (if_neg hsign).trans hkept
      rw [hsmall, hsmall]

theorem toList_lowerKey (s : String) : (lowerKey s).toList = s.toList.map smallForm := String.toList_ofList

theorem lowerKey_lowerKey (s : String) : lowerKey (lowerKey s) = lowerKey s := by
  apply String.toList_inj.mp
  rw [toList_lowerKey, toList_lowerKey, List.map_map]
  exact List.map_congr_left fun c _ => smallForm_smallForm c

theorem lowerKey_of_append {s start name : String} (h : lowerKey s = start ++ name) : lowerKey name = name := by
  have hagain : lowerKey (start ++ name) = start ++ name := by rw [← h, lowerKey_lowerKey]
  have hsmall : start.toList.map smallForm ++ name.toList.map smallForm = start.toList ++ name.toList := by
    rw [← List.map_append, ← String.toList_append, ← toList_lowerKey, hagain]
  apply String.toList_inj.mp
  rw [toList_lowerKey]
  exact (List.append_inj hsmall (List.length_map smallForm)).2

end Text

namespace Address

theorem stepsFrom_eq_nil {fuel : Nat} {cs : List Char} (h : stepsFrom fuel cs = some []) : cs = [] := by
  unfold stepsFrom at h
  split at h
  · rfl
  · cases h
  · obtain ⟨_, -, h⟩ := Option.bind_eq_some_iff.mp h
    obtain ⟨_, -, h⟩ := Option.bind_eq_some_iff.mp h
    cases h
  · obtain ⟨_, -, h⟩ := Option.bind_eq_some_iff.mp h
    obtain ⟨_, -, h⟩ := Option.bind_eq_some_iff.mp h
    cases h
  · cases h

theorem ofName_of_steps {name : String} (h : (ofName name).steps = []) : ofName name = ⟨name, []⟩ := by
  unfold ofName at h ⊢
  cases hread : read? name with
  | none => rfl
  | some a =>
      rw [hread] at h
      obtain ⟨⟨first, rest⟩, hname, hread⟩ := Option.bind_eq_some_iff.mp hread
      obtain ⟨steps, hsteps, hread⟩ := Option.bind_eq_some_iff.mp hread
      cases hread
      obtain rfl : steps = [] := h
      have hrest : rest = [] := stepsFrom_eq_nil hsteps
      unfold name? at hname
      dsimp only at hname
      split at hname
      · cases hname
      · cases hname
        have hall : name.toList.takeWhile isNameChar = name.toList :=
          (List.takeWhile_prefix _).eq_of_length_le (List.drop_eq_nil_iff.mp hrest)
        rw [hall, String.ofList_toList]
        rfl

theorem ofName_key (f : Field) : ofName f.key = ⟨f.key, []⟩ := by
  cases f <;> decide

end Address

theorem Settings.Field.lowerKey_key (f : Field) : Text.lowerKey f.key = f.key := by
  cases f <;> decide

namespace Layer

theorem entry_key (f : Field) (s : Setting) : entry f.key s = (⟨f.key, []⟩, s) := by
  rw [entry, f.lowerKey_key, Address.ofName_key]

theorem ofVariable?_eq_some {v : String × String} {a : Address} {s : Setting} : ofVariable? v = some (a, s) ↔
    ∃ name, Text.lowerKey v.1 = variableStart ++ name ∧ a = Address.ofName name ∧
      s = variableSetting name v.2 := by
  constructor
  · intro h
    unfold ofVariable? at h
    dsimp only at h
    split at h
    · next hprefix =>
        obtain ⟨rest, hrest⟩ := List.isPrefixOf_iff_prefix.mp hprefix
        have hname : Text.lowerKey v.1 = variableStart ++ String.ofList rest := by
          apply String.toList_inj.mp
          rw [String.toList_append, String.toList_ofList, hrest]
        have hdrop : (Text.lowerKey v.1).toList.drop variableStart.toList.length = rest := by
          rw [← hrest, List.drop_left]
        rw [hdrop, entry, Text.lowerKey_of_append hname] at h
        cases h
        exact ⟨_, hname, rfl, rfl⟩
    · cases h
  · rintro ⟨name, hname, rfl, rfl⟩
    have hlist : (Text.lowerKey v.1).toList = variableStart.toList ++ name.toList := by
      rw [hname, String.toList_append]
    exact ofVariable?_of_name hlist (by rw [Text.lowerKey_of_append hname]) v.2

/-! ## One setting of a layer -/

def settle (key : String) (l : Layer) (old : Option Setting) : Except PositionFault (Option Setting) :=
  l.foldlM (fun old e => if e.1.name = key then some <$> e.2.putAt e.1.steps old else pure old) old

variable {key : String} {l : Layer} {old : Option Setting}

theorem settle_cons_of_name {e : Address × Setting} (h : e.1.name = key) :
    settle key (e :: l) old = (e.2.putAt e.1.steps old >>= fun s => settle key l (some s)) := by
  rw [settle, List.foldlM_cons, if_pos h, bind_map_left]
  rfl

theorem settle_cons_of_ne {e : Address × Setting} (h : e.1.name ≠ key) :
    settle key (e :: l) old = settle key l old := by
  rw [settle, List.foldlM_cons, if_neg h, pure_bind]
  rfl

theorem settle_of_ne (h : ∀ e ∈ l, e.1.name ≠ key) : settle key l old = .ok old := by
  induction l with
  | nil => rfl
  | cons e rest ih =>
      obtain ⟨hfirst, hrest⟩ := List.forall_mem_cons.mp h
      rw [settle_cons_of_ne hfirst]
      exact ih hrest

theorem settle_of_onto {entries entries' : Entries} (h : l.onto entries = .ok entries') :
    settle key l (entries.find? key) = .ok (entries'.find? key) := by
  induction l generalizing entries with
  | nil =>
      cases h
      rfl
  | cons e rest ih =>
      obtain ⟨next, hnext, h⟩ := bind_eq_ok.mp (List.foldlM_cons.symm.trans h)
      obtain ⟨inner, hinner, hset⟩ := bind_eq_ok.mp hnext
      cases hset
      have hfound := Entries.find?_set e.1.name key inner entries
      have hrest := ih h
      rw [hfound] at hrest
      by_cases hname : e.1.name = key
      · rw [if_pos hname.symm] at hrest
        rw [hname] at hinner
        rw [settle_cons_of_name hname, hinner]
        exact hrest
      · rw [if_neg (Ne.symm hname)] at hrest
        rw [settle_cons_of_ne hname]
        exact hrest

end Layer

/-! ## Variables -/

namespace Environment

def value? (key : String) : Environment → Option String
  | [] => none
  | v :: rest =>
    (value? key rest).or (if Text.lowerKey v.1 = Layer.variableStart ++ key then some v.2 else none)

def concerning (key : String) (env : Environment) : Environment :=
  env.filter fun v => (Layer.ofVariable? v).map (·.1.name) = some key

/-- Whether a variable is for a part of a setting: an item of a list or an entry of a table. -/
def AddressesPart (key : String) (env : Environment) : Prop :=
  ∃ v ∈ env, ∃ e ∈ Layer.ofVariable? v, e.1.name = key ∧ e.1.steps ≠ []

instance (key : String) (env : Environment) : Decidable (AddressesPart key env) :=
  inferInstanceAs (Decidable (∃ v ∈ env, ∃ e ∈ Layer.ofVariable? v, e.1.name = key ∧ e.1.steps ≠ []))

end Environment

namespace Layer

variable {key : String} {env : Environment} {old : Option Setting}

theorem ofEnvironment_cons_none {v : String × String} (hv : ofVariable? v = none) :
    ofEnvironment (v :: env) = ofEnvironment env :=
  List.filterMap_cons_none hv

theorem ofEnvironment_cons_some {v : String × String} {e : Address × Setting} (hv : ofVariable? v = some e) :
    ofEnvironment (v :: env) = e :: ofEnvironment env :=
  List.filterMap_cons_some hv

theorem settle_concerning : settle key (ofEnvironment (env.concerning key)) old =
    settle key (ofEnvironment env) old := by
  induction env generalizing old with
  | nil => rfl
  | cons v rest ih =>
      unfold Environment.concerning at ih ⊢
      cases hv : ofVariable? v with
      | none =>
          rw [ofEnvironment_cons_none hv, List.filter_cons_of_neg (by simp [hv])]
          exact ih
      | some e =>
          by_cases hname : e.1.name = key
          · rw [List.filter_cons_of_pos (by simp [hv, hname]), ofEnvironment_cons_some hv,
              ofEnvironment_cons_some hv, settle_cons_of_name hname, settle_cons_of_name hname]
            exact bind_congr fun s => ih
          · rw [List.filter_cons_of_neg (by simp [hv, hname]), ofEnvironment_cons_some hv,
              settle_cons_of_ne hname]
            exact ih

theorem onto_variableSetting (name value : String) :
    (variableSetting name value).onto old = variableSetting name value := by
  unfold variableSetting
  dsimp only
  split
  · rfl
  · split
    · rfl
    · split
      · rfl
      · rfl
      · split <;> rfl

/-- Without variables for parts of a setting the last variable for it counts, or else what was below. -/
theorem settle_environment {f : Field} (h : ¬ env.AddressesPart f.key) :
    settle f.key (ofEnvironment env) old =
      .ok (((env.value? f.key).map (variableSetting f.key)).or old) := by
  induction env generalizing old with
  | nil => rfl
  | cons v rest ih =>
      have hrest : ¬ Environment.AddressesPart f.key rest := by
        rintro ⟨v', hv', hpart⟩
        exact h ⟨v', List.mem_cons_of_mem v hv', hpart⟩
      rw [Environment.value?]
      by_cases hname : Text.lowerKey v.1 = variableStart ++ f.key
      · have hv : ofVariable? v = some (⟨f.key, []⟩, variableSetting f.key v.2) :=
          ofVariable?_eq_some.mpr ⟨f.key, hname, (Address.ofName_key f).symm, rfl⟩
        rw [ofEnvironment_cons_some hv, if_pos hname]
        refine (settle_cons_of_name rfl).trans ?_
        change settle f.key (ofEnvironment rest) (some ((variableSetting f.key v.2).onto old)) = _
        rw [ih hrest, onto_variableSetting]
        cases Environment.value? f.key rest <;> rfl
      · rw [if_neg hname, Option.or_none, ← ih hrest]
        cases hv : ofVariable? v with
        | none => rw [ofEnvironment_cons_none hv]
        | some e =>
            rw [ofEnvironment_cons_some hv]
            refine settle_cons_of_ne fun hkey => hname ?_
            -- The variable would be for the whole setting, and so have its name.
            have hwhole : e.1.steps = [] := Decidable.byContradiction fun hsteps =>
              h ⟨v, List.mem_cons_self, e, hv, hkey, hsteps⟩
            obtain ⟨name, hlower, haddress, -⟩ := ofVariable?_eq_some.mp hv
            rw [haddress] at hkey hwhole
            rw [Address.ofName_of_steps hwhole] at hkey
            exact hlower.trans (congrArg _ hkey)

theorem settle_entries (f : Field) {entries : Entries} (hnodup : (entries.map Prod.fst).Nodup)
    (hknown : entries.Known) :
    settle f.key (entries.map fun e => entry e.1 e.2) none =
      .ok ((entries.find? f.key).map fun s => s.onto none) := by
  induction entries with
  | nil => rfl
  | cons e rest ih =>
      obtain ⟨hfirst, hrest⟩ := List.nodup_cons.mp hnodup
      obtain ⟨⟨g, -, hg⟩, hothers⟩ := List.forall_mem_cons.mp hknown
      have hentry : entry e.1 e.2 = (⟨e.1, []⟩, e.2) := by rw [hg, entry_key]
      rw [List.map_cons, hentry]
      by_cases hname : e.1 = f.key
      · have hlater : ∀ e' ∈ rest.map (fun e => entry e.1 e.2), e'.1.name ≠ f.key := by
          intro e' he' hkey
          obtain ⟨e'', he'', rfl⟩ := List.mem_map.mp he'
          obtain ⟨g', -, hg'⟩ := hothers e'' he''
          rw [hg', entry_key] at hkey
          exact hfirst (List.mem_map.mpr ⟨e'', he'', hg'.trans (hkey.trans hname.symm)⟩)
        have hfound : Entries.find? f.key (e :: rest) = some e.2 := by simp [Entries.find?, hname]
        refine (settle_cons_of_name hname).trans ?_
        change settle f.key _ (some (e.2.onto none)) = _
        rw [settle_of_ne hlater, hfound]
        rfl
      · have hfound : Entries.find? f.key (e :: rest) = Entries.find? f.key rest := by
          simp [Entries.find?, hname]
        rw [settle_cons_of_ne hname, hfound]
        exact ih hrest hothers

end Layer

/-! ## Settings field by field -/

namespace Settings.Field

variable {f : Field} {o : Option Origin} {entries : Entries}

theorem convert_table (f : Field) (entries : Entries) (o : Option Origin) (v : f.Value) :
    f.convert (.table entries o) ≠ .ok v := by
  cases f <;> exact nofun

theorem convert_of_onto {s : Setting} {v : f.Value} (h : f.convert (s.onto none) = .ok v) :
    f.convert s = .ok v := by
  cases s with
  | single value origin => exact h
  | list items origin => exact h
  | table entries origin =>
      cases entries with
      | nil => exact absurd h (convert_table f _ _ v)
      | cons e rest => exact absurd h (convert_table f _ _ v)

end Settings.Field

namespace Settings

variable {now : Timestamp} {file : Option Path} {env : Environment} {w : World} {s : Settings}

theorem read_of_load (h : ((Settings.load (Host.onWorld now) file env).run w).1 = .ok s)
    (hknown : (fileEntries now w file).Known) (f : Field) :
    ∃ above, (Layer.ofEnvironment env).settle f.key
        (((fileEntries now w file).find? f.key).map fun s => s.onto none) = .ok above ∧
      f.read above = .ok (Field.get s f) := by
  obtain ⟨e, he, hs⟩ := combine_eq_ok.mp (load_eq_ok h)
  obtain ⟨below, hbelow, habove⟩ := bind_eq_ok.mp he
  have hfile := (Layer.settle_entries f nodup_fileEntries hknown).symm.trans (Layer.settle_of_onto hbelow)
  refine ⟨e.find? f.key, ?_, Field.read_of_ofEntries hs f⟩
  rw [Except.ok.inj hfile]
  exact Layer.settle_of_onto habove

/-- Settings that were loaded and overridden, field by field.  A field no part of which is addressed by a
variable is the override, else the variable's value, else the file's, else the standard one, and a list is
replaced whole.  In any case it depends on what each layer has for this field and on nothing else of it.  The
overrides leave nothing to change when they are applied again. -/
theorem resolved_field_by_field (h : ((Settings.load (Host.onWorld now) file env).run w).1 = .ok s)
    (hknown : (fileEntries now w file).Known) (o : Overrides) :
    (∀ f : Field, ¬ env.AddressesPart f.key →
      f.resolve (Field.override? o f) (env.value? f.key) ((fileEntries now w file).find? f.key) =
        .ok (Field.get (o.apply s) f)) ∧
    (∀ (f : Field) {now' file' env' w' s'} (o' : Overrides),
      ((Settings.load (Host.onWorld now') file' env').run w').1 = .ok s' →
      (fileEntries now' w' file').Known →
      (fileEntries now' w' file').find? f.key = (fileEntries now w file).find? f.key →
      Environment.concerning f.key env' = env.concerning f.key →
      Field.override? o' f = Field.override? o f →
      Field.get (o'.apply s') f = Field.get (o.apply s) f) ∧
    o.apply (o.apply s) = o.apply s := by
  refine ⟨?_, ?_, o.apply_apply s⟩
  · intro f hparts
    rw [Field.get_apply]
    cases hoverride : Field.override? o f with
    | some v => rfl
    | none =>
        obtain ⟨above, habove, hread⟩ := read_of_load h hknown f
        rw [Layer.settle_environment hparts] at habove
        obtain rfl := Except.ok.inj habove
        cases hvariable : env.value? f.key with
        | some text =>
            rw [hvariable] at hread
            exact hread
        | none =>
            rw [hvariable] at hread
            cases hfile : (fileEntries now w file).find? f.key with
            | some value =>
                rw [hfile] at hread
                exact Field.convert_of_onto hread
            | none =>
                rw [hfile] at hread
                exact hread
  · intro f now' file' env' w' s' o' h' hknown' hfile henv hoverride
    obtain ⟨above, habove, hread⟩ := read_of_load h hknown f
    obtain ⟨above', habove', hread'⟩ := read_of_load h' hknown' f
    rw [← Layer.settle_concerning, henv, Layer.settle_concerning, hfile, habove] at habove'
    obtain rfl := Except.ok.inj habove'
    rw [Field.get_apply, Field.get_apply, hoverride, Except.ok.inj (hread'.symm.trans hread)]

def withFile (text : String) : World :=
  .ofVolume ⟨["work"], [(["work"], .directory), (["work", "c.json"], .file (.text text))]⟩

theorem exists_of_isOk {ε α : Type} {r : Except ε α} (h : r.isOk = true) : ∃ a, r = .ok a := by
  cases r with
  | error e => cases h
  | ok a => exact ⟨a, rfl⟩

theorem resolved_three_layers :
    let w := withFile
      "\x7b\"seed\": 7, \"seq_len\": 3, \"mode\": \"flat\", \"archetypes\": [\"web\", \"batch\"]\x7d"
    let env : Environment := [("DATAGEN_SEED", "8"), ("datagen_mode", "lstm"), ("DATAGEN_ARCHETYPES", "cron")]
    let o : Overrides := { Overrides.empty with mode := some "sequence" }
    ∃ s, ((Settings.load (Host.onWorld ⟨0, 0⟩) (some ⟨"c.json"⟩) env).run w).1 = .ok s ∧
      (o.apply s).mode = "sequence" ∧ (o.apply s).seed = 8 ∧ (o.apply s).archetypes = ["cron"] ∧
      (o.apply s).traceLength = 3 ∧ (o.apply s).sampleCount = 100000 := by
  intro w env o
  obtain ⟨s, hs⟩ : ∃ s, ((Settings.load (Host.onWorld ⟨0, 0⟩) (some ⟨"c.json"⟩) env).run w).1 = .ok s :=
    exists_of_isOk (by decide +kernel)
  have hknown : (fileEntries ⟨0, 0⟩ w (some ⟨"c.json"⟩)).Known := by decide +kernel
  obtain ⟨hfields, -, -⟩ := resolved_field_by_field hs hknown o
  have hsteps : ∀ v ∈ env, ∀ e ∈ Layer.ofVariable? v, e.1.steps = [] := by decide +kernel
  have hparts (f : Field) : ¬ env.AddressesPart f.key := by
    rintro ⟨v, hv, e, he, -, hpart⟩
    exact hpart (hsteps v hv e he)
  refine ⟨s, hs, ?_, ?_, ?_, ?_, ?_⟩
  · exact Field.eq_of_resolve (hfields .mode (hparts _)) (by decide +kernel)
  · exact Field.eq_of_resolve (hfields .seed (hparts _)) (by decide +kernel)
  · exact Field.eq_of_resolve (hfields .archetypes (hparts _)) (by decide +kernel)
  · exact Field.eq_of_resolve (hfields .traceLength (hparts _)) (by decide +kernel)
  · exact Field.eq_of_resolve (hfields .sampleCount (hparts _)) (by decide +kernel)

/-- The variable of an item: the list has no variable of its own and the file has one, but another list is
loaded. -/
theorem item_variable_changes_list :
    let w := withFile "\x7b\"archetypes\": [\"web\", \"batch\"]\x7d"
    let env : Environment := [("DATAGEN_ARCHETYPES[-1]", "cron")]
    let file : Option Path := some ⟨"c.json"⟩
    (Field.archetypes.resolve none (env.value? Field.archetypes.key)
        ((fileEntries ⟨0, 0⟩ w file).find? Field.archetypes.key)).toOption = some ["web", "batch"] ∧
      ∃ s, ((Settings.load (Host.onWorld ⟨0, 0⟩) file env).run w).1 = .ok s ∧
        (Overrides.empty.apply s).archetypes = ["web", "cron"] := by
  intro w env file
  refine ⟨by decide +kernel, ?_⟩
  obtain ⟨s, hs⟩ : ∃ s, ((Settings.load (Host.onWorld ⟨0, 0⟩) file env).run w).1 = .ok s :=
    exists_of_isOk (by decide +kernel)
  have hlist : ((Settings.load (Host.onWorld ⟨0, 0⟩) file env).run w).1.toOption.map (·.archetypes) =
      some ["web", "cron"] := by decide +kernel
  rw [hs] at hlist
  exact ⟨s, hs, Option.some.inj hlist⟩

end Settings

end WorkloadSynth
