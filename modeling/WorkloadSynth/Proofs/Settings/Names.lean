import Mathlib.Data.List.Induction
import Mathlib.Data.List.Nodup
import Mathlib.Data.List.Perm.Basic
import Mathlib.Data.List.TakeWhile
import WorkloadSynth.Proofs.Json.Record
import WorkloadSynth.Settings.Basic

/-!
# Lists of names

Archetypes and anomalies are vocabularies: values with canonical names, and a form in which texts are
compared with them.  A list of names is read from the front.  Reading stops at the first text that is neither
blank nor known (`FirstUnknown`); where there is none it gives the values that are named, each once, in the
order of their first mention (`Mentions`).  A value is added at the end of those before it, so the induction is
from the end of the list.
-/

set_option autoImplicit false

namespace WorkloadSynth

theorem Text.trim_of_isBlankText {text : String} (h : isBlankText text = true) : trim text = "" := by
  have hnone : text.toList.dropWhile isBlank = [] := by
    rw [List.dropWhile_eq_nil_iff]
    exact List.all_eq_true.mp h
  rw [trim, trimChars, hnone]
  rfl

def RecipeFault.Quotes (f : RecipeFault) (text : String) : Prop :=
  ∃ before after, f.message = before ++ "'" ++ text ++ ("'" ++ after)

structure Vocabulary (α : Type) where
  all : List α
  name : α → String
  key : String → String
  ofName? : String → Option α
  parse : String → Except RecipeFault α
  fault : String → RecipeFault
  nodup_all : all.Nodup
  key_name : ∀ v, key (name v) = name v
  key_of_blank : ∀ text v, Text.isBlankText text = true → key text ≠ name v
  ofName?_eq_some : ∀ text v, ofName? text = some v ↔ key text = name v
  parse_eq : ∀ text, parse text = (ofName? text).elim (.error (fault text)) .ok

namespace Vocabulary

variable {α : Type} (V : Vocabulary α)

def Known (text : String) : Prop := ∃ v, V.key text = V.name v

def Unknown (text : String) : Prop := Text.isBlankText text = false ∧ ¬ V.Known text

def FirstUnknown (names : List String) (text : String) : Prop :=
  ∃ before after, names = before ++ text :: after ∧ V.Unknown text ∧ ∀ n ∈ before, ¬ V.Unknown n

def place (names : List String) (v : α) : ℕ := names.findIdx fun n => V.key n = V.name v

/-- The values that are named, each once, in the order of their first mention. -/
structure Mentions (names : List String) (values : List α) : Prop where
  nodup : values.Nodup
  mem : ∀ v, v ∈ values ↔ ∃ n ∈ names, V.key n = V.name v
  order : values.Pairwise fun v w => V.place names v < V.place names w

/-- What a list of names stands for: all values if it is empty, else the ones it mentions. -/
def StandsFor (names : List String) (values : List α) : Prop :=
  (∀ n ∈ names, ¬ V.Unknown n) ∧ (names = [] ∧ values = V.all ∨ names ≠ [] ∧ V.Mentions names values)

variable {V} {names : List String} {values : List α} {text : String} {v : α}

/-! ## Single names -/

theorem ofName?_eq_none : V.ofName? text = none ↔ ¬ V.Known text := by
  rw [Option.eq_none_iff_forall_ne_some]
  simp only [ne_eq, V.ofName?_eq_some, Known, not_exists]

theorem not_known_of_blank (h : Text.isBlankText text = true) : ¬ V.Known text :=
  fun ⟨v, hv⟩ => V.key_of_blank text v h hv

theorem name_injective {v w : α} (h : V.name v = V.name w) : v = w := by
  have hv := (V.ofName?_eq_some (V.name v) v).mpr (V.key_name v)
  have hw := (V.ofName?_eq_some (V.name v) w).mpr ((V.key_name v).trans h)
  exact Option.some.inj (hv.symm.trans hw)

theorem known_name (v : α) : V.Known (V.name v) := ⟨v, V.key_name v⟩

theorem exists_firstUnknown : (∃ text, V.FirstUnknown names text) ↔ ∃ n ∈ names, V.Unknown n := by
  constructor
  · rintro ⟨text, before, after, rfl, htext, -⟩
    exact ⟨text, by simp, htext⟩
  · rintro ⟨n, hn, hunknown⟩
    induction names with
    | nil => cases hn
    | cons m rest ih =>
        by_cases hm : V.Unknown m
        · exact ⟨m, [], rest, rfl, hm, nofun⟩
        · have hrest : n ∈ rest := (List.mem_cons.mp hn).resolve_left fun h => hm (h ▸ hunknown)
          obtain ⟨text, before, after, rfl, htext, hbefore⟩ := ih hrest
          exact ⟨text, m :: before, after, rfl, htext, List.forall_mem_cons.mpr ⟨hm, hbefore⟩⟩

/-! ## Reading a list -/

theorem mapM_parse (h : ∀ n ∈ names, ¬ V.Unknown n) :
    (names.filter fun n => !Text.isBlankText n).mapM V.parse = .ok (names.filterMap V.ofName?) := by
  induction names with
  | nil => rfl
  | cons n rest ih =>
      obtain ⟨hn, hrest⟩ := List.forall_mem_cons.mp h
      cases hblank : Text.isBlankText n with
      | true =>
          have hnone : V.ofName? n = none := ofName?_eq_none.mpr (not_known_of_blank hblank)
          rw [List.filter_cons_of_neg (by simp [hblank]), List.filterMap_cons_none hnone]
          exact ih hrest
      | false =>
          obtain ⟨v, hv⟩ : V.Known n := not_not.mp fun hunknown => hn ⟨hblank, hunknown⟩
          have hsome : V.ofName? n = some v := (V.ofName?_eq_some n v).mpr hv
          rw [List.filter_cons_of_pos (by simp [hblank]), List.mapM_cons, V.parse_eq, hsome, ih hrest,
            List.filterMap_cons_some hsome]
          rfl

theorem mapM_parse_of_firstUnknown (h : V.FirstUnknown names text) :
    (names.filter fun n => !Text.isBlankText n).mapM V.parse = .error (V.fault text) := by
  obtain ⟨before, after, rfl, ⟨hblank, hunknown⟩, hbefore⟩ := h
  rw [List.filter_append, List.filter_cons_of_pos (by simp [hblank]), List.mapM_append, mapM_parse hbefore,
    List.mapM_cons, V.parse_eq, ofName?_eq_none.mpr hunknown]
  rfl

/-! ## First mentions -/

theorem place_lt_length : V.place names v < names.length ↔ ∃ m ∈ names, V.key m = V.name v := by
  simp only [place, List.findIdx_lt_length, decide_eq_true_eq]

theorem place_concat {n : String} (h : ∃ m ∈ names, V.key m = V.name v) :
    V.place (names ++ [n]) v = V.place names v := by
  rw [place, List.findIdx_append]
  exact if_pos (place_lt_length.mpr h)

theorem Mentions.concat_old (h : V.Mentions names values) {n : String}
    (hold : ∀ v, V.key n = V.name v → v ∈ values) : V.Mentions (names ++ [n]) values where
  nodup := h.nodup
  mem v := by
    rw [h.mem]
    constructor
    · rintro ⟨m, hm, hv⟩
      exact ⟨m, List.mem_append_left _ hm, hv⟩
    · rintro ⟨m, hm, hv⟩
      rcases List.mem_append.mp hm with hm | hm
      · exact ⟨m, hm, hv⟩
      · obtain rfl := List.mem_singleton.mp hm
        exact (h.mem v).mp (hold v hv)
  order := by
    refine h.order.imp_of_mem fun hv hw hlt => ?_
    rwa [place_concat ((h.mem _).mp hv), place_concat ((h.mem _).mp hw)]

theorem Mentions.concat_new (h : V.Mentions names values) {n : String} {w : α} (hw : V.key n = V.name w)
    (hnew : w ∉ values) : V.Mentions (names ++ [n]) (values ++ [w]) where
  nodup := List.nodup_append.mpr ⟨h.nodup, List.nodup_singleton w, by
    rintro v hv _ hw' rfl
    exact hnew (List.mem_singleton.mp hw' ▸ hv)⟩
  mem v := by
    rw [List.mem_append, List.mem_singleton, h.mem]
    constructor
    · rintro (⟨m, hm, hv⟩ | rfl)
      · exact ⟨m, List.mem_append_left _ hm, hv⟩
      · exact ⟨n, by simp, hw⟩
    · rintro ⟨m, hm, hv⟩
      rcases List.mem_append.mp hm with hm | hm
      · exact .inl ⟨m, hm, hv⟩
      · obtain rfl := List.mem_singleton.mp hm
        exact .inr (name_injective (hv.symm.trans hw))
  order := by
    have hlast : names.length ≤ V.place (names ++ [n]) w := by
      have hplace : ¬ V.place names w < names.length := fun hlt =>
        hnew ((h.mem w).mpr (place_lt_length.mp hlt))
      rw [place, List.findIdx_append]
      exact (if_neg hplace).symm ▸ Nat.le_add_left _ _
    refine List.pairwise_append.mpr ⟨?_, List.pairwise_singleton _ _, ?_⟩
    · refine h.order.imp_of_mem fun hv hv' hlt => ?_
      rwa [place_concat ((h.mem _).mp hv), place_concat ((h.mem _).mp hv')]
    · intro v hv w' hw'
      obtain rfl := List.mem_singleton.mp hw'
      have hmem := (h.mem v).mp hv
      rw [place_concat hmem]
      exact Nat.lt_of_lt_of_le (place_lt_length.mpr hmem) hlast

theorem mentions_eraseDups [DecidableEq α] (names : List String) :
    V.Mentions names (names.filterMap V.ofName?).eraseDups := by
  induction names using List.reverseRecOn with
  | nil => exact ⟨by simp, by simp, by simp⟩
  | append_singleton names n ih =>
      cases hn : V.ofName? n with
      | none =>
          have hvalues : (names ++ [n]).filterMap V.ofName? = names.filterMap V.ofName? := by simp [hn]
          rw [hvalues]
          exact ih.concat_old fun v hv => absurd ⟨v, hv⟩ (ofName?_eq_none.mp hn)
      | some w =>
          have hw : V.key n = V.name w := (V.ofName?_eq_some n w).mp hn
          have hvalues : (names ++ [n]).filterMap V.ofName? = names.filterMap V.ofName? ++ [w] := by simp [hn]
          rw [hvalues, List.eraseDups_append]
          generalize names.filterMap V.ofName? = read at ih ⊢
          by_cases hold : w ∈ read
          · have hnone : [w].removeAll read = [] := by simp [List.removeAll, hold]
            rw [hnone, List.eraseDups_nil, List.append_nil]
            refine ih.concat_old fun v hv => ?_
            obtain rfl : v = w := name_injective (hv.symm.trans hw)
            exact List.mem_eraseDups.mpr hold
          · have hsome : [w].removeAll read = [w] := by simp [List.removeAll, hold]
            rw [hsome, List.eraseDups_cons]
            exact ih.concat_new hw fun hmem => hold (List.mem_eraseDups.mp hmem)

theorem Mentions.unique {values' : List α} (h : V.Mentions names values) (h' : V.Mentions names values') :
    values = values' := by
  have hperm : values.Perm values' :=
    (List.perm_ext_iff_of_nodup h.nodup h'.nodup).mpr fun v => by rw [h.mem, h'.mem]
  exact hperm.eq_of_pairwise (fun v w _ _ hvw hwv => absurd hwv (Nat.lt_asymm hvw)) h.order h'.order

theorem mentions_names (h : values.Nodup) : V.Mentions (values.map V.name) values := by
  induction values using List.reverseRecOn with
  | nil => exact ⟨by simp, by simp, by simp⟩
  | append_singleton values v ih =>
      have hnodup := List.nodup_append.mp h
      rw [List.map_append]
      exact (ih hnodup.1).concat_new (V.key_name v) fun hmem => hnodup.2.2 v hmem v (by simp) rfl

/-! ## Resolving a list -/

section

variable [DecidableEq α]

theorem resolve_eq_ok : Settings.resolve V.parse names = .ok values ↔
    (∀ n ∈ names, ¬ V.Unknown n) ∧ V.Mentions names values := by
  unfold Settings.resolve
  by_cases hknown : ∀ n ∈ names, ¬ V.Unknown n
  · rw [mapM_parse hknown]
    constructor
    · intro h
      obtain rfl := Except.ok.inj h
      exact ⟨hknown, mentions_eraseDups names⟩
    · rintro ⟨-, h⟩
      exact congrArg Except.ok ((mentions_eraseDups names).unique h)
  · obtain ⟨text, htext⟩ : ∃ text, V.FirstUnknown names text :=
      exists_firstUnknown.mpr (by simpa using hknown)
    rw [mapM_parse_of_firstUnknown htext]
    exact ⟨nofun, fun h => absurd h.1 hknown⟩

theorem resolve_eq_error {f : RecipeFault} : Settings.resolve V.parse names = .error f ↔
    ∃ text, V.FirstUnknown names text ∧ V.fault text = f := by
  unfold Settings.resolve
  constructor
  · intro h
    by_cases hknown : ∀ n ∈ names, ¬ V.Unknown n
    · rw [mapM_parse hknown] at h
      cases h
    · obtain ⟨text, htext⟩ : ∃ text, V.FirstUnknown names text :=
        exists_firstUnknown.mpr (by simpa using hknown)
      rw [mapM_parse_of_firstUnknown htext] at h
      exact ⟨text, htext, Except.error.inj h⟩
  · rintro ⟨text, htext, rfl⟩
    rw [mapM_parse_of_firstUnknown htext]
    rfl

theorem resolveOr_eq_ok : Settings.resolveOr V.all V.parse names = .ok values ↔ V.StandsFor names values := by
  cases names with
  | nil => simp [Settings.resolveOr, StandsFor, eq_comm]
  | cons n rest => simp [Settings.resolveOr, StandsFor, resolve_eq_ok]

theorem resolveOr_eq_error {f : RecipeFault} : Settings.resolveOr V.all V.parse names = .error f ↔
    ∃ text, V.FirstUnknown names text ∧ V.fault text = f := by
  cases names with
  | nil => simp [Settings.resolveOr, FirstUnknown]
  | cons n rest => simp [Settings.resolveOr, resolve_eq_error]

theorem exists_standsFor (h : ∀ n ∈ names, ¬ V.Unknown n) : ∃ values, V.StandsFor names values := by
  by_cases hnames : names = []
  · exact ⟨V.all, h, .inl ⟨hnames, rfl⟩⟩
  · exact ⟨_, h, .inr ⟨hnames, mentions_eraseDups names⟩⟩

variable (V names) in
theorem standsFor_or_firstUnknown : (∃ values, V.StandsFor names values) ∨ ∃ text, V.FirstUnknown names text := by
  by_cases h : ∀ n ∈ names, ¬ V.Unknown n
  · exact .inl (exists_standsFor h)
  · exact .inr (exists_firstUnknown.mpr (by simpa using h))

end

theorem StandsFor.nodup (h : V.StandsFor names values) : values.Nodup := by
  obtain ⟨-, ⟨-, rfl⟩ | ⟨-, hmentions⟩⟩ := h
  · exact V.nodup_all
  · exact hmentions.nodup

theorem standsFor_names (hsome : values ≠ []) (h : values.Nodup) : V.StandsFor (values.map V.name) values := by
  refine ⟨?_, .inr ⟨by simpa using hsome, mentions_names h⟩⟩
  intro n hn hunknown
  obtain ⟨v, -, rfl⟩ := List.mem_map.mp hn
  exact hunknown.2 (known_name v)

end Vocabulary

/-! ## The two vocabularies -/

theorem find?_name_eq_some {α : Type} {all : List α} {name : α → String} (hnames : (all.map name).Nodup)
    {k : String} {v : α} (hv : v ∈ all) : all.find? (fun w => name w = k) = some v ↔ k = name v := by
  constructor
  · intro h
    simpa [eq_comm] using List.find?_some h
  · rintro rfl
    exact Json.find?_of_nodup name hnames hv

namespace Archetype

def key (text : String) : String := Text.lower (Text.trim text)

theorem parse_eq (text : String) : parse text = (ofName? text).elim (.error (.unknownArchetype text)) .ok := by
  delta parse
  cases ofName? text <;> rfl

def vocabulary : Vocabulary Archetype where
  all := all
  name := name
  key := key
  ofName? := ofName?
  parse := parse
  fault := .unknownArchetype
  nodup_all := by decide
  key_name a := by cases a <;> decide
  key_of_blank text a h := by
    rw [key, Text.trim_of_isBlankText h]
    cases a <;> decide
  ofName?_eq_some text a := find?_name_eq_some (by decide) (by cases a <;> decide)
  parse_eq := parse_eq

end Archetype

namespace Anomaly

def key (text : String) : String :=
  String.ofList ((Text.lower (Text.trim text)).toList.map fun c => if c = '-' then '_' else c)

theorem parse_eq (text : String) : parse text = (ofName? text).elim (.error (.unknownAnomaly text)) .ok := by
  delta parse
  cases ofName? text <;> rfl

def vocabulary : Vocabulary Anomaly where
  all := all
  name := name
  key := key
  ofName? := ofName?
  parse := parse
  fault := .unknownAnomaly
  nodup_all := by decide
  key_name k := by cases k <;> decide
  key_of_blank text k h := by
    rw [key, Text.trim_of_isBlankText h]
    cases k <;> decide
  ofName?_eq_some text k := find?_name_eq_some (by decide) (by cases k <;> decide)
  parse_eq := parse_eq

end Anomaly

end WorkloadSynth
