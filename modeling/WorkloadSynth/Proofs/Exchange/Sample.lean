import WorkloadSynth.Exchange.Sample
import WorkloadSynth.Proofs.Exchange.Form
import WorkloadSynth.Proofs.Json.Accuracy

/-!
# Samples read back from their texts

A sample is a record of records, with a list of rows and perhaps an episode in it.  All that is no float comes
back as it was, and each float as its decimal is reread (`Sample.map`), which is close to what it was; so a
finite sample comes back equal exactly if each of its floats does, and one that is not finite does not come back
at all.
-/

set_option autoImplicit false

namespace WorkloadSynth

variable {α β : Type}

/-! ## The floats of a sample -/

namespace Moment

def toList (m : Moment α) : List α := [m.hour, m.day, m.ageDays]

def map (f : α → β) (m : Moment α) : Moment β := ⟨f m.hour, f m.day, f m.ageDays⟩

theorem map_eq_self {f : α → α} {m : Moment α} : m.map f = m ↔ ∀ x ∈ m.toList, f x = x := by
  obtain ⟨hour, day, ageDays⟩ := m
  simp [map, toList]

end Moment

def Quantiles.map (f : α → β) (q : Quantiles α) : Quantiles β := ⟨f q.p50, f q.p95, f q.p99⟩

namespace Usage

def map (f : α → β) (u : Usage α) : Usage β :=
  ⟨u.cpu.map f, u.memory.map f, f u.cpuVariance, f u.memoryTrend, f u.throttle, f u.hour, f u.day, f u.age⟩

theorem map_eq_self {f : α → α} {u : Usage α} : u.map f = u ↔ ∀ x ∈ u.toList, f x = x := by
  obtain ⟨⟨c50, c95, c99⟩, ⟨m50, m95, m99⟩, variance, trend, throttle, hour, day, age⟩ := u
  simp [map, Quantiles.map, toList, and_assoc]

theorem steps_map_eq_self {f : α → α} {steps : List (Usage α)} :
    steps.map (map f) = steps ↔ ∀ x ∈ steps.flatMap toList, f x = x := by
  induction steps with
  | nil => simp
  | cons u steps ih =>
      rw [List.map_cons, List.cons.injEq, List.flatMap_cons, List.forall_mem_append, ih, map_eq_self]

end Usage

def Allocation.map (f : α → β) (a : Allocation α) : Allocation β := ⟨f a.request, f a.limit⟩

namespace Recommendation

def map (f : α → β) (r : Recommendation α) : Recommendation β := ⟨r.cpu.map f, r.memory.map f, f r.confidence⟩

theorem map_eq_self {f : α → α} {r : Recommendation α} : r.map f = r ↔ ∀ x ∈ r.toList, f x = x := by
  obtain ⟨⟨cpuRequest, cpuLimit⟩, ⟨memoryRequest, memoryLimit⟩, confidence⟩ := r
  simp [map, Allocation.map, toList, and_assoc]

end Recommendation

namespace Trace

def floats (t : Trace α) : List α := t.start.toList ++ t.steps.flatMap Usage.toList

def map (f : α → β) (t : Trace α) : Trace β :=
  ⟨t.archetype, t.start.map f, t.episode, t.steps.map (Usage.map f)⟩

theorem map_eq_self {f : α → α} {t : Trace α} : t.map f = t ↔ ∀ x ∈ t.floats, f x = x := by
  obtain ⟨archetype, start, episode, steps⟩ := t
  simp only [map, floats, mk.injEq, true_and, Moment.map_eq_self, Usage.steps_map_eq_self,
    List.forall_mem_append]

end Trace

namespace Sample

def floats (s : Sample α) : List α := s.trace.floats ++ s.label.toList

def map (f : α → β) (s : Sample α) : Sample β := ⟨s.index, s.trace.map f, s.label.map f⟩

theorem map_eq_self {f : α → α} {s : Sample α} : s.map f = s ↔ ∀ x ∈ s.floats, f x = x := by
  obtain ⟨index, trace, label⟩ := s
  simp only [map, floats, mk.injEq, true_and, Trace.map_eq_self, Recommendation.map_eq_self,
    List.forall_mem_append]

end Sample

namespace Exchange

open Json (Reads reread)

/-! ## What each text is read as -/

theorem readsAs_moment (m : Moment Float) : ReadsAs m m.toList (m.map reread) :=
  readsAs_ofRow (by decide) rfl rfl

theorem readsAs_usage (u : Usage Float) : ReadsAs u u.toList (u.map reread) :=
  readsAs_ofRow (by decide) rfl rfl

theorem readsAs_recommendation (r : Recommendation Float) : ReadsAs r r.toList (r.map reread) :=
  readsAs_ofRow (by decide) rfl rfl

theorem readsAs_archetype (a : Archetype) : ReadsAs a [] a :=
  readsAs_ofNames (by decide) (by cases a <;> decide)

theorem readsAs_anomaly (a : Anomaly) : ReadsAs a [] a :=
  readsAs_ofNames (by decide) (by cases a <;> decide)

theorem readsAs_episode {e : Episode} (h : e.onset < 2 ^ 64) : ReadsAs e [] e where
  reads := Reads.record (.cons ⟨rfl, (readsAs_anomaly e.anomaly).reads⟩
    (.cons ⟨rfl, (readsAs_natural h).reads⟩ .nil)) (by decide)
  floats := rfl
  back := by
    change ((ofJson? ((toJson e.anomaly).mapFloats reread)).bind fun a =>
      (ofJson? ((toJson e.onset).mapFloats reread)).bind fun n => some (Episode.mk a n)) = some e
    rw [(readsAs_anomaly e.anomaly).back, (readsAs_natural h).back]
    rfl

theorem readsAs_event {event : Option Episode} (h : ∀ e ∈ event, e.onset < 2 ^ 64) : ReadsAs event [] event := by
  cases event with
  | none => exact readsAs_none
  | some e => exact readsAs_some (readsAs_episode (h e rfl)) rfl

theorem readsAs_trace {t : Trace Float} (h : ∀ e ∈ t.episode, e.onset < 2 ^ 64) :
    ReadsAs t t.floats (t.map reread) where
  reads := Reads.record (.cons ⟨rfl, (readsAs_archetype t.archetype).reads⟩
    (.cons ⟨rfl, (readsAs_moment t.start).reads⟩
      (.cons ⟨rfl, (readsAs_event h).reads⟩
        (.cons ⟨rfl, (readsAs_list fun u (_ : u ∈ t.steps) => readsAs_usage u).reads⟩ .nil)))) (by decide)
  floats := by
    change (toJson t.archetype).floats ++ ((toJson t.start).floats ++
      ((toJson t.episode).floats ++ ((toJson t.steps).floats ++ []))) = t.floats
    rw [(readsAs_archetype t.archetype).floats, (readsAs_moment t.start).floats, (readsAs_event h).floats,
      (readsAs_list fun u (_ : u ∈ t.steps) => readsAs_usage u).floats, List.append_nil]
    rfl
  back := by
    change ((ofJson? ((toJson t.archetype).mapFloats reread)).bind fun archetype =>
      (ofJson? ((toJson t.start).mapFloats reread)).bind fun start =>
      (ofJson? ((toJson t.episode).mapFloats reread)).bind fun episode =>
      (ofJson? ((toJson t.steps).mapFloats reread)).bind fun steps =>
        some (Trace.mk archetype start episode steps)) = some (t.map reread)
    rw [(readsAs_archetype t.archetype).back, (readsAs_moment t.start).back, (readsAs_event h).back,
      (readsAs_list fun u (_ : u ∈ t.steps) => readsAs_usage u).back]
    rfl

theorem readsAs_sample {s : Sample Float} (h : ∀ e ∈ s.trace.episode, e.onset < 2 ^ 64) :
    ReadsAs s s.floats (s.map reread) where
  reads := Reads.record (.cons ⟨rfl, (readsAs_word s.index).reads⟩
    (.cons ⟨rfl, (readsAs_trace h).reads⟩
      (.cons ⟨rfl, (readsAs_recommendation s.label).reads⟩ .nil))) (by decide)
  floats := by
    change (toJson s.index).floats ++ ((toJson s.trace).floats ++ ((toJson s.label).floats ++ [])) = s.floats
    rw [(readsAs_word s.index).floats, (readsAs_trace h).floats, (readsAs_recommendation s.label).floats,
      List.append_nil]
    rfl
  back := by
    change ((ofJson? ((toJson s.index).mapFloats reread)).bind fun index =>
      (ofJson? ((toJson s.trace).mapFloats reread)).bind fun trace =>
      (ofJson? ((toJson s.label).mapFloats reread)).bind fun label =>
        some (Sample.mk index trace label)) = some (s.map reread)
    rw [(readsAs_word s.index).back, (readsAs_trace h).back, (readsAs_recommendation s.label).back]
    rfl

/-! ## Coming back -/

/-- What becomes of a value that is written and read again, from the floats in it and what they are reread as. -/
structure ComesBack [Exchange α] (x : α) (floats : List Float) (y : α) : Prop where
  finite : (∀ v ∈ floats, v.isFinite = true) → read (write x) = .ok y
  equal_iff : read (write x) = .ok x ↔ ∀ v ∈ floats, v.isFinite = true ∧ reread v = v
  short : (∀ v ∈ floats, v.isFinite = true ∧ Json.IsShort (Json.written v)) → read (write x) = .ok x
  refused : (∃ v ∈ floats, ¬ v.isFinite = true) → read (write x) = (.error .mismatch : Except Json.Fault α)

theorem ReadsAs.comesBack [Exchange α] {x y : α} {floats : List Float} (h : ReadsAs x floats y)
    (hself : y = x ↔ ∀ v ∈ floats, reread v = v) : ComesBack x floats y := by
  have hread := read_write h
  have hequal : read (write x) = .ok x ↔ ∀ v ∈ floats, v.isFinite = true ∧ reread v = v := by
    rw [hread, forall₂_and, ← hself]
    split_ifs with hfinite
    · rw [Except.ok.injEq]
      exact ⟨fun heq => ⟨hfinite, heq⟩, And.right⟩
    · refine ⟨fun heq => ?_, fun hall => absurd hall.1 hfinite⟩
      cases heq
  exact {
    finite := fun hfinite => hread.trans (if_pos hfinite)
    equal_iff := hequal
    short := fun hshort => hequal.mpr fun v hv => ⟨(hshort v hv).1, Json.reread_eq (hshort v hv).1 (hshort v hv).2⟩
    refused := fun ⟨v, hv, hinfinite⟩ => hread.trans (if_neg fun hfinite => hinfinite (hfinite v hv)) }

/-- Samples come back from their texts, and so does each part of them: whole numbers, names and the number of
steps as they were, floats as their decimals are reread, which is within `2 ^ (-50)` of them.  An onset is a
machine word. -/
theorem samples_come_back :
    (∀ s : Sample Float, (∀ e ∈ s.trace.episode, e.onset < 2 ^ 64) → ComesBack s s.floats (s.map reread)) ∧
    (∀ t : Trace Float, (∀ e ∈ t.episode, e.onset < 2 ^ 64) → ComesBack t t.floats (t.map reread)) ∧
    (∀ u : Usage Float, ComesBack u u.toList (u.map reread)) ∧
    (∀ r : Recommendation Float, ComesBack r r.toList (r.map reread)) ∧
    (∀ m : Moment Float, ComesBack m m.toList (m.map reread)) ∧
    (∀ e : Episode, e.onset < 2 ^ 64 → ComesBack e [] e) ∧
    ∀ x : Float, x.isFinite = true → (reread x).isFinite = true ∧
      |Binary64.real (reread x) - Binary64.real x| ≤ 1 / 2 ^ 50 * |Binary64.real x| + 2 ^ (-1073 : ℤ) := by
  refine ⟨fun s h => ?_, fun t h => ?_, fun u => ?_, fun r => ?_, fun m => ?_, fun e h => ?_, fun x hx => ?_⟩
  · exact (readsAs_sample h).comesBack Sample.map_eq_self
  · exact (readsAs_trace h).comesBack Trace.map_eq_self
  · exact (readsAs_usage u).comesBack Usage.map_eq_self
  · exact (readsAs_recommendation r).comesBack Recommendation.map_eq_self
  · exact (readsAs_moment m).comesBack Moment.map_eq_self
  · exact (readsAs_episode h).comesBack (by simp)
  · exact Json.reread_near hx

def lastOnset : Sample Float where
  index := 18446744073709551615
  trace :=
    { archetype := .cron
      start := ⟨0.5, 0.1, 29.75⟩
      episode := some ⟨.noisy, 18446744073709551615⟩
      steps := [⟨⟨0.1, 0.2, 0.3⟩, ⟨0.0, 1e-7, 1.0⟩, 0.04, -0.015, 0.0, 0.5, 0.125, 0.875⟩] }
  label := ⟨⟨0.333, 0.5⟩, ⟨0.25, 0.75⟩, 0.9⟩

theorem last_onset_comes_back :
    (∀ e ∈ lastOnset.trace.episode, e.onset < 2 ^ 64) ∧ read (write lastOnset) = .ok lastOnset := by
  have honset : ∀ e ∈ lastOnset.trace.episode, e.onset < 2 ^ 64 := by decide
  exact ⟨honset, (samples_come_back.1 lastOnset honset).short (by decide +kernel)⟩

def seventeenDigits : Moment Float := ⟨0.010333333333333333, 0.0, 0.0⟩

/-- Not every finite float comes back: the last bit of one with seventeen digits can be lost. -/
theorem last_bit_is_lost :
    (∀ x ∈ seventeenDigits.toList, x.isFinite = true) ∧
      read (write seventeenDigits) = .ok { seventeenDigits with hour := 0.010333333333333332 } ∧
      read (write seventeenDigits) ≠ .ok seventeenDigits := by
  decide +kernel

end Exchange

end WorkloadSynth
