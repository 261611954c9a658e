import WorkloadSynth.Random.Draw

/-!
A supply of noise whose sort is chosen when the program runs: none, a generator, or a tape.
-/

set_option autoImplicit false

namespace WorkloadSynth.Random

inductive Supply where
  | silent
  | stream (g : Generator)
  | tape (t : Tape Float)

namespace Supply

def source : NoiseSource Supply Float where
  normal spread
    | silent => (0.0, silent)
    | stream g => let (x, g) := Generator.source.normal spread g; (x, stream g)
    | tape t => let (x, t) := Tape.source.normal spread t; (x, tape t)
  uniform low high
    | silent => (low, silent)
    | stream g => let (x, g) := Generator.source.uniform low high g; (x, stream g)
    | tape t => let (x, t) := Tape.source.uniform low high t; (x, tape t)

def isTape : Supply → Bool
  | tape _ => true
  | _ => false

end Supply

end WorkloadSynth.Random
