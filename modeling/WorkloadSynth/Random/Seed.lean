/-!
Seeds of independent streams.

Every sample reads from streams of its own, one per purpose, so that its content depends on the
global seed and its index alone and not on the order in which samples are made.  The seed of a
stream is a pure function of the global seed, the purpose and the index, put together by `mix`.
-/

set_option autoImplicit false

namespace WorkloadSynth.Random

/-- What a stream is read for. -/
inductive Purpose where
  | plan
  | trace
  | anomaly
  | shuffle
deriving DecidableEq, Repr

namespace Purpose

def all : List Purpose := [plan, trace, anomaly, shuffle]

/-- The word that keeps the streams of one seed apart: the first letters of the purpose. -/
def salt : Purpose → UInt64
  | plan => 0x706c616e
  | trace => 0x74726163
  | anomaly => 0x616e6f6d
  | shuffle => 0x73687566

end Purpose

def mix (z : UInt64) : UInt64 :=
  let z := z + 0x9e3779b97f4a7c15
  let z := (z ^^^ (z >>> 30)) * 0xbf58476d1ce4e5b9
  let z := (z ^^^ (z >>> 27)) * 0x94d049bb133111eb
  z ^^^ (z >>> 31)

def streamSeed (seed : UInt64) (purpose : Purpose) (index : UInt64) : UInt64 :=
  mix (mix (seed ^^^ purpose.salt) + index)

end WorkloadSynth.Random
