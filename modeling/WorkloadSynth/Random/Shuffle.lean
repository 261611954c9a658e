import WorkloadSynth.Random.Draw

/-!
Putting a pool in random order.

`exchanges` draws, for each position from the last down to the second, the position at or below it
to exchange it with; `shuffle` carries the exchanges out.  The exchanges know the length of the pool
and not its elements.
-/

set_option autoImplicit false

namespace WorkloadSynth.Random

def exchanges : (last : Nat) → Generator → List (Nat × Nat)
  | 0, _ => []
  | last + 1, g =>
    let drawn := g.belowPosition (last + 2)
    (last + 1, drawn.1) :: exchanges last drawn.2

def rearrange {β : Type} (swaps : List (Nat × Nat)) (pool : Array β) : Array β :=
  swaps.foldl (fun xs p => xs.swapIfInBounds p.1 p.2) pool

def shuffle {β : Type} (g : Generator) (pool : Array β) : Array β :=
  rearrange (exchanges (pool.size - 1) g) pool

end WorkloadSynth.Random
