import WorkloadSynth.CommandLine.System

/-!
The program: a run on the words of the command line.
-/

set_option autoImplicit false

open WorkloadSynth

def main (words : List String) : IO UInt32 := do
  Program.start Host.real (← Program.Surroundings.ofSystem) words
