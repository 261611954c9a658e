import WorkloadSynth.Text.Shapeless

/-!
Texts in quotation marks, as messages show them.

A quote, a backslash and the common controls have an escape of one letter; a character without a
shape of its own is spelled out by number; everything else stands for itself.
-/

set_option autoImplicit false

namespace WorkloadSynth.Text

def numberEscape (c : Char) : List Char :=
  ['\\', 'u', '\x7b'] ++ Nat.toDigits 16 c.toNat ++ ['\x7d']

def quotedChar (c : Char) : List Char :=
  if c = '"' ∨ c = '\\' then ['\\', c]
  else if c = '\t' then ['\\', 't']
  else if c = '\n' then ['\\', 'n']
  else if c = '\r' then ['\\', 'r']
  else if c = '\x00' then ['\\', '0']
  else if isShapeless c then numberEscape c
  else [c]

def quoted (s : String) : String :=
  String.ofList ('"' :: s.toList.flatMap quotedChar ++ ['"'])

end WorkloadSynth.Text
