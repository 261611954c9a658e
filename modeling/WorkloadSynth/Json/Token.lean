import WorkloadSynth.Decimal.Reading
import WorkloadSynth.Number.Binary64

/-!
The pieces of JSON text: blanks, words, quoted texts and numbers.

A reader takes characters from the front of a list and gives back the rest, or says what is wrong:
the text ends early, breaks the grammar, or holds something other than what was wanted.

Numbers are read as a significand of 64 bits and a power of ten.  Digits that do not fit into the
significand only count for the exponent, and the power is applied in one floating-point operation;
so a decimal of up to nineteen digits is read with at most two roundings.
-/

set_option autoImplicit false

namespace WorkloadSynth.Json

inductive Fault where
  | truncated
  | malformed
  | mismatch
deriving DecidableEq, Repr

abbrev Reader (α : Type) := List Char → Except Fault (α × List Char)

def isBlank (c : Char) : Bool := c = ' ' || c = '\n' || c = '\t' || c = '\r'

def skipBlanks (cs : List Char) : List Char := cs.dropWhile isBlank

def expectWord : (word : List Char) → List Char → Except Fault (List Char)
  | [], cs => .ok cs
  | _ :: _, [] => .error .truncated
  | w :: word, c :: cs => if c = w then expectWord word cs else .error .malformed

def hexValue? (c : Char) : Option Nat :=
  if Decimal.isDigit c then some (Decimal.digitValue c)
  else if 'a' ≤ c ∧ c ≤ 'f' then some (c.toNat - 'a'.toNat + 10)
  else if 'A' ≤ c ∧ c ≤ 'F' then some (c.toNat - 'A'.toNat + 10)
  else none

def hexWord? (a b c d : Char) : Option Nat := do
  let a ← hexValue? a
  let b ← hexValue? b
  let c ← hexValue? c
  let d ← hexValue? d
  some (a * 4096 + b * 256 + c * 16 + d)

/-- What is wrong when fewer than four characters follow an escape by number: the text has ended if
even its bytes are fewer. -/
def shortEscape (cs : List Char) : Fault :=
  if cs.foldl (fun n c => n + c.utf8Size) 0 < 4 then .truncated else .malformed

def plainEscape? (c : Char) : Option Char :=
  if c = '"' ∨ c = '\\' ∨ c = '/' then some c
  else if c = 'b' then some '\x08'
  else if c = 'f' then some '\x0c'
  else if c = 'n' then some '\n'
  else if c = 'r' then some '\r'
  else if c = 't' then some '\t'
  else none

/-- The rest of a quoted text after its opening quote, in reverse.  An escape by number may stand
for half of a character; then the other half has to follow. -/
def quotedFrom (read : List Char) : Reader (List Char)
  | [] => .error .truncated
  | '"' :: rest => .ok (read, rest)
  | ['\\'] => .error .truncated
  | '\\' :: 'u' :: a :: b :: c :: d :: rest =>
    match hexWord? a b c d with
    | none => .error .malformed
    | some n =>
      if 0xdc00 ≤ n ∧ n ≤ 0xdfff then .error .malformed
      else if n < 0xd800 ∨ 0xdbff < n then quotedFrom (Char.ofNat n :: read) rest
      else match rest with
        | [] | ['\\'] => .error .truncated
        | '\\' :: 'u' :: e :: f :: g :: h :: rest =>
          match hexWord? e f g h with
          | none => .error .malformed
          | some m =>
            if m < 0xdc00 ∨ 0xdfff < m then .error .malformed
            else quotedFrom (Char.ofNat ((n - 0xd800) * 1024 + (m - 0xdc00) + 0x10000) :: read) rest
        | '\\' :: 'u' :: rest => .error (shortEscape rest)
        | _ => .error .malformed
  | '\\' :: 'u' :: rest => .error (shortEscape rest)
  | '\\' :: c :: rest =>
    match plainEscape? c with
    | none => .error .malformed
    | some e => quotedFrom (e :: read) rest
  | c :: rest => if c.toNat < 0x20 then .error .malformed else quotedFrom (c :: read) rest

def quoted : Reader String := fun cs => do
  let (read, rest) ← quotedFrom [] cs
  pure (String.ofList read.reverse, rest)

def skipQuoted : List Char → Except Fault (List Char)
  | [] => .error .truncated
  | '"' :: rest => .ok rest
  | ['\\'] => .error .truncated
  | '\\' :: 'u' :: a :: b :: c :: d :: rest =>
    match hexWord? a b c d with
    | none => .error .malformed
    | some _ => skipQuoted rest
  | '\\' :: 'u' :: rest => .error (shortEscape rest)
  | '\\' :: c :: rest =>
    match plainEscape? c with
    | none => .error .malformed
    | some _ => skipQuoted rest
  | c :: rest => if c.toNat < 0x20 then .error .malformed else skipQuoted rest

inductive Number where
  | natural (n : Nat)
  /-- A whole number below zero, given by its size. -/
  | negative (size : Nat)
  | float (x : Float)

namespace Number

/-- Adds digits to a significand while it fits into 64 bits; also counts the digits taken. -/
def gather (significand taken : Nat) : List Char → Nat × Nat
  | [] => (significand, taken)
  | c :: rest =>
    let next := significand * 10 + Decimal.digitValue c
    if Nat.pow 2 64 ≤ next then (significand, taken) else gather next (taken + 1) rest

def powerOfTen (n : Nat) : Float := Float.ofScientific 1 false n

/-- The greatest power of ten that a double holds is `10 ^ 308`; smaller numbers are reached by
dividing more than once. -/
def divideBy : (tries : Nat) → Float → (power : Nat) → Float
  | 0, x, _ => x
  | tries + 1, x, power =>
    if power ≤ 308 then x / powerOfTen power
    else if x == 0.0 then x
    else divideBy tries (x / powerOfTen 308) (power - 308)

def scale (negative : Bool) (significand : Nat) (exponent : Int) : Except Fault Float :=
  let x := Binary64.ofNat significand
  let signed := fun (y : Float) => if negative then -y else y
  if 0 ≤ exponent then
    if exponent ≤ 308 then
      let y := x * powerOfTen exponent.toNat
      if y.isInf then .error .malformed else .ok (signed y)
    else if significand = 0 then .ok (signed x)
    else .error .malformed
  else .ok (signed (divideBy 4 x (-exponent).toNat))

def readExponent (negative : Bool) (significand : Nat) (start : Int) : Reader Number := fun cs => do
  let (below, digits) := Decimal.splitSign cs
  match digits with
  | [] => .error .truncated
  | c :: _ =>
    if !Decimal.isDigit c then .error .malformed
    else
      let n := Decimal.ofDigits (digits.takeWhile Decimal.isDigit)
      let rest := digits.dropWhile Decimal.isDigit
      let x ←
        if n < Nat.pow 2 31 then scale negative significand (if below then start - n else start + n)
        else if significand ≠ 0 ∧ below = false then .error .malformed
        else .ok (if negative then -0.0 else 0.0)
      pure (.float x, rest)

def readTail (negative : Bool) (significand : Nat) (exponent : Int) : Reader Number
  | 'e' :: rest | 'E' :: rest => readExponent negative significand exponent rest
  | rest => do
    let x ← scale negative significand exponent
    pure (.float x, rest)

def readFraction (negative : Bool) (significand : Nat) (exponent : Int) : Reader Number :=
  fun cs => do
    let digits := cs.takeWhile Decimal.isDigit
    let rest := cs.dropWhile Decimal.isDigit
    if digits.isEmpty then .error (if rest.isEmpty then .truncated else .malformed)
    else
      let (significand, taken) := gather significand 0 digits
      readTail negative significand (exponent - taken) rest

/-- A whole number; below zero it has to fit into 64 bits with sign, and minus zero keeps its sign
as a float. -/
def whole (negative : Bool) (n : Nat) : Number :=
  if negative then
    if n = 0 ∨ Nat.pow 2 63 < n then .float (-Binary64.ofNat n) else .negative n
  else .natural n

def readUnsigned (negative : Bool) : Reader Number := fun cs =>
  let digits := cs.takeWhile Decimal.isDigit
  let rest := cs.dropWhile Decimal.isDigit
  match digits with
  | [] => .error (if rest.isEmpty then .truncated else .malformed)
  | first :: more =>
    if first = '0' ∧ more ≠ [] then .error .malformed
    else
      let (significand, taken) := gather 0 0 digits
      let surplus := digits.length - taken
      match rest with
      | '.' :: rest => readFraction negative significand surplus rest
      | 'e' :: rest | 'E' :: rest => readExponent negative significand surplus rest
      | rest =>
        if surplus = 0 then .ok (whole negative significand, rest)
        else readTail negative significand surplus rest

def read : Reader Number
  | '-' :: rest => readUnsigned true rest
  | cs => readUnsigned false cs

def skip (cs : List Char) : Except Fault (List Char) := do
  let cs := match cs with
    | '-' :: rest => rest
    | cs => cs
  let digits := cs.takeWhile Decimal.isDigit
  let rest := cs.dropWhile Decimal.isDigit
  if digits.isEmpty ∨ (digits.head? = some '0' ∧ digits.length ≠ 1) then .error .malformed
  else
    let rest ← match rest with
      | '.' :: tail =>
        if (tail.takeWhile Decimal.isDigit).isEmpty then .error .malformed
        else .ok (tail.dropWhile Decimal.isDigit)
      | rest => .ok rest
    match rest with
    | 'e' :: tail | 'E' :: tail =>
      let (_, tail) := Decimal.splitSign tail
      if (tail.takeWhile Decimal.isDigit).isEmpty then .error .malformed
      else .ok (tail.dropWhile Decimal.isDigit)
    | rest => .ok rest

end Number

end WorkloadSynth.Json
