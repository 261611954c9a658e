import WorkloadSynth.Json.Token

/-!
Passing over a JSON value that nobody wants.

The brackets that are open are kept as a list, so the depth of the value does not matter.  Between
two values `closeThrough` takes the brackets that close and, if a comma follows, what comes before
the next value; `skipValue` alternates between that and single values until no bracket is open.
-/

set_option autoImplicit false

namespace WorkloadSynth.Json

inductive Bracket where
  | square
  | curly
deriving DecidableEq, Repr

def Bracket.closing : Bracket → Char
  | square => ']'
  | curly => '}'

def expectColon (cs : List Char) : Except Fault (List Char) :=
  match skipBlanks cs with
  | [] => .error .truncated
  | ':' :: rest => .ok rest
  | _ => .error .malformed

def Bracket.beginItem (b : Bracket) (cs : List Char) : Except Fault (List Char) :=
  match b with
  | square => .ok cs
  | curly =>
    match skipBlanks cs with
    | [] => .error .truncated
    | '"' :: rest => do
      let rest ← skipQuoted rest
      expectColon rest
    | _ => .error .malformed

/-- The brackets still open after a value, and the rest from the next value on. -/
def closeThrough : List Bracket → List Char → Except Fault (List Bracket × List Char)
  | [], cs => .ok ([], cs)
  | b :: outer, cs =>
    match skipBlanks cs with
    | [] => .error .truncated
    | c :: rest =>
      if c = ',' then do
        let rest ← b.beginItem rest
        pure (b :: outer, rest)
      else if c = b.closing then closeThrough outer rest
      else .error .malformed

def openBracket (b : Bracket) (outer : List Bracket) (cs : List Char) :
    Except Fault (List Bracket × List Char) :=
  match skipBlanks cs with
  | [] => .error .truncated
  | c :: rest =>
    if c = b.closing then closeThrough outer rest
    else do
      let rest ← b.beginItem (c :: rest)
      pure (b :: outer, rest)

def skipScalar : List Char → Except Fault (List Char)
  | 'n' :: rest => expectWord ['u', 'l', 'l'] rest
  | 't' :: rest => expectWord ['r', 'u', 'e'] rest
  | 'f' :: rest => expectWord ['a', 'l', 's', 'e'] rest
  | '"' :: rest => skipQuoted rest
  | c :: rest =>
    if c = '-' ∨ Decimal.isDigit c then Number.skip (c :: rest) else .error .malformed
  | [] => .error .truncated

/-- One value or opening bracket, with what follows up to the next value. -/
def skipStep (outer : List Bracket) (cs : List Char) :
    Except Fault (List Bracket × List Char) :=
  match skipBlanks cs with
  | '[' :: rest => openBracket .square outer rest
  | '{' :: rest => openBracket .curly outer rest
  | cs => do
    let rest ← skipScalar cs
    closeThrough outer rest

def skipFrom : (steps : Nat) → List Bracket → List Char → Except Fault (List Char)
  | 0, _, _ => .error .truncated
  | steps + 1, outer, cs => do
    let (outer, rest) ← skipStep outer cs
    if outer = [] then pure rest else skipFrom steps outer rest

def skipValue (cs : List Char) : Except Fault (List Char) := skipFrom (cs.length + 1) [] cs

end WorkloadSynth.Json
