import WorkloadSynth.Json.Token

/-!
Blanks, comments and quoted texts of settings files in the line-oriented format.

Texts stand in four kinds of quotes: plain or literal, on one line or over several.  Readers take
characters from the front of a list and give back the rest, or nothing if the text breaks the
format.
-/

set_option autoImplicit false

namespace WorkloadSynth.Toml

abbrev Reader (α : Type) := List Char → Option (α × List Char)

/-! ### Blanks, comments and line ends -/

def isBlank (c : Char) : Bool := c = ' ' || c = '\t'

def skipBlanks (cs : List Char) : List Char := cs.dropWhile isBlank

/-- A control character other than a tab, which stands nowhere but at the end of a line. -/
def isControl (c : Char) : Bool := (c.toNat < 0x20 && c != '\t') || c.toNat = 0x7f

def lineBreak? : List Char → Option (List Char)
  | '\n' :: rest => some rest
  | '\x0d' :: '\n' :: rest => some rest
  | _ => none

def skipComment : List Char → List Char
  | '#' :: rest => rest.dropWhile fun c => !isControl c
  | cs => cs

def endLine (cs : List Char) : Option (List Char) :=
  match skipComment (skipBlanks cs) with
  | [] => some []
  | rest => lineBreak? rest

def skipLines : (steps : Nat) → List Char → List Char
  | 0, cs => cs
  | steps + 1, cs =>
    let rest := skipComment (skipBlanks cs)
    match lineBreak? rest with
    | some rest => skipLines steps rest
    | none => rest

/-! ### Texts -/

def escape : Reader Char
  | 'b' :: rest => some ('\x08', rest)
  | 't' :: rest => some ('\t', rest)
  | 'n' :: rest => some ('\n', rest)
  | 'f' :: rest => some ('\x0c', rest)
  | 'r' :: rest => some ('\x0d', rest)
  | '"' :: rest => some ('"', rest)
  | '\\' :: rest => some ('\\', rest)
  | 'u' :: rest => byNumber 4 rest
  | 'U' :: rest => byNumber 8 rest
  | _ => none
where
  byNumber (width : Nat) (cs : List Char) : Option (Char × List Char) := do
    let digits ← (cs.take width).mapM Json.hexValue?
    if digits.length < width then none
    else
      let n := digits.foldl (fun n d => 16 * n + d) 0
      if n < 0xd800 ∨ (0xdfff < n ∧ n < 0x110000) then some (Char.ofNat n, cs.drop width) else none

def basicFrom : (steps : Nat) → List Char → Reader (List Char)
  | 0, _, _ => none
  | steps + 1, read, cs =>
    match cs with
    | '"' :: rest => some (read, rest)
    | '\\' :: rest => do
      let (c, rest) ← escape rest
      basicFrom steps (c :: read) rest
    | c :: rest => if isControl c then none else basicFrom steps (c :: read) rest
    | [] => none

def literal (cs : List Char) : Option (List Char × List Char) :=
  let text := cs.takeWhile fun c => c ≠ '\'' && !isControl c
  match cs.drop text.length with
  | '\'' :: rest => some (text, rest)
  | _ => none

def skipFolded : (steps : Nat) → List Char → List Char
  | 0, cs => cs
  | steps + 1, cs =>
    let rest := skipBlanks cs
    match lineBreak? rest with
    | some rest => skipFolded steps rest
    | none => rest

/-- What is read at the end of a text over several lines: up to two quotes may stand before the
three that close it. -/
def closeLong (quote : Char) (read : List Char) (cs : List Char) :
    Option (List Char × List Char) :=
  let n := (cs.takeWhile (· = quote)).length
  if n < 3 then none
  else
    let kept := min (n - 3) 2
    some (List.replicate kept quote ++ read, cs.drop (kept + 3))

def longFrom (quote : Char) (escapes : Bool) : (steps : Nat) → List Char → Reader (List Char)
  | 0, _, _ => none
  | steps + 1, read, cs =>
    match closeLong quote read cs with
    | some closed => some closed
    | none =>
      match lineBreak? cs with
      | some rest => longFrom quote escapes steps ('\n' :: read) rest
      | none =>
        match cs with
        | [] => none
        | c :: rest =>
          if escapes ∧ c = '\\' then
            match lineBreak? (skipBlanks rest) with
            | some rest => longFrom quote escapes steps read (skipFolded rest.length rest)
            | none => do
              let (c, rest) ← escape rest
              longFrom quote escapes steps (c :: read) rest
          else if isControl c then none
          else longFrom quote escapes steps (c :: read) rest

def dropFirstBreak (cs : List Char) : List Char := (lineBreak? cs).getD cs

def text : Reader String
  | '"' :: '"' :: '"' :: rest => do
    let (read, rest) ← longFrom '"' true (rest.length + 1) [] (dropFirstBreak rest)
    some (String.ofList read.reverse, rest)
  | '\'' :: '\'' :: '\'' :: rest => do
    let (read, rest) ← longFrom '\'' false (rest.length + 1) [] (dropFirstBreak rest)
    some (String.ofList read.reverse, rest)
  | '"' :: rest => do
    let (read, rest) ← basicFrom (rest.length + 1) [] rest
    some (String.ofList read.reverse, rest)
  | '\'' :: rest => do
    let (text, rest) ← literal rest
    some (String.ofList text, rest)
  | _ => none

end WorkloadSynth.Toml
