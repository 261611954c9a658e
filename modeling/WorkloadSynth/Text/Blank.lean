/-!
Blank characters, and the text between them.

`isBlank` is the White_Space property of the character standard; zero-width characters and the
information separators are not in it.  `trim` drops blanks from both ends.
-/

set_option autoImplicit false

namespace WorkloadSynth.Text

def isBlank (c : Char) : Bool :=
  let n := c.toNat
  (9 ≤ n && n ≤ 13) || n == 0x20 || n == 0x85 || n == 0xa0 || n == 0x1680 ||
    (0x2000 ≤ n && n ≤ 0x200a) || n == 0x2028 || n == 0x2029 || n == 0x202f || n == 0x205f ||
    n == 0x3000

def trimChars (cs : List Char) : List Char :=
  ((cs.dropWhile isBlank).reverse.dropWhile isBlank).reverse

def trim (s : String) : String := String.ofList (trimChars s.toList)

def isBlankText (s : String) : Bool := s.toList.all isBlank

def lower (s : String) : String := String.ofList (s.toList.map Char.toLower)

/-- The lower-case form of a settings key.  Beside the basic alphabet, the Kelvin sign is the one
character whose small form is a letter that known keys use. -/
def lowerKey (s : String) : String :=
  String.ofList (s.toList.map fun c => if c = '\u212a' then 'k' else c.toLower)

end WorkloadSynth.Text
