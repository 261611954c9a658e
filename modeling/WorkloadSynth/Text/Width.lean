import WorkloadSynth.Text.Attached
import WorkloadSynth.Text.Emoji
import WorkloadSynth.Text.Wide

/-!
How many columns a line takes where every letter has the same width.

A character takes no column, one or two, but not always by itself: pictures join into one, a
selector changes how wide a sign is, and in some scripts letters become one ligature.  So a line is
read from its end, and a `Context` keeps what stands to the right of a character as far as that
matters.  `width` adds up what each character takes; one that joins what was already counted may
take something back.
-/

set_option autoImplicit false

namespace WorkloadSynth.Text.Width

/-! ### What stands to the right -/

inductive LigaturePart where
  | hebrewLamed
  | bugineseYa
  | bugineseVowelYa
  | tifinaghConsonant
  | tifinaghJoined
  | lisuTone
  | turkicI
  | khmerLetter
deriving DecidableEq, Repr

/-- What stands to the right of a character, as far as its width depends on it.  In the `joined` cases a
joiner comes first; of the letters of a flag there may be one, an even number or a greater odd one. -/
inductive Neighbour where
  | plain
  | arabicAlef
  | ligature (part : LigaturePart) (joined : Bool)
  | picture
  | skinTone
  | flagLetter
  | flagLetters
  | joinedPicture
  | joinedKeycap
  | joinedLetter
  | joinedEven
  | joinedOdd
  | joinedTag (letters : Nat)
  | joinedTagDigits (digits : Nat)
  | kiratVowelE
  | kiratVowelAi
deriving DecidableEq, Repr

/-- A neighbour, and the selectors that stand before it. -/
structure Context where
  neighbour : Neighbour
  asPicture : Bool
  asSign : Bool
deriving DecidableEq, Repr

namespace Neighbour

def isLigature : Neighbour → Bool
  | arabicAlef | ligature .. => true
  | _ => false

def isJoined : Neighbour → Bool
  | joinedPicture | joinedKeycap => true
  | _ => false

def context (n : Neighbour) : Context := ⟨n, false, false⟩

end Neighbour

namespace Context

def atEnd : Context := Neighbour.plain.context

def selectPicture (k : Context) : Context :=
  if k.neighbour.isLigature ∨ k.neighbour.isJoined then { k with asPicture := true }
  else ⟨.plain, true, false⟩

def selectSign (k : Context) : Context :=
  if k.neighbour.isLigature then { k with asSign := true } else ⟨.plain, false, true⟩

def dropPicture (k : Context) : Context :=
  if ¬ k.asPicture then k
  else if k.neighbour.isLigature then { k with asPicture := false }
  else atEnd

end Context

/-! ### Classes of characters -/

def between (low high n : Nat) : Bool := low ≤ n && n ≤ high

def isJoiner (n : Nat) : Bool := n = 0x200d

def isFlagLetter (n : Nat) : Bool := between 0x1f1e6 0x1f1ff n

def isSkinTone (n : Nat) : Bool := between 0x1f3fb 0x1f3ff n

def isWithinLigature (n : Nat) : Bool :=
  n = 0x34f || between 0x17b4 0x17b5 n || between 0x180b 0x180d n || n = 0x180f ||
    between 0xfe00 0xfe0f n || between 0xe0100 0xe01ef n

def isArabicLam (n : Nat) : Bool :=
  n ∈ [0x644, 0x76a, 0x8a6, 0x8c7] || between 0x6b5 0x6b8 n

def isArabicAlef (n : Nat) : Bool :=
  between 0x622 0x623 n || n ∈ [0x625, 0x627, 0x675] || between 0x671 0x673 n ||
    between 0x773 0x774 n || between 0x870 0x882 n

def isKhmerLetter (n : Nat) : Bool :=
  between 0x1780 0x17af n &&
    n ∉ [0x1783, 0x1788, 0x178d, 0x1794, 0x1799, 0x179a, 0x179e, 0x179f, 0x17a1, 0x17a3, 0x17a4,
      0x17a5, 0x17a6, 0x17a8, 0x17a9, 0x17aa, 0x17ad, 0x17ae]

def isTifinaghConsonant (n : Nat) : Bool := between 0x2d31 0x2d65 n || n = 0x2d6f

/-! ### Widths -/

def charWidth (c : Char) : Nat :=
  if c.toNat = 0x17d8 then 3
  else if isAttached c then 0
  else if isWide c then 2
  else 1

def neighbourOf (c : Char) : Neighbour :=
  let n := c.toNat
  if n = 0x5dc then .ligature .hebrewLamed false
  else if isArabicAlef n then .arabicAlef
  else if isKhmerLetter n then .ligature .khmerLetter false
  else if n = 0x1a10 then .ligature .bugineseYa false
  else if isTifinaghConsonant n then .ligature .tifinaghConsonant false
  else if between 0xa4fc 0xa4fd n then .ligature .lisuTone false
  else if n = 0x10c03 then .ligature .turkicI false
  else if n = 0x16d67 then .kiratVowelE
  else if n = 0x16d68 then .kiratVowelAi
  else if isFlagLetter n then .flagLetter
  else if isSkinTone n then .skinTone
  else if isPicture c then .picture
  else .plain

def alone (c : Char) : Int × Context :=
  let n := c.toNat
  if n = 0xfe0f then (0, Context.atEnd.selectPicture)
  else if n = 0xfe0e then (0, Context.atEnd.selectSign)
  else (charWidth c, (neighbourOf c).context)

def ligate (n : Nat) (part : LigaturePart) (joined : Bool) : Option (Int × Neighbour) :=
  match part with
  | .hebrewLamed => if joined ∧ n = 0x5d0 then some (0, .plain) else none
  | .khmerLetter => if n = 0x17d2 then some (-1, .plain) else none
  | .bugineseYa =>
    if joined ∧ n = 0x1a17 then some (0, .ligature .bugineseVowelYa true) else none
  | .bugineseVowelYa => if n = 0x1a15 then some (0, .plain) else none
  | .tifinaghConsonant =>
    if n = 0x2d7f then some (1, .ligature .tifinaghJoined true)
    else if joined ∧ isTifinaghConsonant n then some (0, .plain)
    else none
  | .tifinaghJoined => if isTifinaghConsonant n then some (-1, .plain) else none
  | .lisuTone => if between 0xa4f8 0xa4fb n then some (0, .plain) else none
  | .turkicI => if joined ∧ n = 0x10c32 then some (0, .plain) else none

def joinPicture (c : Char) : Option (Int × Neighbour) :=
  let n := c.toNat
  if n = 0x20e3 then some (0, .joinedKeycap)
  else if isFlagLetter n then some (1, .joinedLetter)
  else if isSkinTone n then some (0, .skinTone)
  else if n = 0xe007f then some (0, .joinedTag 0)
  else if isPicture c then some (0, .picture)
  else none

def joinTag (n : Nat) (letters : Nat) : Option (Int × Neighbour) :=
  if letters < 6 ∧ between 0xe0061 0xe007a n then some (0, .joinedTag (letters + 1))
  else if letters < 5 ∧ between 0xe0030 0xe0039 n then some (0, .joinedTagDigits 1)
  else if 3 ≤ letters ∧ n = 0x1f3f4 then some (0, .picture)
  else none

def join (c : Char) (neighbour : Neighbour) : Option (Int × Neighbour) :=
  let n := c.toNat
  match neighbour with
  | .plain | .joinedKeycap => none
  | .arabicAlef =>
    if isArabicLam n then some (0, .plain)
    else if isSeenThrough c then some (0, .arabicAlef)
    else none
  | .ligature part joined => ligate n part joined
  | .picture => if isJoiner n then some (0, .joinedPicture) else none
  | .skinTone =>
    if takesTone c then some (0, .picture)
    else if isJoiner n then some (0, .joinedPicture)
    else none
  | .flagLetter => if isFlagLetter n then some (1, .flagLetters) else none
  | .flagLetters =>
    if isFlagLetter n then some (1, .flagLetters)
    else if isJoiner n then some (0, .joinedPicture)
    else none
  | .joinedPicture => joinPicture c
  | .joinedLetter => if isFlagLetter n then some (-1, .joinedEven) else none
  | .joinedEven =>
    if isFlagLetter n then some (3, .joinedOdd)
    else if isJoiner n then some (0, .joinedPicture)
    else none
  | .joinedOdd =>
    if isFlagLetter n then some (-1, .joinedEven)
    else if isJoiner n then some (0, .joinedPicture)
    else none
  | .joinedTag letters => joinTag n letters
  | .joinedTagDigits digits =>
    if digits < 3 ∧ between 0xe0030 0xe0039 n then some (0, .joinedTagDigits (digits + 1))
    else if digits = 3 ∧ n = 0x1f3f4 then some (0, .picture)
    else none
  | .kiratVowelE =>
    if n = 0x16d63 ∨ n = 0x16d69 then some (0, .plain)
    else if n = 0x16d67 then some (0, .kiratVowelAi)
    else if n = 0x16d68 then some (1, .kiratVowelE)
    else none
  | .kiratVowelAi => if n = 0x16d63 then some (0, .plain) else none

/-- What a character takes beside its neighbour, once no selector is between them. -/
def beside (c : Char) (neighbour : Neighbour) : Int × Context :=
  match neighbour with
  | .ligature part _ =>
    if isJoiner c.toNat then (0, (Neighbour.ligature part true).context)
    else if isWithinLigature c.toNat then (0, neighbour.context)
    else joinOrAlone
  | _ => joinOrAlone
where
  joinOrAlone : Int × Context :=
    match join c neighbour with
    | some (taken, n) => (taken, n.context)
    | none => alone c

/-- What a character takes in its context, and the context it makes in turn. -/
def inContext (c : Char) (k : Context) : Int × Context :=
  if k.asPicture ∧ hasTwoStyles c then
    (if k.neighbour.isJoined then 0 else 2, Neighbour.picture.context)
  else if c.toNat ≤ 0xa0 then (1, .atEnd)
  else
    let k := k.dropPicture
    if c.toNat = 0xfe0f then (0, k.selectPicture)
    else if c.toNat = 0xfe0e then (0, k.selectSign)
    else if k.asSign ∧ canBePlain c then (1, .atEnd)
    else beside c k.neighbour

/-- What the characters of a line take together, and the context they make for one before them. -/
def total : List Char → Int × Context
  | [] => (0, .atEnd)
  | c :: rest =>
    let (sum, k) := total rest
    let (taken, k) := inContext c k
    (sum + taken, k)

end WorkloadSynth.Text.Width

namespace WorkloadSynth.Text

def width (line : String) : Nat := (Width.total line.toList).1.toNat

end WorkloadSynth.Text
