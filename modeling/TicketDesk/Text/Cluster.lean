import TicketDesk.Text.Repertoire

/-! # Clusters

A terminal shows a text cluster by cluster: a character together with the marks that belong to it. A
cluster takes no column, one or two. Pictographs joined into one, and a pictograph with a mark that asks
for its picture, take two columns whatever their parts take. -/

namespace TicketDesk.Text

/-- How many columns a character takes on its own. A control character takes one. -/
def charWidth (c : Char) : Nat :=
  if c.toNat < 0xAD then 1
  else if inRanges zeroWidthRanges c.toNat then 0
  else if inRanges wideRanges c.toNat then 2
  else 1

/-- The mark that joins two pictographs. -/
def joiner : Char := Char.ofNat 0x200D

def pictureMark : Char := Char.ofNat 0xFE0F

def isPictograph (c : Char) : Bool := inRanges pictographRanges c.toNat

/-- Whether a character is a skin tone, which belongs to the pictograph before it. -/
def isSkinTone (c : Char) : Bool := 0x1F3FB ≤ c.toNat && c.toNat ≤ 0x1F3FF

def isFlagLetter (c : Char) : Bool := 0x1F1E6 ≤ c.toNat && c.toNat ≤ 0x1F1FF

/-- Whether a character can have a picture: a pictograph, or a sign of a keypad. -/
def hasPicture (c : Char) : Bool :=
  isPictograph c || c.isDigit || c == '#' || c == '*'

/-- The control and format characters, which stand apart from what is around them. -/
def aloneRanges : List (Nat × Nat) :=
  [(0x00, 0x1F), (0x7F, 0x9F), (0xAD, 0xAD), (0x61C, 0x61C), (0x180E, 0x180E), (0x200B, 0x200B),
   (0x200E, 0x200F), (0x2028, 0x202E), (0x2060, 0x206F), (0xFEFF, 0xFEFF), (0xFFF0, 0xFFFB),
   (0x1BCA0, 0x1BCA3), (0x1D173, 0x1D17A), (0xE0000, 0xE001F), (0xE0080, 0xE00FF), (0xE01F0, 0xE0FFF)]

def standsAlone (c : Char) : Bool := inRanges aloneRanges c.toNat

/-- The parts of a Hangul syllable. -/
inductive Jamo where
  | lead
  | vowel
  | tail
  deriving DecidableEq

/-- The parts that a character of Hangul begins and ends with. -/
def jamo? (c : Char) : Option (Jamo × Jamo) :=
  let n := c.toNat
  if n < 0x1100 then none
  else if n < 0x1160 ∨ (0xA960 ≤ n ∧ n ≤ 0xA97C) then some (.lead, .lead)
  else if n < 0x11A8 ∨ (0xD7B0 ≤ n ∧ n ≤ 0xD7C6) then some (.vowel, .vowel)
  else if n < 0x1200 ∨ (0xD7CB ≤ n ∧ n ≤ 0xD7FB) then some (.tail, .tail)
  else if 0xAC00 ≤ n ∧ n ≤ 0xD7A3 then
    some (.lead, if (n - 0xAC00) % 28 = 0 then .vowel else .tail)
  else none

/-- Whether two characters are parts of one Hangul syllable. -/
def joinsSyllable (c d : Char) : Bool :=
  match jamo? c, jamo? d with
  | some (_, .lead), some (.lead, _) => true
  | some (_, .lead), some (.vowel, _) => true
  | some (_, .vowel), some (.vowel, _) => true
  | some (_, .vowel), some (.tail, _) => true
  | some (_, .tail), some (.tail, _) => true
  | _, _ => false

/-- Whether a character is a mark that joins whatever is before it. -/
def isMark (c : Char) : Bool :=
  isSkinTone c || (0xAD < c.toNat && (jamo? c).isNone
    && (inRanges zeroWidthRanges c.toNat || inRanges spacingMarkRanges c.toNat))

/-- Whether the characters before, the last one first, are a pictograph with marks and a joiner. -/
def endsInJoiner : List Char → Bool
  | [] => false
  | c :: cs => c == joiner && ((cs.dropWhile fun d => isMark d && d != joiner).head?.any isPictograph)

/-- Whether a cluster, its last character first, goes on with a character. -/
def goesOn (cluster : List Char) (d : Char) : Bool :=
  match cluster with
  | [] => true
  | c :: _ =>
    if standsAlone c || standsAlone d then c == '\r' && d == '\n'
    else isMark d || joinsSyllable c d || (endsInJoiner cluster && isPictograph d)
      || (isFlagLetter d && (cluster.takeWhile isFlagLetter).length % 2 == 1)

/-- The clusters of a list of characters, after the characters `cluster` of the first one in reverse. -/
def clustersFrom (cluster : List Char) : List Char → List (List Char)
  | [] => if cluster.isEmpty then [] else [cluster.reverse]
  | c :: cs =>
    if goesOn cluster c then clustersFrom (c :: cluster) cs
    else cluster.reverse :: clustersFrom [c] cs

def clusters (s : String) : List (List Char) := clustersFrom [] s.toList

def isPicture : List Char → Bool
  | c :: d :: rest =>
    (hasPicture c && d == pictureMark)
      || (isPictograph c && (isSkinTone d || (d == joiner && rest.any isPictograph)))
  | _ => false

def clusterWidth (cs : List Char) : Nat :=
  if cs = ['\r', '\n'] then 1
  else if isPicture cs then 2
  else cs.foldl (fun n c => n + charWidth c) 0

def width (s : String) : Nat := (clusters s).foldl (fun n c => n + clusterWidth c) 0

end TicketDesk.Text
