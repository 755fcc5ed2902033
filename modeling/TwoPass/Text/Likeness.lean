import TwoPass.Text.Numeral

/-!
# Likeness of texts

How much two texts have in common is measured by matching blocks: the longest common run, then the
longest common runs to its left and to its right, and so on.  Twice the number of matched characters
over the sum of the lengths is the likeness of the two texts, a fraction between zero and one.  It
ranks the names that an error message suggests in place of a misspelt one.  In a long name the
frequent characters start no run; they only lengthen one.
-/

namespace TwoPass.Text

/-- How many characters two texts share from their beginning. -/
def commonStart : Text → Text → Nat
  | a :: left, b :: right => if a = b then commonStart left right + 1 else 0
  | _, _ => 0

/-- A common run: where it starts in either text, and its length. -/
structure CommonRun where
  left : Nat
  right : Nat
  size : Nat
  deriving DecidableEq, Repr

/-- The positions of a character in a text whose first character is at `start`. -/
def positionsFrom (c : CodePoint) : Nat → Text → List Nat
  | _, [] => []
  | start, d :: rest =>
      if d = c then start :: positionsFrom c (start + 1) rest else positionsFrom c (start + 1) rest

/-- A character of the left text, with the positions in the right text that a common run may go
through. -/
structure Mark where
  char : CodePoint
  positions : List Nat
  deriving DecidableEq, Repr

/-- Marks the characters of the left text.  No run goes through a frequent one. -/
def marks (frequent : List CodePoint) (left right : Text) : List Mark :=
  left.map (fun c => ⟨c, if frequent.contains c then [] else positionsFrom c 0 right⟩)

/-- A run that ends at a given position of the right text. -/
structure EndingRun where
  position : Nat
  size : Nat
  deriving DecidableEq, Repr

/-- The runs that end at the given positions, from those that end one character earlier on the left.
Positions ascend in both. -/
def runsEndingAt : List Nat → List EndingRun → List EndingRun
  | [], _ => []
  | position :: later, earlier =>
      match earlier.dropWhile (fun run => run.position + 1 < position) with
      | [] => ⟨position, 1⟩ :: runsEndingAt later []
      | run :: runs =>
          if run.position + 1 = position then ⟨position, run.size + 1⟩ :: runsEndingAt later runs
          else ⟨position, 1⟩ :: runsEndingAt later (run :: runs)

/-- A strictly longer run replaces the best one, so the earliest of the longest is kept.  The right
text starts at position `low`. -/
def betterRun (row low : Nat) (runs : List EndingRun) (best : CommonRun) : CommonRun :=
  runs.foldl
    (fun best run =>
      if best.size < run.size then ⟨row + 1 - run.size, run.position + 1 - run.size - low, run.size⟩
      else best)
    best

/-- Scans the left text row by row for runs through the positions from `low` up to `high`. -/
def scanRuns (low high : Nat) : Nat → List Mark → List EndingRun → CommonRun → CommonRun
  | _, [], _, best => best
  | row, mark :: rest, earlier, best =>
      let inside := (mark.positions.dropWhile (fun i => i < low)).takeWhile (fun i => i < high)
      let runs := runsEndingAt inside earlier
      scanRuns low high (row + 1) rest runs (betterRun row low runs best)

/-- Lengthens a run on both sides over equal characters, frequent or not. -/
def CommonRun.extend (left right : Text) (run : CommonRun) : CommonRun :=
  let before := commonStart (left.take run.left).reverse (right.take run.right).reverse
  let after := commonStart (left.drop (run.left + run.size)) (right.drop (run.right + run.size))
  ⟨run.left - before, run.right - before, before + run.size + after⟩

/-- The longest common run without frequent characters, lengthened.  Without any, the start of both
texts is lengthened instead. -/
def longestRun (low : Nat) (left : List Mark) (right : Text) : CommonRun :=
  (scanRuns low (low + right.length) 0 left [] ⟨0, 0, 0⟩).extend (left.map Mark.char) right

/-- The number of matched characters.  Each block leaves shorter texts on the left, so the length of
the left text bounds the depth. -/
def matchedWithin : Nat → Nat → List Mark → Text → Nat
  | 0, _, _, _ => 0
  | fuel + 1, low, left, right =>
      let run := longestRun low left right
      if run.size = 0 then 0
      else
        run.size
          + matchedWithin fuel low (left.take run.left) (right.take run.right)
          + matchedWithin fuel (low + run.right + run.size) (left.drop (run.left + run.size))
              (right.drop (run.right + run.size))

/-- The characters that make up over a hundredth of a name of two hundred characters or more. -/
def frequentIn (name : Text) : List CodePoint :=
  if name.length < 200 then []
  else name.eraseDups.filter (fun c => name.length / 100 + 1 < name.count c)

/-- The number of characters of `candidate` matched in `name`. -/
def matched (name candidate : Text) : Nat :=
  matchedWithin candidate.length 0 (marks (frequentIn name) candidate name) name

structure Likeness where
  numerator : Nat
  denominator : Nat
  deriving DecidableEq, Repr

/-- The likeness of a candidate to a name; two empty texts are alike. -/
def likeness (name candidate : Text) : Likeness :=
  let total := candidate.length + name.length
  if total = 0 then ⟨1, 1⟩ else ⟨2 * matched name candidate, total⟩

/-- Close enough to suggest: three fifths or more. -/
def Likeness.isClose (l : Likeness) : Bool :=
  3 * l.denominator ≤ 5 * l.numerator

/-- The better suggestion comes first: greater likeness, then greater by code point. -/
def ranksBefore (left right : Likeness × Text) : Bool :=
  let a := left.1.numerator * right.1.denominator
  let b := right.1.numerator * left.1.denominator
  decide (b < a) || (a == b && precedes right.2 left.2)

def closest (limit : Nat) (name : Text) (candidates : List Text) : List Text :=
  let scored := candidates.map (fun candidate => (likeness name candidate, candidate))
  let close := scored.filter (fun entry => entry.1.isClose)
  ((close.mergeSort ranksBefore).take limit).map (fun entry => entry.2)

/-- A message suggests at most three names. -/
def suggestions (name : Text) (candidates : List Text) : List Text :=
  closest 3 name candidates

/-- A limit that allows no suggestion at all is refused. -/
structure LimitNotPositive where
  limit : Int
  deriving DecidableEq, Repr

def LimitNotPositive.message (fault : LimitNotPositive) : Text :=
  "n must be > 0: " ++ ofInt fault.limit

/-- The candidates closest to a name, up to a limit chosen by the caller. -/
def closestUpTo (limit : Int) (name : Text) (candidates : List Text) :
    Except LimitNotPositive (List Text) :=
  if 0 < limit then .ok (closest limit.toNat name candidates) else .error ⟨limit⟩

end TwoPass.Text
