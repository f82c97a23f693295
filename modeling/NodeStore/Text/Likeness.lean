/-!
# Likeness of words

Two words are alike if their matched characters are at least three in five of all their
characters. The longest piece that both have is matched first, the earliest of several; then what
stands before it in both, and what stands after it in both.
-/

namespace NodeStore.Text

/-- How many characters two words agree on from their beginnings. -/
def agreement : List Char → List Char → Nat
  | a :: as, b :: bs => if a = b then agreement as bs + 1 else 0
  | _, _ => 0

/-- A piece that two words share: its length, and where it starts in each. -/
structure SharedPiece where
  size : Nat
  left : Nat
  right : Nat

/-- The longest piece that two words share, the earliest of several. -/
def longestShared (a b : List Char) : SharedPiece :=
  let pieces := (List.range a.length).flatMap fun i =>
    (List.range b.length).map fun j => SharedPiece.mk (agreement (a.drop i) (b.drop j)) i j
  pieces.foldl (fun best p => if best.size < p.size then p else best) ⟨0, 0, 0⟩

/-- The number of matched characters. The fuel is the length of the first word at most. -/
def matched : (fuel : Nat) → List Char → List Char → Nat
  | 0, _, _ => 0
  | fuel + 1, a, b =>
    let p := longestShared a b
    if p.size = 0 then 0
    else
      p.size + matched fuel (a.take p.left) (b.take p.right) +
        matched fuel (a.drop (p.left + p.size)) (b.drop (p.right + p.size))

/-- A word and how much of it is matched, as a share of both words' characters. -/
structure Likeness where
  word : String
  matched : Nat
  total : Nat

namespace Likeness

/-- The likeness of a candidate to a word. -/
def of (word candidate : String) : Likeness :=
  let a := candidate.toList
  ⟨candidate, Text.matched a.length a word.toList, a.length + word.length⟩

/-- Alike enough to be meant. -/
def isClose (l : Likeness) : Bool :=
  3 * l.total ≤ 10 * l.matched

/-- Comes first: the closer one, of equally close ones the later in order. -/
def isBefore (l m : Likeness) : Bool :=
  let x := l.matched * m.total
  let y := m.matched * l.total
  y < x || (x == y && m.word ≤ l.word)

end Likeness

/-- The candidates that may have been meant by a word: the closest three at most, closest
first. -/
def closeWords (word : String) (candidates : List String) : List String :=
  let close := (candidates.map (Likeness.of word)).filter Likeness.isClose
  ((close.mergeSort Likeness.isBefore).take 3).map Likeness.word

end NodeStore.Text
