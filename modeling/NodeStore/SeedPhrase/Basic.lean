import NodeStore.Crypto.Sha256
import NodeStore.SeedPhrase.WordList
import NodeStore.Text.Blank
import NodeStore.Text.Letter
import NodeStore.Text.Raw

/-!
# Seed phrases

Entropy of 16, 20, 24, 28 or 32 bytes is written as 12 to 24 words: the entropy and a checksum
of one bit for each four bytes are read as one number, whose digits in base 2048 are the words.
A phrase is accepted in any letter case, with any blanks around its words, and with letters
whose plain form is meant; it is kept in small letters with one space between words.
-/

namespace NodeStore.SeedPhrase

/-- The strengths in bits. -/
def strengths : List Nat := [128, 160, 192, 224, 256]

/-- The sizes of entropy in bytes. -/
def entropySizes : List Nat := strengths.map (· / 8)

/-- The number of words of a strength: one for each eleven bits, checksum included. -/
def wordCount (strength : Nat) : Nat :=
  strength * 3 / 32

/-- The checksum of entropy: the first bits of its hash, one for each four bytes. -/
def checksum (entropy : Bytes) : Nat :=
  ((Sha256.hash entropy).headD 0).toNat / Nat.pow 2 (8 - entropy.length / 4)

/-- The lowest `n` digits of a number in base 2048, the highest of them first. -/
def digits2048 : (n : Nat) → Nat → List Nat
  | 0, _ => []
  | n + 1, x => digits2048 n (x / 2048) ++ [x % 2048]

/-- The numbers of the words of entropy. -/
def wordNumbers (entropy : Bytes) : List Nat :=
  digits2048 (wordCount (8 * entropy.length))
    (entropy.toNat * Nat.pow 2 (entropy.length / 4) + checksum entropy)

/-- The phrase of entropy. -/
def ofEntropy (entropy : Bytes) : String :=
  " ".intercalate ((wordNumbers entropy).map fun i => wordList.getD i "")

/-- The plain form in which a word is looked up. -/
def plainWord (w : String) : String :=
  String.ofList (w.toList.flatMap Text.plain)

/-- The entropy and the checksum of the words with given numbers. -/
def entropyOf (numbers : List Nat) : Bytes × Nat :=
  let n := numbers.foldl (fun n i => n * 2048 + i) 0
  let check := numbers.length / 3
  (Bytes.ofNat (check * 4) (n / Nat.pow 2 check), n % Nat.pow 2 check)

/-- The words are known, their number is one of the five, and the checksum is right. -/
def isValid (ws : List String) : Bool :=
  (strengths.map wordCount).contains ws.length &&
    match ws.mapM (fun w => wordList.idxOf? (plainWord w)) with
    | none => false
    | some numbers =>
      let (entropy, check) := entropyOf numbers
      checksum entropy == check

/-- The words of a phrase in small letters. -/
def wordsOf (phrase : String) : List String :=
  (Text.words phrase).map fun w => String.ofList (w.toList.map Text.lower)

/-- The kept form of a phrase of characters, if it is one. -/
def parseText? (phrase : String) : Option String :=
  let ws := wordsOf phrase
  if isValid ws then some (" ".intercalate ws) else none

/-- The kept form of a phrase, if it is one. No word has a surrogate. -/
def parse? (phrase : RawText) : Option String :=
  phrase.text.toOption.bind parseText?

end NodeStore.SeedPhrase
