import NodeStore.Bytes
import NodeStore.Text.Blank

/-!
# Hex text

Identifiers are stored as lowercase hex. Reading is wider than writing: one leading `0x`, either
letter case, and ASCII blanks before, between and after the digit pairs. A text that does not
read is reported by the position where reading stopped, counted after the `0x`.
-/

namespace NodeStore.Hex

/-- The lowercase digit of a number below 16. -/
def digit (n : UInt8) : Char :=
  if n < 10 then Char.ofNat (48 + n.toNat) else Char.ofNat (87 + n.toNat)

/-- The value of a hex digit of either case. -/
def value? (c : Char) : Option UInt8 :=
  if '0' ≤ c ∧ c ≤ '9' then some (UInt8.ofNat (c.toNat - 48))
  else if 'a' ≤ c ∧ c ≤ 'f' then some (UInt8.ofNat (c.toNat - 87))
  else if 'A' ≤ c ∧ c ≤ 'F' then some (UInt8.ofNat (c.toNat - 55))
  else none

/-- The two digits of a byte. -/
def encodeByte (b : UInt8) : List Char :=
  [digit (b / 16), digit (b % 16)]

/-- Two lowercase digits for each byte. -/
def encode (b : Bytes) : String :=
  String.ofList (b.flatMap encodeByte)

/-- Reads digit pairs, counting positions from `i`. A second digit that is missing is
reported where it should stand. -/
def readPairs (i : Nat) : List Char → Except Nat Bytes
  | [] => .ok []
  | c :: cs =>
    if Text.isAsciiBlank c then readPairs (i + 1) cs
    else match value? c with
      | none => .error i
      | some hi => match cs with
        | [] => .error (i + 1)
        | d :: ds => match value? d with
          | none => .error (i + 1)
          | some lo => (readPairs (i + 2) ds).map ((16 * hi + lo) :: ·)

/-- A text without its leading `0x` or `0X`. -/
def dropMark : List Char → List Char
  | '0' :: 'x' :: cs => cs
  | '0' :: 'X' :: cs => cs
  | cs => cs

/-- Reads digit pairs. A character outside ASCII is reported before any other fault. -/
def decodePairs (cs : List Char) : Except Nat Bytes :=
  match cs.findIdx? (fun c => 128 ≤ c.toNat) with
  | some i => .error i
  | none => readPairs 0 cs

/-- The bytes that a hex text stands for, or the position of its first fault. -/
def decode (s : String) : Except Nat Bytes :=
  decodePairs (dropMark s.toList)

/-- The bytes that a hex text stands for. -/
def decode? (s : String) : Option Bytes :=
  (decode s).toOption

end NodeStore.Hex
