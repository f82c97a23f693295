import NodeStore.Bytes

/-!
# Base64

Sealed values are written with the alphabet that is safe in addresses (`-` and `_`) and with
padding. Reading is lenient: it takes either alphabet, skips every other byte, and stops at
complete padding.
-/

namespace NodeStore.Base64

/-- The digit of a number below 64. -/
def digit (n : Nat) : UInt8 :=
  if n < 26 then UInt8.ofNat (65 + n)
  else if n < 52 then UInt8.ofNat (71 + n)
  else if n < 62 then UInt8.ofNat (n - 4)
  else if n = 62 then 0x2d
  else 0x5f

/-- The value of a digit of either alphabet. -/
def value? (b : UInt8) : Option Nat :=
  let n := b.toNat
  if 65 ≤ n ∧ n ≤ 90 then some (n - 65)
  else if 97 ≤ n ∧ n ≤ 122 then some (n - 71)
  else if 48 ≤ n ∧ n ≤ 57 then some (n + 4)
  else if n = 0x2d ∨ n = 0x2b then some 62
  else if n = 0x5f ∨ n = 0x2f then some 63
  else none

/-- The padding byte. -/
def pad : UInt8 := 0x3d

/-- Four digits for each three bytes, the last group padded. -/
def encode : Bytes → Bytes
  | [] => []
  | [a] => [digit (a.toNat / 4), digit (a.toNat % 4 * 16), pad, pad]
  | [a, b] =>
    [digit (a.toNat / 4), digit (a.toNat % 4 * 16 + b.toNat / 16), digit (b.toNat % 16 * 4), pad]
  | a :: b :: c :: rest =>
    digit (a.toNat / 4) :: digit (a.toNat % 4 * 16 + b.toNat / 16) ::
      digit (b.toNat % 16 * 4 + c.toNat / 64) :: digit (c.toNat % 64) :: encode rest

/-- The encoded bytes as text. -/
def encodeText (b : Bytes) : String :=
  String.ofList ((encode b).map fun x => Char.ofNat x.toNat)

/-- The place within a group of four digits, with the bits left over from the digit before. -/
inductive Place where
  | first
  | second (left : Nat)
  | third (left : Nat)
  | fourth (left : Nat)

/-- Padding bytes that complete a group at its place; groups cannot be padded before their third
digit. -/
def Place.missing : Place → Option Nat
  | first => none
  | second _ => none
  | third _ => some 2
  | fourth _ => some 1

/-- Reads on from a place, after `pads` padding bytes since the last digit. A text that ends
inside a group is not accepted. -/
def readFrom (place : Place) (pads : Nat) : Bytes → Option Bytes
  | [] =>
    match place with
    | .first => some []
    | _ => none
  | b :: rest =>
    if b = pad then
      match place.missing with
      | some n => if n ≤ pads + 1 then some [] else readFrom place (pads + 1) rest
      | none => readFrom place pads rest
    else
      match value? b with
      | none => readFrom place pads rest
      | some v =>
        match place with
        | .first => readFrom (.second v) 0 rest
        | .second left =>
          (readFrom (.third (v % 16)) 0 rest).map (UInt8.ofNat (left * 4 + v / 16) :: ·)
        | .third left =>
          (readFrom (.fourth (v % 4)) 0 rest).map (UInt8.ofNat (left * 16 + v / 4) :: ·)
        | .fourth left =>
          (readFrom .first 0 rest).map (UInt8.ofNat (left * 64 + v) :: ·)

/-- The bytes that a text stands for. -/
def decode? (b : Bytes) : Option Bytes :=
  readFrom .first 0 b

end NodeStore.Base64
