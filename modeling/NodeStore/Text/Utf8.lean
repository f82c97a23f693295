import NodeStore.Bytes
import NodeStore.Text.Digit
import NodeStore.Text.Quoted

/-!
# UTF-8

`encode` writes every character in its shortest form, and `decode` accepts exactly those forms.
A byte string that is not UTF-8 is reported by the bytes of the longest acceptable beginning of
the sequence that fails: where it starts, how many bytes it has, and why it stops there.
-/

namespace NodeStore.Utf8

/-- Why a sequence of bytes is not a character. -/
inductive Reason where
  | invalidStart
  | invalidContinuation
  | unexpectedEnd
deriving DecidableEq, Repr

/-- A sequence that is not a character: `size` bytes from `start`, beginning with `byte`. -/
structure Fault where
  byte : UInt8
  start : Nat
  size : Nat
  reason : Reason
deriving DecidableEq, Repr

/-- The wording of a reason. -/
def Reason.message : Reason → String
  | invalidStart => "invalid start byte"
  | invalidContinuation => "invalid continuation byte"
  | unexpectedEnd => "unexpected end of data"

/-- The wording of a fault: one byte is shown, of several only the place is told. -/
def Fault.message (f : Fault) : String :=
  let place :=
    if f.size = 1 then
      "byte 0x" ++ String.ofList (Text.hexPadded 2 f.byte.toNat) ++ " in position " ++
        Text.decimal f.start
    else
      "bytes in position " ++ Text.decimal f.start ++ "-" ++
        Text.decimal (f.start + f.size - 1)
  "'utf-8' codec can't decode " ++ place ++ ": " ++ f.reason.message

/-- The bytes of a character. -/
def encodeChar (c : Char) : Bytes :=
  let n := c.toNat
  if n < 0x80 then [UInt8.ofNat n]
  else if n < 0x800 then [UInt8.ofNat (0xc0 + n / 0x40), UInt8.ofNat (0x80 + n % 0x40)]
  else if n < 0x10000 then
    [UInt8.ofNat (0xe0 + n / 0x1000), UInt8.ofNat (0x80 + n / 0x40 % 0x40),
      UInt8.ofNat (0x80 + n % 0x40)]
  else
    [UInt8.ofNat (0xf0 + n / 0x40000), UInt8.ofNat (0x80 + n / 0x1000 % 0x40),
      UInt8.ofNat (0x80 + n / 0x40 % 0x40), UInt8.ofNat (0x80 + n % 0x40)]

/-- The bytes of a list of characters. -/
def encodeChars (cs : List Char) : Bytes :=
  cs.flatMap encodeChar

/-- The bytes of a text. -/
def encode (s : String) : Bytes :=
  encodeChars s.toList

/-- A byte that continues a sequence. -/
def isContinuation (b : UInt8) : Bool :=
  0x80 ≤ b && b < 0xc0

/-- The second byte of a sequence is bounded further where the first alone does not rule out an
overlong form, a surrogate or a number above the last code point. -/
def isSecond (first b : UInt8) : Bool :=
  isContinuation b &&
    !((first == 0xe0 && b < 0xa0) || (first == 0xed && 0xa0 ≤ b) ||
      (first == 0xf0 && b < 0x90) || (first == 0xf4 && 0x90 ≤ b))

/-- The six bits that a continuation byte carries. -/
def payload (b : UInt8) : Nat :=
  b.toNat % 0x40

/-- Decodes bytes that stand from position `pos` on. -/
def decodeFrom (pos : Nat) : Bytes → Except Fault (List Char)
  | [] => .ok []
  | a :: rest =>
    if a < 0x80 then (decodeFrom (pos + 1) rest).map (Char.ofNat a.toNat :: ·)
    else if a < 0xc2 ∨ 0xf4 < a then .error ⟨a, pos, 1, .invalidStart⟩
    else match rest with
      | [] => .error ⟨a, pos, 1, .unexpectedEnd⟩
      | b :: rest =>
        if !isSecond a b then .error ⟨a, pos, 1, .invalidContinuation⟩
        else if a < 0xe0 then
          (decodeFrom (pos + 2) rest).map
            (Char.ofNat (a.toNat % 0x20 * 0x40 + payload b) :: ·)
        else match rest with
          | [] => .error ⟨a, pos, 2, .unexpectedEnd⟩
          | c :: rest =>
            if !isContinuation c then .error ⟨a, pos, 2, .invalidContinuation⟩
            else if a < 0xf0 then
              (decodeFrom (pos + 3) rest).map
                (Char.ofNat (a.toNat % 0x10 * 0x1000 + payload b * 0x40 + payload c) :: ·)
            else match rest with
              | [] => .error ⟨a, pos, 3, .unexpectedEnd⟩
              | d :: rest =>
                if !isContinuation d then .error ⟨a, pos, 3, .invalidContinuation⟩
                else
                  (decodeFrom (pos + 4) rest).map
                    (Char.ofNat (a.toNat % 0x08 * 0x40000 + payload b * 0x1000 +
                      payload c * 0x40 + payload d) :: ·)

/-- The characters of a byte string. -/
def decodeChars (b : Bytes) : Except Fault (List Char) :=
  decodeFrom 0 b

/-- The text of a byte string. -/
def decode (b : Bytes) : Except Fault String :=
  (decodeChars b).map String.ofList

/-- The replacement character. -/
def replacement : Char := Char.ofNat 0xfffd

/-- Decodes bytes with the replacement character for every sequence that is none. The fuel is the
number of faults at most. -/
def decodeReplacing : (fuel : Nat) → Bytes → List Char
  | 0, _ => []
  | fuel + 1, b =>
    match decodeChars b with
    | .ok cs => cs
    | .error f =>
      ((decodeChars (b.take f.start)).toOption.getD []) ++
        replacement :: decodeReplacing fuel (b.drop (f.start + f.size))

/-- What is shown of a byte string. -/
def shown (b : Bytes) : String :=
  String.ofList (decodeReplacing (b.length + 1) b)

end NodeStore.Utf8
