import NodeStore.Bytes

/-!
# AES with 128-bit keys

The block cipher on blocks of sixteen bytes, column after column, and its chaining mode with
the padding that fills the last block. Decryption undoes the steps of encryption in reverse.
-/

namespace NodeStore.Aes

/-- The substitution of the byte step. -/
def substitution : Array UInt8 :=
  #[0x63, 0x7c, 0x77, 0x7b, 0xf2, 0x6b, 0x6f, 0xc5, 0x30, 0x01, 0x67, 0x2b, 0xfe, 0xd7, 0xab, 0x76,
    0xca, 0x82, 0xc9, 0x7d, 0xfa, 0x59, 0x47, 0xf0, 0xad, 0xd4, 0xa2, 0xaf, 0x9c, 0xa4, 0x72, 0xc0,
    0xb7, 0xfd, 0x93, 0x26, 0x36, 0x3f, 0xf7, 0xcc, 0x34, 0xa5, 0xe5, 0xf1, 0x71, 0xd8, 0x31, 0x15,
    0x04, 0xc7, 0x23, 0xc3, 0x18, 0x96, 0x05, 0x9a, 0x07, 0x12, 0x80, 0xe2, 0xeb, 0x27, 0xb2, 0x75,
    0x09, 0x83, 0x2c, 0x1a, 0x1b, 0x6e, 0x5a, 0xa0, 0x52, 0x3b, 0xd6, 0xb3, 0x29, 0xe3, 0x2f, 0x84,
    0x53, 0xd1, 0x00, 0xed, 0x20, 0xfc, 0xb1, 0x5b, 0x6a, 0xcb, 0xbe, 0x39, 0x4a, 0x4c, 0x58, 0xcf,
    0xd0, 0xef, 0xaa, 0xfb, 0x43, 0x4d, 0x33, 0x85, 0x45, 0xf9, 0x02, 0x7f, 0x50, 0x3c, 0x9f, 0xa8,
    0x51, 0xa3, 0x40, 0x8f, 0x92, 0x9d, 0x38, 0xf5, 0xbc, 0xb6, 0xda, 0x21, 0x10, 0xff, 0xf3, 0xd2,
    0xcd, 0x0c, 0x13, 0xec, 0x5f, 0x97, 0x44, 0x17, 0xc4, 0xa7, 0x7e, 0x3d, 0x64, 0x5d, 0x19, 0x73,
    0x60, 0x81, 0x4f, 0xdc, 0x22, 0x2a, 0x90, 0x88, 0x46, 0xee, 0xb8, 0x14, 0xde, 0x5e, 0x0b, 0xdb,
    0xe0, 0x32, 0x3a, 0x0a, 0x49, 0x06, 0x24, 0x5c, 0xc2, 0xd3, 0xac, 0x62, 0x91, 0x95, 0xe4, 0x79,
    0xe7, 0xc8, 0x37, 0x6d, 0x8d, 0xd5, 0x4e, 0xa9, 0x6c, 0x56, 0xf4, 0xea, 0x65, 0x7a, 0xae, 0x08,
    0xba, 0x78, 0x25, 0x2e, 0x1c, 0xa6, 0xb4, 0xc6, 0xe8, 0xdd, 0x74, 0x1f, 0x4b, 0xbd, 0x8b, 0x8a,
    0x70, 0x3e, 0xb5, 0x66, 0x48, 0x03, 0xf6, 0x0e, 0x61, 0x35, 0x57, 0xb9, 0x86, 0xc1, 0x1d, 0x9e,
    0xe1, 0xf8, 0x98, 0x11, 0x69, 0xd9, 0x8e, 0x94, 0x9b, 0x1e, 0x87, 0xe9, 0xce, 0x55, 0x28, 0xdf,
    0x8c, 0xa1, 0x89, 0x0d, 0xbf, 0xe6, 0x42, 0x68, 0x41, 0x99, 0x2d, 0x0f, 0xb0, 0x54, 0xbb, 0x16]

/-- The substitution of a byte. -/
def substitute (b : UInt8) : UInt8 :=
  substitution.getD b.toNat 0

/-- The inverse substitution, read off the substitution. -/
def inverseSubstitution : Array UInt8 :=
  (List.range 256).foldl
    (fun t i => t.setIfInBounds (substitute (UInt8.ofNat i)).toNat (UInt8.ofNat i))
    (Array.replicate 256 0)

/-- The byte that a substituted byte came from. -/
def unsubstitute (b : UInt8) : UInt8 :=
  inverseSubstitution.getD b.toNat 0

/-- The product with `x` in the field of 256 elements. -/
def double (b : UInt8) : UInt8 :=
  (b <<< 1) ^^^ (if b &&& 0x80 = 0 then 0 else 0x1b)

/-- The product of a byte with a number below 16. -/
def times (n : Nat) (b : UInt8) : UInt8 :=
  let d := double b
  let q := double d
  let e := double q
  (if n.testBit 0 then b else 0) ^^^ (if n.testBit 1 then d else 0) ^^^
    (if n.testBit 2 then q else 0) ^^^ (if n.testBit 3 then e else 0)

/-- The first word of the round key that follows one with a given last word. -/
def firstWord (constant : UInt8) (first last : Bytes) : Bytes :=
  let turned := (last.drop 1 ++ last.take 1).map substitute
  Bytes.xor (Bytes.xor first turned) [constant, 0, 0, 0]

/-- The round keys that follow a round key: `n` of them, the first with the given constant. -/
def furtherKeys : (n : Nat) → (constant : UInt8) → Bytes → List Bytes
  | 0, _, _ => []
  | n + 1, constant, key =>
    let w0 := firstWord constant (key.take 4) (key.drop 12)
    let w1 := Bytes.xor ((key.drop 4).take 4) w0
    let w2 := Bytes.xor ((key.drop 8).take 4) w1
    let w3 := Bytes.xor (key.drop 12) w2
    let next := w0 ++ w1 ++ w2 ++ w3
    next :: furtherKeys n (double constant) next

/-- The eleven round keys of a key. -/
def roundKeys (key : Bytes) : List Bytes :=
  key :: furtherKeys 10 1 key

/-- Row `r` of the block moves `r` places to the left. -/
def shiftRows : Bytes → Bytes
  | [a0, a1, a2, a3, b0, b1, b2, b3, c0, c1, c2, c3, d0, d1, d2, d3] =>
    [a0, b1, c2, d3, b0, c1, d2, a3, c0, d1, a2, b3, d0, a1, b2, c3]
  | b => b

/-- Row `r` of the block moves `r` places to the right. -/
def unshiftRows : Bytes → Bytes
  | [a0, a1, a2, a3, b0, b1, b2, b3, c0, c1, c2, c3, d0, d1, d2, d3] =>
    [a0, d1, c2, b3, b0, a1, d2, c3, c0, b1, a2, d3, d0, c1, b2, a3]
  | b => b

/-- Multiplies each column with the circulant matrix of a first row. -/
def mixColumns (p q r s : Nat) : Bytes → Bytes
  | a :: b :: c :: d :: rest =>
    (times p a ^^^ times q b ^^^ times r c ^^^ times s d) ::
      (times s a ^^^ times p b ^^^ times q c ^^^ times r d) ::
      (times r a ^^^ times s b ^^^ times p c ^^^ times q d) ::
      (times q a ^^^ times r b ^^^ times s c ^^^ times p d) :: mixColumns p q r s rest
  | b => b

/-- The rounds after the first key; the last one does not mix. -/
def encryptRounds : List Bytes → Bytes → Bytes
  | [], b => b
  | [k], b => Bytes.xor (shiftRows (b.map substitute)) k
  | k :: ks, b => encryptRounds ks (Bytes.xor (mixColumns 2 3 1 1 (shiftRows (b.map substitute))) k)

/-- The rounds undone, with the keys before the last one in reverse. -/
def decryptRounds : List Bytes → Bytes → Bytes
  | [], b => b
  | [k], b => Bytes.xor ((unshiftRows b).map unsubstitute) k
  | k :: ks, b =>
    decryptRounds ks (mixColumns 14 11 13 9 (Bytes.xor ((unshiftRows b).map unsubstitute) k))

/-- Encrypts a block. -/
def encryptBlock (keys : List Bytes) (b : Bytes) : Bytes :=
  match keys with
  | [] => b
  | k :: ks => encryptRounds ks (Bytes.xor b k)

/-- Decrypts a block, with the keys in reverse. -/
def decryptBlock (keys : List Bytes) (b : Bytes) : Bytes :=
  match keys with
  | [] => b
  | k :: ks => decryptRounds ks (Bytes.xor b k)

/-! ## Chaining -/

/-- Fills the last block with bytes that tell their number; there is always at least one. -/
def pad (b : Bytes) : Bytes :=
  let n := 16 - b.length % 16
  b ++ List.replicate n (UInt8.ofNat n)

/-- What was filled up. -/
def unpad? (b : Bytes) : Option Bytes :=
  match b.getLast? with
  | none => none
  | some last =>
    let n := last.toNat
    if 1 ≤ n ∧ n ≤ 16 ∧ b.drop (b.length - n) = List.replicate n last ∧ n ≤ b.length then
      some (b.take (b.length - n))
    else none

/-- Encrypts a number of blocks, each combined with the encrypted one before it. -/
def chainEncrypt (keys : List Bytes) : (blocks : Nat) → (previous b : Bytes) → Bytes
  | 0, _, _ => []
  | n + 1, previous, b =>
    let c := encryptBlock keys (Bytes.xor (b.take 16) previous)
    c ++ chainEncrypt keys n c (b.drop 16)

/-- Decrypts a number of blocks, with the keys in reverse. -/
def chainDecrypt (keys : List Bytes) : (blocks : Nat) → (previous b : Bytes) → Bytes
  | 0, _, _ => []
  | n + 1, previous, b =>
    let c := b.take 16
    Bytes.xor (decryptBlock keys c) previous ++ chainDecrypt keys n c (b.drop 16)

/-- Encrypts a message under a key of sixteen bytes, starting from a vector of sixteen bytes. -/
def encrypt (key vector msg : Bytes) : Bytes :=
  let b := pad msg
  chainEncrypt (roundKeys key) (b.length / 16) vector b

/-- Decrypts a message; only whole blocks that end in padding are accepted. -/
def decrypt? (key vector msg : Bytes) : Option Bytes :=
  if msg.length % 16 = 0 then
    unpad? (chainDecrypt (roundKeys key).reverse (msg.length / 16) vector msg)
  else none

end NodeStore.Aes
