import NodeStore.Proofs.Hex.Faults
import NodeStore.Proofs.Store.Peers

/-! # Spellings of identifiers

An identifier is kept as hex text and may be handed over in many spellings. Which texts are
spellings and what they stand for, and what is reported of every other text, is said by characters
and positions alone. A public key that is accepted is kept in the one spelling that the check
itself gives for its bytes.

* `publicKey_canonical`: what is kept of a key is kept again as it is;
* `publicKey_eq_iff`: two keys are kept alike exactly if they stand for the same bytes;
* `identifiers_read_exactly`: reading, writing and the keys. -/

namespace NodeStore.Identifiers

open Hex Store

variable {s t k l : String} {v : Value} {b : Bytes}

/-! ## Public keys -/

/-- What is kept of a key is kept again as it is. -/
theorem publicKey_canonical (h : RowCheck.publicKey v = .ok k) :
    RowCheck.publicKey (.text k) = .ok k := by
  cases v with
  | text s =>
    obtain ⟨b, hb, -, rfl⟩ := publicKey_iff.1 h
    exact publicKey_encode hb
  | blob b => simp [RowCheck.publicKey] at h
  | other kind => simp [RowCheck.publicKey] at h

/-- Two keys are kept alike exactly if they stand for the same bytes. -/
theorem publicKey_eq_iff (hs : RowCheck.publicKey (.text s) = .ok k)
    (ht : RowCheck.publicKey (.text t) = .ok l) :
    ∃ b b', decode? s = some b ∧ decode? t = some b' ∧ (k = l ↔ b = b') := by
  obtain ⟨b, -, hspells, rfl⟩ := publicKey_iff.1 hs
  obtain ⟨b', -, hspells', rfl⟩ := publicKey_iff.1 ht
  refine ⟨b, b', decode?_iff.2 hspells, decode?_iff.2 hspells', ?_⟩
  constructor
  · exact encode_injective
  · intro hsame
    rw [hsame]

/-! ## Reading, writing and the keys -/

/-- A digit is one of sixteen characters in either case and a blank one of six. A text is read
exactly if digit pairs are left without its mark, with blanks before, between and after them, and
every other text is reported by the position of its fault. What is written is read, also in
capitals and with a mark. A key is kept in one spelling for its bytes, which is kept again. -/
theorem identifiers_read_exactly :
    (∀ c, value? c = (alphabet.idxOf? c.toLower).map UInt8.ofNat) ∧
    (∀ c, Text.isAsciiBlank c = true ↔ c ∈ [' ', '\t', '\n', '\x0b', '\x0c', '\r']) ∧
    (∀ s b, decode? s = some b ↔ ∃ rest, Unmarked s.toList rest ∧ Pairs rest b) ∧
    (∀ s, decode? s = none ↔ ∃ i, decode s = .error i) ∧
    (∀ s i, decode s = .error i ↔ ∃ rest, Unmarked s.toList rest ∧ FaultAt rest i) ∧
    (∀ b, decode (encode b) = .ok b) ∧
    (∀ s b, s.toLower = encode b ∨ s.toLower = "0x" ++ encode b → decode s = .ok b) ∧
    (∀ v k, RowCheck.publicKey v = .ok k → RowCheck.publicKey (.text k) = .ok k) ∧
    ∀ s t k l, RowCheck.publicKey (.text s) = .ok k → RowCheck.publicKey (.text t) = .ok l →
      ∃ b b', decode? s = some b ∧ decode? t = some b' ∧ (k = l ↔ b = b') := by
  refine ⟨value?_eq, fun _ => isAsciiBlank_iff, ?_, ?_, fun _ _ => decode_eq_error_iff, ?_,
    fun _ _ => decode_of_toLower, fun _ _ => publicKey_canonical, fun _ _ _ _ => publicKey_eq_iff⟩
  · intro s b
    exact toOption_eq_some_iff.trans decode_eq_ok_iff
  · intro s
    unfold decode?
    cases decode s with
    | ok b => simp [Except.toOption]
    | error i => simp [Except.toOption]
  · intro b
    exact toOption_eq_some_iff.1 (decode?_encode b)

/-- A key as it is kept. -/
def plainKey : String := "02" ++ String.ofList (List.replicate 64 'a')

/-- The key in capitals with a mark. -/
def markedKey : String := "0X02" ++ String.ofList (List.replicate 64 'A')

/-- The key with a blank after its first byte. -/
def spacedKey : String := "02 " ++ String.ofList (List.replicate 64 'a')

/-- Capitals with a mark are read, a pair without its second digit is reported behind its first one,
and a key that is handed over in two spellings is kept alike. -/
theorem respelled_keys_are_kept_alike :
    "0X00aBFf".toLower = "0x" ++ encode [0x00, 0xab, 0xff] ∧
    decode "0X00aBFf" = .ok [0x00, 0xab, 0xff] ∧
    decode "0xab c" = .error 4 ∧
    (∃ rest, Unmarked "0xab c".toList rest ∧ FaultAt rest 4) ∧
    RowCheck.publicKey (.text markedKey) = .ok plainKey ∧
    RowCheck.publicKey (.text plainKey) = .ok plainKey ∧
    RowCheck.publicKey (.text spacedKey) = .ok plainKey ∧
    decode? markedKey = decode? spacedKey := by
  obtain ⟨-, -, -, -, hfault, -, hcase, hkept, halike⟩ := identifiers_read_exactly
  have hlower : "0X00aBFf".toLower = "0x" ++ encode [0x00, 0xab, 0xff] := by decide +kernel
  have hbroken : decode "0xab c" = .error 4 := by decide +kernel
  have hmarked : RowCheck.publicKey (.text markedKey) = .ok plainKey := by decide +kernel
  have hspaced : RowCheck.publicKey (.text spacedKey) = .ok plainKey := by decide +kernel
  obtain ⟨b, b', hb, hb', hsame⟩ := halike _ _ _ _ hmarked hspaced
  refine ⟨hlower, hcase _ _ (Or.inr hlower), hbroken, (hfault _ _).1 hbroken, hmarked,
    hkept _ _ hmarked, hspaced, ?_⟩
  rw [hb, hb', hsame.1 rfl]

end NodeStore.Identifiers
