import NodeStore.Base64
import NodeStore.Proofs.Text.Utf8

/-! # Base64 is read as it was written

* `decode?_encode`: what was encoded is decoded again;
* `decode?_encodeText`: also from the text that it is written as;
* `encodeText_chars`: a written text has letters, digits, `-`, `_` and `=` only.
-/

namespace NodeStore.Base64

/-! ## Digits -/

theorem value?_digit {n : Nat} (h : n < 64) : value? (digit n) = some n ∧ digit n ≠ pad := by
  have hall : ∀ i : Fin 64, value? (digit i) = some i.val ∧ digit i ≠ pad := by
    decide +kernel
  exact hall ⟨n, h⟩

section Read

variable {n left : Nat} (h : n < 64) (pads : Nat) (rest : Bytes)
include h

theorem readFrom_first :
    readFrom .first pads (digit n :: rest) = readFrom (.second n) 0 rest := by
  simp only [readFrom, value?_digit h, if_false]

theorem readFrom_second :
    readFrom (.second left) pads (digit n :: rest) =
      (readFrom (.third (n % 16)) 0 rest).map (UInt8.ofNat (left * 4 + n / 16) :: ·) := by
  simp only [readFrom, value?_digit h, if_false]

theorem readFrom_third :
    readFrom (.third left) pads (digit n :: rest) =
      (readFrom (.fourth (n % 4)) 0 rest).map (UInt8.ofNat (left * 16 + n / 4) :: ·) := by
  simp only [readFrom, value?_digit h, if_false]

theorem readFrom_fourth :
    readFrom (.fourth left) pads (digit n :: rest) =
      (readFrom .first 0 rest).map (UInt8.ofNat (left * 64 + n) :: ·) := by
  simp only [readFrom, value?_digit h, if_false]

end Read

theorem readFrom_third_pad (left : Nat) : readFrom (.third left) 0 [pad, pad] = some [] := rfl

theorem readFrom_fourth_pad (left : Nat) : readFrom (.fourth left) 0 [pad] = some [] := rfl

/-! ## The round trip -/

/-- What was encoded is decoded again. -/
theorem decode?_encode (b : Bytes) : decode? (encode b) = some b := by
  unfold decode?
  fun_induction encode b with
  | case1 => rfl
  | case2 a =>
    have ha := a.toNat_lt
    rw [readFrom_first (by omega), readFrom_second (by omega), readFrom_third_pad]
    rw [Utf8.ofNat_eq (a := a) (by omega)]
    rfl
  | case3 a b =>
    have ha := a.toNat_lt
    have hb := b.toNat_lt
    rw [readFrom_first (by omega), readFrom_second (by omega), readFrom_third (by omega),
      readFrom_fourth_pad]
    rw [Utf8.ofNat_eq (a := a) (by omega), Utf8.ofNat_eq (a := b) (by omega)]
    rfl
  | case4 a b c rest ih =>
    have ha := a.toNat_lt
    have hb := b.toNat_lt
    have hc := c.toNat_lt
    rw [readFrom_first (by omega), readFrom_second (by omega), readFrom_third (by omega),
      readFrom_fourth (by omega), ih]
    rw [Utf8.ofNat_eq (a := a) (by omega), Utf8.ofNat_eq (a := b) (by omega),
      Utf8.ofNat_eq (a := c) (by omega)]
    rfl

/-! ## Characters -/

/-- The characters that are written. -/
def IsWritten (c : Char) : Prop :=
  c.isAlphanum ∨ c = '-' ∨ c = '_' ∨ c = '='

theorem encode_bytes {x : UInt8} {b : Bytes} (hx : x ∈ encode b) :
    (∃ n < 64, x = digit n) ∨ x = pad := by
  fun_induction encode b with
  | case1 => simp at hx
  | case2 a =>
    have ha := a.toNat_lt
    simp only [List.mem_cons, List.not_mem_nil, or_false] at hx
    rcases hx with rfl | rfl | rfl | rfl
    · exact Or.inl ⟨_, by omega, rfl⟩
    · exact Or.inl ⟨_, by omega, rfl⟩
    · exact Or.inr rfl
    · exact Or.inr rfl
  | case3 a b =>
    have ha := a.toNat_lt
    have hb := b.toNat_lt
    simp only [List.mem_cons, List.not_mem_nil, or_false] at hx
    rcases hx with rfl | rfl | rfl | rfl
    · exact Or.inl ⟨_, by omega, rfl⟩
    · exact Or.inl ⟨_, by omega, rfl⟩
    · exact Or.inl ⟨_, by omega, rfl⟩
    · exact Or.inr rfl
  | case4 a b c rest ih =>
    have ha := a.toNat_lt
    have hb := b.toNat_lt
    have hc := c.toNat_lt
    simp only [List.mem_cons] at hx
    rcases hx with rfl | rfl | rfl | rfl | hx
    · exact Or.inl ⟨_, by omega, rfl⟩
    · exact Or.inl ⟨_, by omega, rfl⟩
    · exact Or.inl ⟨_, by omega, rfl⟩
    · exact Or.inl ⟨_, by omega, rfl⟩
    · exact ih hx

/-- A written byte is an ASCII character of the alphabet, or padding. -/
theorem isWritten_of_mem {x : UInt8} {b : Bytes} (hx : x ∈ encode b) :
    x.toNat < 128 ∧ IsWritten (Char.ofNat x.toNat) := by
  have hdigits : ∀ i : Fin 64, (digit i).toNat < 128 ∧
      ((Char.ofNat (digit i).toNat).isAlphanum ∨ Char.ofNat (digit i).toNat = '-' ∨
        Char.ofNat (digit i).toNat = '_' ∨ Char.ofNat (digit i).toNat = '=') := by
    decide +kernel
  rcases encode_bytes hx with ⟨n, hn, rfl⟩ | rfl
  · exact hdigits ⟨n, hn⟩
  · exact ⟨by decide, Or.inr (Or.inr (Or.inr rfl))⟩

/-- A written text has letters, digits, `-`, `_` and `=` only. -/
theorem encodeText_chars {c : Char} {b : Bytes} (hc : c ∈ (encodeText b).toList) : IsWritten c := by
  rw [encodeText, String.toList_ofList] at hc
  rcases List.mem_map.1 hc with ⟨x, hx, rfl⟩
  exact (isWritten_of_mem hx).2

theorem encodeText_ne_empty {b : Bytes} (hb : b ≠ []) : encodeText b ≠ "" := by
  intro h
  have hnil : (encode b).map (fun x => Char.ofNat x.toNat) = [] := by
    simpa [encodeText] using congrArg String.toList h
  rw [List.map_eq_nil_iff] at hnil
  fun_cases encode b with
  | case1 => exact hb rfl
  -- every other case writes four bytes at least
  | case2 | case3 | case4 => simp [encode] at hnil

/-- ASCII characters are their own bytes. -/
theorem encodeChars_ofNat {bytes : Bytes} (h : ∀ x ∈ bytes, x.toNat < 128) :
    Utf8.encodeChars (bytes.map fun x => Char.ofNat x.toNat) = bytes := by
  induction bytes with
  | nil => rfl
  | cons x bytes ih =>
    have hx : x.toNat < 128 := h x List.mem_cons_self
    have hvalid : (Char.ofNat x.toNat).toNat = x.toNat :=
      Utf8.toNat_charOfNat (Or.inl (by omega))
    have hhead : Utf8.encodeChar (Char.ofNat x.toNat) = [x] := by
      simp only [Utf8.encodeChar, hvalid]
      rw [if_pos hx, UInt8.ofNat_toNat]
    have hrest := ih fun y hy => h y (List.mem_cons_of_mem x hy)
    simp only [Utf8.encodeChars, List.map_cons, List.flatMap_cons, hhead] at hrest ⊢
    rw [hrest]
    rfl

/-- The bytes of a written text are the ones that were encoded. -/
theorem encodeChars_encodeText (b : Bytes) :
    Utf8.encodeChars (encodeText b).toList = encode b := by
  rw [encodeText, String.toList_ofList]
  exact encodeChars_ofNat fun x hx => (isWritten_of_mem hx).1

/-- What was encoded is decoded again from the text that it is written as. -/
theorem decode?_encodeText (b : Bytes) :
    decode? (Utf8.encodeChars (encodeText b).toList) = some b := by
  rw [encodeChars_encodeText, decode?_encode]

end NodeStore.Base64
