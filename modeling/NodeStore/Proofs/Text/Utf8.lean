import NodeStore.Proofs.Checks
import NodeStore.Text.Utf8

/-! # Every text is read as it was written

* `decode_encode`: the bytes of a text are decoded to that text;
* `decode_eq_ok_iff`: no other bytes are decoded to it;
* `not_isText_iff`: bytes of no text are not decoded. -/

namespace NodeStore

namespace Utf8

theorem toNat_charOfNat {n : Nat} (h : n.isValidChar) : (Char.ofNat n).toNat = n := by
  rw [Char.ofNat, dif_pos h]
  rfl

/-- A number is the byte that it is the value of. -/
theorem ofNat_eq {a : UInt8} {n : Nat} (h : n = a.toNat) : UInt8.ofNat n = a := by
  rw [h, UInt8.ofNat_toNat]

section Bytes

variable {a b c d : UInt8} (pos : Nat) (rest : Bytes)

theorem isContinuation_of (h : 0x80 ≤ b.toNat ∧ b.toNat < 0xc0) : isContinuation b = true := by
  simp [isContinuation, UInt8.le_iff_toNat_le, UInt8.lt_iff_toNat_lt, h]

/-- The bounds of a second byte, in numbers. -/
theorem isSecond_of (h : 0x80 ≤ b.toNat ∧ b.toNat < 0xc0) (he0 : a.toNat = 0xe0 → 0xa0 ≤ b.toNat)
    (hed : a.toNat = 0xed → b.toNat < 0xa0) (hf0 : a.toNat = 0xf0 → 0x90 ≤ b.toNat)
    (hf4 : a.toNat = 0xf4 → b.toNat < 0x90) : isSecond a b = true := by
  simp only [isSecond, isContinuation_of h, Bool.true_and, Bool.not_eq_true', Bool.or_eq_false_iff,
    Bool.and_eq_false_imp, beq_iff_eq, decide_eq_false_iff_not, UInt8.le_iff_toNat_le,
    UInt8.lt_iff_toNat_lt, ← UInt8.toNat_inj]
  refine ⟨⟨⟨?_, ?_⟩, ?_⟩, ?_⟩
  · intro ha
    exact Nat.not_lt.2 (he0 ha)
  · intro ha
    exact Nat.not_le.2 (hed ha)
  · intro ha
    exact Nat.not_lt.2 (hf0 ha)
  · intro ha
    exact Nat.not_le.2 (hf4 ha)

theorem decodeFrom_one (ha : a.toNat < 0x80) :
    decodeFrom pos (a :: rest) = (decodeFrom (pos + 1) rest).map (Char.ofNat a.toNat :: ·) := by
  have h1 : a < 0x80 := ha
  rw [decodeFrom.eq_def]
  simp only [h1, if_true]

theorem decodeFrom_two (ha : 0xc2 ≤ a.toNat ∧ a.toNat < 0xe0)
    (hb : 0x80 ≤ b.toNat ∧ b.toNat < 0xc0) :
    decodeFrom pos (a :: b :: rest) = (decodeFrom (pos + 2) rest).map
      (Char.ofNat (a.toNat % 0x20 * 0x40 + payload b) :: ·) := by
  have h1 : ¬ a < 0x80 := Nat.not_lt.2 (by omega : 0x80 ≤ a.toNat)
  have h2 : ¬ (a < 0xc2 ∨ 0xf4 < a) := by
    rintro (h | h)
    · exact absurd (show a.toNat < 0xc2 from h) (by omega)
    · exact absurd (show 0xf4 < a.toNat from h) (by omega)
  have h3 : a < 0xe0 := ha.2
  have hs : isSecond a b = true := isSecond_of hb (by omega) (by omega) (by omega) (by omega)
  rw [decodeFrom.eq_def]
  simp only [h1, h2, h3, hs, if_true, if_false, Bool.not_true, Bool.false_eq_true]

theorem decodeFrom_three (ha : 0xe0 ≤ a.toNat ∧ a.toNat < 0xf0) (hb : isSecond a b = true)
    (hc : 0x80 ≤ c.toNat ∧ c.toNat < 0xc0) :
    decodeFrom pos (a :: b :: c :: rest) = (decodeFrom (pos + 3) rest).map
      (Char.ofNat (a.toNat % 0x10 * 0x1000 + payload b * 0x40 + payload c) :: ·) := by
  have h1 : ¬ a < 0x80 := Nat.not_lt.2 (by omega : 0x80 ≤ a.toNat)
  have h2 : ¬ (a < 0xc2 ∨ 0xf4 < a) := by
    rintro (h | h)
    · exact absurd (show a.toNat < 0xc2 from h) (by omega)
    · exact absurd (show 0xf4 < a.toNat from h) (by omega)
  have h3 : ¬ a < 0xe0 := Nat.not_lt.2 ha.1
  have h4 : a < 0xf0 := ha.2
  rw [decodeFrom.eq_def]
  simp only [h1, h2, h3, h4, hb, isContinuation_of hc, if_true, if_false, Bool.not_true,
    Bool.false_eq_true]

theorem decodeFrom_four (ha : 0xf0 ≤ a.toNat ∧ a.toNat ≤ 0xf4) (hb : isSecond a b = true)
    (hc : 0x80 ≤ c.toNat ∧ c.toNat < 0xc0) (hd : 0x80 ≤ d.toNat ∧ d.toNat < 0xc0) :
    decodeFrom pos (a :: b :: c :: d :: rest) = (decodeFrom (pos + 4) rest).map
      (Char.ofNat (a.toNat % 0x08 * 0x40000 + payload b * 0x1000 + payload c * 0x40 +
        payload d) :: ·) := by
  have h1 : ¬ a < 0x80 := Nat.not_lt.2 (by omega : 0x80 ≤ a.toNat)
  have h2 : ¬ (a < 0xc2 ∨ 0xf4 < a) := by
    rintro (h | h)
    · exact absurd (show a.toNat < 0xc2 from h) (by omega)
    · exact absurd (show 0xf4 < a.toNat from h) (by omega)
  have h3 : ¬ a < 0xe0 := Nat.not_lt.2 (by omega : 0xe0 ≤ a.toNat)
  have h4 : ¬ a < 0xf0 := Nat.not_lt.2 ha.1
  rw [decodeFrom.eq_def]
  simp only [h1, h2, h3, h4, hb, isContinuation_of hc, isContinuation_of hd, if_false,
    Bool.not_true, Bool.false_eq_true]

end Bytes

/-- The bytes of a character are decoded to it, whatever follows. -/
theorem decodeFrom_encodeChar (pos : Nat) (c : Char) (rest : Bytes) :
    decodeFrom pos (encodeChar c ++ rest) =
      (decodeFrom (pos + (encodeChar c).length) rest).map (c :: ·) := by
  have hvalid : c.toNat < 0xd800 ∨ 0xdfff < c.toNat ∧ c.toNat < 0x110000 := c.valid
  have hback : Char.ofNat c.toNat = c := Char.ofNat_toNat c
  unfold encodeChar
  -- Each length is a statement about the number of the character: its digits to the base 0x40 are
  -- put together again, and the bounds of the second byte hold because surrogates and numbers from
  -- 0x110000 on are no characters.
  generalize c.toNat = n at hvalid hback ⊢
  have hbyte : ∀ m, m < 256 → (UInt8.ofNat m).toNat = m := by
    intro m hm
    exact UInt8.toNat_ofNat_of_lt' hm
  by_cases h1 : n < 0x80
  · simp only [h1, if_true, List.cons_append, List.nil_append]
    rw [decodeFrom_one, hbyte n (by omega), hback]
    · rfl
    · rw [hbyte n (by omega)]
      exact h1
  by_cases h2 : n < 0x800
  · have ha := hbyte (0xc0 + n / 0x40) (by omega)
    have hb := hbyte (0x80 + n % 0x40) (by omega)
    have hn : (0xc0 + n / 0x40) % 0x20 * 0x40 + (0x80 + n % 0x40) % 0x40 = n := by omega
    simp only [h1, h2, if_true, if_false, List.cons_append, List.nil_append]
    rw [decodeFrom_two _ _ (by omega) (by omega), payload, ha, hb, hn, hback]
    rfl
  by_cases h3 : n < 0x10000
  · have ha := hbyte (0xe0 + n / 0x1000) (by omega)
    have hb := hbyte (0x80 + n / 0x40 % 0x40) (by omega)
    have hc := hbyte (0x80 + n % 0x40) (by omega)
    have hn : (0xe0 + n / 0x1000) % 0x10 * 0x1000 + (0x80 + n / 0x40 % 0x40) % 0x40 * 0x40 +
        (0x80 + n % 0x40) % 0x40 = n := by omega
    simp only [h1, h2, h3, if_true, if_false, List.cons_append, List.nil_append]
    rw [decodeFrom_three _ _ (by omega) (isSecond_of (by omega) (by omega) (by omega) (by omega)
      (by omega)) (by omega), payload, payload, ha, hb, hc, hn, hback]
    rfl
  · have ha := hbyte (0xf0 + n / 0x40000) (by omega)
    have hb := hbyte (0x80 + n / 0x1000 % 0x40) (by omega)
    have hc := hbyte (0x80 + n / 0x40 % 0x40) (by omega)
    have hd := hbyte (0x80 + n % 0x40) (by omega)
    have hn : (0xf0 + n / 0x40000) % 0x08 * 0x40000 + (0x80 + n / 0x1000 % 0x40) % 0x40 * 0x1000 +
        (0x80 + n / 0x40 % 0x40) % 0x40 * 0x40 + (0x80 + n % 0x40) % 0x40 = n := by omega
    simp only [h1, h2, h3, if_false, List.cons_append, List.nil_append]
    rw [decodeFrom_four _ _ (by omega) (isSecond_of (by omega) (by omega) (by omega) (by omega)
      (by omega)) (by omega) (by omega), payload, payload, payload, ha, hb, hc, hd, hn, hback]
    rfl

theorem encodeChars_cons (c : Char) (cs : List Char) :
    encodeChars (c :: cs) = encodeChar c ++ encodeChars cs := by
  simp [encodeChars]

theorem decodeFrom_encodeChars (pos : Nat) (cs : List Char) :
    decodeFrom pos (encodeChars cs) = .ok cs := by
  induction cs generalizing pos with
  | nil => rfl
  | cons c cs ih =>
    rw [encodeChars_cons, decodeFrom_encodeChar, ih]
    rfl

/-- The bytes of a text are decoded to that text. -/
theorem decode_encode (s : String) : decode (encode s) = .ok s := by
  unfold decode decodeChars encode
  rw [decodeFrom_encodeChars]
  exact congrArg Except.ok String.ofList_toList

/-- Two texts with the same bytes are the same. -/
theorem encode_injective {s t : String} (h : encode s = encode t) : s = t := by
  have hdecoded := congrArg decode h
  simpa [decode_encode] using hdecoded

/-! ## No other bytes

The bounds that a sequence is checked for are those under which the number of its character is
written in as many bytes, and is no surrogate. -/

section Read

variable {a b c d : UInt8}

theorem of_isContinuation (h : isContinuation b = true) : 0x80 ≤ b.toNat ∧ b.toNat < 0xc0 := by
  simpa [isContinuation, UInt8.le_iff_toNat_le, UInt8.lt_iff_toNat_lt] using h

/-- What is known of a second byte, in numbers. -/
theorem of_isSecond (h : isSecond a b = true) : (0x80 ≤ b.toNat ∧ b.toNat < 0xc0) ∧
    (a.toNat = 0xe0 → 0xa0 ≤ b.toNat) ∧ (a.toNat = 0xed → b.toNat < 0xa0) ∧
    (a.toNat = 0xf0 → 0x90 ≤ b.toNat) ∧ (a.toNat = 0xf4 → b.toNat < 0x90) := by
  simp only [isSecond, Bool.and_eq_true, Bool.not_eq_true', Bool.or_eq_false_iff,
    Bool.and_eq_false_imp, beq_iff_eq, decide_eq_false_iff_not, UInt8.le_iff_toNat_le,
    UInt8.lt_iff_toNat_lt, ← UInt8.toNat_inj] at h
  rcases h with ⟨hb, ⟨⟨he0, hed⟩, hf0⟩, hf4⟩
  refine ⟨of_isContinuation hb, ?_, ?_, ?_, ?_⟩
  · intro ha
    exact Nat.not_lt.1 (he0 ha)
  · intro ha
    exact Nat.not_le.1 (hed ha)
  · intro ha
    exact Nat.not_lt.1 (hf0 ha)
  · intro ha
    exact Nat.not_le.1 (hf4 ha)

theorem of_start (h : ¬ (a < 0xc2 ∨ 0xf4 < a)) : 0xc2 ≤ a.toNat ∧ a.toNat ≤ 0xf4 := by
  rw [not_or] at h
  exact ⟨Nat.not_lt.1 h.1, Nat.not_lt.1 h.2⟩

/-- Characters beyond ASCII have no byte of it. -/
theorem le_of_mem_encodeChar {c : Char} (hc : 0x80 ≤ c.toNat) :
    ∀ x ∈ encodeChar c, 0x80 ≤ x.toNat := by
  have hvalid : c.toNat < 0xd800 ∨ 0xdfff < c.toNat ∧ c.toNat < 0x110000 := c.valid
  intro x hx
  unfold encodeChar at hx
  generalize c.toNat = n at hc hvalid hx
  simp only [if_neg (Nat.not_lt.2 hc)] at hx
  have hbyte : ∀ k, 0x80 ≤ k → k < 0x100 → 0x80 ≤ (UInt8.ofNat k).toNat := by
    intro k hle hlt
    rwa [UInt8.toNat_ofNat', Nat.mod_eq_of_lt hlt]
  split at hx
  · rcases List.mem_pair.1 hx with rfl | rfl
    · exact hbyte _ (by omega) (by omega)
    · exact hbyte _ (by omega) (by omega)
  · split at hx
    all_goals
      simp only [List.mem_cons, List.not_mem_nil, or_false] at hx
      rcases hx with rfl | rfl | rfl | rfl
      all_goals exact hbyte _ (by omega) (by omega)

/-- The bytes of the character with a number, which no surrogate has. -/
theorem encodeChar_ofNat {n : Nat} (h : n < 0xd800 ∨ 0xdfff < n ∧ n < 0x110000) :
    encodeChar (Char.ofNat n) =
      if n < 0x80 then [UInt8.ofNat n]
      else if n < 0x800 then [UInt8.ofNat (0xc0 + n / 0x40), UInt8.ofNat (0x80 + n % 0x40)]
      else if n < 0x10000 then
        [UInt8.ofNat (0xe0 + n / 0x1000), UInt8.ofNat (0x80 + n / 0x40 % 0x40),
          UInt8.ofNat (0x80 + n % 0x40)]
      else
        [UInt8.ofNat (0xf0 + n / 0x40000), UInt8.ofNat (0x80 + n / 0x1000 % 0x40),
          UInt8.ofNat (0x80 + n / 0x40 % 0x40), UInt8.ofNat (0x80 + n % 0x40)] := by
  rw [encodeChar, toNat_charOfNat h]

theorem encodeChar_one (ha : a.toNat < 0x80) : encodeChar (Char.ofNat a.toNat) = [a] := by
  rw [encodeChar_ofNat (by omega), if_pos ha, UInt8.ofNat_toNat]

theorem encodeChar_two (ha : 0xc2 ≤ a.toNat ∧ a.toNat < 0xe0)
    (hb : 0x80 ≤ b.toNat ∧ b.toNat < 0xc0) :
    encodeChar (Char.ofNat (a.toNat % 0x20 * 0x40 + payload b)) = [a, b] := by
  unfold payload
  rw [encodeChar_ofNat (by omega), if_neg (by omega), if_pos (by omega),
    ofNat_eq (a := a) (by omega), ofNat_eq (a := b) (by omega)]

theorem encodeChar_three (ha : 0xe0 ≤ a.toNat ∧ a.toNat < 0xf0) (hb : isSecond a b = true)
    (hc : 0x80 ≤ c.toNat ∧ c.toNat < 0xc0) :
    encodeChar (Char.ofNat (a.toNat % 0x10 * 0x1000 + payload b * 0x40 + payload c)) =
      [a, b, c] := by
  have hsecond := of_isSecond hb
  unfold payload
  rw [encodeChar_ofNat (by omega), if_neg (by omega), if_neg (by omega), if_pos (by omega),
    ofNat_eq (a := a) (by omega), ofNat_eq (a := b) (by omega), ofNat_eq (a := c) (by omega)]

theorem encodeChar_four (ha : 0xf0 ≤ a.toNat ∧ a.toNat ≤ 0xf4) (hb : isSecond a b = true)
    (hc : 0x80 ≤ c.toNat ∧ c.toNat < 0xc0) (hd : 0x80 ≤ d.toNat ∧ d.toNat < 0xc0) :
    encodeChar (Char.ofNat (a.toNat % 0x08 * 0x40000 + payload b * 0x1000 + payload c * 0x40 +
      payload d)) = [a, b, c, d] := by
  have hsecond := of_isSecond hb
  unfold payload
  rw [encodeChar_ofNat (by omega), if_neg (by omega), if_neg (by omega), if_neg (by omega),
    ofNat_eq (a := a) (by omega), ofNat_eq (a := b) (by omega), ofNat_eq (a := c) (by omega),
    ofNat_eq (a := d) (by omega)]

end Read

/-- What was decoded is written in the same bytes. -/
theorem encodeChars_decodeFrom {pos : Nat} {b : Bytes} {cs : List Char}
    (h : decodeFrom pos b = .ok cs) : encodeChars cs = b := by
  fun_induction decodeFrom pos b generalizing cs with
  | case1 =>
    obtain rfl := Except.ok.inj h
    rfl
  | case2 pos a rest ha ih =>
    rcases map_eq_ok_iff.1 h with ⟨cs', hrest, rfl⟩
    rw [encodeChars_cons, encodeChar_one ha, ih hrest]
    rfl
  | case6 pos a hone hstart b rest hb htwo ih =>
    rcases map_eq_ok_iff.1 h with ⟨cs', hrest, rfl⟩
    have hsecond : isSecond a b = true := by simpa using hb
    rw [encodeChars_cons, encodeChar_two ⟨(of_start hstart).1, htwo⟩ (of_isSecond hsecond).1,
      ih hrest]
    rfl
  | case9 pos a hone hstart b hb htwo c rest hc hthree ih =>
    rcases map_eq_ok_iff.1 h with ⟨cs', hrest, rfl⟩
    have hsecond : isSecond a b = true := by simpa using hb
    have hthird : isContinuation c = true := by simpa using hc
    rw [encodeChars_cons, encodeChar_three ⟨Nat.not_lt.1 htwo, hthree⟩ hsecond
      (of_isContinuation hthird), ih hrest]
    rfl
  | case12 pos a hone hstart b hb htwo c hc hthree d rest hd ih =>
    rcases map_eq_ok_iff.1 h with ⟨cs', hrest, rfl⟩
    have hsecond : isSecond a b = true := by simpa using hb
    have hthird : isContinuation c = true := by simpa using hc
    have hfourth : isContinuation d = true := by simpa using hd
    rw [encodeChars_cons, encodeChar_four ⟨Nat.not_lt.1 hthree, (of_start hstart).2⟩ hsecond
      (of_isContinuation hthird) (of_isContinuation hfourth), ih hrest]
    rfl
  | _ => simp at h

/-- Exactly the bytes of a text are decoded to it. -/
theorem decode_eq_ok_iff {b : Bytes} {s : String} : decode b = .ok s ↔ encode s = b := by
  constructor
  · intro h
    rcases map_eq_ok_iff.1 h with ⟨cs, hcs, rfl⟩
    rw [encode, String.toList_ofList]
    exact encodeChars_decodeFrom hcs
  · rintro rfl
    exact decode_encode s

/-- The bytes are those of a text. -/
def IsText (b : Bytes) : Prop :=
  ∃ text, encode text = b

/-- Bytes that are no text are not decoded. -/
theorem not_isText_iff {b : Bytes} : ¬ IsText b ↔ ∃ fault, decode b = .error fault := by
  unfold IsText
  simp only [← decode_eq_ok_iff]
  cases decode b <;> simp

end Utf8

end NodeStore
