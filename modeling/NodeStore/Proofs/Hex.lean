import NodeStore.Hex
import NodeStore.Proofs.Checks

/-! # Hex text

`Pairs cs b` is the grammar of digit pairs: two hex digits of either case for each byte, and ASCII
blanks before, between and after the pairs. `Spells s b` adds the `0x` that may stand in front.
Reading accepts exactly this (`decode?_iff`), and what is written is one of the spellings
(`decode?_encode`).
-/

namespace NodeStore.Hex

variable {c : Char} {cs : List Char} {b : Bytes} {s : String}

/-! ## Digits -/

/-- What holds of the first 16 numbers holds of every value of a digit. -/
theorem of_halfByte {P : UInt8 → Prop} (h : ∀ i : Fin 16, P (UInt8.ofNat i.val)) {n : UInt8}
    (hn : n < 16) : P n := by
  have hsmall : n.toNat < 16 := hn
  have hvalue := h ⟨n.toNat, hsmall⟩
  rwa [UInt8.ofNat_toNat] at hvalue

theorem value?_digit {n : UInt8} (h : n < 16) : value? (digit n) = some n :=
  of_halfByte (P := fun n => value? (digit n) = some n) (by decide) h

/-- Hex digits are ASCII, and are no blanks. -/
theorem of_value? {v : UInt8} (h : value? c = some v) :
    c.toNat < 128 ∧ Text.isAsciiBlank c = false := by
  have hrange : 48 ≤ c.toNat ∧ c.toNat ≤ 102 := by
    unfold value? at h
    split at h
    · rename_i hc
      exact ⟨hc.1, Nat.le_trans hc.2 (by decide)⟩
    split at h
    · rename_i hc
      exact ⟨Nat.le_trans (by decide) hc.1, hc.2⟩
    split at h
    · rename_i hc
      exact ⟨Nat.le_trans (by decide) hc.1, Nat.le_trans hc.2 (by decide)⟩
    · simp at h
  refine ⟨by omega, ?_⟩
  simp only [Text.isAsciiBlank, Bool.or_eq_false_iff, beq_eq_false_iff_ne, Bool.and_eq_false_iff,
    decide_eq_false_iff_not]
  omega

theorem lt_of_isAsciiBlank (h : Text.isAsciiBlank c = true) : c.toNat < 128 := by
  simp only [Text.isAsciiBlank, Bool.or_eq_true, beq_iff_eq, Bool.and_eq_true,
    decide_eq_true_eq] at h
  omega

/-! ## The grammar -/

/-- Two hex digits for each byte, with blanks before, between and after the pairs. -/
inductive Pairs : List Char → Bytes → Prop where
  | done : Pairs [] []
  | blank {c : Char} {cs : List Char} {b : Bytes} :
    Text.isAsciiBlank c = true → Pairs cs b → Pairs (c :: cs) b
  | pair {c d : Char} {hi lo : UInt8} {cs : List Char} {b : Bytes} :
    value? c = some hi → value? d = some lo → Pairs cs b →
      Pairs (c :: d :: cs) ((16 * hi + lo) :: b)

/-- A text stands for bytes: digit pairs, which may follow `0x` or `0X`. -/
def Spells (s : String) (b : Bytes) : Prop :=
  ∃ cs, Pairs cs b ∧ (s.toList = cs ∨ s.toList = '0' :: 'x' :: cs ∨ s.toList = '0' :: 'X' :: cs)

theorem Pairs.ascii (h : Pairs cs b) : ∀ c ∈ cs, c.toNat < 128 := by
  induction h with
  | done => simp
  | blank hblank _ ih =>
    intro c hc
    rcases List.mem_cons.1 hc with rfl | hc
    · exact lt_of_isAsciiBlank hblank
    · exact ih c hc
  | pair hhi hlo _ ih =>
    intro c hc
    rcases List.mem_cons.1 hc with rfl | hc
    · exact (of_value? hhi).1
    rcases List.mem_cons.1 hc with rfl | hc
    · exact (of_value? hlo).1
    · exact ih c hc

/-- Reading digit pairs goes on with what follows them, at its position. -/
theorem Pairs.read_append (h : Pairs cs b) (i : Nat) (rest : List Char) :
    readPairs i (cs ++ rest) = (readPairs (i + cs.length) rest).map (b ++ ·) := by
  induction h generalizing i with
  | done =>
    show readPairs i rest = (readPairs i rest).map id
    cases readPairs i rest <;> rfl
  | @blank c cs b hblank _ ih =>
    have hplace : i + 1 + cs.length = i + (c :: cs).length := by
      rw [List.length_cons]
      omega
    rw [List.cons_append, readPairs, if_pos hblank, ih, hplace]
  | @pair c d hi lo cs b hhi hlo _ ih =>
    have hplace : i + 2 + cs.length = i + (c :: d :: cs).length := by
      rw [List.length_cons, List.length_cons]
      omega
    rw [List.cons_append, List.cons_append, readPairs,
      if_neg (ne_true_of_eq_false (of_value? hhi).2)]
    simp only [hhi, hlo, ih, hplace]
    cases readPairs (i + (c :: d :: cs).length) rest <;> rfl

/-- Digit pairs are read from any position. -/
theorem Pairs.read (h : Pairs cs b) (i : Nat) : readPairs i cs = .ok b := by
  have hread := h.read_append i []
  rw [List.append_nil] at hread
  rw [hread, readPairs, Except.map, List.append_nil]

theorem pairs_of_read {i : Nat} (h : readPairs i cs = .ok b) : Pairs cs b := by
  fun_induction readPairs i cs generalizing b with
  | case1 =>
    obtain rfl := Except.ok.inj h
    exact .done
  | case2 i c cs hblank ih => exact .blank hblank (ih h)
  | case3 => simp at h
  | case4 => simp at h
  | case5 => simp at h
  | case6 i c _ hi hhi d ds lo hlo ih =>
    cases hrest : readPairs (i + 2) ds with
    | error place => simp [hrest, Except.map] at h
    | ok rest =>
      rw [hrest] at h
      obtain rfl := Except.ok.inj h
      exact .pair hhi hlo (ih hrest)

theorem decodePairs_iff : decodePairs cs = .ok b ↔ Pairs cs b := by
  unfold decodePairs
  constructor
  · intro h
    split at h
    · simp at h
    · exact pairs_of_read h
  · intro h
    have hnone : cs.findIdx? (fun c => 128 ≤ c.toNat) = none := by
      rw [List.findIdx?_eq_none_iff]
      intro c hc
      simpa using h.ascii c hc
    rw [hnone]
    exact h.read 0

theorem dropMark_cases (cs : List Char) :
    cs = dropMark cs ∨ cs = '0' :: 'x' :: dropMark cs ∨ cs = '0' :: 'X' :: dropMark cs := by
  unfold dropMark
  split
  · exact Or.inr (Or.inl rfl)
  · exact Or.inr (Or.inr rfl)
  · exact Or.inl rfl

/-- Digit pairs do not begin with a mark: its second character is no digit. -/
theorem not_pairs_mark {x : Char} (hx : value? x = none) : ¬ Pairs ('0' :: x :: cs) b := by
  intro h
  cases h with
  | blank hblank _ => exact absurd hblank (by decide)
  | pair _ hlo _ => simp [hx] at hlo

theorem Pairs.dropMark_eq (h : Pairs cs b) : dropMark cs = cs := by
  unfold dropMark
  split
  · exact absurd h (not_pairs_mark (by decide))
  · exact absurd h (not_pairs_mark (by decide))
  · rfl

/-- Digit pairs are what is left without the mark. -/
theorem decode?_iff_pairs : decode? s = some b ↔ Pairs (dropMark s.toList) b :=
  toOption_eq_some_iff.trans decodePairs_iff

/-- Reading accepts exactly the spellings. -/
theorem decode?_iff : decode? s = some b ↔ Spells s b := by
  rw [decode?_iff_pairs]
  constructor
  · intro h
    exact ⟨_, h, dropMark_cases s.toList⟩
  · rintro ⟨cs, h, hs | hs | hs⟩
    · rwa [hs, h.dropMark_eq]
    · rw [hs]
      exact h
    · rw [hs]
      exact h

/-! ## What is written -/

/-- The halves of a byte. -/
theorem halves_lt (x : UInt8) : x / 16 < 16 ∧ x % 16 < 16 := by
  have hx : x.toNat < 256 := x.toNat_lt
  constructor
  · rw [UInt8.lt_iff_toNat_lt, UInt8.toNat_div]
    show x.toNat / 16 < 16
    omega
  · rw [UInt8.lt_iff_toNat_lt, UInt8.toNat_mod]
    exact Nat.mod_lt _ (by decide)

/-- The digits of the two halves of a byte stand for the byte. -/
theorem Pairs.byte {d : Char} {x : UInt8} (hhi : value? c = some (x / 16))
    (hlo : value? d = some (x % 16)) (h : Pairs cs b) : Pairs (c :: d :: cs) (x :: b) := by
  have hx : 16 * (x / 16) + x % 16 = x := by
    apply UInt8.toNat_inj.1
    have hlt : x.toNat < 256 := x.toNat_lt
    simp only [UInt8.toNat_add, UInt8.toNat_mul, UInt8.toNat_div, UInt8.toNat_mod,
      UInt8.reduceToNat]
    omega
  have hpair := Pairs.pair hhi hlo h
  rwa [hx] at hpair

theorem pairs_encode (b : Bytes) : Pairs (b.flatMap encodeByte) b := by
  induction b with
  | nil => exact .done
  | cons x rest ih =>
    rcases halves_lt x with ⟨hhi, hlo⟩
    exact .byte (value?_digit hhi) (value?_digit hlo) ih

theorem toList_encode (b : Bytes) : (encode b).toList = b.flatMap encodeByte :=
  String.toList_ofList

theorem spells_encode (b : Bytes) : Spells (encode b) b :=
  ⟨_, pairs_encode b, Or.inl (toList_encode b)⟩

theorem decode?_encode (b : Bytes) : decode? (encode b) = some b :=
  decode?_iff.2 (spells_encode b)

theorem encode_injective {b b' : Bytes} (h : encode b = encode b') : b = b' := by
  have hboth := decode?_encode b
  rw [h, decode?_encode] at hboth
  exact (Option.some.inj hboth).symm

/-- Two small digits for each byte. -/
theorem encode_digits (b : Bytes) :
    (encode b).toList.length = 2 * b.length ∧
      ∀ c ∈ (encode b).toList, c ∈ "0123456789abcdef".toList := by
  rw [toList_encode]
  have hdigit : ∀ n : UInt8, n < 16 → digit n ∈ "0123456789abcdef".toList := fun _ =>
    of_halfByte (P := fun n => digit n ∈ "0123456789abcdef".toList) (by decide)
  induction b with
  | nil => exact ⟨rfl, by simp⟩
  | cons x rest ih =>
    rw [List.flatMap_cons]
    constructor
    · rw [List.length_append, ih.1, List.length_cons, encodeByte]
      simp only [List.length_cons, List.length_nil]
      omega
    · intro c hc
      rcases List.mem_append.1 hc with hc | hc
      · simp only [encodeByte, List.mem_cons, List.not_mem_nil, or_false] at hc
        rcases hc with rfl | rfl
        · exact hdigit _ (halves_lt x).1
        · exact hdigit _ (halves_lt x).2
      · exact ih.2 c hc

end NodeStore.Hex
