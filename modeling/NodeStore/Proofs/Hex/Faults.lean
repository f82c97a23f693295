import NodeStore.Proofs.Hex
import NodeStore.Proofs.Text.Blank

/-! # Faults of hex text

A text that is no spelling is reported by one position, counted in what is left of it without its
mark (`Unmarked`). It is where the first character outside ASCII stands, if there is one, and
otherwise where the digit pairs break off: at a character that begins no pair, or where the second
digit of a pair is offending or missing (`BreaksAt`, `FaultAt`).

* `value?_eq`, `isAsciiBlank_iff`: digits and blanks, by the characters themselves;
* `decode_eq_ok_iff`, `decode_eq_error_iff`: what becomes of any text;
* `decode_of_toLower`: letter case does not matter. -/

namespace NodeStore.Hex

variable {c d : Char} {cs rest : List Char} {b : Bytes} {s : String} {i j : Nat}

/-! ## Digits and blanks -/

/-- The small digits. The value of a digit is its place among them. -/
def alphabet : List Char := "0123456789abcdef".toList

theorem not_mem_of_not_ascii (hall : cs.all (fun d => d.toNat < 128) = true)
    (h : ¬ c.toNat < 128) : c ∉ cs := by
  intro hmem
  have hascii := List.all_eq_true.1 hall c hmem
  exact h (of_decide_eq_true hascii)

theorem toLower_of_not_ascii (h : ¬ c.toNat < 128) : c.toLower = c := by
  unfold Char.toLower
  apply dif_neg
  intro hcapital
  have hle : c.toNat ≤ 90 := hcapital.2
  omega

/-- A character is its small form, or the capital of it. -/
theorem eq_of_toLower (h : c.toLower = d) : c = d ∨ c = d.toUpper := by
  subst h
  by_cases hascii : c.toNat < 128
  · exact Text.of_ascii (P := fun c => c = c.toLower ∨ c = c.toLower.toUpper) (by decide +kernel) c
      hascii
  · exact Or.inl (toLower_of_not_ascii hascii).symm

theorem value?_eq (c : Char) : value? c = (alphabet.idxOf? c.toLower).map UInt8.ofNat := by
  by_cases hascii : c.toNat < 128
  · exact Text.of_ascii (P := fun c => value? c = (alphabet.idxOf? c.toLower).map UInt8.ofNat)
      (by decide +kernel) c hascii
  · have hnone : value? c = none := by
      rw [Option.eq_none_iff_forall_ne_some]
      intro v hv
      exact hascii (of_value? hv).1
    have hforeign : c ∉ alphabet := not_mem_of_not_ascii (by decide) hascii
    rw [hnone, toLower_of_not_ascii hascii, List.idxOf?_eq_none_iff.2 hforeign]
    rfl

/-- A digit in either case has the value of the small one. -/
theorem value?_of_toLower {n : UInt8} (hn : n < 16) (h : c.toLower = digit n) :
    value? c = some n := by
  have hsmall : (digit n).toLower = digit n :=
    of_halfByte (P := fun n => (digit n).toLower = digit n) (by decide) hn
  rw [← value?_digit hn, value?_eq, value?_eq, h, hsmall]

theorem isAsciiBlank_iff :
    Text.isAsciiBlank c = true ↔ c ∈ [' ', '\t', '\n', '\x0b', '\x0c', '\r'] := by
  by_cases hascii : c.toNat < 128
  · exact Text.of_ascii
      (P := fun c => Text.isAsciiBlank c = true ↔ c ∈ [' ', '\t', '\n', '\x0b', '\x0c', '\r'])
      (by decide +kernel) c hascii
  · constructor
    · intro hblank
      exact absurd (lt_of_isAsciiBlank hblank) hascii
    · intro hmem
      exact absurd hmem (not_mem_of_not_ascii (by decide) hascii)

/-! ## The mark -/

/-- A text and what is left of it when one `0x` or `0X` is taken from its front. -/
inductive Unmarked : List Char → List Char → Prop where
  | small {cs : List Char} : Unmarked ('0' :: 'x' :: cs) cs
  | capital {cs : List Char} : Unmarked ('0' :: 'X' :: cs) cs
  | bare {cs : List Char} : ¬ ['0', 'x'] <+: cs → ¬ ['0', 'X'] <+: cs → Unmarked cs cs

theorem unmarked_iff : Unmarked cs rest ↔ dropMark cs = rest := by
  constructor
  · intro h
    cases h with
    | small => rfl
    | capital => rfl
    | bare hsmall hcapital =>
      unfold dropMark
      split
      · exact absurd ⟨_, rfl⟩ hsmall
      · exact absurd ⟨_, rfl⟩ hcapital
      · rfl
  · rintro rfl
    unfold dropMark
    split
    · exact .small
    · exact .capital
    · next hsmall hcapital =>
      refine .bare ?_ ?_
      · rintro ⟨ds, rfl⟩
        exact hsmall ds rfl
      · rintro ⟨ds, rfl⟩
        exact hcapital ds rfl

/-! ## Where digit pairs break off -/

/-- Digit pairs break off before a digit that is offending or missing. -/
inductive BreaksAt : List Char → Nat → Prop where
  /-- A character after the pairs is neither a blank nor a digit. -/
  | first {cs rest : List Char} {b : Bytes} {c : Char} :
    Pairs cs b → Text.isAsciiBlank c = false → value? c = none →
      BreaksAt (cs ++ c :: rest) cs.length
  /-- The digit after the pairs is not followed by a second one. -/
  | second {cs rest : List Char} {b : Bytes} {c : Char} {hi : UInt8} :
    Pairs cs b → value? c = some hi → (∀ d ∈ rest.head?, value? d = none) →
      BreaksAt (cs ++ c :: rest) (cs.length + 1)

theorem BreaksAt.blank (hblank : Text.isAsciiBlank c = true) (h : BreaksAt cs i) :
    BreaksAt (c :: cs) (i + 1) := by
  cases h with
  | first hpairs hc hnone => exact .first (.blank hblank hpairs) hc hnone
  | second hpairs hhi hnext => exact .second (.blank hblank hpairs) hhi hnext

theorem BreaksAt.pair {hi lo : UInt8} (hhi : value? c = some hi) (hlo : value? d = some lo)
    (h : BreaksAt cs i) : BreaksAt (c :: d :: cs) (i + 2) := by
  cases h with
  | first hpairs hc hnone => exact .first (.pair hhi hlo hpairs) hc hnone
  | second hpairs hhi' hnext => exact .second (.pair hhi hlo hpairs) hhi' hnext

/-- Reading stops where the pairs break off. -/
theorem BreaksAt.read (h : BreaksAt cs j) (i : Nat) : readPairs i cs = .error (i + j) := by
  cases h with
  | @first before after b c hpairs hc hnone =>
    have hstop : readPairs (i + before.length) (c :: after) = .error (i + before.length) := by
      rw [readPairs, if_neg (ne_true_of_eq_false hc), hnone]
    rw [hpairs.read_append, hstop, Except.map]
  | @second before after b c hi hpairs hhi hnext =>
    have hstop : readPairs (i + before.length) (c :: after) = .error (i + before.length + 1) := by
      rw [readPairs, if_neg (ne_true_of_eq_false (of_value? hhi).2), hhi]
      cases after with
      | nil => rfl
      | cons d after =>
        have hnone : value? d = none := hnext d rfl
        simp only [hnone]
    rw [hpairs.read_append, hstop, Except.map, Nat.add_assoc]

theorem breaksAt_of_read (h : readPairs i cs = .error j) : ∃ k, j = i + k ∧ BreaksAt cs k := by
  fun_induction readPairs i cs generalizing j with
  | case1 => simp at h
  | case2 i c cs hblank ih =>
    obtain ⟨k, hj, hbreak⟩ := ih h
    exact ⟨k + 1, by omega, hbreak.blank hblank⟩
  | case3 i c cs hblank hnone =>
    obtain rfl := Except.error.inj h
    exact ⟨0, rfl, .first .done (by simpa using hblank) hnone⟩
  | case4 i c hblank hi hhi =>
    obtain rfl := Except.error.inj h
    exact ⟨1, rfl, .second .done hhi (by simp)⟩
  | case5 i c hblank hi hhi d ds hnone =>
    obtain rfl := Except.error.inj h
    exact ⟨1, rfl, .second .done hhi (by simpa using hnone)⟩
  | case6 i c hblank hi hhi d ds lo hlo ih =>
    cases hrest : readPairs (i + 2) ds with
    | ok b => simp [hrest, Except.map] at h
    | error place =>
      obtain ⟨k, hplace, hbreak⟩ := ih hrest
      rw [hrest] at h
      obtain rfl := Except.error.inj h
      exact ⟨k + 2, by omega, hbreak.pair hhi hlo⟩

theorem readPairs_eq_error_iff : readPairs 0 cs = .error i ↔ BreaksAt cs i := by
  constructor
  · intro h
    obtain ⟨k, hi, hbreak⟩ := breaksAt_of_read h
    rw [Nat.zero_add] at hi
    rwa [hi]
  · intro h
    rw [h.read 0, Nat.zero_add]

/-! ## The position that is reported -/

/-- The first character outside ASCII stands at a position. -/
def FirstForeign (cs : List Char) (i : Nat) : Prop :=
  ∃ c, cs[i]? = some c ∧ 128 ≤ c.toNat ∧ ∀ d ∈ cs.take i, d.toNat < 128

/-- The position by which a text that is no digit pairs is reported. -/
def FaultAt (cs : List Char) (i : Nat) : Prop :=
  FirstForeign cs i ∨ (∀ c ∈ cs, c.toNat < 128) ∧ BreaksAt cs i

theorem findIdx?_eq_some_iff :
    cs.findIdx? (fun c => 128 ≤ c.toNat) = some i ↔ FirstForeign cs i := by
  rw [List.findIdx?_eq_some_iff_getElem]
  unfold FirstForeign
  simp only [List.getElem?_eq_some_iff, List.mem_take_iff_getElem]
  constructor
  · rintro ⟨hlt, hforeign, hbefore⟩
    refine ⟨_, ⟨hlt, rfl⟩, by simpa using hforeign, ?_⟩
    rintro d ⟨k, hk, rfl⟩
    simpa using hbefore k (by omega)
  · rintro ⟨c, ⟨hlt, rfl⟩, hforeign, hbefore⟩
    refine ⟨hlt, by simpa using hforeign, ?_⟩
    intro k hk
    simpa using hbefore cs[k] ⟨k, by omega, rfl⟩

theorem decodePairs_eq_error_iff : decodePairs cs = .error i ↔ FaultAt cs i := by
  unfold decodePairs FaultAt
  cases hfind : cs.findIdx? (fun c => 128 ≤ c.toNat) with
  | some k =>
    -- a text with a foreign character is not asked for its pairs
    have hnot : ¬ ∀ c ∈ cs, c.toNat < 128 := by
      intro hall
      obtain ⟨c, hc, hforeign, -⟩ := findIdx?_eq_some_iff.1 hfind
      have hascii := hall c (List.mem_of_getElem? hc)
      omega
    rw [← findIdx?_eq_some_iff, hfind]
    simp only [hnot, false_and, or_false, Except.error.injEq, Option.some.injEq]
  | none =>
    have hascii : ∀ c ∈ cs, c.toNat < 128 := by simpa using List.findIdx?_eq_none_iff.1 hfind
    rw [← findIdx?_eq_some_iff, hfind]
    simp only [reduceCtorEq, false_or, and_iff_right hascii, readPairs_eq_error_iff]

/-! ## Texts -/

/-- A text is read if what is left without its mark is digit pairs. -/
theorem decode_eq_ok_iff : decode s = .ok b ↔ ∃ rest, Unmarked s.toList rest ∧ Pairs rest b := by
  simp only [unmarked_iff, exists_eq_left']
  exact decodePairs_iff

/-- Every other text is reported by the position of its fault. -/
theorem decode_eq_error_iff :
    decode s = .error i ↔ ∃ rest, Unmarked s.toList rest ∧ FaultAt rest i := by
  simp only [unmarked_iff, exists_eq_left']
  exact decodePairs_eq_error_iff

/-! ## Letter case -/

theorem pairs_of_toLower (h : cs.map Char.toLower = b.flatMap encodeByte) : Pairs cs b := by
  induction b generalizing cs with
  | nil =>
    obtain rfl := List.map_eq_nil_iff.1 h
    exact .done
  | cons x rest ih =>
    obtain ⟨c, ds, rfl, hc, hds⟩ := List.map_eq_cons_iff.1 h
    obtain ⟨d, ds, rfl, hd, hds⟩ := List.map_eq_cons_iff.1 hds
    rcases halves_lt x with ⟨hhi, hlo⟩
    exact .byte (value?_of_toLower hhi hc) (value?_of_toLower hlo hd) (ih hds)

/-- What is written may be read in capitals as well, and with a mark in front. -/
theorem decode_of_toLower (h : s.toLower = encode b ∨ s.toLower = "0x" ++ encode b) :
    decode s = .ok b := by
  rw [decode_eq_ok_iff]
  rcases h with h | h
  · have hlower : s.toList.map Char.toLower = b.flatMap encodeByte := by
      rw [← String.toList_map]
      have hlist := congrArg String.toList h
      rwa [toList_encode] at hlist
    have hpairs := pairs_of_toLower hlower
    exact ⟨_, unmarked_iff.2 hpairs.dropMark_eq, hpairs⟩
  · have hlower : s.toList.map Char.toLower = '0' :: 'x' :: b.flatMap encodeByte := by
      rw [← String.toList_map]
      have hlist := congrArg String.toList h
      rwa [String.toList_append, toList_encode] at hlist
    obtain ⟨z, ds, hs, hz, hds⟩ := List.map_eq_cons_iff.1 hlower
    obtain ⟨x, cs, rfl, hx, hcs⟩ := List.map_eq_cons_iff.1 hds
    obtain rfl : z = '0' := or_self_iff.1 (eq_of_toLower hz)
    refine ⟨cs, ?_, pairs_of_toLower hcs⟩
    rw [hs]
    rcases eq_of_toLower hx with rfl | rfl
    · exact .small
    · exact .capital

end NodeStore.Hex
