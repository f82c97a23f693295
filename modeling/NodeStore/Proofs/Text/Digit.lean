import NodeStore.Text.Digit

/-! # Decimal numbers are read as they were written

* `natOfDigits_digitsOf`: the digits of a number stand for it;
* `decimal_injective`: numbers that are written alike are equal;
* `head?_digitsOf`: the first digit is zero only if it is the only one. -/

namespace NodeStore.Text

theorem asciiDigit?_digitChar {d : Nat} (h : d < 10) : asciiDigit? (Nat.digitChar d) = some d := by
  have hall : ∀ d, d < 10 → asciiDigit? (Nat.digitChar d) = some d := by decide
  exact hall d h

/-- The values of the digits that a number is written with. -/
def digitsOf (n : Nat) : List Nat :=
  (Nat.toDigits 10 n).filterMap asciiDigit?

theorem digitsOf_of_lt {n : Nat} (h : n < 10) : digitsOf n = [n] := by
  unfold digitsOf
  rw [Nat.toDigits_of_lt_base h, List.filterMap_cons, asciiDigit?_digitChar h]
  rfl

/-- The last digit comes after the digits of what is left of the number. -/
theorem digitsOf_of_ge {n : Nat} (h : 10 ≤ n) : digitsOf n = digitsOf (n / 10) ++ [n % 10] := by
  have hlast : n % 10 < 10 := by omega
  unfold digitsOf
  rw [Nat.toDigits_of_base_le (by omega) h, List.filterMap_append, List.filterMap_cons,
    asciiDigit?_digitChar hlast]
  rfl

/-- The digits of a number stand for it. -/
theorem natOfDigits_digitsOf (n : Nat) : natOfDigits (digitsOf n) = n := by
  induction n using Nat.strongRecOn with
  | ind n ih =>
    by_cases hn : n < 10
    · rw [digitsOf_of_lt hn]
      simp [natOfDigits]
    · have hrest := ih (n / 10) (by omega)
      unfold natOfDigits at hrest ⊢
      rw [digitsOf_of_ge (by omega), List.foldl_append, hrest, List.foldl_cons, List.foldl_nil]
      omega

/-- Numbers that are written alike are equal. -/
theorem decimal_injective {m n : Nat} (h : decimal m = decimal n) : m = n := by
  have hdigits : digitsOf m = digitsOf n := by
    unfold digitsOf
    rw [String.ofList_inj.1 h]
  rw [← natOfDigits_digitsOf m, hdigits, natOfDigits_digitsOf]

theorem digitsOf_ne_nil (n : Nat) : digitsOf n ≠ [] := by
  by_cases hn : n < 10
  · rw [digitsOf_of_lt hn]
    simp
  · rw [digitsOf_of_ge (by omega)]
    simp

/-- The first digit of a number is zero only if it is the only one. -/
theorem head?_digitsOf {n : Nat} (h : (digitsOf n).head? = some 0) : (digitsOf n).length = 1 := by
  induction n using Nat.strongRecOn with
  | ind n ih =>
    by_cases hn : n < 10
    · rw [digitsOf_of_lt hn]
      rfl
    · -- the digits in front would be those of zero, and there is more of the number
      have hfront : (digitsOf (n / 10)).head? = some 0 := by
        rw [digitsOf_of_ge (by omega)] at h
        obtain ⟨d, ds, hds⟩ := List.exists_cons_of_ne_nil (digitsOf_ne_nil (n / 10))
        rw [hds] at h ⊢
        exact h
      have hone := ih (n / 10) (by omega) hfront
      have hzero : natOfDigits (digitsOf (n / 10)) = 0 := by
        obtain ⟨d, hd⟩ := List.length_eq_one_iff.1 hone
        rw [hd] at hfront ⊢
        simp only [List.head?_cons, Option.some.injEq] at hfront
        simp [natOfDigits, hfront]
      rw [natOfDigits_digitsOf] at hzero
      omega

/-- A number is written with digits only. -/
theorem isAsciiDigit_of_mem {n : Nat} {c : Char} (h : c ∈ Nat.toDigits 10 n) :
    isAsciiDigit c = true := by
  induction n using Nat.strongRecOn with
  | ind n ih =>
    have hdigit : ∀ d, d < 10 → isAsciiDigit (Nat.digitChar d) = true := by
      intro d hd
      unfold isAsciiDigit
      rw [asciiDigit?_digitChar hd]
      rfl
    by_cases hn : n < 10
    · rw [Nat.toDigits_of_lt_base hn, List.mem_singleton] at h
      rw [h]
      exact hdigit n hn
    · rw [Nat.toDigits_of_base_le (by omega) (by omega), List.mem_append, List.mem_singleton] at h
      rcases h with h | rfl
      · exact ih (n / 10) (by omega) h
      · exact hdigit _ (by omega)

/-- There is a value for every digit that is written. -/
theorem length_digitsOf (n : Nat) : (digitsOf n).length = (Nat.toDigits 10 n).length := by
  unfold digitsOf
  rw [List.length_filterMap_eq_countP, List.countP_eq_length]
  intro c hc
  exact isAsciiDigit_of_mem hc

end NodeStore.Text
