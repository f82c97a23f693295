import Mathlib.Data.List.Chain
import Mathlib.Data.List.GetD
import Mathlib.Data.List.Nodup
import NodeStore.Proofs.SeedPhrase

/-!
# The words of the list

What is said of all the words is looked up in their bytes: the spellings are made of small letters
and stand in alphabetical order. So the words are distinct, a word is found at its number
(`idxOf?_word`), and reading a word changes nothing in it (`lower_word`, `plainWord_word`).
-/

namespace NodeStore.SeedPhrase

open Text

/-! ## Spellings -/

/-- The bytes of a word. -/
def spelling (w : String) : List UInt8 :=
  w.toByteArray.data.toList

theorem length_wordList : wordList.length = 2048 := by decide +kernel

/-- The words are spelled with small letters. -/
theorem spelling_letters {w : String} (hw : w ∈ wordList) :
    spelling w ≠ [] ∧ ∀ b ∈ spelling w, 97 ≤ b.toNat ∧ b.toNat ≤ 122 := by
  have hall : ∀ w ∈ wordList, spelling w ≠ [] ∧
      (spelling w).all fun b => 97 ≤ b.toNat && b.toNat ≤ 122 := by
    decide +kernel
  simpa using hall w hw

set_option maxRecDepth 20000 in
/-- The words stand in alphabetical order. -/
theorem spelling_ordered : wordList.IsChain fun v w => spelling v < spelling w := by
  decide +kernel

instance : Trans (fun v w : String => spelling v < spelling w)
    (fun v w : String => spelling v < spelling w)
    (fun v w : String => spelling v < spelling w) where
  trans h h' := List.lt_trans h h'

/-- No word stands in the list twice. -/
theorem wordList_nodup : wordList.Nodup := by
  refine spelling_ordered.pairwise.imp ?_
  rintro v w hlt rfl
  exact List.lt_irrefl _ hlt

/-! ## Letters -/

/-- A letter from `a` to `z`. -/
def IsSmall (c : Char) : Prop :=
  97 ≤ c.toNat ∧ c.toNat ≤ 122

/-- A word is spelled with the bytes of its letters. -/
theorem spelling_eq (w : String) : spelling w = w.toList.flatMap String.utf8EncodeChar := by
  have hlist : spelling (String.ofList w.toList) = w.toList.flatMap String.utf8EncodeChar := by
    rw [spelling, String.toByteArray_ofList, List.utf8Encode, List.data_toByteArray]
  rwa [String.ofList_toList] at hlist

/-- A character whose bytes are small letters is one. -/
theorem isSmall_of_bytes {c : Char}
    (h : ∀ b ∈ String.utf8EncodeChar c, 97 ≤ b.toNat ∧ b.toNat ≤ 122) : IsSmall c := by
  have hsize : c.toNat < 0x110000 := by
    rcases c.valid with hv | hv
    · exact Nat.lt_trans hv (by omega)
    · exact hv.2
  have hbyte : ∀ {n : Nat}, n < 256 → (UInt8.ofNat n).toNat = n := fun hn => by
    rw [UInt8.toNat_ofNat', Nat.mod_eq_of_lt hn]
  have hval : c.val.toNat = c.toNat := rfl
  -- Only ASCII characters are written in one byte, and the first of several is no letter.
  unfold String.utf8EncodeChar at h
  simp only [hval] at h
  split at h
  · have hb := h _ List.mem_cons_self
    rwa [hbyte (by omega)] at hb
  · split at h
    · have hb := h _ List.mem_cons_self
      rw [hbyte (by omega)] at hb
      omega
    · split at h
      · have hb := h _ List.mem_cons_self
        rw [hbyte (by omega)] at hb
        omega
      · have hb := h _ List.mem_cons_self
        rw [hbyte (by omega)] at hb
        omega

/-- The words are made of small letters. -/
theorem word_letters {w : String} (hw : w ∈ wordList) :
    w.toList ≠ [] ∧ ∀ c ∈ w.toList, IsSmall c := by
  rcases spelling_letters hw with ⟨hne, hbytes⟩
  rw [spelling_eq] at hne hbytes
  constructor
  · intro hnil
    rw [hnil] at hne
    exact hne rfl
  · intro c hc
    exact isSmall_of_bytes fun b hb => hbytes b (List.mem_flatMap.2 ⟨c, hc, hb⟩)

theorem IsSmall.isBlank {c : Char} (h : IsSmall c) : isBlank c = false := by
  rcases h with ⟨hlow, hhigh⟩
  have hspace : isSpace c = false := by
    simp only [isSpace, Bool.or_eq_false_iff, Bool.and_eq_false_iff, decide_eq_false_iff_not,
      beq_eq_false_iff_ne]
    omega
  simp only [Text.isBlank, hspace, Bool.false_or, Bool.and_eq_false_iff, decide_eq_false_iff_not]
  omega

theorem IsSmall.lower {c : Char} (h : IsSmall c) : lower c = c := by
  have hcapital : ¬ ('A' ≤ c ∧ c ≤ 'Z') := by
    rintro ⟨-, hz⟩
    have hz' : c.toNat ≤ 90 := hz
    exact absurd h.1 (by omega)
  have hascii : c.toNat < 128 := by
    have hhigh := h.2
    omega
  rw [Text.lower, if_neg hcapital, if_pos hascii]

/-- A character of ASCII is its own plain form. -/
theorem plain_ascii {c : Char} (h : c.toNat < 128) : plain c = [c] := if_pos h

/-- A word in ASCII is looked up as it is. -/
theorem plainWord_ascii {w : String} (h : ∀ c ∈ w.toList, c.toNat < 128) : plainWord w = w := by
  have hsame : w.toList.flatMap plain = w.toList := by
    calc w.toList.flatMap plain
        = w.toList.flatMap fun c => [c] := List.flatMap_congr fun c hc => plain_ascii (h c hc)
      _ = w.toList := by simp
  rw [plainWord, hsame, String.ofList_toList]

/-! ## Words by number -/

/-- The word with a number. -/
def word (n : Nat) : String :=
  wordList.getD n ""

theorem word_eq {n : Nat} (hn : n < wordList.length) : word n = wordList[n] :=
  List.getD_eq_getElem _ _ hn

theorem word_mem {n : Nat} (hn : n < 2048) : word n ∈ wordList := by
  rw [← length_wordList] at hn
  rw [word_eq hn]
  exact List.getElem_mem hn

/-- A word is found at its number. -/
theorem idxOf?_word {n : Nat} (hn : n < 2048) : wordList.idxOf? (word n) = some n := by
  rw [← length_wordList] at hn
  rw [List.idxOf?_eq_some_iff]
  refine ⟨hn, (word_eq hn).symm, ?_⟩
  intro j hj heq
  rw [word_eq hn] at heq
  exact absurd ((List.Nodup.getElem_inj_iff wordList_nodup).1 heq) (Nat.ne_of_lt hj)

/-- What is found is the word with the number. -/
theorem word_of_idxOf? {w : String} {n : Nat} (h : wordList.idxOf? w = some n) :
    n < 2048 ∧ word n = w := by
  rcases List.idxOf?_eq_some_iff.1 h with ⟨hn, heq, -⟩
  constructor
  · rwa [length_wordList] at hn
  · rw [word_eq hn, heq]

theorem word_toList {n : Nat} (hn : n < 2048) :
    (word n).toList ≠ [] ∧ ∀ c ∈ (word n).toList, IsSmall c :=
  word_letters (word_mem hn)

theorem lower_word {n : Nat} (hn : n < 2048) :
    String.ofList ((word n).toList.map lower) = word n := by
  have hsame : ∀ c ∈ (word n).toList, lower c = id c := by
    intro c hc
    exact ((word_toList hn).2 c hc).lower
  rw [List.map_congr_left hsame, List.map_id, String.ofList_toList]

theorem plainWord_word {n : Nat} (hn : n < 2048) : plainWord (word n) = word n := by
  apply plainWord_ascii
  intro c hc
  have hsmall := ((word_toList hn).2 c hc).2
  omega

end NodeStore.SeedPhrase
