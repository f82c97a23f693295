import NodeStore.Proofs.SeedPhrase.Entropy
import NodeStore.Proofs.SeedPhrase.WordList

/-!
# What is accepted is what is generated

The words of a phrase are looked up one by one. For the words of entropy this gives back their
numbers, and in ASCII only the words of the list are found. So the phrase of entropy is accepted
as it is (`parse?_ofEntropy`), and a phrase in ASCII is accepted exactly if it is the phrase of
some entropy once its blanks are collapsed and its letters are small (`parse?_eq_some_iff`).
-/

namespace NodeStore

namespace Text

/-- The characters of a run stand in the text. -/
theorem mem_of_mem_runs {p : Char → Bool} {cs w : List Char} {c : Char} (hw : w ∈ runs p cs)
    (hc : c ∈ w) : c ∈ cs := by
  fun_induction runs p cs generalizing w with
  | case1 => simp at hw
  | case2 d cs hd ih => exact List.mem_cons_of_mem d (ih hw hc)
  | case3 d hd =>
    rw [List.mem_singleton] at hw
    exact hw ▸ hc
  | case4 d hd e cs he ih =>
    rcases List.mem_cons.1 hw with rfl | hw
    · rw [List.mem_singleton.1 hc]
      exact List.mem_cons_self
    · exact List.mem_cons_of_mem d (ih hw hc)
  | case5 d hd e cs he hnil ih =>
    rw [hnil, List.mem_singleton] at hw
    subst hw
    rw [List.mem_singleton.1 hc]
    exact List.mem_cons_self
  | case6 d hd e cs he v vs hcons ih =>
    rw [hcons] at hw ih
    rcases List.mem_cons.1 hw with rfl | hw
    · rcases List.mem_cons.1 hc with rfl | hc
      · exact List.mem_cons_self
      · exact List.mem_cons_of_mem d (ih List.mem_cons_self hc)
    · exact List.mem_cons_of_mem d (ih (List.mem_cons_of_mem v hw) hc)

theorem mem_of_mem_words {s w : String} {c : Char} (hw : w ∈ words s) (hc : c ∈ w.toList) :
    c ∈ s.toList := by
  rcases List.mem_map.1 hw with ⟨cs, hcs, rfl⟩
  rw [String.toList_ofList] at hc
  exact mem_of_mem_runs hcs hc

/-- The small letters of ASCII are in ASCII. -/
theorem lower_ascii : ∀ c : Char, c.toNat < 128 → (lower c).toNat < 128 :=
  of_ascii (by decide +kernel)

theorem intercalate_cons_cons {α : Type} (sep v w : List α) (ws : List (List α)) :
    sep.intercalate (v :: w :: ws) = v ++ (sep ++ sep.intercalate (w :: ws)) := by
  simp [List.intercalate, List.intersperse]

theorem map_intercalate (f : Char → Char) (sep : List Char) (ws : List (List Char)) :
    (sep.intercalate ws).map f = (sep.map f).intercalate (ws.map (List.map f)) := by
  induction ws with
  | nil => rfl
  | cons v ws ih =>
    cases ws with
    | nil => simp [List.intercalate]
    | cons w ws =>
      rw [List.map_cons] at ih
      rw [intercalate_cons_cons, List.map_append, List.map_append, ih, List.map_cons,
        List.map_cons, intercalate_cons_cons]

theorem mem_intercalate {sep : List Char} {ws : List (List Char)} {c : Char}
    (hc : c ∈ sep.intercalate ws) : c ∈ sep ∨ ∃ w ∈ ws, c ∈ w := by
  induction ws with
  | nil => simp [List.intercalate] at hc
  | cons v ws ih =>
    cases ws with
    | nil => exact Or.inr ⟨v, List.mem_cons_self, by simpa [List.intercalate] using hc⟩
    | cons w ws =>
      rw [intercalate_cons_cons, List.mem_append, List.mem_append] at hc
      rcases hc with hc | hc | hc
      · exact Or.inr ⟨v, List.mem_cons_self, hc⟩
      · exact Or.inl hc
      · rcases ih hc with hsep | ⟨u, hu, huc⟩
        · exact Or.inl hsep
        · exact Or.inr ⟨u, List.mem_cons_of_mem v hu, huc⟩

end Text

namespace SeedPhrase

open Text

variable {phrase kept : String} {ws : List String} {numbers : List Nat} {entropy : Bytes}

/-! ## The form in which a phrase is kept -/

/-- A phrase in small letters with one space between words. -/
def collapsed (phrase : String) : String :=
  String.ofList ((" ".intercalate (words phrase)).toList.map lower)

/-- Small letters are made word by word. -/
theorem collapsed_eq (phrase : String) : collapsed phrase = " ".intercalate (wordsOf phrase) := by
  have hlists : (" ".intercalate (words phrase)).toList.map lower =
      (" ".intercalate (wordsOf phrase)).toList := by
    have hword : String.toList ∘ (fun w => String.ofList (w.toList.map lower)) =
        List.map lower ∘ String.toList := by
      funext w
      exact String.toList_ofList
    have hspace : " ".toList.map lower = " ".toList := by decide
    rw [String.toList_intercalate, String.toList_intercalate, map_intercalate, wordsOf,
      List.map_map, List.map_map, hword, hspace]
  rw [collapsed, hlists, String.ofList_toList]

theorem wordsOf_collapsed (phrase : String) : wordsOf (collapsed phrase) = wordsOf phrase := by
  rw [collapsed_eq, wordsOf_intercalate]

theorem wordsOf_ascii (hascii : ∀ c ∈ phrase.toList, c.toNat < 128) {w : String}
    (hw : w ∈ wordsOf phrase) : ∀ c ∈ w.toList, c.toNat < 128 := by
  rcases List.mem_map.1 hw with ⟨v, hv, rfl⟩
  intro c hc
  rw [String.toList_ofList] at hc
  rcases List.mem_map.1 hc with ⟨d, hd, rfl⟩
  exact lower_ascii d (hascii d (mem_of_mem_words hv hd))

/-! ## Looking words up -/

/-- The number of a word. -/
def lookUp (w : String) : Option Nat :=
  wordList.idxOf? (plainWord w)

/-- The words with given numbers are looked up again. -/
theorem mapM_lookUp (h : ∀ n ∈ numbers, n < 2048) :
    (numbers.map word).mapM lookUp = some numbers := by
  rw [mapM_eq_some_iff, List.forall₂_map_left_iff, List.forall₂_same]
  intro n hn
  rw [lookUp, plainWord_word (h n hn), idxOf?_word (h n hn)]

/-- Words in ASCII that are found are the words with their numbers. -/
theorem of_mapM_lookUp (hascii : ∀ w ∈ ws, ∀ c ∈ w.toList, c.toNat < 128)
    (h : ws.mapM lookUp = some numbers) :
    ws = numbers.map word ∧ ∀ n ∈ numbers, n < 2048 := by
  have hfound := mapM_eq_some_iff.1 h
  clear h
  induction hfound with
  | nil => exact ⟨rfl, by simp⟩
  | cons hw _ ih =>
    rcases ih fun v hv => hascii v (List.mem_cons_of_mem _ hv) with ⟨hrest, hlt⟩
    -- a word in ASCII is its own plain form, so it is the word of the list that is found
    rw [lookUp, plainWord_ascii (hascii _ List.mem_cons_self)] at hw
    rcases word_of_idxOf? hw with ⟨hn, hword⟩
    exact ⟨by rw [List.map_cons, hword, ← hrest], List.forall_mem_cons.2 ⟨hn, hlt⟩⟩

/-- Words are valid if they have numbers, three for each bit of the checksum in them, and that is
the checksum of the entropy in them. -/
theorem isValid_iff : isValid ws = true ↔ ∃ numbers k, ws.mapM lookUp = some numbers ∧
    numbers.length = 3 * k ∧ (4 ≤ k ∧ k ≤ 8) ∧
    checksum (entropyOf numbers).1 = (entropyOf numbers).2 := by
  have hcounts : strengths.map wordCount = [12, 15, 18, 21, 24] := rfl
  have hlookUp : ws.mapM (fun w => wordList.idxOf? (plainWord w)) = ws.mapM lookUp := rfl
  rw [isValid, hcounts, hlookUp, Bool.and_eq_true]
  cases hmap : ws.mapM lookUp with
  | none => simp
  | some numbers =>
    have hlen : numbers.length = ws.length := (mapM_eq_some_iff.1 hmap).length_eq.symm
    simp only [beq_iff_eq, List.contains_iff_mem, List.mem_cons, List.not_mem_nil, or_false,
      Option.some.injEq, ← hlen]
    constructor
    · rintro ⟨hcount, hcheck⟩
      exact ⟨numbers, numbers.length / 3, rfl, by omega, by omega, hcheck⟩
    · rintro ⟨_, k, rfl, hk, hrange, hcheck⟩
      exact ⟨by omega, hcheck⟩

/-! ## Generated phrases -/

theorem ofEntropy_eq (entropy : Bytes) :
    ofEntropy entropy = " ".intercalate ((wordNumbers entropy).map word) := rfl

/-- The words of a generated phrase are those with the numbers of the entropy. -/
theorem words_ofEntropy (entropy : Bytes) :
    words (ofEntropy entropy) = (wordNumbers entropy).map word := by
  rw [ofEntropy_eq]
  apply words_intercalate
  intro w hw
  rcases List.mem_map.1 hw with ⟨n, hn, rfl⟩
  rcases word_toList (lt_of_mem_wordNumbers hn) with ⟨hne, hsmall⟩
  exact ⟨hne, fun c hc => (hsmall c hc).isBlank⟩

theorem wordsOf_ofEntropy (entropy : Bytes) :
    wordsOf (ofEntropy entropy) = (wordNumbers entropy).map word := by
  have hsame : ∀ n ∈ wordNumbers entropy,
      String.ofList ((word n).toList.map lower) = word n := by
    intro n hn
    exact lower_word (lt_of_mem_wordNumbers hn)
  rw [wordsOf, words_ofEntropy, List.map_map]
  exact List.map_congr_left hsame

/-- A generated phrase has one word for each eleven bits of the entropy and its checksum. -/
theorem length_words_ofEntropy (entropy : Bytes) :
    (words (ofEntropy entropy)).length = wordCount (8 * entropy.length) := by
  rw [words_ofEntropy, List.length_map, wordNumbers, length_digits2048]

/-- A generated phrase is made of small letters and spaces. -/
theorem mem_ofEntropy {c : Char} (hc : c ∈ (ofEntropy entropy).toList) : IsSmall c ∨ c = ' ' := by
  rw [ofEntropy_eq, String.toList_intercalate] at hc
  rcases mem_intercalate hc with hc | ⟨cs, hcs, hc⟩
  · exact Or.inr (List.mem_singleton.1 hc)
  · rcases List.mem_map.1 hcs with ⟨w, hw, rfl⟩
    rcases List.mem_map.1 hw with ⟨n, hn, rfl⟩
    exact Or.inl ((word_toList (lt_of_mem_wordNumbers hn)).2 c hc)

/-- The words of entropy are valid. -/
theorem isValid_ofEntropy (h : entropy.length ∈ entropySizes) :
    isValid ((wordNumbers entropy).map word) = true := by
  rcases exists_checkSize h with ⟨k, hlen, hrange⟩
  refine isValid_iff.2 ⟨wordNumbers entropy, k, mapM_lookUp fun n hn => lt_of_mem_wordNumbers hn,
    length_wordNumbers hlen, hrange, ?_⟩
  rw [entropyOf_wordNumbers h]

/-- Valid words in ASCII are the words of some entropy. -/
theorem exists_entropy (hascii : ∀ w ∈ ws, ∀ c ∈ w.toList, c.toNat < 128)
    (h : isValid ws = true) :
    ∃ entropy : Bytes, entropy.length ∈ entropySizes ∧ (wordNumbers entropy).map word = ws := by
  rcases isValid_iff.1 h with ⟨numbers, k, hmap, hlen, ⟨h4, h8⟩, hcheck⟩
  rcases of_mapM_lookUp hascii hmap with ⟨rfl, hlt⟩
  refine ⟨(entropyOf numbers).1, ?_, by rw [wordNumbers_entropyOf hlen hlt hcheck]⟩
  rw [entropyOf_eq hlen, Bytes.length_ofNat]
  exact mem_entropySizes h4 h8

/-- A generated phrase is accepted and kept as it is. -/
theorem parse?_ofEntropy (h : entropy.length ∈ entropySizes) :
    parse? (ofEntropy entropy) = some (ofEntropy entropy) := by
  rw [parse?_of_wordsOf (wordsOf_ofEntropy ..) (isValid_ofEntropy h), ← ofEntropy_eq]

/-- A phrase in ASCII is accepted exactly if it is a generated one up to blanks and capitals, and
then the generated one is kept. -/
theorem parse?_eq_some_iff (hascii : ∀ c ∈ phrase.toList, c.toNat < 128) :
    parse? phrase = some kept ↔ kept = collapsed phrase ∧
      ∃ entropy : Bytes, entropy.length ∈ entropySizes ∧
        collapsed phrase = ofEntropy entropy := by
  rw [parse?_ofString, parseText?, ← collapsed_eq]
  constructor
  · intro h
    by_cases hvalid : isValid (wordsOf phrase) = true
    · rw [if_pos hvalid] at h
      rcases exists_entropy (fun w hw => wordsOf_ascii hascii hw) hvalid with ⟨entropy, hsize, hws⟩
      refine ⟨(Option.some.inj h).symm, entropy, hsize, ?_⟩
      rw [ofEntropy_eq, hws, collapsed_eq]
    · rw [if_neg hvalid] at h
      simp at h
  · rintro ⟨rfl, entropy, hsize, heq⟩
    have hvalid : isValid (wordsOf phrase) = true := by
      rw [← wordsOf_collapsed, heq, wordsOf_ofEntropy]
      exact isValid_ofEntropy hsize
    rw [if_pos hvalid]

end SeedPhrase

end NodeStore
