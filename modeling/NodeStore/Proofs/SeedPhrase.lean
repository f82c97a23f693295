import NodeStore.Proofs.Text.Raw
import NodeStore.SeedPhrase.Basic

/-! # The kept form of a phrase

A phrase is kept in small letters with one space between words, and what is kept is a phrase
again, in its kept form (`parse?_kept`). This rests on two facts about letters: small letters are
left as they are (`lower_lower`), and no letter becomes blank (`isBlank_lower`). -/

namespace NodeStore

namespace Text

/-- The character is left as it is and is not blank. -/
def Settled (c : Char) : Prop :=
  lower c = c ∧ isBlank c = false

instance (c : Char) : Decidable (Settled c) :=
  inferInstanceAs (Decidable (_ ∧ _))

/-- The small letters of the capitals in the table are settled. -/
theorem settled_of_run : ∀ run ∈ capitalRuns, ∀ i ≤ run.2.1 - run.1,
    Settled (Char.ofNat (run.2.2 + i)) := by
  decide +kernel

theorem settled_of_capital : ∀ i < 26, Settled (Char.ofNat (65 + i + 32)) := by
  decide +kernel

/-- The small letter of a character is the character itself or is settled. -/
theorem lower_cases (c : Char) : lower c = c ∨ Settled (lower c) := by
  unfold lower
  by_cases hcapital : 'A' ≤ c ∧ c ≤ 'Z'
  · rw [if_pos hcapital]
    have hlow : 65 ≤ c.toNat := hcapital.1
    have hhigh : c.toNat ≤ 90 := hcapital.2
    have h := settled_of_capital (c.toNat - 65) (by omega)
    rw [show 65 + (c.toNat - 65) + 32 = c.toNat + 32 by omega] at h
    exact Or.inr h
  rw [if_neg hcapital]
  by_cases hascii : c.toNat < 128
  · rw [if_pos hascii]
    exact Or.inl rfl
  rw [if_neg hascii]
  -- A letter outside ASCII is small already, or its run of the table gives the small one.
  generalize hfind : capitalRuns.findSome? _ = found
  cases found with
  | none => exact Or.inl rfl
  | some d =>
    rcases List.exists_of_findSome?_eq_some hfind with ⟨run, hrun, hd⟩
    rcases run with ⟨first, last, small⟩
    by_cases hin : first ≤ c.toNat ∧ c.toNat ≤ last
    · simp only [hin, and_self, if_true, Option.some.injEq] at hd
      subst hd
      have hplace : c.toNat - first ≤ last - first := by omega
      exact Or.inr (settled_of_run _ hrun (c.toNat - first) hplace)
    · simp [hin] at hd

theorem lower_lower (c : Char) : lower (lower c) = lower c := by
  rcases lower_cases c with h | h
  · rw [h, h]
  · exact h.1

theorem isBlank_lower {c : Char} (h : isBlank c = false) : isBlank (lower c) = false := by
  rcases lower_cases c with hsame | hsettled
  · rw [hsame]
    exact h
  · exact hsettled.2

end Text

namespace SeedPhrase

open Text

/-- The words of a phrase are not empty, have no blanks, and are left as they are. -/
theorem wordsOf_spec {phrase w : String} (hw : w ∈ wordsOf phrase) :
    (w.toList ≠ [] ∧ ∀ c ∈ w.toList, isBlank c = false) ∧
      String.ofList (w.toList.map lower) = w := by
  rcases List.mem_map.1 hw with ⟨v, hv, rfl⟩
  rcases List.mem_map.1 hv with ⟨cs, hcs, rfl⟩
  rcases runs_outside hcs with ⟨hne, hout⟩
  simp only [String.toList_ofList, List.map_map]
  refine ⟨⟨?_, ?_⟩, ?_⟩
  · simpa using hne
  · intro c hc
    rcases List.mem_map.1 hc with ⟨d, hd, rfl⟩
    exact isBlank_lower (hout d hd)
  · have hid : lower ∘ lower = lower := funext lower_lower
    rw [hid]

/-- The words of the kept form are the words of the phrase. -/
theorem wordsOf_intercalate (phrase : String) :
    wordsOf (" ".intercalate (wordsOf phrase)) = wordsOf phrase := by
  have hwords : words (" ".intercalate (wordsOf phrase)) = wordsOf phrase := by
    apply words_intercalate
    intro w hw
    exact (wordsOf_spec hw).1
  show (words (" ".intercalate (wordsOf phrase))).map
    (fun w => String.ofList (w.toList.map lower)) = wordsOf phrase
  rw [hwords]
  have hsame : ∀ w ∈ wordsOf phrase, String.ofList (w.toList.map lower) = id w := by
    intro w hw
    exact (wordsOf_spec hw).2
  rw [List.map_congr_left hsame, List.map_id]

/-- A phrase without surrogates is read by its words. -/
theorem parse?_ofString (phrase : String) : parse? phrase = parseText? phrase := by
  simp only [parse?, RawText.text_ofString, Except.toOption, Option.bind_some]

/-- A phrase with valid words is kept as these words, with one space between them. -/
theorem parse?_of_wordsOf {phrase : String} {ws : List String} (hwords : wordsOf phrase = ws)
    (hvalid : isValid ws = true) : parse? phrase = some (" ".intercalate ws) := by
  rw [parse?_ofString, parseText?, hwords, if_pos hvalid]

/-- The words of sixteen zero bytes are valid. -/
theorem isValid_zeros : isValid (List.replicate 11 "abandon" ++ ["about"]) = true := by
  decide +kernel

/-- The kept form of a phrase is a phrase, and is its own kept form. -/
theorem parse?_kept {phrase : RawText} {kept : String} (h : parse? phrase = some kept) :
    parse? kept = some kept := by
  rcases Option.bind_eq_some_iff.1 h with ⟨text, -, htext⟩
  rw [parse?_ofString]
  unfold parseText? at htext
  by_cases hvalid : isValid (wordsOf text) = true
  · simp only [hvalid, if_true, Option.some.injEq] at htext
    subst htext
    unfold parseText?
    rw [wordsOf_intercalate]
    simp only [hvalid, if_true]
  · simp [hvalid] at htext

end SeedPhrase

end NodeStore
