import NodeStore.Proofs.Text.Blank
import NodeStore.Proofs.Text.Utf8
import NodeStore.Text.Raw

/-! # Texts with and without surrogates

* `text_eq_ok_iff`: a text without surrogates is the text of its characters;
* `encode_eq_ok_iff`: the texts that have bytes;
* `strip_ofString`: blanks around a text without surrogates. -/

namespace NodeStore.RawText

variable {t : RawText} {s : String}

@[simp] theorem points_ofString (s : String) : (ofString s).points = s.toList.map .char := rfl

theorem char_injective : Function.Injective CodePoint.char := fun _ _ => CodePoint.char.inj

theorem ofString_injective : Function.Injective ofString := by
  intro s u h
  have hpoints := congrArg points h
  rw [points_ofString, points_ofString, char_injective.list_map.eq_iff] at hpoints
  exact String.toList_inj.1 hpoints

/-- Code points are characters exactly if they are read as these, at any place. -/
theorem charsFrom_eq_ok_iff {pos : Nat} {ps : List CodePoint} {cs : List Char} :
    charsFrom pos ps = .ok cs ↔ ps = cs.map .char := by
  induction ps generalizing pos cs with
  | nil => cases cs <;> simp [charsFrom]
  | cons p rest ih =>
    cases p with
    | surrogate n => cases cs <;> simp [charsFrom]
    | char c =>
      rw [charsFrom]
      cases hrest : charsFrom (pos + 1) rest with
      | error fault =>
        -- the rest is no text either
        cases cs with
        | nil => simp [Except.map]
        | cons d ds =>
          have hnot : rest ≠ ds.map .char := fun h => by simp [ih.2 h] at hrest
          simp [Except.map, hnot]
      | ok ds =>
        have hds := ih.1 hrest
        subst hds
        cases cs with
        | nil => simp [Except.map]
        | cons d ds' => simp [Except.map, char_injective.list_map.eq_iff]

/-- A text without surrogates is the text of its characters. -/
theorem text_eq_ok_iff : t.text = .ok s ↔ t = s := by
  rcases t with ⟨ps⟩
  unfold text
  cases hchars : charsFrom 0 ps with
  | error fault =>
    have hnot : ps ≠ s.toList.map .char := fun h => by simp [charsFrom_eq_ok_iff.2 h] at hchars
    simp [Except.map, ofString, hnot]
  | ok cs =>
    rw [charsFrom_eq_ok_iff] at hchars
    subst hchars
    simp only [Except.map, Except.ok.injEq, ofString, RawText.mk.injEq,
      char_injective.list_map.eq_iff]
    rw [← String.toList_inj, String.toList_ofList]

@[simp] theorem text_ofString (s : String) : (ofString s).text = .ok s :=
  text_eq_ok_iff.2 rfl

/-- The bytes of a text are those of its characters. -/
theorem encode_eq_ok_iff {b : Bytes} :
    t.encode = .ok b ↔ ∃ s : String, t = s ∧ Utf8.encode s = b := by
  unfold encode
  cases ht : t.text with
  | error fault =>
    simp only [Except.map, reduceCtorEq, false_iff]
    rintro ⟨s, rfl, -⟩
    simp at ht
  | ok u =>
    obtain rfl := text_eq_ok_iff.1 ht
    simp [Except.map, ofString_injective.eq_iff]

@[simp] theorem encode_ofString (s : String) : (ofString s).encode = .ok (Utf8.encode s) :=
  encode_eq_ok_iff.2 ⟨s, rfl, rfl⟩

/-- A text has bytes, or it has surrogates. -/
theorem encode_error_iff {fault : SurrogateFault} :
    t.encode = .error fault ↔ t.text = .error fault := by
  unfold encode
  cases t.text <;> simp [Except.map]

theorem strip_ofString (s : String) : (ofString s).strip = Text.strip s := by
  unfold strip ofString Text.strip
  rw [Text.trimChars_map, String.toList_ofList]
  rfl

end NodeStore.RawText
