import NodeStore.Text.Escape

/-! # Texts without terminal escapes

An escape begins with a control character and a bracket after it. A text in which one of them does
not occur has no escapes, and is shown as it is. -/

namespace NodeStore.Text

theorem plainFrom_nil {cs : List Char} (h : ∀ c ∈ cs, c ≠ '\x1b') : plainFrom [] cs = cs := by
  induction cs with
  | nil => rfl
  | cons c cs ih =>
    rw [plainFrom, if_neg (h c List.mem_cons_self)]
    simp only [ih fun d hd => h d (List.mem_cons_of_mem c hd)]

/-- A text in which no escape begins is shown as it is. -/
theorem withoutEscapes_eq {s : String} (h : ∀ c ∈ s.toList, c ≠ '\x1b') :
    withoutEscapes s = s := by
  rw [withoutEscapes, plainFrom_nil h, String.ofList_toList]

/-- Without brackets no beginning of an escape goes on. -/
theorem plainFrom_of_no_bracket {held cs : List Char} (hheld : held = [] ∨ held = ['\x1b'])
    (h : '[' ∉ cs) : plainFrom held cs = held ++ cs := by
  induction cs generalizing held with
  | nil => rcases hheld with rfl | rfl <;> rfl
  | cons c cs ih =>
    rw [List.mem_cons, not_or] at h
    have hnone : plainFrom [] cs = cs := ih (Or.inl rfl) h.2
    have hescape : plainFrom ['\x1b'] cs = '\x1b' :: cs := ih (Or.inr rfl) h.2
    by_cases hc : c = '\x1b'
    · subst hc
      rcases hheld with rfl | rfl
      · rw [plainFrom, if_pos rfl, hescape]
        rfl
      · rw [plainFrom, if_pos rfl, hescape]
        rfl
    · rcases hheld with rfl | rfl
      · rw [plainFrom, if_neg hc]
        exact congrArg (c :: ·) hnone
      · rw [plainFrom, if_neg hc]
        simp only [if_neg (Ne.symm h.1), hnone]
        rfl

theorem withoutEscapes_of_no_bracket {s : String} (h : '[' ∉ s.toList) : withoutEscapes s = s := by
  rw [withoutEscapes, plainFrom_of_no_bracket (Or.inl rfl) h, List.nil_append, String.ofList_toList]

end NodeStore.Text
