import Mathlib.Data.List.TakeWhile
import NodeStore.Text.Blank

/-! # Blanks around texts and between words

* `trimChars_between`: blanks that are put around a text do not change what is left of it;
* `trimChars_eq_iff`: what a text is trimmed to;
* `runs_outside`: words are not empty and have no blanks;
* `words_intercalate`: words that are joined by spaces are found again. -/

namespace NodeStore.Text

/-- What holds of the first 128 characters holds of ASCII. -/
theorem of_ascii {P : Char → Prop} (h : ∀ n < 128, P (Char.ofNat n)) (c : Char)
    (hc : c.toNat < 128) : P c := by
  have hchar := h c.toNat hc
  rwa [Char.ofNat_toNat] at hchar

section Trim

variable {α : Type} {p : α → Bool} {cs before after : List α}

/-- Characters of the class in front are dropped. -/
theorem dropWhile_before (h : ∀ c ∈ before, p c = true) :
    (before ++ cs).dropWhile p = cs.dropWhile p := by
  induction before with
  | nil => rfl
  | cons c before ih =>
    rw [List.cons_append, List.dropWhile_cons_of_pos (h c List.mem_cons_self)]
    exact ih fun d hd => h d (List.mem_cons_of_mem c hd)

/-- Either all characters are of the class, or what is dropped does not reach what follows. -/
theorem dropWhile_cases (cs after : List α) :
    (∀ c ∈ cs, p c = true) ∨ (cs ++ after).dropWhile p = cs.dropWhile p ++ after := by
  induction cs with
  | nil => simp
  | cons c cs ih =>
    by_cases hc : p c = true
    · rcases ih with hall | hdrop
      · left
        intro d hd
        rcases List.mem_cons.1 hd with rfl | hd
        · exact hc
        · exact hall d hd
      · right
        rw [List.cons_append, List.dropWhile_cons_of_pos hc, List.dropWhile_cons_of_pos hc, hdrop]
    · right
      rw [List.cons_append, List.dropWhile_cons_of_neg hc, List.dropWhile_cons_of_neg hc,
        List.cons_append]

theorem trimChars_of_all (h : ∀ c ∈ cs, p c = true) : trimChars p cs = [] := by
  have hnil : (cs ++ []).dropWhile p = [] := dropWhile_before h
  rw [List.append_nil] at hnil
  rw [trimChars, hnil]
  rfl

/-- Characters of the class around a text do not change what is left of it. -/
theorem trimChars_between (hbefore : ∀ c ∈ before, p c = true) (hafter : ∀ c ∈ after, p c = true) :
    trimChars p (before ++ cs ++ after) = trimChars p cs := by
  rw [trimChars, List.append_assoc, dropWhile_before hbefore]
  -- A text of such characters alone is used up by the first pass, together with what follows it.
  rcases dropWhile_cases (p := p) cs after with hall | hdrop
  · have hrest : ∀ c ∈ cs ++ after, p c = true := by
      intro c hc
      rcases List.mem_append.1 hc with hc | hc
      · exact hall c hc
      · exact hafter c hc
    rw [trimChars_of_all hall]
    exact trimChars_of_all hrest
  · rw [hdrop, List.reverse_append, dropWhile_before]
    · rfl
    · intro c hc
      exact hafter c (List.mem_reverse.1 hc)

/-- A text without characters of the class at its ends is left as it is. -/
theorem trimChars_eq_self (hhead : ∀ c ∈ cs.head?, p c = false)
    (hlast : ∀ c ∈ cs.getLast?, p c = false) : trimChars p cs = cs := by
  have hdrop : ∀ ds : List α, (∀ c ∈ ds.head?, p c = false) → ds.dropWhile p = ds := by
    intro ds hds
    cases ds with
    | nil => rfl
    | cons c ds => exact List.dropWhile_cons_of_neg (by simp [hds c rfl])
  rw [trimChars, hdrop cs hhead, hdrop cs.reverse (by rwa [List.head?_reverse]),
    List.reverse_reverse]

theorem trimChars_of_none (h : ∀ c ∈ cs, p c = false) : trimChars p cs = cs := by
  apply trimChars_eq_self
  · intro c hc
    exact h c (List.mem_of_head? hc)
  · intro c hc
    exact h c (List.mem_of_getLast? hc)

theorem mem_trimChars {c : α} (h : c ∈ trimChars p cs) : c ∈ cs := by
  unfold trimChars at h
  rw [List.mem_reverse] at h
  have hmem := (List.dropWhile_suffix p).subset h
  rw [List.mem_reverse] at hmem
  exact (List.dropWhile_suffix p).subset hmem

theorem of_head?_dropWhile {ds : List α} {c : α} (h : c ∈ (ds.dropWhile p).head?) :
    p c = false := by
  have hhead := List.head?_dropWhile_not p ds
  rw [Option.mem_def] at h
  rwa [h] at hhead

theorem of_head?_trimChars {c : α} (h : c ∈ (trimChars p cs).head?) : p c = false := by
  -- trimming the end leaves a beginning of what the first pass left
  have hbegins : trimChars p cs <+: cs.dropWhile p := by
    unfold trimChars
    rw [← List.reverse_suffix, List.reverse_reverse]
    exact List.dropWhile_suffix p
  rcases hbegins with ⟨rest, hrest⟩
  have hhead : c ∈ (cs.dropWhile p).head? := by
    rw [← hrest, List.head?_append, Option.mem_def.1 h]
    rfl
  exact of_head?_dropWhile hhead

theorem of_getLast?_trimChars {c : α} (h : c ∈ (trimChars p cs).getLast?) : p c = false := by
  unfold trimChars at h
  rw [List.getLast?_reverse] at h
  exact of_head?_dropWhile h

/-- What was trimmed is not trimmed any further. -/
theorem trimChars_trimChars (p : α → Bool) (cs : List α) :
    trimChars p (trimChars p cs) = trimChars p cs :=
  trimChars_eq_self (fun _ => of_head?_trimChars) (fun _ => of_getLast?_trimChars)

/-- Nothing but characters of the class is trimmed. -/
theorem exists_trimChars (p : α → Bool) (cs : List α) :
    ∃ before after, cs = before ++ trimChars p cs ++ after ∧ (∀ c ∈ before, p c = true) ∧
      ∀ c ∈ after, p c = true := by
  refine ⟨cs.takeWhile p, ((cs.dropWhile p).reverse.takeWhile p).reverse, ?_, ?_, ?_⟩
  · rw [trimChars, List.append_assoc, ← List.reverse_append, List.takeWhile_append_dropWhile,
      List.reverse_reverse, List.takeWhile_append_dropWhile]
  · intro c hc
    exact List.mem_takeWhile_imp hc
  · intro c hc
    exact List.mem_takeWhile_imp (List.mem_reverse.1 hc)

theorem trimChars_map {β : Type} (f : α → β) (p : β → Bool) (cs : List α) :
    trimChars p (cs.map f) = (trimChars (p ∘ f) cs).map f := by
  rw [trimChars, List.dropWhile_map, ← List.map_reverse, List.dropWhile_map, ← List.map_reverse]
  rfl

/-- A text is trimmed to what has no character of the class at its ends and such characters around
it. -/
theorem trimChars_eq_iff {ds : List α} : trimChars p cs = ds ↔
    (∃ before after, cs = before ++ ds ++ after ∧ (∀ c ∈ before, p c = true) ∧
      ∀ c ∈ after, p c = true) ∧
    (∀ c ∈ ds.head?, p c = false) ∧ ∀ c ∈ ds.getLast?, p c = false := by
  constructor
  · rintro rfl
    exact ⟨exists_trimChars p cs, fun _ => of_head?_trimChars, fun _ => of_getLast?_trimChars⟩
  · rintro ⟨⟨before, after, rfl, hbefore, hafter⟩, hhead, hlast⟩
    rw [trimChars_between hbefore hafter, trimChars_eq_self hhead hlast]

end Trim

section Runs

variable {p : Char → Bool}

theorem runs_outside {cs w : List Char} (hw : w ∈ runs p cs) : w ≠ [] ∧ ∀ c ∈ w, p c = false := by
  fun_induction runs p cs generalizing w with
  | case1 => simp at hw
  | case2 c cs hc ih => exact ih hw
  | case3 c hc =>
    rw [List.mem_singleton] at hw
    subst hw
    simpa using hc
  | case4 c hc d cs hd ih =>
    rcases List.mem_cons.1 hw with rfl | hw
    · simpa using hc
    · exact ih hw
  | case5 c hc d cs hd hnil ih =>
    rw [hnil, List.mem_singleton] at hw
    subst hw
    simpa using hc
  | case6 c hc d cs hd v vs hcons ih =>
    rw [hcons] at hw
    rcases List.mem_cons.1 hw with rfl | hw
    · have hv := (ih (hcons ▸ List.mem_cons_self)).2
      constructor
      · exact List.cons_ne_nil c v
      · intro e he
        rcases List.mem_cons.1 he with rfl | he
        · simpa using hc
        · exact hv e he
    · exact ih (hcons ▸ List.mem_cons_of_mem v hw)

/-- A word that is followed by nothing or by a character of the class is the first run. -/
theorem runs_append {w rest : List Char} (hw : w ≠ []) (hout : ∀ c ∈ w, p c = false)
    (hrest : ∀ c ∈ rest.head?, p c = true) : runs p (w ++ rest) = w :: runs p rest := by
  induction w with
  | nil => exact absurd rfl hw
  | cons c w ih =>
    have hc : p c = false := hout c List.mem_cons_self
    cases w with
    | nil =>
      cases rest with
      | nil => simp [runs, hc]
      | cons d rest => simp [runs, hc, hrest d rfl]
    | cons d w =>
      have hd : p d = false := hout d (by simp)
      have hih := ih (List.cons_ne_nil d w) fun e he => hout e (List.mem_cons_of_mem c he)
      rw [List.cons_append] at hih
      rw [List.cons_append, List.cons_append, runs.eq_def]
      simp only [hc, hd, Bool.false_eq_true, if_false, hih]

/-- Words that are joined by a character of the class are the runs. -/
theorem runs_intercalate {sep : Char} (hsep : p sep = true) {ws : List (List Char)}
    (hws : ∀ w ∈ ws, w ≠ [] ∧ ∀ c ∈ w, p c = false) : runs p ([sep].intercalate ws) = ws := by
  induction ws with
  | nil => rfl
  | cons w ws ih =>
    rcases hws w List.mem_cons_self with ⟨hne, hout⟩
    have hrest := ih fun v hv => hws v (List.mem_cons_of_mem w hv)
    cases ws with
    | nil =>
      have h : runs p (w ++ []) = w :: runs p [] := runs_append hne hout (by simp)
      rw [List.append_nil] at h
      simpa [List.intercalate, runs] using h
    | cons v ws =>
      have hjoin : [sep].intercalate (w :: v :: ws) = w ++ sep :: [sep].intercalate (v :: ws) := by
        simp [List.intercalate, List.intersperse]
      rw [hjoin, runs_append hne hout (by simpa using hsep)]
      have hskip : runs p (sep :: [sep].intercalate (v :: ws)) =
          runs p ([sep].intercalate (v :: ws)) := by
        rw [runs.eq_def]
        simp only [hsep, if_true]
      rw [hskip, hrest]

end Runs

/-- Words that are joined by spaces are found again. -/
theorem words_intercalate {ws : List String}
    (hws : ∀ w ∈ ws, w.toList ≠ [] ∧ ∀ c ∈ w.toList, isBlank c = false) :
    words (" ".intercalate ws) = ws := by
  have hruns : runs isBlank ([' '].intercalate (ws.map String.toList)) = ws.map String.toList := by
    apply runs_intercalate (by decide)
    intro w hw
    rcases List.mem_map.1 hw with ⟨s, hs, rfl⟩
    exact hws s hs
  rw [words, String.toList_intercalate]
  show (runs isBlank ([' '].intercalate _)).map String.ofList = ws
  rw [hruns, List.map_map]
  have hid : String.ofList ∘ String.toList = id := funext fun s => String.ofList_toList
  rw [hid, List.map_id]

end NodeStore.Text
