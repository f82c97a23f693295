import NodeStore.Json
import NodeStore.Proofs.Text.Digit

/-! # Values are read as they were printed

`Readable depth v` says that a value can be printed and read again where `depth` more containers
may be opened: no float is in it, its integers are not too long, and it is not nested too deep. The
compact text of such a value is read as that value, whatever text follows that can follow a value.

* `stringBody_escaped`: a string, by the cases of its escapes;
* `number?_digits`: an integer after its sign;
* `Readable.reads`: a value, by induction on its containers;
* `parseChars_print`: a document. -/

namespace NodeStore.Json

/-! ## Strings -/

theorem hexValue?_digitChar {d : Nat} (h : d < 16) : hexValue? (Nat.digitChar d) = some d := by
  have hall : ∀ d, d < 16 → hexValue? (Nat.digitChar d) = some d := by decide
  exact hall d h

/-- A control character is escaped by its number. -/
theorem stringBody_control {c : Char} (h : c.toNat < 32) (rest : List Char) :
    stringBody ('\\' :: 'u' :: '0' :: '0' :: Nat.digitChar (c.toNat / 16) ::
        Nat.digitChar (c.toNat % 16) :: rest) =
      (stringBody rest).map fun p => (c :: p.1, p.2) := by
  have hhigh : hexValue? (Nat.digitChar (c.toNat / 16)) = some (c.toNat / 16) :=
    hexValue?_digitChar (by omega)
  have hlow : hexValue? (Nat.digitChar (c.toNat % 16)) = some (c.toNat % 16) :=
    hexValue?_digitChar (by omega)
  have hzero : hexValue? '0' = some 0 := by decide
  have hnumber : 0 * 4096 + 0 * 256 + c.toNat / 16 * 16 + c.toNat % 16 = c.toNat := by omega
  have hhex : hex4? '0' '0' (Nat.digitChar (c.toNat / 16)) (Nat.digitChar (c.toNat % 16)) =
      some c.toNat := by
    unfold hex4?
    rw [hzero, hhigh, hlow]
    exact congrArg some hnumber
  have hback : Char.ofNat c.toNat = c := Char.ofNat_toNat c
  rw [stringBody, hhex]
  simp only [Option.bind_eq_bind, Option.bind_some]
  rw [if_neg (by omega), if_neg (by omega), hback]
  cases stringBody rest <;> rfl

/-- A one-letter escape stands for its character. -/
theorem stringBody_simple {letter c : Char} (h : simpleEscape? letter = some c)
    (hu : letter ≠ 'u') (rest : List Char) :
    stringBody ('\\' :: letter :: rest) =
      (stringBody rest).map fun p => (c :: p.1, p.2) := by
  rw [stringBody.eq_def]
  split
  · rename_i heq
    simp at heq
  · rename_i heq
    simp at heq
  · rename_i heq
    simp only [List.cons.injEq] at heq
    exact absurd heq.2.1 hu
  · rename_i heq
    simp only [List.cons.injEq, true_and] at heq
    rw [← heq.1, ← heq.2, h]
    cases stringBody rest <;> rfl
  · rename_i hother heq
    simp only [List.cons.injEq] at heq
    exact absurd heq.2.symm (hother letter rest heq.1.symm)

/-- A character that needs no escape stands for itself. -/
theorem stringBody_plain {c : Char} (hquote : c ≠ '"') (hslash : c ≠ '\\') (h : ¬ c.toNat < 32)
    (rest : List Char) :
    stringBody (c :: rest) = (stringBody rest).map fun p => (c :: p.1, p.2) := by
  rw [stringBody.eq_def]
  split
  · rename_i heq
    simp at heq
  · rename_i heq
    simp only [List.cons.injEq] at heq
    exact absurd heq.1 hquote
  · rename_i heq
    simp only [List.cons.injEq] at heq
    exact absurd heq.1 hslash
  · rename_i heq
    simp only [List.cons.injEq] at heq
    exact absurd heq.1 hslash
  · rename_i heq
    simp only [List.cons.injEq] at heq
    rw [← heq.1, ← heq.2, if_neg (by simp [h, hslash])]
    cases stringBody rest <;> rfl

/-- Each character is read from its escape. -/
theorem stringBody_escapeChar (c : Char) (rest : List Char) :
    stringBody (escapeChar c ++ rest) =
      (stringBody rest).map fun p => (c :: p.1, p.2) := by
  unfold escapeChar
  by_cases hquote : c = '"'
  · rw [if_pos hquote, hquote]
    exact stringBody_simple (by decide) (by decide) rest
  by_cases hslash : c = '\\'
  · rw [if_neg hquote, if_pos hslash, hslash]
    exact stringBody_simple (by decide) (by decide) rest
  by_cases hfeed : c = '\n'
  · rw [if_neg hquote, if_neg hslash, if_pos hfeed, hfeed]
    exact stringBody_simple (by decide) (by decide) rest
  by_cases hreturn : c = '\r'
  · rw [if_neg hquote, if_neg hslash, if_neg hfeed, if_pos hreturn, hreturn]
    exact stringBody_simple (by decide) (by decide) rest
  by_cases htab : c = '\t'
  · rw [if_neg hquote, if_neg hslash, if_neg hfeed, if_neg hreturn, if_pos htab, htab]
    exact stringBody_simple (by decide) (by decide) rest
  rw [if_neg hquote, if_neg hslash, if_neg hfeed, if_neg hreturn, if_neg htab]
  have hback : Char.ofNat c.toNat = c := Char.ofNat_toNat c
  by_cases hbackspace : c.toNat = 8
  · rw [if_pos hbackspace]
    rw [hbackspace] at hback
    exact stringBody_simple (by rw [← hback]; decide) (by decide) rest
  by_cases hform : c.toNat = 12
  · rw [if_neg hbackspace, if_pos hform]
    rw [hform] at hback
    exact stringBody_simple (by rw [← hback]; decide) (by decide) rest
  rw [if_neg hbackspace, if_neg hform]
  by_cases hcontrol : c.toNat < 32
  · rw [if_pos hcontrol]
    exact stringBody_control hcontrol rest
  · rw [if_neg hcontrol]
    exact stringBody_plain hquote hslash hcontrol rest

/-- A string is read up to the quote that closes it. -/
theorem stringBody_escaped (cs rest : List Char) :
    stringBody (cs.flatMap escapeChar ++ '"' :: rest) = some (cs, rest) := by
  induction cs with
  | nil =>
    rw [List.flatMap_nil, List.nil_append, stringBody]
  | cons c cs ih =>
    rw [List.flatMap_cons, List.append_assoc, stringBody_escapeChar, ih]
    rfl

/-! ## Integers -/

/-- What may come after a value: nothing, a comma or a closing bracket. -/
def Ends (rest : List Char) : Prop :=
  ∀ c ∈ rest.head?, c = ',' ∨ c = ']' ∨ c = '\x7d'

theorem ends_nil : Ends [] := by
  intro c hc
  simp at hc

theorem ends_cons {c : Char} {rest : List Char} (h : c = ',' ∨ c = ']' ∨ c = '\x7d') :
    Ends (c :: rest) := by
  intro d hd
  rw [List.head?_cons, Option.mem_some] at hd
  rwa [← hd]

/-- Neither a digit nor a gap comes after a value. -/
theorem Ends.head {c : Char} {rest : List Char} (h : Ends (c :: rest)) :
    Text.isAsciiDigit c = false ∧ isGap c = false := by
  rcases h c rfl with rfl | rfl | rfl
  · decide
  · decide
  · decide

theorem Ends.takeDigits {rest : List Char} (h : Ends rest) (n : Nat) :
    takeDigits (Nat.toDigits 10 n ++ rest) = (Text.digitsOf n, rest) := by
  have hdigits : ∀ c ∈ Nat.toDigits 10 n, Text.isAsciiDigit c = true := by
    intro c hc
    exact Text.isAsciiDigit_of_mem hc
  have hrest : rest.takeWhile Text.isAsciiDigit = [] ∧ rest.dropWhile Text.isAsciiDigit = rest := by
    cases rest with
    | nil => exact ⟨rfl, rfl⟩
    | cons c rest =>
      rw [List.takeWhile_cons_of_neg (by simp [h.head.1]),
        List.dropWhile_cons_of_neg (by simp [h.head.1])]
      exact ⟨rfl, rfl⟩
  unfold Json.takeDigits Text.digitsOf
  rw [List.takeWhile_append_of_pos hdigits, List.dropWhile_append_of_pos hdigits, hrest.1, hrest.2,
    List.append_nil]

/-- A check that holds is passed. -/
theorem guard_bind {α : Type} {p : Prop} [Decidable p] (h : p) {x : Option α} :
    (guard p >>= fun _ => x) = x := by
  have hpassed : (guard p : Option Unit) = some () := if_pos h
  rw [hpassed]
  rfl

/-- The digits of a number that is not too long are read as an integer. -/
theorem number?_digits (negative : Bool) {n : Nat} {rest : List Char} (hrest : Ends rest)
    (hlength : (Nat.toDigits 10 n).length + negative.toNat ≤ maxDigits) :
    number? negative (Nat.toDigits 10 n ++ rest) =
      some (.int (if negative then -n else n), rest) := by
  have hne : (Text.digitsOf n).isEmpty = false := by
    rw [List.isEmpty_eq_false_iff]
    exact Text.digitsOf_ne_nil n
  have hzero : (Text.digitsOf n).length = 1 ∨ (Text.digitsOf n).head? ≠ some 0 := by
    by_cases h : (Text.digitsOf n).head? = some 0
    · exact Or.inl (Text.head?_digitsOf h)
    · exact Or.inr h
  rw [← Text.length_digitsOf] at hlength
  unfold number?
  rw [hrest.takeDigits]
  have hsome : (!(Text.digitsOf n).isEmpty) = true := by rw [hne, Bool.not_false]
  refine (guard_bind hsome).trans ((guard_bind hzero).trans ((guard_bind hlength).trans ?_))
  -- neither a fraction nor an exponent follows
  cases rest with
  | nil => simp [Text.natOfDigits_digitsOf]
  | cons c rest =>
    rcases hrest c rfl with rfl | rfl | rfl
    · simp [Text.natOfDigits_digitsOf]
    · simp [Text.natOfDigits_digitsOf]
    · simp [Text.natOfDigits_digitsOf]

/-! ## Values -/

/-- No gap is printed. -/
theorem skipGap_cons {c : Char} {cs : List Char} (h : isGap c = false) :
    skipGap (c :: cs) = c :: cs := by
  unfold skipGap
  rw [List.dropWhile_cons_of_neg (by simp [h])]

/-- The value is read from its text where so many more containers may be opened. -/
def Reads (depth : Nat) (v : Json) : Prop :=
  ∀ fuel rest, (print v).length ≤ fuel → Ends rest →
    parseValue fuel depth (print v ++ rest) = some (v, rest)

/-- What begins like neither a string nor a container is an atom. -/
theorem parseValue_atom {c : Char} {cs : List Char} (fuel depth : Nat)
    (hgap : isGap c = false) (h : c ≠ '"' ∧ c ≠ '[' ∧ c ≠ '\x7b') :
    parseValue (fuel + 1) depth (c :: cs) = atom? (c :: cs) := by
  rw [parseValue, skipGap_cons hgap]
  split
  · rename_i heq
    exact absurd (List.cons.inj heq).1 h.1
  · rename_i heq
    exact absurd (List.cons.inj heq).1 h.2.1
  · rename_i heq
    exact absurd (List.cons.inj heq).1 h.2.2
  · rfl

/-- A word is read as what it stands for. -/
theorem reads_word {v : Json} {c : Char} (cs : List Char) (depth : Nat)
    (hprint : print v = c :: cs) (hgap : isGap c = false) (hc : c ≠ '"' ∧ c ≠ '[' ∧ c ≠ '\x7b')
    (hword : ∀ rest, atom? (c :: (cs ++ rest)) = some (v, rest)) : Reads depth v := by
  intro fuel rest hfuel _
  rw [hprint] at hfuel ⊢
  obtain ⟨fuel, rfl⟩ : ∃ n, fuel = n + 1 := ⟨fuel - 1, by simp at hfuel; omega⟩
  rw [List.cons_append, parseValue_atom fuel depth hgap hc, hword]

theorem afterText?_append (text rest : List Char) : afterText? text (text ++ rest) = some rest := by
  unfold afterText?
  have hprefix : text.isPrefixOf (text ++ rest) = true := by
    rw [List.isPrefixOf_iff_prefix]
    exact List.prefix_append text rest
  rw [if_pos hprefix, List.drop_left]

theorem reads_null (depth : Nat) : Reads depth null := by
  refine reads_word "ull".toList depth rfl (by decide) (by decide) ?_
  intro rest
  have h := afterText?_append "null".toList rest
  exact congrArg (Option.map fun cs => (null, cs)) h

theorem reads_bool (depth : Nat) (b : Bool) : Reads depth (bool b) := by
  cases b with
  | true =>
    refine reads_word "rue".toList depth rfl (by decide) (by decide) ?_
    intro rest
    have h := afterText?_append "true".toList rest
    exact congrArg (Option.map fun cs => (bool true, cs)) h
  | false =>
    refine reads_word "alse".toList depth rfl (by decide) (by decide) ?_
    intro rest
    have h := afterText?_append "false".toList rest
    exact congrArg (Option.map fun cs => (bool false, cs)) h

/-- A digit begins neither a word nor a container, and is no sign. -/
theorem atom?_digit {c : Char} {cs : List Char} (h : Text.isAsciiDigit c = true) :
    atom? (c :: cs) = number? false (c :: cs) := by
  have hne : ∀ d, Text.isAsciiDigit d = false → c ≠ d := by
    intro d hd hcd
    rw [hcd, hd] at h
    simp at h
  unfold atom?
  split
  · rename_i heq
    exact absurd (List.cons.inj heq).1 (hne 'n' (by decide))
  · rename_i heq
    exact absurd (List.cons.inj heq).1 (hne 't' (by decide))
  · rename_i heq
    exact absurd (List.cons.inj heq).1 (hne 'f' (by decide))
  · rename_i heq
    exact absurd (List.cons.inj heq).1 (hne 'N' (by decide))
  · rename_i heq
    exact absurd (List.cons.inj heq).1 (hne 'I' (by decide))
  · rename_i heq
    exact absurd (List.cons.inj heq).1 (hne '-' (by decide))
  · rename_i heq
    exact absurd (List.cons.inj heq).1 (hne '-' (by decide))
  · rfl

/-- A number after a minus is no infinity. -/
theorem atom?_minus {c : Char} {cs : List Char} (h : Text.isAsciiDigit c = true) :
    atom? ('-' :: c :: cs) = number? true (c :: cs) := by
  have hI : c ≠ 'I' := by
    rintro rfl
    exact absurd h (by decide)
  unfold atom?
  split
  · rename_i heq
    simp at heq
  · rename_i heq
    simp at heq
  · rename_i heq
    simp at heq
  · rename_i heq
    simp at heq
  · rename_i heq
    simp at heq
  · rename_i heq
    simp only [List.cons.injEq, true_and] at heq
    exact absurd heq.1 hI
  · rename_i heq
    simp only [List.cons.injEq, true_and] at heq
    rw [← heq]
  · rename_i heq
    exact absurd rfl (heq _)

/-- A number begins with a digit. -/
theorem toDigits_cons (n : Nat) :
    ∃ c cs, Nat.toDigits 10 n = c :: cs ∧ Text.isAsciiDigit c = true := by
  cases h : Nat.toDigits 10 n with
  | nil => exact absurd h Nat.toDigits_ne_nil
  | cons c cs => exact ⟨c, cs, rfl, Text.isAsciiDigit_of_mem (n := n) (by rw [h]; simp)⟩

theorem isGap_of_digit {c : Char} (h : Text.isAsciiDigit c = true) :
    isGap c = false ∧ c ≠ '"' ∧ c ≠ '[' ∧ c ≠ '\x7b' := by
  have hne : ∀ d, Text.isAsciiDigit d = false → c ≠ d := by
    intro d hd hcd
    rw [hcd, hd] at h
    simp at h
  refine ⟨?_, hne _ (by decide), hne _ (by decide), hne _ (by decide)⟩
  simp [isGap, hne ' ' (by decide), hne '\t' (by decide), hne '\n' (by decide),
    hne '\r' (by decide)]

theorem printInt_ofNat (n : Nat) : printInt (Int.ofNat n) = Nat.toDigits 10 n :=
  String.toList_ofList

theorem printInt_negSucc (n : Nat) :
    printInt (Int.negSucc n) = '-' :: Nat.toDigits 10 (n + 1) := by
  unfold printInt Text.decimalInt Text.decimal
  rw [String.toList_append]
  exact congrArg (List.cons '-') String.toList_ofList

/-- An integer that is not too long. -/
theorem reads_int (depth : Nat) {n : Int} (h : (printInt n).length ≤ maxDigits) :
    Reads depth (int n) := by
  intro fuel rest hfuel hrest
  have hprint : print (int n) = printInt n := by rw [print]
  rw [hprint] at hfuel ⊢
  cases n with
  | ofNat n =>
    rw [printInt_ofNat] at h hfuel ⊢
    have hnumber := number?_digits false hrest (n := n) h
    rcases toDigits_cons n with ⟨c, cs, hcons, hdigit⟩
    rcases isGap_of_digit hdigit with ⟨hgap, hother⟩
    rw [hcons] at hfuel hnumber ⊢
    obtain ⟨fuel, rfl⟩ : ∃ m, fuel = m + 1 := ⟨fuel - 1, by simp at hfuel; omega⟩
    rw [List.cons_append] at hnumber ⊢
    rw [parseValue_atom fuel depth hgap hother, atom?_digit hdigit, hnumber]
    rfl
  | negSucc n =>
    rw [printInt_negSucc] at h hfuel ⊢
    have hnumber := number?_digits true hrest (n := n + 1) h
    rcases toDigits_cons (n + 1) with ⟨c, cs, hcons, hdigit⟩
    rw [hcons] at hfuel hnumber ⊢
    obtain ⟨fuel, rfl⟩ : ∃ m, fuel = m + 1 := ⟨fuel - 1, by simp at hfuel; omega⟩
    rw [List.cons_append] at hnumber
    rw [List.cons_append, List.cons_append,
      parseValue_atom fuel depth (by decide) (by decide), atom?_minus hdigit, hnumber]
    rfl

theorem reads_str (depth : Nat) (s : String) : Reads depth (str s) := by
  intro fuel rest hfuel _
  have hprint : print (str s) = '"' :: (s.toList.flatMap escapeChar ++ ['"']) := by
    rw [print, printString, List.cons_append]
  rw [hprint] at hfuel ⊢
  obtain ⟨fuel, rfl⟩ : ∃ m, fuel = m + 1 := ⟨fuel - 1, by simp at hfuel; omega⟩
  rw [List.cons_append, List.append_assoc, List.singleton_append, parseValue,
    skipGap_cons (by decide)]
  simp only
  rw [stringBody_escaped, Option.map_some, String.ofList_toList]

/-! ## Containers -/

/-- An item, a comma, and the items after it. -/
theorem joinCommas_cons (p : List Char) {ps : List (List Char)} (h : ps ≠ []) :
    joinCommas (p :: ps) = p ++ ',' :: joinCommas ps := by
  cases ps with
  | nil => exact absurd rfl h
  | cons q qs =>
    rw [joinCommas]
    exact h

/-- The items of an array that is not empty. -/
theorem parseItems_print {depth : Nat} {items : List Json} (hne : items ≠ [])
    (hitems : ∀ v ∈ items, Reads depth v) (fuel : Nat) (rest : List Char)
    (hfuel : (joinCommas (printItems items)).length < fuel) :
    parseItems fuel depth (joinCommas (printItems items) ++ ']' :: rest) = some (items, rest) := by
  induction items generalizing fuel with
  | nil => exact absurd rfl hne
  | cons v vs ih =>
    obtain ⟨fuel, rfl⟩ : ∃ m, fuel = m + 1 := ⟨fuel - 1, by omega⟩
    have hv := hitems v List.mem_cons_self
    rw [printItems] at hfuel ⊢
    rw [parseItems]
    cases vs with
    | nil =>
      rw [printItems, joinCommas] at hfuel ⊢
      rw [hv fuel _ (by omega) (ends_cons (Or.inr (Or.inl rfl)))]
      simp only [Option.bind_eq_bind, Option.bind_some]
      rw [skipGap_cons (by decide)]
      rfl
    | cons w ws =>
      have hrest := ih (by simp) (fun u hu => hitems u (List.mem_cons_of_mem v hu)) fuel
      have hmore : printItems (w :: ws) ≠ [] := by simp [printItems]
      rw [joinCommas_cons _ hmore, List.length_append, List.length_cons] at hfuel
      rw [joinCommas_cons _ hmore, List.append_assoc, List.cons_append,
        hv fuel _ (by omega) (ends_cons (Or.inl rfl))]
      simp only [Option.bind_eq_bind, Option.bind_some]
      rw [skipGap_cons (by decide)]
      simp only
      rw [hrest (by omega)]
      rfl

/-- A member: its key, the colon and its value, and then what may come after a value. -/
theorem parseMembers_member {depth fuel : Nat} {v : Json} (hv : Reads depth v)
    (hfuel : (print v).length ≤ fuel) (k : String) {c : Char} (cs : List Char)
    (hends : Ends (c :: cs)) :
    parseMembers (fuel + 1) depth (printString k ++ ':' :: (print v ++ c :: cs)) =
      match c :: cs with
      | ',' :: rest => do
        let (ms, rest) ← parseMembers fuel depth rest
        return ((k, v) :: ms, rest)
      | '\x7d' :: rest => some ([(k, v)], rest)
      | _ => none := by
  have hkey : printString k ++ ':' :: (print v ++ c :: cs) =
      '"' :: (k.toList.flatMap escapeChar ++ '"' :: ':' :: (print v ++ c :: cs)) := by
    unfold printString
    rw [List.append_assoc, List.singleton_append, List.cons_append]
  rw [parseMembers, hkey, skipGap_cons (by decide)]
  simp only [Option.bind_eq_bind]
  rw [stringBody_escaped, Option.bind_some]
  simp only
  rw [skipGap_cons (by decide)]
  simp only
  rw [hv fuel _ hfuel hends, Option.bind_some]
  simp only
  rw [skipGap_cons hends.head.2, String.ofList_toList]
  rfl

/-- The members of an object that is not empty. -/
theorem parseMembers_print {depth : Nat} {members : List (String × Json)} (hne : members ≠ [])
    (hmembers : ∀ m ∈ members, Reads depth m.2) (fuel : Nat) (rest : List Char)
    (hfuel : (joinCommas (printMembers members)).length < fuel) :
    parseMembers fuel depth (joinCommas (printMembers members) ++ '\x7d' :: rest) =
      some (members, rest) := by
  induction members generalizing fuel with
  | nil => exact absurd rfl hne
  | cons m ms ih =>
    rcases m with ⟨k, v⟩
    obtain ⟨fuel, rfl⟩ : ∃ m, fuel = m + 1 := ⟨fuel - 1, by omega⟩
    have hv : Reads depth v := hmembers (k, v) List.mem_cons_self
    rw [printMembers] at hfuel ⊢
    cases ms with
    | nil =>
      rw [printMembers, joinCommas] at hfuel ⊢
      rw [List.length_append, List.length_cons] at hfuel
      rw [List.append_assoc, List.cons_append,
        parseMembers_member hv (by omega) k _ (ends_cons (Or.inr (Or.inr rfl)))]
      rfl
    | cons n ns =>
      have hrest := ih (by simp) (fun u hu => hmembers u (List.mem_cons_of_mem (k, v) hu))
        fuel
      have hmore : printMembers (n :: ns) ≠ [] := by
        rcases n with ⟨k', v'⟩
        simp [printMembers]
      rw [joinCommas_cons _ hmore, List.length_append, List.length_append, List.length_cons,
        List.length_cons] at hfuel
      rw [joinCommas_cons _ hmore, List.append_assoc, List.append_assoc, List.cons_append,
        List.cons_append, parseMembers_member hv (by omega) k _ (ends_cons (Or.inl rfl))]
      simp only
      rw [hrest (by omega)]
      rfl

/-- A value begins with neither a blank nor the bracket that closes an array. -/
theorem print_cons (v : Json) : ∃ c cs, print v = c :: cs ∧ isGap c = false ∧ c ≠ ']' := by
  cases v with
  | null => exact ⟨'n', "ull".toList, rfl, by decide, by decide⟩
  | bool b =>
    cases b with
    | true => exact ⟨'t', "rue".toList, rfl, by decide, by decide⟩
    | false => exact ⟨'f', "alse".toList, rfl, by decide, by decide⟩
  | int n =>
    rw [print]
    cases n with
    | ofNat n =>
      rcases toDigits_cons n with ⟨c, cs, hcons, hdigit⟩
      refine ⟨c, cs, ?_, (isGap_of_digit hdigit).1, ?_⟩
      · rw [printInt_ofNat, hcons]
      · rintro rfl
        exact absurd hdigit (by decide)
    | negSucc n => exact ⟨'-', _, printInt_negSucc n, by decide, by decide⟩
  | float x => exact ⟨'n', "ull".toList, rfl, by decide, by decide⟩
  | str s => exact ⟨'"', _, rfl, by decide, by decide⟩
  | arr items =>
    rw [print]
    exact ⟨'[', _, rfl, by decide, by decide⟩
  | obj members =>
    rw [print]
    exact ⟨'\x7b', _, rfl, by decide, by decide⟩

/-- The pieces begin as the first of them does. -/
theorem joinCommas_head (c : Char) (cs : List Char) (ps : List (List Char)) :
    ∃ more, joinCommas ((c :: cs) :: ps) = c :: more := by
  cases ps with
  | nil => exact ⟨cs, rfl⟩
  | cons q qs => exact ⟨cs ++ ',' :: joinCommas (q :: qs), joinCommas_cons _ (by simp)⟩

theorem reads_arr {depth : Nat} {items : List Json} (h : ∀ v ∈ items, Reads depth v) :
    Reads (depth + 1) (arr items) := by
  intro fuel rest hfuel _
  have hprint : print (arr items) = '[' :: (joinCommas (printItems items) ++ [']']) := by
    rw [print, List.cons_append]
  rw [hprint] at hfuel ⊢
  obtain ⟨fuel, rfl⟩ : ∃ m, fuel = m + 1 := ⟨fuel - 1, by simp at hfuel; omega⟩
  rw [List.cons_append, List.append_assoc, List.singleton_append, parseValue,
    skipGap_cons (by decide)]
  simp only
  cases items with
  | nil =>
    rw [printItems, joinCommas, List.nil_append, skipGap_cons (by decide)]
    rfl
  | cons v vs =>
    have hitems := parseItems_print (by simp) h fuel rest (by simp at hfuel; omega)
    rcases print_cons v with ⟨c, cs, hcons, hgap, hclose⟩
    rcases joinCommas_head c cs (printItems vs) with ⟨more, hmore⟩
    rw [printItems, hcons, hmore, List.cons_append] at hitems ⊢
    rw [skipGap_cons hgap]
    split
    · rename_i heq
      exact absurd (List.cons.inj heq).1 hclose
    · rw [hitems, Option.map_some]

theorem reads_obj {depth : Nat} {members : List (String × Json)}
    (h : ∀ m ∈ members, Reads depth m.2) : Reads (depth + 1) (obj members) := by
  intro fuel rest hfuel _
  have hprint : print (obj members) =
      '\x7b' :: (joinCommas (printMembers members) ++ ['\x7d']) := by
    rw [print, List.cons_append]
  rw [hprint] at hfuel ⊢
  obtain ⟨fuel, rfl⟩ : ∃ m, fuel = m + 1 := ⟨fuel - 1, by simp at hfuel; omega⟩
  rw [List.cons_append, List.append_assoc, List.singleton_append, parseValue,
    skipGap_cons (by decide)]
  simp only
  cases members with
  | nil =>
    rw [printMembers, joinCommas, List.nil_append, skipGap_cons (by decide)]
    rfl
  | cons m ms =>
    have hmembers := parseMembers_print (by simp) h fuel rest
      (by simp at hfuel; omega)
    rcases m with ⟨k, v⟩
    have hcons : printString k ++ ':' :: print v =
        '"' :: (k.toList.flatMap escapeChar ++ ['"'] ++ ':' :: print v) := by
      rw [printString, List.cons_append, List.cons_append]
    rcases joinCommas_head '"' (k.toList.flatMap escapeChar ++ ['"'] ++ ':' :: print v)
      (printMembers ms) with ⟨more, hmore⟩
    rw [printMembers, hcons, hmore, List.cons_append] at hmembers ⊢
    rw [skipGap_cons (by decide)]
    split
    · rename_i heq
      exact absurd (List.cons.inj heq).1 (by decide)
    · rw [hmembers, Option.map_some]

/-! ## Documents -/

/-- The value holds no float and no integer that is too long, and opens at most so many
containers. -/
inductive Readable : Nat → Json → Prop
  | null (depth : Nat) : Readable depth null
  | bool (depth : Nat) (b : Bool) : Readable depth (bool b)
  | int (depth : Nat) {n : Int} (h : (printInt n).length ≤ maxDigits) : Readable depth (int n)
  | str (depth : Nat) (s : String) : Readable depth (str s)
  | arr {depth : Nat} {items : List Json} (h : ∀ v ∈ items, Readable depth v) :
      Readable (depth + 1) (arr items)
  | obj {depth : Nat} {members : List (String × Json)} (h : ∀ m ∈ members, Readable depth m.2) :
      Readable (depth + 1) (obj members)

theorem Readable.reads {depth : Nat} {v : Json} (h : Readable depth v) : Reads depth v := by
  induction h with
  | null depth => exact reads_null depth
  | bool depth b => exact reads_bool depth b
  | int depth h => exact reads_int depth h
  | str depth s => exact reads_str depth s
  | arr _ ih => exact reads_arr ih
  | obj _ ih => exact reads_obj ih

/-- A document is read as the value that was printed. -/
theorem parseChars_print {v : Json} (h : Readable maxDepth v) : parseChars (print v) = some v := by
  have hreads := h.reads ((print v).length + 1) [] (by omega) ends_nil
  rw [List.append_nil] at hreads
  unfold parseChars
  rw [hreads]
  rfl

end NodeStore.Json
