import Mathlib.Data.List.Induction
import Mathlib.Data.List.Infix
import NodeStore.Base64
import NodeStore.Proofs.Bytes
import NodeStore.Proofs.Text.Blank
import NodeStore.Proofs.Text.Utf8

/-! # What lenient base64 reads

The characters of a text are digits, of either alphabet, padding, or passed over. Reading ends with
the first padding that completes a group of four; without such padding the digits have to make whole
groups. The bytes are the bits of the digits that are read, eight at a time, and bits that make no
byte are dropped.

Reading keeps the bits that it has not written (`Holding`).

* `readFrom_eq`: reading on from any place;
* `stopsAt_eq_some_iff`: where reading ends;
* `decode?_iff`: both for a whole text. -/

namespace NodeStore.Base64

/-! ## Symbols -/

/-- What a character is to a reader. -/
inductive Symbol where
  | digit (value : Nat)
  | padding
deriving DecidableEq, Repr

/-- The digits of the alphabet that is safe in addresses. -/
def alphabet : List Char :=
  "ABCDEFGHIJKLMNOPQRSTUVWXYZabcdefghijklmnopqrstuvwxyz0123456789-_".toList

/-- The symbol of a character. The other alphabet has `+` and `/` as its last digits. -/
def symbol? (c : Char) : Option Symbol :=
  if c = '=' then some .padding
  else if c = '+' then some (.digit 62)
  else if c = '/' then some (.digit 63)
  else (alphabet.idxOf? c).map .digit

/-- The symbols of a text. Other characters are passed over. -/
def symbols (cs : List Char) : List Symbol :=
  cs.filterMap symbol?

/-- The digits among symbols. -/
def digits (ss : List Symbol) : List Nat :=
  ss.filterMap fun
    | .digit value => some value
    | .padding => none

/-- The symbols end with padding that completes a group of two or three digits. -/
def Completes (ss : List Symbol) : Prop :=
  (digits ss).length % 4 = 2 ∧ [.padding, .padding] <:+ ss ∨
    (digits ss).length % 4 = 3 ∧ [.padding] <:+ ss

instance (ss : List Symbol) : Decidable (Completes ss) :=
  inferInstanceAs (Decidable (_ ∨ _))

/-- What is read of symbols: what is up to the first padding that completes a group, or all of them,
in whole groups. -/
inductive Reads (ss : List Symbol) : List Symbol → Prop
  | padded {front : List Symbol} (hfront : front <+: ss) (hcompletes : Completes front)
      (hfirst : ∀ p, p <+: front → p ≠ front → ¬ Completes p) : Reads ss front
  | whole (hnone : ∀ p, p <+: ss → ¬ Completes p) (hgroups : (digits ss).length % 4 = 0) :
      Reads ss ss

/-- The number that digits in base 64 write. -/
def number (ds : List Nat) : Nat :=
  ds.foldl (fun n d => n * 64 + d) 0

/-- The bits of digits as bytes, without those left over. -/
def bytesOf (ds : List Nat) : Bytes :=
  Bytes.ofNat (6 * ds.length / 8) (number ds / 2 ^ (6 * ds.length % 8))

/-- The bytes that a text stands for. -/
def StandsFor (cs : List Char) (b : Bytes) : Prop :=
  ∃ front, Reads (symbols cs) front ∧ b = bytesOf (digits front)

theorem digits_concat (ss : List Symbol) (s : Symbol) :
    digits (ss ++ [s]) = digits ss ++ digits [s] :=
  List.filterMap_append

theorem digits_padding (ss : List Symbol) : digits (ss ++ [.padding]) = digits ss :=
  (digits_concat ss .padding).trans (List.append_nil _)

theorem number_concat (ds : List Nat) (d : Nat) : number (ds ++ [d]) = number ds * 64 + d := by
  unfold number
  rw [List.foldl_append]
  rfl

theorem suffix_concat_inj {l ss : List Symbol} {s t : Symbol} :
    l ++ [s] <:+ ss ++ [t] ↔ s = t ∧ l <:+ ss := by
  rw [List.suffix_concat_iff]
  constructor
  · rintro (hnil | ⟨front, hfront, hsuffix⟩)
    · simp at hnil
    · obtain ⟨rfl, rfl⟩ := List.append_singleton_inj.1 hfront
      exact ⟨rfl, hsuffix⟩
  · rintro ⟨rfl, hsuffix⟩
    exact Or.inr ⟨l, rfl, hsuffix⟩

theorem not_padding_suffix_digit (l ss : List Symbol) (d : Nat) :
    ¬ l ++ [.padding] <:+ ss ++ [.digit d] := by
  intro hsuffix
  exact absurd (suffix_concat_inj.1 hsuffix).1 nofun

theorem not_completes_digit (ss : List Symbol) (d : Nat) : ¬ Completes (ss ++ [.digit d]) := by
  rintro (⟨-, htwo⟩ | ⟨-, hone⟩)
  · exact not_padding_suffix_digit [.padding] ss d htwo
  · exact not_padding_suffix_digit [] ss d hone

theorem completes_padding_iff {ss : List Symbol} : Completes (ss ++ [.padding]) ↔
    (digits ss).length % 4 = 2 ∧ [.padding] <:+ ss ∨ (digits ss).length % 4 = 3 := by
  have htwo : [.padding, .padding] <:+ ss ++ [Symbol.padding] ↔ [Symbol.padding] <:+ ss :=
    (suffix_concat_inj (l := [.padding])).trans (and_iff_right rfl)
  have hone : [Symbol.padding] <:+ ss ++ [.padding] :=
    List.suffix_append _ _
  unfold Completes
  rw [digits_padding, htwo, and_iff_left hone]

/-! ## Where reading ends -/

/-- After some symbols, everything up to the first that completes a group, or all of them, in whole
groups. -/
def stopsAt? (done : List Symbol) : List Symbol → Option (List Symbol)
  | [] => if (digits done).length % 4 = 0 then some done else none
  | s :: ss => if Completes (done ++ [s]) then some (done ++ [s]) else stopsAt? (done ++ [s]) ss

/-- Only one beginning of symbols is the first that completes a group. -/
theorem Reads.eq_of_completes {ss p front : List Symbol} (hreads : Reads ss front) (hp : p <+: ss)
    (hcompletes : Completes p) (hfirst : ∀ q, q <+: p → q ≠ p → ¬ Completes q) : front = p := by
  cases hreads with
  | whole hnone => exact absurd hcompletes (hnone p hp)
  | padded hfront hfrontCompletes hfrontFirst =>
    by_contra hne
    rcases List.prefix_or_prefix_of_prefix hfront hp with hle | hle
    · exact hfirst front hle hne hfrontCompletes
    · exact hfrontFirst p hle (Ne.symm hne) hcompletes

/-- Reading ends where it first can. -/
theorem stopsAt_eq_some_iff {done ss front : List Symbol}
    (hdone : ∀ p, p <+: done → ¬ Completes p) :
    stopsAt? done ss = some front ↔ Reads (done ++ ss) front := by
  induction ss generalizing done with
  | nil =>
    rw [List.append_nil]
    constructor
    · intro h
      simp only [stopsAt?, Option.ite_none_right_eq_some, Option.some.injEq] at h
      rcases h with ⟨hgroups, rfl⟩
      exact .whole hdone hgroups
    · rintro (⟨hfront, hcompletes, -⟩ | ⟨-, hgroups⟩)
      · exact absurd hcompletes (hdone front hfront)
      · simp [stopsAt?, hgroups]
  | cons s ss ih =>
    rw [List.append_cons]
    by_cases hcompletes : Completes (done ++ [s])
    · have hfirst : ∀ q, q <+: done ++ [s] → q ≠ done ++ [s] → ¬ Completes q := by
        intro q hq hne
        exact hdone q ((List.prefix_concat_iff.1 hq).resolve_left hne)
      have hprefix : done ++ [s] <+: done ++ [s] ++ ss := List.prefix_append _ _
      rw [stopsAt?, if_pos hcompletes, Option.some.injEq]
      constructor
      · rintro rfl
        exact .padded hprefix hcompletes hfirst
      · intro hreads
        exact (hreads.eq_of_completes hprefix hcompletes hfirst).symm
    · rw [stopsAt?, if_neg hcompletes]
      apply ih
      intro p hp
      rcases List.prefix_concat_iff.1 hp with rfl | hp
      · exact hcompletes
      · exact hdone p hp

/-! ## Bits left over -/

namespace Place

/-- The number of bits left over from the digits before. -/
def bits : Place → Nat
  | first => 0
  | second _ => 6
  | third _ => 4
  | fourth _ => 2

/-- The bits left over from the digits before. -/
def left : Place → Nat
  | first => 0
  | second left | third left | fourth left => left

/-- The place after a digit. -/
def next : Place → Nat → Place
  | first, d => second d
  | second _, d => third (d % 16)
  | third _, d => fourth (d % 4)
  | fourth _, _ => first

/-- The byte that a digit completes, if it does. -/
def written : Place → Nat → Bytes
  | first, _ => []
  | second left, d => [UInt8.ofNat (left * 4 + d / 16)]
  | third left, d => [UInt8.ofNat (left * 16 + d / 4)]
  | fourth left, d => [UInt8.ofNat (left * 64 + d)]

theorem bits_le (place : Place) : place.bits ≤ 6 := by
  cases place <;> simp [bits]

/-- A digit adds six bits, and eight of them are written when there are as many. -/
theorem bits_next (place : Place) (d : Nat) :
    8 * (place.written d).length + (place.next d).bits = place.bits + 6 := by
  cases place <;> rfl

theorem left_next {d : Nat} (hd : d < 64) (place : Place) :
    (place.next d).left < 2 ^ (place.next d).bits := by
  cases place with
  | first => exact hd
  | second _ => exact Nat.mod_lt d (by decide)
  | third _ => exact Nat.mod_lt d (by decide)
  | fourth _ => exact Nat.one_pos

/-- What is written and what is left over make one number with the digits. -/
theorem number_next {place : Place} {d : Nat} (hleft : place.left < 2 ^ place.bits) (hd : d < 64)
    (out : Bytes) :
    (Bytes.toNat out * 2 ^ place.bits + place.left) * 64 + d =
      Bytes.toNat (out ++ place.written d) * 2 ^ (place.next d).bits + (place.next d).left := by
  have hbyte : ∀ n, n < 256 → (UInt8.ofNat n).toNat = n := by
    intro n hn
    rw [UInt8.toNat_ofNat', Nat.mod_eq_of_lt hn]
  cases place with
  | first =>
    simp only [bits, left, written, next, List.append_nil]
    omega
  | second left =>
    replace hleft : left < 64 := hleft
    simp only [bits, Place.left, written, next]
    rw [Bytes.toNat_concat, hbyte _ (by omega)]
    omega
  | third left =>
    replace hleft : left < 16 := hleft
    simp only [bits, Place.left, written, next]
    rw [Bytes.toNat_concat, hbyte _ (by omega)]
    omega
  | fourth left =>
    replace hleft : left < 4 := hleft
    simp only [bits, Place.left, written, next]
    rw [Bytes.toNat_concat, hbyte _ (by omega)]
    omega

end Place

/-- After some symbols a reader has written bytes, and holds the bits left over and how much padding
there was since the last digit. -/
structure Holding (done : List Symbol) (place : Place) (pads : Nat) (out : Bytes) : Prop where
  bits : 8 * out.length + place.bits = 6 * (digits done).length
  number : number (digits done) = Bytes.toNat out * 2 ^ place.bits + place.left
  left : place.left < 2 ^ place.bits
  pads : place.bits = 4 → (1 ≤ pads ↔ [.padding] <:+ done)

section Holding

variable {done : List Symbol} {place : Place} {pads : Nat} {out rest : Bytes}

theorem holding_nil : Holding [] .first 0 [] where
  bits := rfl
  number := rfl
  left := Nat.one_pos
  pads := nofun

/-- What has been written are the bytes of the digits so far. -/
theorem Holding.out_eq (h : Holding done place pads out) : out = bytesOf (digits done) := by
  have hbits := place.bits_le
  have hlength : 6 * (digits done).length / 8 = out.length := by
    rw [← h.bits]
    omega
  have hleft : 6 * (digits done).length % 8 = place.bits := by
    rw [← h.bits]
    omega
  have hnumber : Base64.number (digits done) / 2 ^ place.bits = Bytes.toNat out := by
    rw [h.number, Nat.add_comm, Nat.add_mul_div_right _ _ (Nat.two_pow_pos _),
      Nat.div_eq_of_lt h.left, Nat.zero_add]
  rw [bytesOf, hlength, hleft, hnumber, Bytes.ofNat_toNat]

/-- A digit is added to the bits left over. -/
theorem Holding.digit (h : Holding done place pads out) {d : Nat} (hd : d < 64) :
    Holding (done ++ [.digit d]) (place.next d) 0 (out ++ place.written d) := by
  have hdigits : digits (done ++ [.digit d]) = digits done ++ [d] := digits_concat done _
  refine ⟨?_, ?_, Place.left_next hd place, ?_⟩
  · have hnext := place.bits_next d
    have hbits := h.bits
    rw [hdigits, List.length_append, List.length_append, List.length_singleton]
    omega
  · rw [hdigits, number_concat, h.number, Place.number_next h.left hd]
  · intro _
    constructor
    · intro hpads
      omega
    · intro hsuffix
      exact absurd hsuffix (not_padding_suffix_digit [] done d)

/-- Padding that completes no group is counted. -/
theorem Holding.padding (h : Holding done place pads out) {pads' : Nat}
    (hpads : place.bits = 4 → 1 ≤ pads') : Holding (done ++ [.padding]) place pads' out := by
  refine ⟨?_, ?_, h.left, ?_⟩
  · rw [digits_padding, h.bits]
  · rw [digits_padding, h.number]
  · intro hplace
    exact iff_of_true (hpads hplace) (List.suffix_append _ _)

/-- Padding completes a group at its third place if there was some before, and at its fourth. -/
theorem Holding.completes_iff (h : Holding done place pads out) :
    Completes (done ++ [.padding]) ↔ place.bits = 4 ∧ 1 ≤ pads ∨ place.bits = 2 := by
  have hbits := h.bits
  have hle := place.bits_le
  rw [completes_padding_iff]
  apply or_congr
  · constructor
    · rintro ⟨hgroup, hsuffix⟩
      have hplace : place.bits = 4 := by omega
      exact ⟨hplace, (h.pads hplace).2 hsuffix⟩
    · rintro ⟨hplace, hpads⟩
      exact ⟨by omega, (h.pads hplace).1 hpads⟩
  · omega

/-! ## Reading -/

theorem readFrom_foreign {x : UInt8} (hpad : x ≠ pad) (hx : value? x = none) :
    readFrom place pads (x :: rest) = readFrom place pads rest := by
  rw [readFrom, if_neg hpad]
  simp only [hx]

theorem readFrom_digit {x : UInt8} {d : Nat} (hpad : x ≠ pad) (hx : value? x = some d) :
    readFrom place pads (x :: rest) =
      (readFrom (place.next d) 0 rest).map (place.written d ++ ·) := by
  rw [readFrom, if_neg hpad]
  simp only [hx]
  cases place with
  | first => exact Option.map_id'.symm
  | second left | third left | fourth left => rfl

/-- Padding that completes a group ends reading. -/
theorem readFrom_pad_of_completes (h : place.bits = 4 ∧ 1 ≤ pads ∨ place.bits = 2) :
    readFrom place pads (pad :: rest) = some [] := by
  rw [readFrom, if_pos rfl]
  cases place with
  | first | second left => simp [Place.bits] at h
  | third left =>
    have hpads : 2 ≤ pads + 1 := by
      simp [Place.bits] at h
      omega
    exact if_pos hpads
  | fourth left => exact if_pos (Nat.le_add_left 1 pads)

/-- Other padding is passed over, and counted where it may still complete a group. -/
theorem readFrom_pad_of_not_completes (h : ¬ (place.bits = 4 ∧ 1 ≤ pads ∨ place.bits = 2)) :
    ∃ pads', (place.bits = 4 → 1 ≤ pads') ∧
      readFrom place pads (pad :: rest) = readFrom place pads' rest := by
  rw [readFrom, if_pos rfl]
  cases place with
  | first | second left => exact ⟨pads, nofun, rfl⟩
  | third left =>
    have hpads : ¬ 2 ≤ pads + 1 := by
      simp [Place.bits] at h
      omega
    exact ⟨pads + 1, fun _ => Nat.le_add_left 1 pads, if_neg hpads⟩
  | fourth left => simp [Place.bits] at h

/-- The symbol of a byte. -/
def symbolOf? (x : UInt8) : Option Symbol :=
  if x = pad then some .padding else (value? x).map .digit

theorem value?_lt {x : UInt8} {d : Nat} (h : value? x = some d) : d < 64 := by
  unfold value? at h
  simp only at h
  split_ifs at h <;> simp only [Option.some.injEq] at h <;> omega

/-- Reading on writes the bytes of all digits up to where it ends. -/
theorem readFrom_eq (bytes : Bytes) (h : Holding done place pads out) :
    (readFrom place pads bytes).map (out ++ ·) =
      (stopsAt? done (bytes.filterMap symbolOf?)).map fun front => bytesOf (digits front) := by
  induction bytes generalizing done place pads out with
  | nil =>
    have hbits := h.bits
    rw [List.filterMap_nil, stopsAt?]
    cases place with
    | first =>
      have hgroups : (digits done).length % 4 = 0 := by
        simp only [Place.bits] at hbits
        omega
      rw [if_pos hgroups]
      simp only [readFrom, Option.map_some, List.append_nil, h.out_eq]
    | second left | third left | fourth left =>
      have hgroups : (digits done).length % 4 ≠ 0 := by
        simp only [Place.bits] at hbits
        omega
      rw [if_neg hgroups]
      rfl
  | cons x rest ih =>
    by_cases hpad : x = pad
    · have hsymbol : symbolOf? x = some .padding := if_pos hpad
      rw [List.filterMap_cons_some hsymbol, stopsAt?, hpad]
      by_cases hcompletes : Completes (done ++ [.padding])
      · rw [readFrom_pad_of_completes (h.completes_iff.1 hcompletes), if_pos hcompletes]
        simp only [Option.map_some, List.append_nil, digits_padding, h.out_eq]
      · rcases readFrom_pad_of_not_completes (mt h.completes_iff.2 hcompletes) with
          ⟨pads', hpads', hread⟩
        rw [hread, if_neg hcompletes, ih (h.padding hpads')]
    · cases hx : value? x with
      | none =>
        have hsymbol : symbolOf? x = none := by
          rw [symbolOf?, if_neg hpad, hx]
          rfl
        rw [List.filterMap_cons_none hsymbol, readFrom_foreign hpad hx, ih h]
      | some d =>
        have hsymbol : symbolOf? x = some (.digit d) := by
          rw [symbolOf?, if_neg hpad, hx]
          rfl
        rw [List.filterMap_cons_some hsymbol, stopsAt?, if_neg (not_completes_digit done d),
          readFrom_digit hpad hx, ← ih (h.digit (value?_lt hx)), Option.map_map]
        congr 1
        funext b
        exact (List.append_assoc out _ b).symm

end Holding

/-! ## Texts -/

/-- Bytes beyond ASCII are passed over. -/
theorem symbolOf?_of_ge {x : UInt8} (hx : 128 ≤ x.toNat) : symbolOf? x = none := by
  have hpad : x ≠ pad := by
    rintro rfl
    exact absurd hx (by decide)
  have hvalue : value? x = none := by
    unfold value?
    simp only
    rw [if_neg (by omega), if_neg (by omega), if_neg (by omega), if_neg (by omega),
      if_neg (by omega)]
  rw [symbolOf?, if_neg hpad, hvalue]
  rfl

/-- Characters beyond ASCII are passed over. -/
theorem symbol?_of_ge {c : Char} (hc : 128 ≤ c.toNat) : symbol? c = none := by
  have hascii : ('=' :: '+' :: '/' :: alphabet).all (fun d => d.toNat < 128) = true := by
    decide +kernel
  have hne : ∀ d ∈ '=' :: '+' :: '/' :: alphabet, c ≠ d := by
    rintro d hd rfl
    have hlt := List.all_eq_true.1 hascii c hd
    rw [decide_eq_true_eq] at hlt
    omega
  have hmem : c ∉ alphabet := by
    intro hmem
    exact hne c (by simp [hmem]) rfl
  rw [symbol?, if_neg (hne _ (by simp)), if_neg (hne _ (by simp)), if_neg (hne _ (by simp)),
    List.idxOf?_eq_none_iff.2 hmem]
  rfl

/-- The symbols of a character's bytes are those of the character. -/
theorem symbolOf?_encodeChar (c : Char) :
    (Utf8.encodeChar c).filterMap symbolOf? = (symbol? c).toList := by
  by_cases hc : c.toNat < 128
  · have hall : ∀ n < 128, (Utf8.encodeChar (Char.ofNat n)).filterMap symbolOf? =
        (symbol? (Char.ofNat n)).toList := by
      decide +kernel
    exact Text.of_ascii (P := fun c => (Utf8.encodeChar c).filterMap symbolOf? =
      (symbol? c).toList) hall c hc
  · rw [symbol?_of_ge (Nat.not_lt.1 hc), Option.toList_none, List.filterMap_eq_nil_iff]
    intro x hx
    exact symbolOf?_of_ge (Utf8.le_of_mem_encodeChar (Nat.not_lt.1 hc) x hx)

theorem symbolOf?_encodeChars (cs : List Char) :
    (Utf8.encodeChars cs).filterMap symbolOf? = symbols cs := by
  unfold Utf8.encodeChars symbols
  induction cs with
  | nil => rfl
  | cons c cs ih =>
    rw [List.flatMap_cons, List.filterMap_append, ih, symbolOf?_encodeChar]
    cases hc : symbol? c with
    | none => rw [List.filterMap_cons_none hc]; rfl
    | some s => rw [List.filterMap_cons_some hc]; rfl

/-- A text is decoded exactly to the bytes that it stands for. -/
theorem decode?_iff {cs : List Char} {b : Bytes} :
    decode? (Utf8.encodeChars cs) = some b ↔ StandsFor cs b := by
  have hread := readFrom_eq (Utf8.encodeChars cs) holding_nil
  have hstart : ∀ p, p <+: [] → ¬ Completes p := by
    intro p hp
    rw [List.prefix_nil.1 hp]
    decide
  have hid : (fun b : Bytes => [] ++ b) = id := rfl
  rw [symbolOf?_encodeChars, hid, Option.map_id] at hread
  show readFrom .first 0 (Utf8.encodeChars cs) = some b ↔ _
  unfold StandsFor
  rw [← id_eq (readFrom _ _ _), hread, Option.map_eq_some_iff]
  apply exists_congr
  intro front
  rw [stopsAt_eq_some_iff hstart, List.nil_append]
  exact and_congr_right' eq_comm

end NodeStore.Base64
