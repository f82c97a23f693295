import NodeStore.Proofs.Checks
import NodeStore.Proofs.Hex
import NodeStore.Proofs.Text.Blank
import NodeStore.RowCheck

/-! # Addresses

`IsAddress` is the grammar of `host:port`. The host is a name, or hex digits, colons and dots in
brackets; the port is one to five decimal digits of any script, and has an upper bound. The check
keeps every address as it is written (`socketAddress_iff`), and besides them the texts that are an
address followed by one line feed.

* `splitLast_iff`, `isHost_iff`, `portValue?_iff`: the parts of the reader and of the grammar;
* `IsAddress.not_blank`: an address has no blanks. -/

namespace NodeStore.Address

variable {cs a b : List Char} {c : Char} {n : Nat} {s kept : String}

/-! ## The grammar -/

/-- The digits of hex numbers. -/
def hexDigits : List Char := "0123456789abcdefABCDEF".toList

/-- A host: hex digits, colons and dots in brackets, or a name. -/
inductive IsHost : List Char → Prop where
  | bracketed {cs : List Char} : cs ≠ [] → (∀ c ∈ cs, c ∈ hexDigits ∨ c = ':' ∨ c = '.') →
    IsHost ('[' :: (cs ++ [']']))
  | name {cs : List Char} : cs ≠ [] →
    (∀ c ∈ cs, Text.isBlank c = false ∧ c ≠ ':' ∧ c ≠ '[' ∧ c ≠ ']') → IsHost cs

/-- One to five decimal digits of any script, and the number that they stand for. -/
def IsPort (cs : List Char) (n : Nat) : Prop :=
  cs ≠ [] ∧ cs.length ≤ 5 ∧
    ∃ ds, List.Forall₂ (fun c d => Text.digitValue? c = some d) cs ds ∧ n = Text.natOfDigits ds

/-- A host, a colon and a port up to 65535. -/
def IsAddress (cs : List Char) : Prop :=
  ∃ host port n, cs = host ++ ':' :: port ∧ IsHost host ∧ IsPort port n ∧ n ≤ 65535

/-! ## Characters -/

theorem isBracketChar_iff : RowCheck.isBracketChar c = true ↔
    c ∈ hexDigits ∨ c = ':' ∨ c = '.' := by
  have hdigit : (Hex.value? c).isSome = true ↔ c ∈ hexDigits := by
    have hascii : ∀ c : Char, c.toNat < 128 → ((Hex.value? c).isSome = true ↔ c ∈ hexDigits) :=
      Text.of_ascii (by decide +kernel)
    constructor
    · intro h
      rcases Option.isSome_iff_exists.1 h with ⟨v, hv⟩
      exact (hascii c (Hex.of_value? hv).1).1 h
    · intro h
      have hall : hexDigits.all (·.toNat < 128) = true := by decide
      exact (hascii c (of_decide_eq_true (List.all_eq_true.1 hall c h))).2 h
  unfold RowCheck.isBracketChar
  rw [Bool.or_eq_true, Bool.or_eq_true, hdigit, beq_iff_eq, beq_iff_eq, or_assoc]

theorem isHostChar_iff : RowCheck.isHostChar c = true ↔
    Text.isBlank c = false ∧ c ≠ ':' ∧ c ≠ '[' ∧ c ≠ ']' := by
  simp [RowCheck.isHostChar, and_assoc]

/-- A decimal digit is no blank, no colon, no bracket, and no control character. -/
theorem of_digitValue? {d : Nat} (h : Text.digitValue? c = some d) :
    Text.isBlank c = false ∧ c ∉ [':', '[', '\x1b'] := by
  -- the digits of each script follow its zero
  have hruns : ∀ z ∈ Text.digitZeros, ∀ i < 10,
      Text.isBlank (Char.ofNat (z + i)) = false ∧ Char.ofNat (z + i) ∉ [':', '[', '\x1b'] := by
    decide +kernel
  unfold Text.digitValue? at h
  rcases List.exists_of_findSome?_eq_some h with ⟨z, hz, hrun⟩
  split at hrun
  · rename_i hc
    have hsum : z + (c.toNat - z) = c.toNat := by omega
    have hdigit := hruns z hz (c.toNat - z) (by omega)
    rwa [hsum, Char.ofNat_toNat] at hdigit
  · simp at hrun

theorem not_blank_of_bracketChar (h : c ∈ hexDigits ∨ c = ':' ∨ c = '.') :
    Text.isBlank c = false := by
  have hdigits : hexDigits.all (!Text.isBlank ·) = true := by decide
  rcases h with h | rfl | rfl
  · simpa using List.all_eq_true.1 hdigits c h
  · decide
  · decide

/-! ## The reader -/

theorem splitLast_eq_none_iff : RowCheck.splitLast c cs = none ↔ c ∉ cs := by
  induction cs with
  | nil => simp [RowCheck.splitLast]
  | cons d ds ih =>
    rw [RowCheck.splitLast, List.mem_cons, not_or, ← ih]
    cases RowCheck.splitLast c ds with
    | none => simp [eq_comm]
    | some parts => simp

theorem splitLast_append (h : c ∉ b) (a : List Char) :
    RowCheck.splitLast c (a ++ c :: b) = some (a, b) := by
  induction a with
  | nil =>
    rw [List.nil_append, RowCheck.splitLast, splitLast_eq_none_iff.2 h]
    exact if_pos rfl
  | cons d a ih => rw [List.cons_append, RowCheck.splitLast, ih]

/-- The last colon is the one that no colon follows. -/
theorem splitLast_iff : RowCheck.splitLast c cs = some (a, b) ↔ cs = a ++ c :: b ∧ c ∉ b := by
  constructor
  · intro h
    induction cs generalizing a with
    | nil => simp [RowCheck.splitLast] at h
    | cons d ds ih =>
      rw [RowCheck.splitLast] at h
      cases hrest : RowCheck.splitLast c ds with
      | some parts =>
        rw [hrest] at h
        obtain ⟨rfl, rfl⟩ := Prod.mk.inj (Option.some.inj h)
        rcases ih hrest with ⟨hds, hb⟩
        exact ⟨congrArg (d :: ·) hds, hb⟩
      | none =>
        simp only [hrest] at h
        split at h
        · rename_i hd
          obtain ⟨rfl, rfl⟩ := Prod.mk.inj (Option.some.inj h)
          exact ⟨by rw [hd]; rfl, splitLast_eq_none_iff.1 hrest⟩
        · simp at h
  · rintro ⟨rfl, hb⟩
    exact splitLast_append hb a

/-- A bracket begins no name, so what follows it ends with the other one. -/
theorem isHost_bracket_iff {rest : List Char} : IsHost ('[' :: rest) ↔
    ∃ inner, rest = inner ++ [']'] ∧ inner ≠ [] ∧
      ∀ c ∈ inner, c ∈ hexDigits ∨ c = ':' ∨ c = '.' := by
  constructor
  · intro h
    generalize hcs : '[' :: rest = cs at h
    cases h with
    | bracketed hne hall => exact ⟨_, (List.cons.inj hcs).2, hne, hall⟩
    | name hne hall =>
      subst hcs
      exact absurd rfl (hall '[' List.mem_cons_self).2.2.1
  · rintro ⟨inner, rfl, hne, hall⟩
    exact .bracketed hne hall

/-- Without a bracket in front there are only names. -/
theorem isHost_name_iff (hbracket : ∀ rest, cs ≠ '[' :: rest) : IsHost cs ↔
    cs ≠ [] ∧ ∀ c ∈ cs, Text.isBlank c = false ∧ c ≠ ':' ∧ c ≠ '[' ∧ c ≠ ']' := by
  constructor
  · intro h
    cases h with
    | bracketed => exact absurd rfl (hbracket _)
    | name hne hall => exact ⟨hne, hall⟩
  · rintro ⟨hne, hall⟩
    exact .name hne hall

/-- The reader of hosts accepts what the grammar does. -/
theorem isHost_iff : RowCheck.isHost cs = true ↔ IsHost cs := by
  unfold RowCheck.isHost
  split
  · rename_i rest
    rw [isHost_bracket_iff]
    split
    · rename_i inner hrest
      -- the reader looks for the closing bracket from the end
      have hends : rest = inner.reverse ++ [']'] := by
        rw [← List.reverse_reverse rest, hrest, List.reverse_cons]
      rw [Bool.and_eq_true, List.all_eq_true, Bool.not_eq_true', List.isEmpty_eq_false_iff]
      simp only [isBracketChar_iff]
      constructor
      · rintro ⟨hne, hall⟩
        exact ⟨inner.reverse, hends, by simpa using hne, fun c hc =>
          hall c (List.mem_reverse.1 hc)⟩
      · rintro ⟨inner', hrest', hne, hall⟩
        obtain rfl := List.append_cancel_right (hends.symm.trans hrest')
        exact ⟨by simpa using hne, fun c hc => hall c (List.mem_reverse.2 hc)⟩
    · rename_i hno
      refine ⟨nofun, ?_⟩
      rintro ⟨inner, rfl, -⟩
      exact absurd (by simp) (hno inner.reverse)
  · rename_i hno
    rw [isHost_name_iff hno, Bool.and_eq_true, List.all_eq_true, Bool.not_eq_true',
      List.isEmpty_eq_false_iff]
    simp only [isHostChar_iff]

/-- The reader of ports accepts what the grammar does. -/
theorem portValue?_iff : RowCheck.portValue? cs = some n ↔ IsPort cs n := by
  unfold RowCheck.portValue? IsPort
  split
  · rename_i hlength
    refine ⟨nofun, ?_⟩
    rintro ⟨hne, hle, -⟩
    rcases hlength with hnil | hlong
    · exact absurd (List.isEmpty_iff.1 hnil) hne
    · omega
  · rename_i hlength
    rw [not_or, List.isEmpty_iff, Nat.not_lt] at hlength
    rw [Option.map_eq_some_iff]
    simp only [mapM_eq_some_iff]
    constructor
    · rintro ⟨ds, hds, rfl⟩
      exact ⟨hlength.1, hlength.2, ds, hds, rfl⟩
    · rintro ⟨-, -, ds, hds, rfl⟩
      exact ⟨ds, hds, rfl⟩

theorem IsPort.digit (h : IsPort cs n) (hc : c ∈ cs) : ∃ d, Text.digitValue? c = some d := by
  rcases h with ⟨-, -, ds, hds, -⟩
  induction hds with
  | nil => simp at hc
  | cons hd _ ih =>
    rcases List.mem_cons.1 hc with rfl | hc
    · exact ⟨_, hd⟩
    · exact ih hc

theorem IsPort.not_mem (h : IsPort cs n) (hc : c ∈ [':', '[', '\x1b']) : c ∉ cs := by
  intro hmem
  rcases h.digit hmem with ⟨d, hd⟩
  exact (of_digitValue? hd).2 hc

theorem IsHost.not_blank (h : IsHost cs) : ∀ c ∈ cs, Text.isBlank c = false := by
  cases h with
  | bracketed _ hall =>
    intro c hc
    rcases List.mem_cons.1 hc with rfl | hc
    · decide
    rcases List.mem_append.1 hc with hc | hc
    · exact not_blank_of_bracketChar (hall c hc)
    · obtain rfl := List.mem_singleton.1 hc
      decide
  | name _ hall => exact fun c hc => (hall c hc).1

/-- An address has no blanks, and so no line ending. -/
theorem IsAddress.not_blank (h : IsAddress cs) : ∀ c ∈ cs, Text.isBlank c = false := by
  rcases h with ⟨host, port, n, rfl, hhost, hport, -⟩
  intro c hc
  rcases List.mem_append.1 hc with hc | hc
  · exact hhost.not_blank c hc
  rcases List.mem_cons.1 hc with rfl | hc
  · decide
  · rcases hport.digit hc with ⟨d, hd⟩
    exact (of_digitValue? hd).1

/-- No terminal escape occurs in an address: there are no control characters in brackets, and no
brackets in a name. -/
theorem IsAddress.no_escape (h : IsAddress cs) : '\x1b' ∉ cs ∨ '[' ∉ cs := by
  rcases h with ⟨host, port, n, rfl, hhost, hport, -⟩
  simp only [List.mem_append, List.mem_cons, not_or]
  cases hhost with
  | bracketed _ hall =>
    refine Or.inl ⟨?_, by decide, hport.not_mem (by decide)⟩
    intro hescape
    rcases List.mem_cons.1 hescape with hescape | hescape
    · exact absurd hescape (by decide)
    rcases List.mem_append.1 hescape with hescape | hescape
    · exact absurd (hall _ hescape) (by decide)
    · exact absurd (List.mem_singleton.1 hescape) (by decide)
  | name _ hall =>
    refine Or.inr ⟨?_, by decide, hport.not_mem (by decide)⟩
    intro hbracket
    exact (hall _ hbracket).2.2.1 rfl

/-! ## The check -/

/-- What is kept: an address, or one that a line feed follows. -/
def IsKept (cs : List Char) : Prop :=
  IsAddress cs ∨ ∃ a, cs = a ++ ['\n'] ∧ IsAddress a

theorem dropFinalNewline_append (a : List Char) :
    RowCheck.dropFinalNewline (a ++ ['\n']) = a := by
  rw [RowCheck.dropFinalNewline, List.reverse_append]
  exact List.reverse_reverse a

/-- Nothing but a line feed at the end is dropped. -/
theorem dropFinalNewline_cases (cs : List Char) :
    RowCheck.dropFinalNewline cs = cs ∨ cs = RowCheck.dropFinalNewline cs ++ ['\n'] := by
  unfold RowCheck.dropFinalNewline
  split
  · rename_i rest hrest
    right
    rw [← List.reverse_reverse cs, hrest, List.reverse_cons]
  · exact Or.inl rfl

theorem dropFinalNewline_eq_self (h : cs.getLast? ≠ some '\n') :
    RowCheck.dropFinalNewline cs = cs := by
  rcases dropFinalNewline_cases cs with hsame | hcs
  · exact hsame
  · rw [hcs, List.getLast?_concat] at h
    exact absurd rfl h

theorem IsAddress.getLast?_ne (h : IsAddress cs) : cs.getLast? ≠ some '\n' := by
  intro hlast
  have hblank := h.not_blank '\n' (List.mem_of_getLast? hlast)
  exact absurd hblank (by decide)

/-- What is left without the line feed decides. -/
theorem isKept_iff : IsKept cs ↔ IsAddress (RowCheck.dropFinalNewline cs) := by
  constructor
  · rintro (h | ⟨a, rfl, h⟩)
    · rwa [dropFinalNewline_eq_self h.getLast?_ne]
    · rwa [dropFinalNewline_append]
  · intro h
    rcases dropFinalNewline_cases cs with hsame | hcs
    · exact Or.inl (hsame ▸ h)
    · exact Or.inr ⟨_, hcs, h⟩

theorem IsKept.no_escape (h : IsKept cs) : '\x1b' ∉ cs ∨ '[' ∉ cs := by
  rcases h with h | ⟨a, rfl, h⟩
  · exact h.no_escape
  · simp only [List.mem_append, List.mem_singleton, not_or]
    exact h.no_escape.imp (fun h => ⟨h, by decide⟩) fun h => ⟨h, by decide⟩

theorem addressPort?_iff : RowCheck.addressPort? s = some n ↔
    ∃ host port, RowCheck.dropFinalNewline s.toList = host ++ ':' :: port ∧ IsHost host ∧
      IsPort port n := by
  unfold RowCheck.addressPort?
  constructor
  · intro h
    split at h
    · rename_i host port hsplit
      split at h
      · rename_i hhost
        exact ⟨host, port, (splitLast_iff.1 hsplit).1, isHost_iff.1 hhost, portValue?_iff.1 h⟩
      · simp at h
    · simp at h
  · rintro ⟨host, port, hs, hhost, hport⟩
    rw [splitLast_iff.2 ⟨hs, hport.not_mem (by decide)⟩]
    simp only [isHost_iff.2 hhost, portValue?_iff.2 hport, if_true]

/-- The check keeps addresses as they are written, also if a line feed follows. -/
theorem socketAddress_iff : RowCheck.socketAddress (.text s) = .ok kept ↔
    kept = s ∧ IsKept s.toList := by
  rw [isKept_iff]
  cases hport : RowCheck.addressPort? s with
  | none =>
    simp only [RowCheck.socketAddress, hport]
    refine ⟨nofun, ?_⟩
    rintro ⟨-, host, port, n, hs, hhost, hn, -⟩
    rw [addressPort?_iff.2 ⟨host, port, hs, hhost, hn⟩] at hport
    simp at hport
  | some n =>
    simp only [RowCheck.socketAddress, hport]
    by_cases hmax : RowCheck.maxPort < n
    · rw [if_pos hmax]
      refine ⟨nofun, ?_⟩
      rintro ⟨-, host, port, n', hs, hhost, hn', hle⟩
      -- a text has no second port, which might be lower
      rw [addressPort?_iff.2 ⟨host, port, hs, hhost, hn'⟩] at hport
      obtain rfl := Option.some.inj hport
      exact absurd hle (Nat.not_le.2 hmax)
    · rw [if_neg hmax]
      rcases addressPort?_iff.1 hport with ⟨host, port, hs, hhost, hn⟩
      constructor
      · intro hkept
        exact ⟨(Except.ok.inj hkept).symm, host, port, n, hs, hhost, hn, Nat.not_lt.1 hmax⟩
      · rintro ⟨rfl, -⟩
        rfl

end NodeStore.Address
