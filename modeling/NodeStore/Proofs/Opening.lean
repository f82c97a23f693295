import NodeStore.Proofs.Damage
import NodeStore.Proofs.Passwords

/-! # Why a sealed text does not open

A sealed phrase opens under the passwords that it is met with, or they are reported as wrong
(`Vault.OpensOrRefuses`), as long as each token opens under one of their keys at most
(`Vault.OneKey`). Of any other text the vault says more, but nothing that depends on the password,
unless the kind of the failure does.

* `openPhrase_of_key`: what is told of a token under the key of a password;
* `opensOrRefuses_of_sealPhrase`: a sealed phrase under any password that it is met with;
* `openPhrase_failures_eq`: two passwords and one text;
* `Vault.veil`: what may be told of a stored column. -/

namespace NodeStore

open Op

/-- Only a failure of this kind is a wrong password. -/
theorem Failure.eq_wrongPassword {e : Failure} (h : e.kind? = some .wrongPassword) :
    e = .wrongPassword := by
  cases e <;> simp [kind?] at h ⊢

namespace Vault

variable {v : Vault} {password other : RawText} {text token : String} {salt key : Bytes}
  {e e' : Failure}

/-! ## What is told of a token -/

/-- A text that does not decrypt does not open. -/
theorem openPhrase_of_decrypt_error {text : RawText} (h : v.decrypt password text = .error e) :
    v.openPhrase password text = .error e := by
  unfold openPhrase
  rw [h]
  rfl

/-- A text that cannot be taken apart. -/
theorem openPhrase_of_parts_error {text : RawText} {fault : SealFault}
    (hparts : parts text = .error fault) :
    v.openPhrase password text = .error (.invalidRecord fault) := by
  apply openPhrase_of_decrypt_error
  unfold decrypt
  rw [hparts]
  rfl

/-- A key that cannot be derived. -/
theorem openPhrase_of_key_error {text token : RawText} (hparts : parts text = .ok (salt, token))
    (hkey : v.key password salt = .error e) : v.openPhrase password text = .error e :=
  openPhrase_of_decrypt_error (decrypt_no_key hparts hkey)

/-- Under the key of the password the token does not open, or what it opens to is a text or none,
and the text is a phrase or none. -/
theorem openPhrase_of_key (hparts : parts text = .ok (salt, token))
    (hkey : v.key password salt = .ok key) :
    v.openPhrase password text =
      match v.cipher.openToken? key token with
      | none => .error .wrongPassword
      | some message =>
        match Utf8.decode message with
        | .error fault => .error (.notText fault)
        | .ok plain =>
          match SeedPhrase.parse? plain with
          | some phrase => .ok phrase
          | none => .error .corruptSecret := by
  unfold openPhrase
  rw [decrypt_of_parts hparts hkey]
  cases v.cipher.openToken? key token with
  | none => rfl
  | some message =>
    cases hdecode : Utf8.decode message with
    | error fault =>
      simp only [hdecode, mapError_error]
      rfl
    | ok plain =>
      cases hparse : SeedPhrase.parse? plain <;> simp only [hdecode, mapError_ok, ok_bind, hparse]

/-- What opens is a phrase, under a key that was derived. -/
theorem openPhrase_ok {text : RawText} {phrase : String}
    (h : v.openPhrase password text = .ok phrase) :
    SeedPhrase.parse? phrase = some phrase ∧ v.Derives password := by
  rcases decrypt_of_openPhrase h with ⟨plain, hplain, hparse⟩
  refine ⟨SeedPhrase.parse?_kept hparse, ?_⟩
  cases hparts : parts text with
  | error fault => simp [openPhrase_of_parts_error hparts] at h
  | ok found =>
    cases hkey : v.key password found.1 with
    | error fault => simp [openPhrase_of_key_error hparts hkey] at h
    | ok key => exact derives_of_key hkey

/-- An opening does not fail as a database does. -/
theorem kind_of_openPhrase_error {text : RawText} (h : v.openPhrase password text = .error e) :
    e.kind? ≠ some .database := by
  unfold openPhrase at h
  cases hdecrypt : v.decrypt password text with
  | ok plain =>
    simp only [hdecrypt, ok_bind] at h
    split at h
    · simp at h
    · obtain rfl := Except.error.inj h
      decide
  | error fault =>
    rw [hdecrypt] at h
    obtain rfl := Except.error.inj h
    rcases decrypt_error hdecrypt with ⟨-, hkind⟩ | ⟨-, hkind | hkind⟩
    all_goals
      rw [hkind]
      decide

/-! ## Passwords that a text is met with -/

section Met

variable {A : RawText → String → Prop}

/-- Of the keys that two passwords lead to, which a sealed text is met with, at most one opens its
token. -/
structure OneKey (v : Vault) (A : RawText → String → Prop) : Prop where
  key_eq : ∀ {password other : RawText} {text token : String}
    {salt key otherKey message message' : Bytes}, A password text → A other text →
    parts text = .ok (salt, token) → v.key password salt = .ok key →
    v.key other salt = .ok otherKey → v.cipher.openToken? key token = some message →
    v.cipher.openToken? otherKey token = some message' → key = otherKey

/-- Under whatever password it is met with, the text opens or the password is wrong. -/
def OpensOrRefuses (v : Vault) (A : RawText → String → Prop) (text : String) : Prop :=
  ∀ password e, A password text → v.openPhrase password text = .error e → e = .wrongPassword

/-- A sealed phrase opens under the passwords that lead to its key; any other password is wrong. -/
theorem opensOrRefuses_of_sealPhrase (hcipher : v.cipher.Lawful) (hone : v.OneKey A)
    (husable : ∀ password text, A password text → Usable password) {time : Nat} {phrase : RawText}
    {ent ent' : Entropy}
    (hseal : exec (v.sealPhrase time password phrase) ent = (.ok text, ent'))
    (hmet : A password text) : v.OpensOrRefuses A text := by
  cases hparse : SeedPhrase.parse? phrase with
  | none =>
    rw [exec_sealPhrase_none hparse] at hseal
    simp at hseal
  | some kept =>
    rw [exec_sealPhrase hparse] at hseal
    rcases encrypt_ok hseal with ⟨vector, key, plain, hplain, hvector, hkey, rfl⟩
    obtain rfl := RawText.ofString_injective hplain
    have hsalt := length_take saltSize ent
    have hparts : parts _ = .ok (_, v.cipher.sealToken key time vector (Utf8.encode kept)) :=
      parts_sealed hcipher hsalt hvector hkey
    have hopened := hcipher.openToken?_sealToken time (Utf8.encode kept) (length_key hkey) hvector
    intro other e hother hrefused
    have hderived := derives_of_key hkey
    have hderives : v.Derives other := ⟨hderived.pos, hderived.le, husable other _ hother⟩
    rcases hderives.exists_key (ent.take saltSize).1 with ⟨otherKey, hotherKey⟩
    cases hopen : v.cipher.openToken? otherKey
        (v.cipher.sealToken key time vector (Utf8.encode kept)) with
    | none =>
      rw [openPhrase_of_key hparts hotherKey, hopen] at hrefused
      exact (Except.error.inj hrefused).symm
    | some message =>
      -- a token that opens has been met with its own key, and opens to the phrase
      obtain rfl := hone.key_eq hmet hother hparts hkey hotherKey hopened hopen
      rw [openPhrase_of_key hparts hotherKey, hopened] at hrefused
      simp [Utf8.decode_encode, SeedPhrase.parse?_kept hparse] at hrefused

/-- Two passwords for which one text does not open, for reasons of one kind: the reason is the
same. -/
theorem openPhrase_failures_eq (hone : v.OneKey A) (hmet : A password text) (hother : A other text)
    (husable : Usable password) (husable' : Usable other)
    (h : v.openPhrase password text = .error e) (h' : v.openPhrase other text = .error e')
    (hkind : e.kind? = e'.kind?) : e = e' := by
  cases hparts : parts text with
  | error fault =>
    rw [openPhrase_of_parts_error hparts] at h h'
    exact Except.error.inj (h.symm.trans h')
  | ok found =>
    rcases found with ⟨salt, token⟩
    obtain ⟨token, rfl⟩ := token_of_parts hparts
    cases hkey : v.key password salt with
    | error fault =>
      have hkey' := husable.key_error husable' hkey
      rw [openPhrase_of_key_error hparts hkey] at h
      rw [openPhrase_of_key_error hparts hkey'] at h'
      exact Except.error.inj (h.symm.trans h')
    | ok key =>
      have hderived := derives_of_key hkey
      have hderives : v.Derives other := ⟨hderived.pos, hderived.le, husable'⟩
      rcases hderives.exists_key salt with ⟨otherKey, hkey'⟩
      rw [openPhrase_of_key hparts hkey] at h
      rw [openPhrase_of_key hparts hkey'] at h'
      cases hopen : v.cipher.openToken? key token with
      | none =>
        rw [hopen] at h
        obtain rfl := Except.error.inj h
        exact (Failure.eq_wrongPassword hkind.symm).symm
      | some message =>
        cases hopen' : v.cipher.openToken? otherKey token with
        | none =>
          rw [hopen'] at h'
          obtain rfl := Except.error.inj h'
          exact Failure.eq_wrongPassword hkind
        | some message' =>
          -- a token that opens under both keys is one that both passwords lead to
          obtain rfl := hone.key_eq hmet hother hparts hkey hkey' hopen hopen'
          exact Except.error.inj (h.symm.trans h')

open Classical in
/-- What may be told of a stored column: whether it is one of the texts that open or are refused
under the passwords that they are met with, and else all. -/
noncomputable def veil (v : Vault) (A : RawText → String → Prop) : Cell → Cell
  | .text text => if v.OpensOrRefuses A text then .text "" else .text text
  | .blob b => .blob b

theorem veil_of_opensOrRefuses (h : v.OpensOrRefuses A text) : v.veil A (.text text) = .text "" :=
  if_pos h

end Met

/-- The ways in which the sealing of a phrase ends, and what is then left of the randomness. -/
theorem exec_sealPhrase_ends (v : Vault) (time : Nat) (password phrase : RawText) (ent : Entropy) :
    (∃ text, exec (v.sealPhrase time password phrase) ent =
      (.ok text, ((ent.take saltSize).2.take vectorSize).2)) ∨
    exec (v.sealPhrase time password phrase) ent = (.error .invalidMnemonic, ent) ∨
    ∃ failure, v.key password (ent.take saltSize).1 = .error failure ∧
      exec (v.sealPhrase time password phrase) ent = (.error failure, (ent.take saltSize).2) := by
  cases hparse : SeedPhrase.parse? phrase with
  | none => exact Or.inr (Or.inl (exec_sealPhrase_none hparse time))
  | some kept =>
    rw [exec_sealPhrase hparse, exec_encrypt, RawText.encode_ofString]
    cases hkey : v.key password (ent.take saltSize).1 with
    | error failure => exact Or.inr (Or.inr ⟨failure, rfl, rfl⟩)
    | ok key => exact Or.inl ⟨_, rfl⟩

end Vault

end NodeStore
