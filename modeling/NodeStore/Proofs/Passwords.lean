import NodeStore.Proofs.Crypto.KeyBlock
import NodeStore.Proofs.Vault

/-!
# Which passwords open a sealed value

The vault is used with a cipher that refuses a token under every key but the one that it was
sealed under (`TokenCipher.Exclusive`). What opens a sealed value is then decided by the derived
key alone, and a derived key depends on the block of a password alone.

* `opens_exactly_under_its_key`: under a password of another key a sealed value is refused, under
  a password of the same key it opens, and which passwords have one key whatever the salt is;
* `nul_ended_password_opens`: two passwords with one block, under both of which it opens.
-/

namespace NodeStore

open Op

/-! ## Exclusive ciphers -/

/-- A cipher that refuses what was sealed under another key. -/
structure TokenCipher.Exclusive (c : TokenCipher) : Prop where
  openToken?_other : ∀ {key other vector : Bytes} (time : Nat) (msg : Bytes), key.length = 32 →
    other.length = 32 → vector.length = 16 → other ≠ key →
    c.openToken? other (c.sealToken key time vector msg) = none

/-- A cipher that writes the key in front of the token, and looks at it before it opens the
token. -/
def TokenCipher.labelled : TokenCipher where
  sealToken key time vector message :=
    Base64.encodeText (key ++ Fernet.sealBytes key time vector message)
  openToken? key token :=
    (Base64.decode? (Utf8.encode token)).bind fun b =>
      if b.take 32 = key then Fernet.openBytes? key (b.drop 32) else none

/-- The label is looked at first. -/
theorem TokenCipher.labelled_openToken? {key : Bytes} (other : Bytes) (time : Nat)
    (vector msg : Bytes) (hkey : key.length = 32) :
    labelled.openToken? other (labelled.sealToken key time vector msg) =
      if key = other then Fernet.openBytes? other (Fernet.sealBytes key time vector msg)
      else none := by
  have hread : Base64.decode? (Utf8.encode (labelled.sealToken key time vector msg)) =
      some (key ++ Fernet.sealBytes key time vector msg) := Base64.decode?_encodeText _
  simp only [labelled] at hread ⊢
  rw [hread, Option.bind_some, List.take_left' hkey, List.drop_left' hkey]

theorem TokenCipher.labelled_lawful : TokenCipher.labelled.Lawful where
  openToken?_sealToken := by
    intro key vector time msg hkey hvector
    rw [labelled_openToken? key time vector msg hkey, if_pos rfl]
    exact Fernet.openBytes?_sealBytes time msg hkey hvector
  token_ne_empty := by
    intro key vector time msg _ _ h
    have hne : key ++ Fernet.sealBytes key time vector msg ≠ [] := by
      simp [Fernet.sealBytes_ne_nil time msg]
    exact Base64.encodeText_ne_empty hne (String.toList_eq_nil_iff.1 h)
  token_chars := by
    intro key vector time msg _ _ ch hch
    exact Base64.encodeText_chars hch

theorem TokenCipher.labelled_exclusive : TokenCipher.labelled.Exclusive where
  openToken?_other := by
    intro key other vector time msg hkey _ _ hne
    rw [labelled_openToken? other time vector msg hkey, if_neg (Ne.symm hne)]

namespace Vault

variable {v : Vault} {password other : RawText} {text : String} {salt vector key : Bytes}
  {time : Nat}

/-! ## Keys of passwords -/

/-- Two passwords whose bytes have one block. -/
def SameBlock (password other : RawText) : Prop :=
  ∃ b b', password.encode = .ok b ∧ other.encode = .ok b' ∧ Hmac.keyBlock b' = Hmac.keyBlock b

/-- Passwords with one block have one key. -/
theorem key_congr (h : SameBlock password other) (hpassword : v.Derives password)
    (hother : v.Derives other) (salt : Bytes) : v.key other salt = v.key password salt := by
  rcases h with ⟨b, b', hb, hb', hblock⟩
  simp only [Vault.key, hpassword.passwordBytes hb, hother.passwordBytes hb', Except.map,
    Hmac.deriveKey_congr hblock]

/-- Passwords that fit into a block have one block exactly if they differ in NUL characters at the
end at most. -/
theorem sameBlock_iff {p q : String} (hp : (Utf8.encode p).length ≤ 64)
    (hq : (Utf8.encode q).length ≤ 64) :
    SameBlock p q ↔ Bytes.EqUpToZeros (Utf8.encode p) (Utf8.encode q) := by
  rw [← Hmac.keyBlock_eq_iff hp hq]
  constructor
  · rintro ⟨b, b', hb, hb', hblock⟩
    rw [RawText.encode_ofString, Except.ok.injEq] at hb hb'
    rwa [hb, hb']
  · intro hblock
    exact ⟨_, _, RawText.encode_ofString p, RawText.encode_ofString q, hblock⟩

/-- A longer password has the block of any password whose bytes are its hash. -/
theorem sameBlock_of_hash {p q : String} (hlong : 64 < (Utf8.encode p).length)
    (hhash : Utf8.encode q = Sha256.hash (Utf8.encode p)) : SameBlock p q :=
  ⟨_, _, RawText.encode_ofString p, RawText.encode_ofString q, by
    rw [hhash, Hmac.keyBlock_hash hlong]⟩

/-! ## Opening under any password -/

theorem parts_sealed (hcipher : v.cipher.Lawful) (hsalt : salt.length = saltSize)
    (hvector : vector.length = vectorSize) (hkey : v.key password salt = .ok key) :
    parts (joined salt (v.cipher.sealToken key time vector (Utf8.encode text))) =
      .ok (salt, v.cipher.sealToken key time vector (Utf8.encode text)) := by
  have hlen := length_key hkey
  have hparts : parts ("" ++
      joined salt (v.cipher.sealToken key time vector (Utf8.encode text)) ++ "" : String) =
      .ok (salt, _) :=
    parts_joined hsalt (hcipher.token_ne_empty time (Utf8.encode text) hlen hvector)
      (hcipher.token_chars time (Utf8.encode text) hlen hvector) (by simp) (by simp)
  rwa [String.empty_append, String.append_empty] at hparts

/-- A password of another key is refused. -/
theorem decrypt_other_key (hcipher : v.cipher.Lawful) (hexclusive : v.cipher.Exclusive)
    (hsalt : salt.length = saltSize) (hvector : vector.length = vectorSize)
    (hkey : v.key password salt = .ok key) {otherKey : Bytes}
    (hother : v.key other salt = .ok otherKey) (hne : otherKey ≠ key) :
    v.decrypt other (joined salt (v.cipher.sealToken key time vector (Utf8.encode text))) =
      .error .wrongPassword := by
  have hrefused := hexclusive.openToken?_other time (Utf8.encode text) (length_key hkey)
    (length_key hother) hvector hne
  rw [decrypt_of_parts (parts_sealed hcipher hsalt hvector hkey) hother, hrefused]

/-- A password of the same key opens what was sealed. -/
theorem decrypt_same_key (hcipher : v.cipher.Lawful) (hsalt : salt.length = saltSize)
    (hvector : vector.length = vectorSize) (hkey : v.key password salt = .ok key)
    (hother : v.key other salt = .ok key) :
    v.decrypt other (joined salt (v.cipher.sealToken key time vector (Utf8.encode text))) =
      .ok text := by
  have hopened := hcipher.openToken?_sealToken time (Utf8.encode text) (length_key hkey) hvector
  rw [decrypt_of_parts (parts_sealed hcipher hsalt hvector hkey) hother, hopened]
  simp only [Utf8.decode_encode, mapError_ok]

/-- A password without a key is reported as that. -/
theorem decrypt_no_key {sealedText token : RawText} {failure : Failure}
    (hparts : parts sealedText = .ok (salt, token)) (hother : v.key other salt = .error failure) :
    v.decrypt other sealedText = .error failure := by
  simp only [decrypt, hparts, mapError_ok, ok_bind, hother]
  rfl

/-- Every text is sealed under a password that keys are derived from, and a password opens it
exactly if it leads to the key of the password that it was sealed under: any other password is
reported as wrong, or has no key, and none opens another text. Passwords with one block lead to one
key whatever the salt is: these are passwords of up to 64 bytes that differ in NUL characters at the
end, and longer passwords and those whose bytes are their hash. -/
theorem opens_exactly_under_its_key (v : Vault) (hcipher : v.cipher.Lawful)
    (hexclusive : v.cipher.Exclusive) (time : Nat) (password : RawText) (text : String)
    (e : Entropy) :
    ((∃ sealedText f, exec (v.encrypt time password text) e = (.ok sealedText, f)) ↔
      v.Derives password) ∧
    (∀ (sealedText : String) (f : Entropy),
      exec (v.encrypt time password text) e = (.ok sealedText, f) → ∀ other : RawText,
        (v.Derives other → v.key other (e.take saltSize).1 ≠ v.key password (e.take saltSize).1 →
          v.decrypt other sealedText = .error .wrongPassword) ∧
        (v.key other (e.take saltSize).1 = v.key password (e.take saltSize).1 →
          v.decrypt other sealedText = .ok text) ∧
        (¬ v.Derives other → ∃ failure, v.KeyFault other failure ∧
          v.decrypt other sealedText = .error failure)) ∧
    (∀ other : RawText, v.Derives password → v.Derives other → SameBlock password other →
      ∀ salt, v.key other salt = v.key password salt) ∧
    (∀ p q : String, (Utf8.encode p).length ≤ 64 → (Utf8.encode q).length ≤ 64 →
      (SameBlock p q ↔ Bytes.EqUpToZeros (Utf8.encode p) (Utf8.encode q))) ∧
    ∀ p q : String, 64 < (Utf8.encode p).length → Utf8.encode q = Sha256.hash (Utf8.encode p) →
      SameBlock p q := by
  refine ⟨⟨?_, fun h => h.exists_encrypt time text e⟩, ?_, fun other hpassword hother hblock =>
    key_congr hblock hpassword hother, fun p q => sameBlock_iff, fun p q => sameBlock_of_hash⟩
  · rintro ⟨sealedText, f, hseal⟩
    rcases encrypt_ok hseal with ⟨vector, key, -, -, -, hkey, -⟩
    exact derives_of_key hkey
  · intro sealedText f hseal other
    rcases encrypt_ok hseal with ⟨vector, key, plain, htext, hvector, hkey, rfl⟩
    obtain rfl := RawText.ofString_injective htext
    have hsalt := length_take saltSize e
    refine ⟨?_, ?_, ?_⟩
    · intro hderives hne
      rcases hderives.exists_key (e.take saltSize).1 with ⟨otherKey, hother⟩
      apply decrypt_other_key hcipher hexclusive hsalt hvector hkey hother
      rintro rfl
      exact hne (hother.trans hkey.symm)
    · intro heq
      exact decrypt_same_key hcipher hsalt hvector hkey (heq.trans hkey)
    · intro hnot
      cases hother : v.key other (e.take saltSize).1 with
      | ok otherKey => exact absurd (derives_of_key hother) hnot
      | error failure =>
        exact ⟨failure, keyFault_of_key hother,
          decrypt_no_key (parts_sealed hcipher hsalt hvector hkey) hother⟩

/-- Keys are derived with one iteration. -/
theorem derives_one (c : TokenCipher) {p : String} (hsize : (Utf8.encode p).length ≤ maxCount) :
    (⟨c, 1⟩ : Vault).Derives p :=
  derives_ofString (Int.le_refl 1) (by decide : (1 : Int) ≤ maxCount) hsize

/-- The first byte of a key. -/
theorem head?_deriveKey_pw :
    (Hmac.deriveKey (Utf8.encode "pw") ((Entropy.ofBytes []).take saltSize).1 1).head? =
      some 195 := by
  decide +kernel

/-- The first byte of the key of another password. -/
theorem head?_deriveKey_other :
    (Hmac.deriveKey (Utf8.encode "other") ((Entropy.ofBytes []).take saltSize).1 1).head? =
      some 105 := by
  decide +kernel

/-- Two passwords with different keys. -/
theorem deriveKey_other_ne :
    Hmac.deriveKey (Utf8.encode "other") ((Entropy.ofBytes []).take saltSize).1 1 ≠
      Hmac.deriveKey (Utf8.encode "pw") ((Entropy.ofBytes []).take saltSize).1 1 := by
  intro h
  have hhead := congrArg List.head? h
  rw [head?_deriveKey_other, head?_deriveKey_pw] at hhead
  exact absurd hhead (by decide)

/-- With a cipher that looks at the key, a wrong password and the right one. -/
theorem other_password_is_wrong :
    TokenCipher.labelled.Lawful ∧ TokenCipher.labelled.Exclusive ∧
    (⟨.labelled, 1⟩ : Vault).Derives "other" ∧
    ∃ sealedText f,
      exec ((⟨.labelled, 1⟩ : Vault).encrypt 0 "pw" "seed") (Entropy.ofBytes []) =
        (.ok sealedText, f) ∧
      (⟨.labelled, 1⟩ : Vault).decrypt "other" sealedText = .error .wrongPassword ∧
      (⟨.labelled, 1⟩ : Vault).decrypt "pw" sealedText = .ok "seed" := by
  obtain ⟨hsealed, hopens, -⟩ := opens_exactly_under_its_key ⟨.labelled, 1⟩
    TokenCipher.labelled_lawful TokenCipher.labelled_exclusive 0 "pw" "seed" (Entropy.ofBytes [])
  have hpw := derives_one .labelled (p := "pw") (by decide)
  have hother := derives_one .labelled (p := "other") (by decide)
  obtain ⟨sealedText, f, hseal⟩ := hsealed.2 hpw
  refine ⟨TokenCipher.labelled_lawful, TokenCipher.labelled_exclusive, hother, sealedText, f,
    hseal, (hopens sealedText f hseal "other").1 hother ?_,
    (hopens sealedText f hseal "pw").2.1 rfl⟩
  rw [hother.key_ofString, hpw.key_ofString]
  exact fun h => deriveKey_other_ne (Except.ok.inj h)

/-- A password followed by a NUL character has the block of the password, and opens what was
sealed under it: with the cipher in use, and with one that looks at the key. -/
theorem nul_ended_password_opens :
    "pw\x00" ≠ "pw" ∧
    (∃ sealedText f,
      exec ((⟨.fernet, 10⟩ : Vault).encrypt 1700000000 "pw" "seed") (Entropy.ofBytes []) =
        (.ok sealedText, f) ∧
      (⟨.fernet, 10⟩ : Vault).decrypt "pw\x00" sealedText = .ok "seed") ∧
    TokenCipher.labelled.Lawful ∧ TokenCipher.labelled.Exclusive ∧
    (∃ sealedText f,
      exec ((⟨.labelled, 10⟩ : Vault).encrypt 1700000000 "pw" "seed") (Entropy.ofBytes []) =
        (.ok sealedText, f) ∧
      (⟨.labelled, 10⟩ : Vault).decrypt "pw\x00" sealedText = .ok "seed") := by
  have hblock : SameBlock "pw" "pw\x00" :=
    (sameBlock_iff (by decide) (by decide)).2 ⟨1, Or.inl (by decide)⟩
  have hopens : ∀ c : TokenCipher, c.Lawful → ∃ sealedText f,
      exec ((⟨c, 10⟩ : Vault).encrypt 1700000000 "pw" "seed") (Entropy.ofBytes []) =
        (.ok sealedText, f) ∧ (⟨c, 10⟩ : Vault).decrypt "pw\x00" sealedText = .ok "seed" := by
    intro c hc
    have hderives : ∀ p : String, (Utf8.encode p).length ≤ maxCount → (⟨c, 10⟩ : Vault).Derives p :=
      fun p => derives_ofString (by decide : (1 : Int) ≤ 10) (by decide : (10 : Int) ≤ maxCount)
    obtain ⟨sealedText, f, hseal⟩ :=
      (hderives "pw" (by decide)).exists_encrypt 1700000000 "seed" (Entropy.ofBytes [])
    obtain ⟨vector, key, plain, htext, hvector, hkey, rfl⟩ := encrypt_ok hseal
    obtain rfl := RawText.ofString_injective htext
    have hkeys := key_congr hblock (hderives "pw" (by decide)) (hderives "pw\x00" (by decide))
      ((Entropy.ofBytes []).take saltSize).1
    exact ⟨_, f, hseal,
      decrypt_same_key hc (length_take _ _) hvector hkey (hkeys.trans hkey)⟩
  exact ⟨by decide, hopens _ TokenCipher.fernet_lawful, TokenCipher.labelled_lawful,
    TokenCipher.labelled_exclusive, hopens _ TokenCipher.labelled_lawful⟩

end Vault

end NodeStore
