import NodeStore.Proofs.Crypto.Fernet
import NodeStore.Proofs.Rules
import NodeStore.Proofs.SeedPhrase
import NodeStore.Vault

/-! # A sealed value always opens again

The vault is used with a cipher that opens under a key what it sealed under that key, and whose
tokens are texts of the base64 alphabet (`TokenCipher.Lawful`); `TokenCipher.fernet_lawful` says
that the cipher in use is one.

* `parts_joined`: salt and token are taken apart as they were joined;
* `sealed_opens`: what was sealed opens again, as a text and as a phrase.
-/

namespace NodeStore

open Op

/-! ## Lawful ciphers -/

/-- A cipher that opens what it sealed, with tokens in the base64 alphabet. -/
structure TokenCipher.Lawful (c : TokenCipher) : Prop where
  openToken?_sealToken : ∀ {key vector : Bytes} (time : Nat) (msg : Bytes), key.length = 32 →
    vector.length = 16 → c.openToken? key (c.sealToken key time vector msg) = some msg
  token_ne_empty : ∀ {key vector : Bytes} (time : Nat) (msg : Bytes), key.length = 32 →
    vector.length = 16 → (c.sealToken key time vector msg).toList ≠ []
  token_chars : ∀ {key vector : Bytes} (time : Nat) (msg : Bytes), key.length = 32 →
    vector.length = 16 → ∀ ch ∈ (c.sealToken key time vector msg).toList, Base64.IsWritten ch

theorem TokenCipher.fernet_sealToken (key : Bytes) (time : Nat) (vector msg : Bytes) :
    fernet.sealToken key time vector msg =
      Base64.encodeText (Fernet.sealBytes key time vector msg) := rfl

theorem TokenCipher.fernet_openToken? (key : Bytes) (token : String) :
    fernet.openToken? key token = Fernet.openToken? key (Utf8.encode token) := rfl

/-- The cipher in use is lawful. -/
theorem TokenCipher.fernet_lawful : TokenCipher.fernet.Lawful where
  openToken?_sealToken := by
    intro key vector time msg hkey hvector
    rw [fernet_sealToken, fernet_openToken?, Fernet.openToken?_encodeText time msg hkey hvector]
  token_ne_empty := by
    intro key vector time msg _ _ h
    rw [fernet_sealToken] at h
    exact Base64.encodeText_ne_empty (Fernet.sealBytes_ne_nil time msg)
      (String.toList_eq_nil_iff.1 h)
  token_chars := by
    intro key vector time msg _ _ ch hch
    rw [fernet_sealToken] at hch
    exact Base64.encodeText_chars hch

namespace Vault

variable {v : Vault} {password : RawText} {text : String} {e f : Entropy}

/-! ## Salt and token -/

/-- Letters and digits are ASCII. -/
theorem toNat_lt_of_isAlphanum {c : Char} (h : c.isAlphanum = true) : c.toNat < 128 := by
  have hranges : ((decide (c.val ≥ 'A'.val ∧ c.val ≤ 'Z'.val) ||
      decide (c.val ≥ 'a'.val) && decide (c.val ≤ 'z'.val)) ||
      decide (c.val ≥ '0'.val) && decide (c.val ≤ '9'.val)) = true := h
  have htoNat : c.toNat = c.val.toNat := rfl
  simp only [Bool.or_eq_true, Bool.and_eq_true, decide_eq_true_eq, ge_iff_le,
    UInt32.le_iff_toNat_le] at hranges
  have hz : 'z'.val.toNat = 122 := rfl
  have hZ : 'Z'.val.toNat = 90 := rfl
  have h9 : '9'.val.toNat = 57 := rfl
  omega

/-- A written character is no blank and no dollar sign. -/
theorem isWritten_spec {c : Char} (h : Base64.IsWritten c) :
    Text.isBlank c = false ∧ (c != '$') = true := by
  rcases h with h | rfl | rfl | rfl
  · have hascii : ∀ c : Char, c.toNat < 128 → c.isAlphanum = true →
        Text.isBlank c = false ∧ (c != '$') = true := Text.of_ascii (by decide +kernel)
    exact hascii c (toNat_lt_of_isAlphanum h) h
  · decide
  · decide
  · decide

/-- Cuts at the first separator. -/
theorem splitSealed_append {front token : List CodePoint}
    (h : ∀ p ∈ front, (p != separator) = true) :
    splitSealed (front ++ separator :: token) = some (front, token) := by
  have hdrop : (front ++ separator :: token).dropWhile (· != separator) = separator :: token := by
    rw [Text.dropWhile_before h]
    rfl
  have htake : (front ++ separator :: token).takeWhile (· != separator) = front := by
    rw [List.takeWhile_append_of_pos h]
    simp
  rw [splitSealed, hdrop, htake]

theorem decodeSalt?_ofString (s : String) : decodeSalt? s = Base64.decode? (Utf8.encode s) := by
  simp only [decodeSalt?, RawText.encode_ofString, Except.toOption, Option.bind_some]

/-- Salt and token are taken apart as they were joined, whatever blanks are put around them. -/
theorem parts_joined {salt : Bytes} {token before after : String} (hsalt : salt.length = saltSize)
    (htoken : token.toList ≠ []) (hchars : ∀ c ∈ token.toList, Base64.IsWritten c)
    (hbefore : ∀ c ∈ before.toList, Text.isBlank c = true)
    (hafter : ∀ c ∈ after.toList, Text.isBlank c = true) :
    parts (before ++ joined salt token ++ after : String) = .ok (salt, token) := by
  have hsaltChars : ∀ c ∈ (Base64.encodeText salt).toList, Base64.IsWritten c := by
    intro c hc
    exact Base64.encodeText_chars hc
  have hjoined : (joined salt token).toList =
      (Base64.encodeText salt).toList ++ '$' :: token.toList := by
    simp [joined, String.toList_append]
  have htrim : Text.strip (before ++ joined salt token ++ after) = joined salt token := by
    rw [Text.strip, String.toList_append, String.toList_append,
      Text.trimChars_between hbefore hafter, Text.trimChars_of_none, String.ofList_toList]
    intro c hc
    rw [hjoined] at hc
    rcases List.mem_append.1 hc with hc | hc
    · exact (isWritten_spec (hsaltChars c hc)).1
    · rcases List.mem_cons.1 hc with rfl | hc
      · decide
      · exact (isWritten_spec (hchars c hc)).1
  have hpoints : (RawText.ofString (joined salt token)).points =
      (RawText.ofString (Base64.encodeText salt)).points ++
        separator :: (RawText.ofString token).points := by
    simp only [RawText.points_ofString, hjoined, List.map_append, List.map_cons]
    rfl
  have hnoSeparator : ∀ p ∈ (RawText.ofString (Base64.encodeText salt)).points,
      (p != separator) = true := by
    intro p hp
    rcases List.mem_map.1 hp with ⟨c, hc, rfl⟩
    have hdollar := (isWritten_spec (hsaltChars c hc)).2
    rw [bne_iff_ne] at hdollar ⊢
    exact fun h => hdollar (CodePoint.char.inj h)
  have hsaltText : decodeSalt? (Base64.encodeText salt) = some salt :=
    (decodeSalt?_ofString _).trans (Base64.decode?_encodeText salt)
  -- An empty token would be refused as a missing separator.
  have hne : (RawText.ofString token).points ≠ [] := by simpa using htoken
  rcases List.exists_cons_of_ne_nil hne with ⟨p, ps, hps⟩
  unfold parts
  rw [RawText.strip_ofString, htrim, hpoints, splitSealed_append hnoSeparator]
  simp only [hps, hsaltText, hsalt, if_true]
  rw [← hps]

/-! ## Keys -/

/-- The password has bytes, and not too many. -/
def Usable (password : RawText) : Prop :=
  ∃ b, password.encode = .ok b ∧ b.length ≤ maxCount

/-- Keys are derived from the password: there is at least one iteration and there are not too many,
and the password is usable. -/
structure Derives (v : Vault) (password : RawText) : Prop where
  pos : 1 ≤ v.iterations
  le : v.iterations ≤ maxCount
  usable : Usable password

/-- A password of characters, which are not too many when they are written as bytes. -/
theorem usable_ofString (hsize : (Utf8.encode text).length ≤ maxCount) : Usable text :=
  ⟨_, RawText.encode_ofString text, hsize⟩

theorem derives_ofString (hpos : 1 ≤ v.iterations) (hle : v.iterations ≤ maxCount)
    (hsize : (Utf8.encode text).length ≤ maxCount) : v.Derives text :=
  ⟨hpos, hle, usable_ofString hsize⟩

theorem passwordBytes_eq_ok_iff {b : Bytes} : v.passwordBytes password = .ok b ↔
    password.encode = .ok b ∧ b.length ≤ maxCount ∧ 1 ≤ v.iterations ∧
      v.iterations ≤ maxCount := by
  have hbound : maxCount < countBound := by decide
  unfold passwordBytes
  cases hbytes : password.encode with
  | error fault => simp [bind, Except.bind]
  | ok b' =>
    simp only [mapError_ok, ok_bind, Except.ok.injEq]
    constructor
    · intro h
      split_ifs at h with hnumber hsize hpos hle
      obtain rfl := Except.ok.inj h
      exact ⟨rfl, by omega, by omega, by omega⟩
    · rintro ⟨rfl, hsize, hpos, hle⟩
      rw [if_neg (by omega), if_neg (by omega), if_neg (by omega), if_neg (by omega)]
      rfl

theorem derives_iff : v.Derives password ↔ ∃ b, v.passwordBytes password = .ok b := by
  simp only [passwordBytes_eq_ok_iff]
  constructor
  · rintro ⟨hpos, hle, b, hbytes, hsize⟩
    exact ⟨b, hbytes, hsize, hpos, hle⟩
  · rintro ⟨b, hbytes, hsize, hpos, hle⟩
    exact ⟨hpos, hle, ⟨b, hbytes, hsize⟩⟩

theorem Derives.passwordBytes (h : v.Derives password) {b : Bytes}
    (hb : password.encode = .ok b) : v.passwordBytes password = .ok b := by
  rcases derives_iff.1 h with ⟨b', hb'⟩
  have hbytes := (passwordBytes_eq_ok_iff.1 hb').1
  rw [hb', Except.ok.inj (hb.symm.trans hbytes)]

/-- Why no key is derived from a password: it has surrogates, there is no iteration, or something is
too large. -/
inductive KeyFault (v : Vault) (password : RawText) : Failure → Prop
  | notEncodable {fault : SurrogateFault} (h : password.text = .error fault) :
      KeyFault v password (.notEncodable fault)
  | noIterations (h : v.iterations < 1) : KeyFault v password (.argument .noIterations)
  | limit (fault : LimitFault) (h : ¬ v.Derives password) : KeyFault v password (.limit fault)

theorem keyFault_of_passwordBytes {failure : Failure}
    (h : v.passwordBytes password = .error failure) : v.KeyFault password failure := by
  have hnot : ¬ v.Derives password := by
    rw [derives_iff]
    rintro ⟨b, hb⟩
    simp [hb] at h
  unfold passwordBytes at h
  cases hbytes : password.encode with
  | error fault =>
    rw [hbytes] at h
    obtain rfl := Except.error.inj h
    exact .notEncodable (RawText.encode_error_iff.1 hbytes)
  | ok b =>
    simp only [hbytes, mapError_ok, ok_bind] at h
    split_ifs at h with hnumber hsize hpos hle
    · obtain rfl := Except.error.inj h
      exact .limit _ hnot
    · obtain rfl := Except.error.inj h
      exact .limit _ hnot
    · obtain rfl := Except.error.inj h
      exact .noIterations hpos
    · obtain rfl := Except.error.inj h
      exact .limit _ hnot
    · exact absurd h nofun

/-- Without keys it is said why there are none. -/
theorem exists_keyFault (h : ¬ v.Derives password) :
    ∃ failure, v.passwordBytes password = .error failure ∧ v.KeyFault password failure := by
  cases hbytes : v.passwordBytes password with
  | ok b => exact absurd (derives_iff.2 ⟨b, hbytes⟩) h
  | error failure => exact ⟨failure, rfl, keyFault_of_passwordBytes hbytes⟩

/-- A key is derived from the bytes of the password. -/
theorem key_eq_ok_iff {salt key : Bytes} : v.key password salt = .ok key ↔
    ∃ b, v.passwordBytes password = .ok b ∧
      Hmac.deriveKey b salt v.iterations.toNat = key := by
  unfold Vault.key
  cases v.passwordBytes password <;> simp [Except.map]

theorem derives_of_key {salt key : Bytes} (h : v.key password salt = .ok key) :
    v.Derives password := by
  rcases key_eq_ok_iff.1 h with ⟨b, hb, -⟩
  exact derives_iff.2 ⟨b, hb⟩

theorem Derives.exists_key (h : v.Derives password) (salt : Bytes) :
    ∃ key, v.key password salt = .ok key := by
  rcases derives_iff.1 h with ⟨b, hb⟩
  exact ⟨_, key_eq_ok_iff.2 ⟨b, hb, rfl⟩⟩

/-- The key of a password of characters. -/
theorem Derives.key_ofString (h : v.Derives text) (salt : Bytes) :
    v.key text salt = .ok (Hmac.deriveKey (Utf8.encode text) salt v.iterations.toNat) := by
  exact key_eq_ok_iff.2 ⟨_, h.passwordBytes (RawText.encode_ofString text), rfl⟩

/-- The salt does not matter to whether a key is derived. -/
theorem key_error_iff {salt : Bytes} {failure : Failure} :
    v.key password salt = .error failure ↔ v.passwordBytes password = .error failure := by
  unfold Vault.key
  cases v.passwordBytes password <;> simp [Except.map]

theorem keyFault_of_key {salt : Bytes} {failure : Failure}
    (h : v.key password salt = .error failure) : v.KeyFault password failure :=
  keyFault_of_passwordBytes (key_error_iff.1 h)

/-- Why a usable password has no key is told by the number of iterations alone. -/
theorem Usable.key_error (h : Usable password) {other : RawText} (hother : Usable other)
    {salt : Bytes} {failure : Failure} (hkey : v.key password salt = .error failure) :
    v.key other salt = .error failure := by
  rcases h with ⟨b, hb, hsize⟩
  rcases hother with ⟨b', hb', hsize'⟩
  rw [key_error_iff] at hkey ⊢
  unfold passwordBytes at hkey ⊢
  simp only [hb, hb', mapError_ok, ok_bind, if_neg (Nat.not_lt.2 hsize),
    if_neg (Nat.not_lt.2 hsize')] at hkey ⊢
  -- the same checks of the number of iterations are left
  split_ifs at hkey ⊢
  · exact hkey
  · exact hkey
  · exact hkey
  · exact absurd hkey nofun

/-- A password that has no key is none of the failures that callers tell apart. -/
theorem KeyFault.kind? {failure : Failure} (h : v.KeyFault password failure) :
    failure.kind? = none := by
  cases h <;> rfl

/-- The key of a password and salt has 32 bytes. -/
theorem length_key {salt key : Bytes} (h : v.key password salt = .ok key) : key.length = 32 := by
  rcases key_eq_ok_iff.1 h with ⟨b, -, rfl⟩
  exact Hmac.length_deriveKey ..

/-! ## Sealing and opening -/

theorem exec_draw (n : Nat) (e : Entropy) :
    exec (liftM (Entropy.draw n) : Op Entropy Bytes) e = (.ok (e.take n).1, (e.take n).2) := rfl

theorem length_take (n : Nat) (e : Entropy) : (e.take n).1.length = n := by
  simp [Entropy.take]

/-- Sealing draws the salt, derives the key, encodes the text, and draws the vector. -/
theorem exec_encrypt (v : Vault) (time : Nat) (password text : RawText) (e : Entropy) :
    exec (v.encrypt time password text) e =
      match v.key password (e.take saltSize).1 with
      | .error failure => (.error failure, (e.take saltSize).2)
      | .ok key =>
        match text.encode with
        | .error fault => (.error (.notEncodable fault), (e.take saltSize).2)
        | .ok message =>
          (.ok (joined (e.take saltSize).1 (v.cipher.sealToken key time
              ((e.take saltSize).2.take vectorSize).1 message)),
            ((e.take saltSize).2.take vectorSize).2) := by
  unfold encrypt
  rw [exec_bind_of_ok (exec_draw saltSize e), exec_bind, exec_liftExcept]
  cases v.key password (e.take saltSize).1 with
  | error failure => rfl
  | ok key =>
    simp only
    rw [exec_bind, exec_liftExcept]
    cases text.encode with
    | error fault => rfl
    | ok message =>
      simp only [mapError_ok]
      rw [exec_bind_of_ok (exec_draw vectorSize _)]
      rfl

/-- A sealed text is salt and token, under the key of the password and the salt. -/
theorem encrypt_ok {time : Nat} {text : RawText} {sealedText : String}
    (h : exec (v.encrypt time password text) e = (.ok sealedText, f)) :
    ∃ vector key, ∃ plain : String, text = plain ∧ vector.length = vectorSize ∧
      v.key password (e.take saltSize).1 = .ok key ∧
      sealedText =
        joined (e.take saltSize).1 (v.cipher.sealToken key time vector (Utf8.encode plain)) := by
  rw [exec_encrypt] at h
  cases hkey : v.key password (e.take saltSize).1 with
  | error failure => simp [hkey] at h
  | ok key =>
    cases htext : text.encode with
    | error fault => simp [hkey, htext] at h
    | ok message =>
      simp only [hkey, htext, Prod.mk.injEq, Except.ok.injEq] at h
      rcases RawText.encode_eq_ok_iff.1 htext with ⟨plain, rfl, rfl⟩
      exact ⟨_, key, plain, rfl, length_take _ _, rfl, h.1.symm⟩

/-- Where keys are derived from a password, every text of characters is sealed under it. -/
theorem Derives.exists_encrypt (h : v.Derives password) (time : Nat) (text : String)
    (e : Entropy) :
    ∃ sealedText f, exec (v.encrypt time password text) e = (.ok sealedText, f) := by
  rcases h.exists_key (e.take saltSize).1 with ⟨key, hkey⟩
  rw [exec_encrypt, hkey, RawText.encode_ofString]
  exact ⟨_, _, rfl⟩

/-- What is decrypted if salt and token are found and the password has a key. -/
theorem decrypt_of_parts {sealedText : RawText} {salt key : Bytes} {token : String}
    (hparts : parts sealedText = .ok (salt, token)) (hkey : v.key password salt = .ok key) :
    v.decrypt password sealedText =
      match v.cipher.openToken? key token with
      | none => .error .wrongPassword
      | some message => (Utf8.decode message).mapError .notText := by
  cases hopen : v.cipher.openToken? key token <;>
    simp only [decrypt, hparts, mapError_ok, ok_bind, hkey, RawText.text_ofString, hopen]

/-- What was sealed is opened under its password. -/
theorem decrypt_joined (hcipher : v.cipher.Lawful) {salt vector key : Bytes} {time : Nat}
    {before after : String} (hsalt : salt.length = saltSize) (hvector : vector.length = vectorSize)
    (hkey : v.key password salt = .ok key) (hbefore : ∀ c ∈ before.toList, Text.isBlank c = true)
    (hafter : ∀ c ∈ after.toList, Text.isBlank c = true) :
    v.decrypt password (before ++
        joined salt (v.cipher.sealToken key time vector (Utf8.encode text)) ++ after : String) =
      .ok text := by
  have hlen := length_key hkey
  have hparts := parts_joined hsalt (hcipher.token_ne_empty time (Utf8.encode text) hlen hvector)
    (hcipher.token_chars time (Utf8.encode text) hlen hvector) hbefore hafter
  have hopen := hcipher.openToken?_sealToken time (Utf8.encode text) hlen hvector
  rw [decrypt_of_parts hparts hkey, hopen]
  simp only [Utf8.decode_encode, mapError_ok]

/-- What was sealed opens with nothing around it. -/
theorem decrypt_encrypt (hcipher : v.cipher.Lawful) {time : Nat} {sealedText : String}
    (h : exec (v.encrypt time password text) e = (.ok sealedText, f)) :
    v.decrypt password sealedText = .ok text := by
  rcases encrypt_ok h with ⟨vector, key, plain, htext, hvector, hkey, rfl⟩
  obtain rfl := RawText.ofString_injective htext
  have hopen : v.decrypt password ("" ++ joined (e.take saltSize).1
      (v.cipher.sealToken key time vector (Utf8.encode text)) ++ "" : String) = .ok text :=
    decrypt_joined hcipher (length_take _ _) hvector hkey (by simp) (by simp)
  simpa using hopen

/-! ## Sealed phrases -/

theorem parsePhrase_of_parse? {phrase : RawText} {kept : String}
    (h : SeedPhrase.parse? phrase = some kept) : parsePhrase phrase = .ok kept := by
  simp only [parsePhrase, h]

/-- A phrase is sealed in its kept form. -/
theorem exec_sealPhrase {phrase : RawText} {kept : String}
    (h : SeedPhrase.parse? phrase = some kept) (time : Nat) :
    exec (v.sealPhrase time password phrase) e = exec (v.encrypt time password kept) e := by
  unfold sealPhrase
  rw [parsePhrase_of_parse? h]
  exact exec_bind_of_ok (exec_liftExcept _ _)

/-- What opens to the kept form of a phrase opens as that phrase. -/
theorem openPhrase_of_decrypt {phrase sealedText : RawText} {kept : String}
    (h : SeedPhrase.parse? phrase = some kept) (hopen : v.decrypt password sealedText = .ok kept) :
    v.openPhrase password sealedText = .ok kept := by
  simp only [openPhrase, hopen, bind, Except.bind, SeedPhrase.parse?_kept h]

/-- What opens as a phrase was decrypted, and is the kept form of that. -/
theorem decrypt_of_openPhrase {phrase : String} {sealedText : RawText}
    (h : v.openPhrase password sealedText = .ok phrase) :
    ∃ plain : String, v.decrypt password sealedText = .ok plain ∧
      SeedPhrase.parse? plain = some phrase := by
  unfold openPhrase at h
  cases hplain : v.decrypt password sealedText with
  | error failure => simp [hplain, bind, Except.bind] at h
  | ok plain =>
    simp only [hplain, ok_bind] at h
    split at h
    · rename_i kept hparse
      obtain rfl := Except.ok.inj h
      exact ⟨plain, rfl, hparse⟩
    · simp at h

/-- Nothing is sealed under a password that has no key. -/
theorem exec_sealPhrase_without_key {phrase : RawText} {kept : String} {failure : Failure}
    (hparse : SeedPhrase.parse? phrase = some kept)
    (hbytes : v.passwordBytes password = .error failure) (time : Nat) :
    (exec (v.sealPhrase time password phrase) e).1 = .error failure := by
  rw [exec_sealPhrase hparse, exec_encrypt, key_error_iff.2 hbytes]

/-- Only phrases are sealed. -/
theorem exec_sealPhrase_none {phrase : RawText} (h : SeedPhrase.parse? phrase = none)
    (time : Nat) :
    exec (v.sealPhrase time password phrase) e = (.error .invalidMnemonic, e) := by
  have hparse : parsePhrase phrase = .error .invalidMnemonic := by simp only [parsePhrase, h]
  unfold sealPhrase
  rw [hparse]
  exact exec_bind_of_error (exec_liftExcept _ _)

/-- What was sealed as a phrase opens in its kept form. -/
theorem openPhrase_sealPhrase (hcipher : v.cipher.Lawful) {time : Nat} {phrase : RawText}
    {sealedText : String}
    (h : exec (v.sealPhrase time password phrase) e = (.ok sealedText, f)) :
    ∃ kept, SeedPhrase.parse? phrase = some kept ∧ v.openPhrase password sealedText = .ok kept := by
  cases hparse : SeedPhrase.parse? phrase with
  | none =>
    rw [exec_sealPhrase_none hparse] at h
    simp at h
  | some kept =>
    rw [exec_sealPhrase hparse] at h
    exact ⟨kept, rfl, openPhrase_of_decrypt hparse (decrypt_encrypt hcipher h)⟩

/-- Another password leads to another key, under which the cipher opens the sealed value, but not
to what was sealed. -/
def OpensOtherwise (v : Vault) (password other : RawText) (text sealedText : String) : Prop :=
  ∃ (salt : Bytes) (token : String) (key otherKey message : Bytes),
    parts sealedText = .ok (salt, token) ∧
    v.key password salt = .ok key ∧ v.key other salt = .ok otherKey ∧ otherKey ≠ key ∧
    v.cipher.openToken? otherKey token = some message ∧ message ≠ Utf8.encode text

/-- A sealed phrase is found corrupt only by a cipher that opens its token under a key that it was
not sealed with. -/
theorem opensOtherwise_of_corrupt (hcipher : v.cipher.Lawful) {phrase : RawText} {kept : String}
    (hparse : SeedPhrase.parse? phrase = some kept) {salt vector key : Bytes} {time : Nat}
    {other : RawText} {sealedText : String} (hvector : vector.length = vectorSize)
    (hkey : v.key password salt = .ok key)
    (hparts : parts sealedText =
      .ok (salt, v.cipher.sealToken key time vector (Utf8.encode kept)))
    (h : v.openPhrase other sealedText = .error .corruptSecret) :
    v.OpensOtherwise password other kept sealedText := by
  cases hotherKey : v.key other salt with
  | error failure =>
    -- a password without a key is reported as that
    simp only [openPhrase, decrypt, hparts, mapError_ok, bind, Except.bind, hotherKey,
      Except.error.injEq] at h
    have hkind := (keyFault_of_key hotherKey).kind?
    rw [h] at hkind
    exact absurd hkind nofun
  | ok otherKey =>
    -- The salt is found, so what is reported depends on what the token opens to under the other
    -- key.
    rw [openPhrase, decrypt_of_parts hparts hotherKey] at h
    cases hopen : v.cipher.openToken? otherKey
        (v.cipher.sealToken key time vector (Utf8.encode kept)) with
    | none => simp [hopen, bind, Except.bind] at h
    | some message =>
      have hmessage : message ≠ Utf8.encode kept := by
        rintro rfl
        simp [hopen, Utf8.decode_encode, bind, Except.bind, SeedPhrase.parse?_kept hparse] at h
      have hne : otherKey ≠ key := by
        rintro rfl
        rw [hcipher.openToken?_sealToken time _ (length_key hkey) hvector] at hopen
        exact hmessage (Option.some.inj hopen).symm
      exact ⟨_, _, key, otherKey, message, hparts, hkey, hotherKey, hne, hopen, hmessage⟩

/-- What was sealed opens again under its password, a text as itself and a phrase in its kept form,
whatever blanks are put around the sealed value. A sealed phrase is found corrupt under no password,
unless the cipher opens its token under a key that it was not sealed with. What is not sealed is a
text with surrogates, and all under a password that no keys are derived from. -/
theorem sealed_opens (v : Vault) (hcipher : v.cipher.Lawful) (time : Nat) (password : RawText)
    (e : Entropy) :
    (∀ text : RawText,
      (∃ sealedText f, exec (v.encrypt time password text) e = (.ok sealedText, f)) ↔
        v.Derives password ∧ ∃ plain : String, text = plain) ∧
    (∀ (text sealedText : String) (f : Entropy),
      exec (v.encrypt time password text) e = (.ok sealedText, f) →
      ∀ before after : String, (∀ c ∈ before.toList, Text.isBlank c = true) →
        (∀ c ∈ after.toList, Text.isBlank c = true) →
        v.decrypt password (before ++ sealedText ++ after : String) = .ok text) ∧
    ∀ (phrase : RawText) (kept : String), SeedPhrase.parse? phrase = some kept →
      ((∃ sealedText f, exec (v.sealPhrase time password phrase) e = (.ok sealedText, f)) ↔
        v.Derives password) ∧
      ∀ (sealedText : String) (f : Entropy),
        exec (v.sealPhrase time password phrase) e = (.ok sealedText, f) →
        ∀ before after : String, (∀ c ∈ before.toList, Text.isBlank c = true) →
          (∀ c ∈ after.toList, Text.isBlank c = true) →
          v.openPhrase password (before ++ sealedText ++ after : String) = .ok kept ∧
          ∀ other : RawText,
            v.openPhrase other (before ++ sealedText ++ after : String) = .error .corruptSecret →
            v.OpensOtherwise password other kept (before ++ sealedText ++ after) := by
  have hopens : ∀ (text sealedText : String) (f : Entropy),
      exec (v.encrypt time password text) e = (.ok sealedText, f) →
      ∀ before after : String, (∀ c ∈ before.toList, Text.isBlank c = true) →
        (∀ c ∈ after.toList, Text.isBlank c = true) →
        v.decrypt password (before ++ sealedText ++ after : String) = .ok text := by
    intro text sealedText f hseal before after hbefore hafter
    rcases encrypt_ok hseal with ⟨vector, key, plain, htext, hvector, hkey, rfl⟩
    obtain rfl := RawText.ofString_injective htext
    exact decrypt_joined hcipher (length_take _ _) hvector hkey hbefore hafter
  refine ⟨?_, hopens, ?_⟩
  · intro text
    constructor
    · rintro ⟨sealedText, f, hseal⟩
      rcases encrypt_ok hseal with ⟨vector, key, plain, htext, -, hkey, -⟩
      exact ⟨derives_of_key hkey, plain, htext⟩
    · rintro ⟨hderives, plain, rfl⟩
      exact hderives.exists_encrypt time plain e
  · -- The kept form is sealed as any text, and is its own kept form when it is read back.
    intro phrase kept hparse
    rw [exec_sealPhrase hparse]
    refine ⟨⟨?_, fun hderives => hderives.exists_encrypt time kept e⟩, ?_⟩
    · rintro ⟨sealedText, f, hseal⟩
      rcases encrypt_ok hseal with ⟨vector, key, -, -, -, hkey, -⟩
      exact derives_of_key hkey
    · intro sealedText f hseal before after hbefore hafter
      refine ⟨openPhrase_of_decrypt hparse (hopens kept sealedText f hseal _ _ hbefore hafter), ?_⟩
      intro other hcorrupt
      rcases encrypt_ok hseal with ⟨vector, key, plain, htext, hvector, hkey, rfl⟩
      obtain rfl := RawText.ofString_injective htext
      have hlen := length_key hkey
      have hparts := parts_joined (length_take saltSize e)
        (hcipher.token_ne_empty time (Utf8.encode kept) hlen hvector)
        (hcipher.token_chars time (Utf8.encode kept) hlen hvector) hbefore hafter
      exact opensOtherwise_of_corrupt hcipher hparse hvector hkey hparts hcorrupt

/-- With the cipher in use and one iteration, a phrase typed with capitals, and line ends around
its sealed value. -/
theorem capital_phrase_opens :
    TokenCipher.fernet.Lawful ∧
    ∃ sealedText f,
      exec ((⟨.fernet, 1⟩ : Vault).sealPhrase 0 "p" ("ABANDON abandon abandon abandon abandon " ++
        "abandon abandon abandon abandon abandon abandon  About" : String))
        (Entropy.ofBytes []) = (.ok sealedText, f) ∧
      (⟨.fernet, 1⟩ : Vault).openPhrase "p" ("\n" ++ sealedText ++ "\r\n" : String) =
        .ok ("abandon abandon abandon abandon abandon abandon abandon abandon abandon " ++
          "abandon abandon about") := by
  have hparse : SeedPhrase.parse? ("ABANDON abandon abandon abandon abandon " ++
      "abandon abandon abandon abandon abandon abandon  About" : String) =
      some ("abandon abandon abandon abandon abandon abandon abandon abandon abandon " ++
        "abandon abandon about") :=
    (SeedPhrase.parse?_of_wordsOf (by decide +kernel) SeedPhrase.isValid_zeros).trans
      (congrArg some (by decide +kernel))
  obtain ⟨-, -, hphrases⟩ :=
    sealed_opens ⟨.fernet, 1⟩ TokenCipher.fernet_lawful 0 "p" (Entropy.ofBytes [])
  obtain ⟨hsealed, hopen⟩ := hphrases _ _ hparse
  obtain ⟨sealedText, f, hseal⟩ :=
    hsealed.2 (derives_ofString (by decide) (by decide) (by decide))
  have hbefore : "\n".toList.all Text.isBlank = true := by decide
  have hafter : "\r\n".toList.all Text.isBlank = true := by decide
  exact ⟨TokenCipher.fernet_lawful, sealedText, f, hseal, (hopen sealedText f hseal "\n" "\r\n"
    (List.all_eq_true.1 hbefore) (List.all_eq_true.1 hafter)).1⟩

/-- With more iterations than there may be a phrase is not sealed, and with one iteration a text
is not that has a surrogate, nor any under a password that has one. -/
theorem out_of_range_is_not_sealed :
    TokenCipher.fernet.Lawful ∧ 1 ≤ (⟨.fernet, 2147483648⟩ : Vault).iterations ∧
    (∃ kept, SeedPhrase.parse? ("abandon abandon abandon abandon abandon abandon abandon " ++
        "abandon abandon abandon abandon about" : String) = some kept) ∧
    (exec ((⟨.fernet, 2147483648⟩ : Vault).sealPhrase 1700000000 "pw"
        ("abandon abandon abandon abandon abandon abandon abandon " ++
          "abandon abandon abandon abandon about" : String)) (Entropy.ofBytes [])).1 =
      .error (.limit .iterations) ∧
    (exec ((⟨.fernet, 1⟩ : Vault).encrypt 1700000000 "pw" ⟨[.surrogate 0xff]⟩)
        (Entropy.ofBytes [])).1 = .error (.notEncodable ⟨0xff, 0, 1⟩) ∧
    (exec ((⟨.fernet, 1⟩ : Vault).encrypt 1700000000 ⟨[.surrogate 0xff]⟩ "seed")
        (Entropy.ofBytes [])).1 = .error (.notEncodable ⟨0xff, 0, 1⟩) := by
  obtain ⟨kept, hparse⟩ : ∃ kept, SeedPhrase.parse?
      ("abandon abandon abandon abandon abandon abandon abandon " ++
        "abandon abandon abandon abandon about" : String) = some kept :=
    ⟨_, SeedPhrase.parse?_of_wordsOf (by decide +kernel) SeedPhrase.isValid_zeros⟩
  have htooMany : (⟨.fernet, 2147483648⟩ : Vault).passwordBytes "pw" =
      .error (.limit .iterations) := by decide +kernel
  have hsurrogate : (⟨.fernet, 1⟩ : Vault).passwordBytes ⟨[.surrogate 0xff]⟩ =
      .error (.notEncodable ⟨0xff, 0, 1⟩) := by decide +kernel
  have hderives : (⟨.fernet, 1⟩ : Vault).Derives "pw" :=
    derives_ofString (by decide) (by decide) (by decide)
  refine ⟨TokenCipher.fernet_lawful, by decide, ⟨kept, hparse⟩, ?_, ?_, ?_⟩
  · rw [exec_sealPhrase hparse, exec_encrypt, Vault.key, htooMany]
    rfl
  · rw [exec_encrypt, hderives.key_ofString]
    rfl
  · rw [exec_encrypt, Vault.key, hsurrogate]
    rfl

end Vault

end NodeStore
