import NodeStore.Proofs.Base64.Lenient
import NodeStore.Proofs.Vault

/-! # Damaged sealed values

A sealed value is salt in base64, a dollar sign and a token (`Spells`). Whether a text has that form
is found before a password is looked at. Of a text that has it, only the bytes of the salt and the
token go into what comes out, not how the salt is spelled.

* `parts_eq_ok_iff_spells`: the texts that are sealed values;
* `parts_error_iff`: the texts that are damaged;
* `damage_is_recognised`: how decryption ends under any password. -/

namespace NodeStore.Vault

open Op

variable {v : Vault} {password text token : RawText} {salt : Bytes} {front : List Char}

/-! ## Sealed values -/

/-- The text without the blanks around it is a spelling of the salt, a dollar sign and a token. -/
structure Spells (text : RawText) (front : List Char) (salt : Bytes) (token : RawText) : Prop where
  strip_eq : text.strip.points = front.map .char ++ separator :: token.points
  noDollar : '$' ∉ front
  token_ne : token.points ≠ []
  standsFor : Base64.StandsFor front salt
  length_salt : salt.length = saltSize

/-- The cut is at the first separator. -/
theorem splitSealed_eq_some_iff {ps front rest : List CodePoint} :
    splitSealed ps = some (front, rest) ↔ ps = front ++ separator :: rest ∧ separator ∉ front := by
  constructor
  · intro h
    unfold splitSealed at h
    cases hdrop : ps.dropWhile (· != separator) with
    | nil => simp [hdrop] at h
    | cons p rest' =>
      simp only [hdrop, Option.some.injEq, Prod.mk.injEq] at h
      rcases h with ⟨rfl, rfl⟩
      have hhead : p ∈ (ps.dropWhile (· != separator)).head? := by
        rw [hdrop]
        rfl
      obtain rfl : p = separator := by simpa using Text.of_head?_dropWhile hhead
      refine ⟨?_, ?_⟩
      · rw [← hdrop, List.takeWhile_append_dropWhile]
      · intro hmem
        simpa using List.mem_takeWhile_imp hmem
  · rintro ⟨rfl, hfront⟩
    -- without a separator in front there is no earlier cut
    apply splitSealed_append
    intro p hp
    rw [bne_iff_ne]
    rintro rfl
    exact hfront hp

/-- A salt is written in characters. -/
theorem decodeSalt?_eq_some_iff {saltText : RawText} : decodeSalt? saltText = some salt ↔
    ∃ front : List Char, saltText.points = front.map .char ∧ Base64.StandsFor front salt := by
  unfold decodeSalt?
  constructor
  · intro h
    rcases Option.bind_eq_some_iff.1 h with ⟨b, hb, hdecode⟩
    cases hbytes : saltText.encode with
    | error fault => simp [hbytes, Except.toOption] at hb
    | ok b' =>
      obtain rfl : b' = b := by simpa [hbytes, Except.toOption] using hb
      rcases RawText.encode_eq_ok_iff.1 hbytes with ⟨s, rfl, rfl⟩
      exact ⟨s.toList, rfl, Base64.decode?_iff.1 hdecode⟩
  · rintro ⟨front, hpoints, hstands⟩
    obtain rfl : saltText = String.ofList front := by
      rcases saltText with ⟨ps⟩
      simp only at hpoints
      rw [hpoints, RawText.ofString, String.toList_ofList]
    rw [RawText.encode_ofString, Except.toOption, Option.bind_some, Utf8.encode,
      String.toList_ofList]
    exact Base64.decode?_iff.2 hstands

theorem separator_mem_map : separator ∈ front.map CodePoint.char ↔ '$' ∈ front := by
  simp only [separator, List.mem_map, CodePoint.char.injEq, exists_eq_right]

/-- A text is taken apart into what it spells. -/
theorem parts_eq_ok_iff_spells :
    parts text = .ok (salt, token) ↔ ∃ front, Spells text front salt token := by
  rcases token with ⟨rest⟩
  constructor
  · intro h
    unfold parts at h
    cases hsplit : splitSealed text.strip.points with
    | none => simp [hsplit] at h
    | some found =>
      rcases found with ⟨saltText, _ | ⟨p, ps⟩⟩
      · simp [hsplit] at h
      · rcases splitSealed_eq_some_iff.1 hsplit with ⟨hstrip, hfront⟩
        cases hdecode : decodeSalt? ⟨saltText⟩ with
        | none => simp [hsplit, hdecode] at h
        | some found =>
          by_cases hsize : found.length = saltSize
          · simp only [hsplit, hdecode, if_pos hsize, Except.ok.injEq, Prod.mk.injEq,
              RawText.mk.injEq] at h
            rcases h with ⟨rfl, rfl⟩
            rcases decodeSalt?_eq_some_iff.1 hdecode with ⟨front, rfl, hstands⟩
            exact ⟨front, hstrip, fun hmem => hfront (separator_mem_map.2 hmem),
              List.cons_ne_nil p ps, hstands, hsize⟩
          · simp [hsplit, hdecode, if_neg hsize] at h
  · rintro ⟨front, hstrip, hfront, hne, hstands, hsize⟩
    have hsplit := splitSealed_eq_some_iff.2
      ⟨hstrip, fun hmem => hfront (separator_mem_map.1 hmem)⟩
    have hdecode := decodeSalt?_eq_some_iff.2 ⟨front, rfl, hstands⟩
    rcases List.exists_cons_of_ne_nil hne with ⟨p, ps, rfl⟩
    unfold parts
    rw [hsplit]
    simp only [hdecode, hsize, if_true]

/-! ## Sealed values without surrogates -/

/-- The text is salt in base64, a dollar sign and a token, with blanks around them. -/
def IsSealed (text : String) (salt : Bytes) (token : String) : Prop :=
  ∃ before front after : List Char,
    text.toList = before ++ (front ++ '$' :: token.toList) ++ after ∧
    (∀ c ∈ before, Text.isBlank c = true) ∧ (∀ c ∈ after, Text.isBlank c = true) ∧
    (∀ c ∈ front.head?, Text.isBlank c = false) ∧
    (∃ c ∈ token.toList.getLast?, Text.isBlank c = false) ∧ '$' ∉ front ∧
    Base64.decode? (Utf8.encodeChars front) = some salt ∧ salt.length = saltSize

/-- A text without surrogates spells a token without surrogates. -/
theorem exists_token {text : String} (h : Spells text front salt token) :
    ∃ t : String, token = t ∧ (Text.strip text).toList = front ++ '$' :: t.toList := by
  have hstrip := h.strip_eq
  rw [RawText.strip_ofString, RawText.points_ofString] at hstrip
  rcases List.map_eq_append_iff.1 hstrip with ⟨cs, ds, hlist, hcs, hds⟩
  rcases List.map_eq_cons_iff.1 hds with ⟨c, rest, rfl, hc, hrest⟩
  obtain rfl := RawText.char_injective.list_map hcs
  obtain rfl := CodePoint.char.inj hc
  refine ⟨String.ofList rest, ?_, by rw [hlist, String.toList_ofList]⟩
  rcases token with ⟨ps⟩
  rw [RawText.ofString, String.toList_ofList, hrest]

theorem token_of_parts {text : String} (h : parts text = .ok (salt, token)) :
    ∃ t : String, token = t := by
  rcases parts_eq_ok_iff_spells.1 h with ⟨front, hspells⟩
  rcases exists_token hspells with ⟨t, ht, -⟩
  exact ⟨t, ht⟩

/-- Exactly the sealed values are taken apart. -/
theorem parts_eq_ok_iff {text token : String} :
    parts text = .ok (salt, token) ↔ IsSealed text salt token := by
  -- a token that is not empty ends where the sealed value does
  have hends : ∀ (front : List Char) (c : Char), c ∈ token.toList.getLast? →
      (front ++ '$' :: token.toList).getLast? = some c := by
    intro front c hc
    rw [List.append_cons, List.getLast?_append, Option.mem_def.1 hc]
    rfl
  have htoList : (Text.strip text).toList = Text.trimChars Text.isBlank text.toList :=
    String.toList_ofList
  rw [parts_eq_ok_iff_spells]
  constructor
  · rintro ⟨front, h⟩
    rcases exists_token h with ⟨t, ht, htrim⟩
    obtain rfl := RawText.ofString_injective ht
    have hne : token.toList ≠ [] := by simpa using h.token_ne
    rw [htoList] at htrim
    rcases Text.trimChars_eq_iff.1 htrim with
      ⟨⟨before, after, htext, hbefore, hafter⟩, hhead, hlast⟩
    refine ⟨before, front, after, htext, hbefore, hafter, ?_, ?_, h.noDollar,
      Base64.decode?_iff.2 h.standsFor, h.length_salt⟩
    · intro c hc
      apply hhead
      rw [List.head?_append, Option.mem_def.1 hc]
      rfl
    · have hc := List.getLast?_eq_some_getLast hne
      exact ⟨_, hc, hlast _ (hends front _ hc)⟩
  · rintro ⟨before, front, after, htext, hbefore, hafter, hhead, ⟨c, hc, hclean⟩, hfront, hdecode,
      hsize⟩
    have htrim : Text.trimChars Text.isBlank text.toList = front ++ '$' :: token.toList := by
      refine Text.trimChars_eq_iff.2 ⟨⟨before, after, htext, hbefore, hafter⟩, ?_, ?_⟩
      · cases front with
        | nil =>
          rintro d hd
          obtain rfl : '$' = d := Option.some.inj hd
          decide
        | cons d front => exact hhead
      · intro d hd
        obtain rfl : c = d := Option.some.inj ((hends front c hc).symm.trans hd)
        exact hclean
    refine ⟨front, ?_, hfront, ?_, Base64.decode?_iff.1 hdecode, hsize⟩
    · rw [RawText.strip_ofString, RawText.points_ofString, htoList, htrim, List.map_append]
      rfl
    · intro hnil
      rw [RawText.points_ofString, List.map_eq_nil_iff] at hnil
      rw [hnil] at hc
      simp at hc

/-! ## Damaged values -/

/-- The text without the blanks around it has no dollar sign, or nothing after the first one, or
before it something else than 16 bytes in base64: foreign characters are skipped, but surrogates are
not. -/
def IsDamaged (text : RawText) : Prop :=
  separator ∉ text.strip.points ∨
    ∃ saltText rest, text.strip.points = saltText ++ separator :: rest ∧ separator ∉ saltText ∧
      (rest = [] ∨ ¬ ∃ front salt, saltText = front.map CodePoint.char ∧
        Base64.StandsFor front salt ∧ salt.length = saltSize)

/-- A text is damaged, or it spells salt and token. -/
theorem isDamaged_iff : IsDamaged text ↔ ¬ ∃ front salt token, Spells text front salt token := by
  constructor
  · rintro hdamaged ⟨front, salt, token, hstrip, hfront, htoken, hsalt, hsize⟩
    rcases hdamaged with hnone | ⟨saltText, rest, hstrip', hfront', hrest⟩
    · rw [hstrip] at hnone
      exact hnone (List.mem_append_right _ List.mem_cons_self)
    · -- the cut at the first dollar sign is the only one
      have hcut := splitSealed_eq_some_iff.2
        ⟨hstrip, fun hmem => hfront (separator_mem_map.1 hmem)⟩
      have hcut' := splitSealed_eq_some_iff.2 ⟨hstrip', hfront'⟩
      rw [hcut, Option.some.injEq, Prod.mk.injEq] at hcut'
      rcases hcut' with ⟨rfl, rfl⟩
      rcases hrest with hempty | hnoSalt
      · exact htoken hempty
      · exact hnoSalt ⟨front, salt, rfl, hsalt, hsize⟩
  · intro hnone
    by_cases hdollar : separator ∈ text.strip.points
    · rcases List.eq_append_cons_of_mem hdollar with ⟨saltText, rest, hstrip, hfront⟩
      refine Or.inr ⟨saltText, rest, hstrip, hfront, ?_⟩
      by_contra hwhole
      rw [not_or, not_not] at hwhole
      rcases hwhole with ⟨hrest, front, salt, rfl, hsalt, hsize⟩
      exact hnone ⟨front, salt, ⟨rest⟩, hstrip,
        fun hmem => hfront (separator_mem_map.2 hmem), hrest, hsalt, hsize⟩
    · exact Or.inl hdollar

theorem parts_error_iff : (∃ fault, parts text = .error fault) ↔ IsDamaged text := by
  rw [isDamaged_iff]
  constructor
  · rintro ⟨fault, hfault⟩ ⟨front, salt, token, hspells⟩
    rw [parts_eq_ok_iff_spells.2 ⟨front, hspells⟩] at hfault
    simp at hfault
  · intro hnone
    cases hparts : parts text with
    | error fault => exact ⟨fault, rfl⟩
    | ok found =>
      rcases parts_eq_ok_iff_spells.1 hparts with ⟨front, hspells⟩
      exact absurd ⟨front, _, _, hspells⟩ hnone

/-! ## Decryption -/

/-- Decryption is refused because the text is no sealed value. -/
def RefusesRecord (v : Vault) (password text : RawText) : Prop :=
  ∃ e, v.decrypt password text = .error e ∧ e.kind? = some .invalidRecord

/-- How decryption ends for a salt and a token. Without a key for the password that is told, then a
token with surrogates; else it is told what the cipher answers: the password is wrong, or the
message is the text, or it is no text. -/
inductive EndsWith (v : Vault) (salt : Bytes) (token password : RawText) :
    Except Failure String → Prop
  | noKey {failure : Failure} (h : v.KeyFault password failure) :
      EndsWith v salt token password (.error failure)
  | notEncodable {key : Bytes} {fault : SurrogateFault} (hkey : v.key password salt = .ok key)
      (h : token.text = .error fault) :
      EndsWith v salt token password (.error (.notEncodable fault))
  | wrongPassword {key : Bytes} {t : String} (hkey : v.key password salt = .ok key)
      (ht : token = t) (h : v.cipher.openToken? key t = none) :
      EndsWith v salt token password (.error .wrongPassword)
  | plain {key : Bytes} {t plain : String} (hkey : v.key password salt = .ok key)
      (ht : token = t) (h : v.cipher.openToken? key t = some (Utf8.encode plain)) :
      EndsWith v salt token password (.ok plain)
  | notText {key message : Bytes} {t : String} (fault : Utf8.Fault)
      (hkey : v.key password salt = .ok key) (ht : token = t)
      (h : v.cipher.openToken? key t = some message) (hmessage : ¬ Utf8.IsText message) :
      EndsWith v salt token password (.error (.notText fault))

theorem decrypt_of_damaged (h : IsDamaged text) : v.RefusesRecord password text := by
  rcases parts_error_iff.2 h with ⟨fault, hparts⟩
  refine ⟨.invalidRecord fault, ?_, rfl⟩
  unfold decrypt
  rw [hparts, mapError_error]
  rfl

theorem endsWith_decrypt (h : Spells text front salt token) (password : RawText) :
    EndsWith v salt token password (v.decrypt password text) := by
  have hparts := parts_eq_ok_iff_spells.2 ⟨front, h⟩
  cases hkey : v.key password salt with
  | error failure =>
    simp only [decrypt, hparts, mapError_ok, ok_bind, hkey]
    exact .noKey (keyFault_of_key hkey)
  | ok key =>
    cases htoken : token.text with
    | error fault =>
      simp only [decrypt, hparts, mapError_ok, ok_bind, hkey, htoken]
      exact .notEncodable hkey htoken
    | ok t =>
      obtain rfl := RawText.text_eq_ok_iff.1 htoken
      rw [decrypt_of_parts hparts hkey]
      cases hopen : v.cipher.openToken? key t with
      | none => exact .wrongPassword hkey rfl hopen
      | some message =>
        cases hdecode : Utf8.decode message with
        | ok plain =>
          obtain rfl := Utf8.decode_eq_ok_iff.1 hdecode
          simp only [hdecode, mapError_ok]
          exact .plain hkey rfl hopen
        | error fault =>
          simp only [hdecode, mapError_error]
          exact .notText fault hkey rfl hopen (Utf8.not_isText_iff.2 ⟨fault, hdecode⟩)

/-- Of the failures that callers tell apart only a wrong password is left. -/
theorem EndsWith.kind? {e : Failure} (h : EndsWith v salt token password (.error e)) :
    e.kind? = none ∨ e.kind? = some .wrongPassword := by
  cases h with
  | noKey hkey => exact Or.inl hkey.kind?
  | notEncodable hkey htoken => exact Or.inl rfl
  | wrongPassword hkey htoken hopen => exact Or.inr rfl
  | notText fault hkey htoken hopen hmessage => exact Or.inl rfl

/-- Decryption fails with an invalid record, a wrong password, or with none of the failures that
callers tell apart. -/
theorem decrypt_error {e : Failure} (h : v.decrypt password text = .error e) :
    (IsDamaged text ∧ e.kind? = some .invalidRecord) ∨
      ¬ IsDamaged text ∧ (e.kind? = none ∨ e.kind? = some .wrongPassword) := by
  by_cases hdamaged : IsDamaged text
  · rcases decrypt_of_damaged hdamaged with ⟨e', he', hkind⟩
    obtain rfl := Except.error.inj (h.symm.trans he')
    exact Or.inl ⟨hdamaged, hkind⟩
  · have hwhole := hdamaged
    rw [isDamaged_iff, not_not] at hwhole
    rcases hwhole with ⟨front, salt, token, hspells⟩
    have hends := endsWith_decrypt (v := v) hspells password
    rw [h] at hends
    exact Or.inr ⟨hdamaged, hends.kind?⟩

theorem refusesRecord_iff : v.RefusesRecord password text ↔ IsDamaged text := by
  constructor
  · rintro ⟨e, hanswer, hkind⟩
    rcases decrypt_error hanswer with ⟨hdamaged, -⟩ | ⟨-, hnone | hwrong⟩
    · exact hdamaged
    · rw [hnone] at hkind
      exact absurd hkind nofun
    · rw [hwrong] at hkind
      exact absurd hkind nofun
  · exact decrypt_of_damaged

/-- The spelling of the salt does not matter. -/
theorem decrypt_congr {other : RawText} {spelling : List Char} (h : Spells text front salt token)
    (hother : Spells other spelling salt token) (password : RawText) :
    v.decrypt password other = v.decrypt password text := by
  unfold decrypt
  rw [parts_eq_ok_iff_spells.2 ⟨_, h⟩, parts_eq_ok_iff_spells.2 ⟨_, hother⟩]

/-- A damaged value is recognised whatever the password and the number of iterations.

* It is refused as an invalid record under one password exactly if it is under every password, and
  that is exactly if it is damaged.
* A text that is not damaged spells salt and token. Under a password that keys are derived from, and
  if the token has no surrogates, it ends with what the cipher answers for the token under the key
  of the password and the salt; otherwise what is told is that the token has surrogates, or why the
  password has no key.
* Another spelling of the salt before the same token comes to the same end. -/
theorem damage_is_recognised (v : Vault) (text : RawText) :
    ((∃ password, v.RefusesRecord password text) ↔ ∀ password, v.RefusesRecord password text) ∧
    ((∃ password, v.RefusesRecord password text) ↔ IsDamaged text) ∧
    (¬ IsDamaged text → ∃ front salt token, Spells text front salt token ∧
      (∀ password, EndsWith v salt token password (v.decrypt password text)) ∧
      (∀ password, v.Derives password ↔ ∃ key, v.key password salt = .ok key) ∧
      ∀ other spelling, Spells other spelling salt token → ∀ password,
        v.decrypt password other = v.decrypt password text) := by
  refine ⟨?_, ?_, ?_⟩
  · constructor
    · rintro ⟨password, hrefused⟩ other
      exact decrypt_of_damaged (refusesRecord_iff.1 hrefused)
    · intro hall
      exact ⟨"", hall ""⟩
  · constructor
    · rintro ⟨password, hrefused⟩
      exact refusesRecord_iff.1 hrefused
    · intro hdamaged
      exact ⟨"", decrypt_of_damaged hdamaged⟩
  · intro hwhole
    rw [isDamaged_iff, not_not] at hwhole
    rcases hwhole with ⟨front, salt, token, hspells⟩
    refine ⟨front, salt, token, hspells, endsWith_decrypt hspells, ?_, ?_⟩
    · intro password
      exact ⟨fun h => h.exists_key salt, fun ⟨key, hkey⟩ => derives_of_key hkey⟩
    · intro other spelling hother password
      exact decrypt_congr hspells hother password

theorem not_isDamaged_of_parts (h : parts text = .ok (salt, token)) : ¬ IsDamaged text := by
  intro hdamaged
  rcases parts_error_iff.2 hdamaged with ⟨fault, hfault⟩
  simp [h] at hfault

/-- Three bytes are no salt. Salt that is spelled with a stray character and with more after the
padding is read as the salt without them. -/
theorem short_salt_is_damaged :
    (∀ password, (⟨.fernet, 1⟩ : Vault).RefusesRecord password "QUJD$x") ∧
      ¬ IsDamaged " AAAAAAAAAAA!AAAAAAAAAAA==QQ$x\n" ∧
      ∀ password, (⟨.fernet, 1⟩ : Vault).decrypt password "AAAAAAAAAAAAAAAAAAAAAA==$x" =
        (⟨.fernet, 1⟩ : Vault).decrypt password " AAAAAAAAAAA!AAAAAAAAAAA==QQ$x\n" := by
  obtain ⟨hevery, -, -⟩ := damage_is_recognised ⟨.fernet, 1⟩ "QUJD$x"
  obtain ⟨-, -, hwhole⟩ :=
    damage_is_recognised ⟨.fernet, 1⟩ " AAAAAAAAAAA!AAAAAAAAAAA==QQ$x\n"
  have hshort : parts "QUJD$x" = .error (.saltSize 3) := by decide +kernel
  have hplain : parts "AAAAAAAAAAAAAAAAAAAAAA==$x" =
      .ok (List.replicate 16 0, "x") := by decide +kernel
  have hstray : parts " AAAAAAAAAAA!AAAAAAAAAAA==QQ$x\n" =
      .ok (List.replicate 16 0, "x") := by decide +kernel
  have hnotDamaged := not_isDamaged_of_parts hstray
  refine ⟨?_, hnotDamaged, ?_⟩
  · apply hevery.1
    exact ⟨"", .invalidRecord (.saltSize 3), by rw [decrypt, hshort]; rfl, rfl⟩
  · obtain ⟨front, salt, token, hspells, -, -, hsame⟩ := hwhole hnotDamaged
    obtain ⟨front', hspells'⟩ := parts_eq_ok_iff_spells.1 hplain
    have hparts := parts_eq_ok_iff_spells.2 ⟨front, hspells⟩
    rw [hstray, Except.ok.injEq, Prod.mk.injEq] at hparts
    rcases hparts with ⟨rfl, rfl⟩
    exact hsame _ front' hspells'

/-- A sealed value that is whole, with more iterations than there may be. With one iteration, a
surrogate among the characters of its salt, in its token, and in the password. -/
theorem surrogates_and_limits_are_told :
    ¬ IsDamaged "AAAAAAAAAAAAAAAAAAAAAA==$x" ∧
      1 ≤ (⟨.fernet, 2147483648⟩ : Vault).iterations ∧
      (⟨.fernet, 2147483648⟩ : Vault).decrypt "p" "AAAAAAAAAAAAAAAAAAAAAA==$x" =
        .error (.limit .iterations) ∧
      (⟨.fernet, 1⟩ : Vault).decrypt "p"
          ⟨.surrogate 0 :: (RawText.ofString "AAAAAAAAAAAAAAAAAAAAAA==$x").points⟩ =
        .error (.invalidRecord .malformedSalt) ∧
      (⟨.fernet, 1⟩ : Vault).decrypt "p"
          ⟨(RawText.ofString "AAAAAAAAAAAAAAAAAAAAAA==$x").points ++ [.surrogate 0]⟩ =
        .error (.notEncodable ⟨0, 1, 1⟩) ∧
      (⟨.fernet, 1⟩ : Vault).decrypt ⟨[.surrogate 0]⟩ "AAAAAAAAAAAAAAAAAAAAAA==$x" =
        .error (.notEncodable ⟨0, 0, 1⟩) := by
  have hplain : parts "AAAAAAAAAAAAAAAAAAAAAA==$x" =
      .ok (List.replicate 16 0, "x") := by decide +kernel
  exact ⟨not_isDamaged_of_parts hplain, by decide, by decide +kernel, by decide +kernel,
    by decide +kernel, by decide +kernel⟩

end NodeStore.Vault
