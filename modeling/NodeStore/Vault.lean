import NodeStore.Crypto.Fernet
import NodeStore.Entropy
import NodeStore.Failure
import NodeStore.SeedPhrase.Basic
import NodeStore.Text.Raw

/-!
# The vault

A text is sealed under a password: a key is derived from the password and fresh salt, the text
is sealed in a token under that key, and the salt is put in front, `salt$token`. Opening takes
the salt from the sealed value. The vault works with any cipher for tokens; `TokenCipher.fernet`
is the one in use.
-/

namespace NodeStore

/-- A cipher whose tokens are text, and open only under the key that they were sealed with. -/
structure TokenCipher where
  sealToken : (key : Bytes) → (time : Nat) → (vector message : Bytes) → String
  openToken? : (key : Bytes) → (token : String) → Option Bytes

/-- The cipher in use. -/
def TokenCipher.fernet : TokenCipher where
  sealToken key time vector message :=
    Base64.encodeText (Fernet.sealBytes key time vector message)
  openToken? key token := Fernet.openToken? key (Utf8.encode token)

/-- A cipher and the number of iterations of key derivation. -/
structure Vault where
  cipher : TokenCipher
  iterations : Int

namespace Vault

/-- The size of salt in bytes. -/
def saltSize : Nat := 16

/-- The size of a cipher's vector in bytes. -/
def vectorSize : Nat := 16

/-- The greatest number of iterations, and the greatest size of a password in bytes, that key
derivation works with. -/
def maxCount : Nat := 2147483647

/-- The numbers of iterations that key derivation can be handed at all are below this one, and not
below its negative. -/
def countBound : Nat := 9223372036854775808

/-- The bytes of a password that keys are derived from. The password is encoded first; then the
number of iterations and the size are checked. -/
def passwordBytes (v : Vault) (password : RawText) : Except Failure Bytes := do
  let b ← password.encode.mapError .notEncodable
  if v.iterations < -countBound ∨ countBound ≤ v.iterations then throw (.limit .number)
  else if maxCount < b.length then throw (.limit .passwordSize)
  else if v.iterations < 1 then throw (.argument .noIterations)
  else if maxCount < v.iterations then throw (.limit .iterations)
  else return b

/-- The key of a password and salt. -/
def key (v : Vault) (password : RawText) (salt : Bytes) : Except Failure Bytes :=
  (v.passwordBytes password).map fun b => Hmac.deriveKey b salt v.iterations.toNat

/-- Salt and token as one text. -/
def joined (salt : Bytes) (token : String) : String :=
  Base64.encodeText salt ++ "$" ++ token

/-- Seals a text. The salt is drawn before the key is derived; the vector is drawn after it, when
the text has been encoded. -/
def encrypt (v : Vault) (time : Nat) (password text : RawText) :
    ExceptT Failure (StateM Entropy) String := do
  let salt ← liftM (Entropy.draw saltSize)
  let key ← liftM (v.key password salt)
  let message ← liftM (text.encode.mapError .notEncodable : Except Failure Bytes)
  let vector ← liftM (Entropy.draw vectorSize)
  return joined salt (v.cipher.sealToken key time vector message)

/-- What separates salt and token. -/
def separator : CodePoint := .char '$'

/-- What stands before and after the first separator. -/
def splitSealed (ps : List CodePoint) : Option (List CodePoint × List CodePoint) :=
  match ps.dropWhile (· != separator) with
  | [] => none
  | _ :: token => some (ps.takeWhile (· != separator), token)

/-- The bytes that a salt is written for. -/
def decodeSalt? (saltText : RawText) : Option Bytes :=
  saltText.encode.toOption.bind Base64.decode?

/-- Salt and token of a sealed value, which may have blanks around it. -/
def parts (sealedText : RawText) : Except SealFault (Bytes × RawText) :=
  match splitSealed sealedText.strip.points with
  | none => .error .noSeparator
  | some (_, []) => .error .noSeparator
  | some (saltText, token) =>
    match decodeSalt? ⟨saltText⟩ with
    | none => .error .malformedSalt
    | some salt =>
      if salt.length = saltSize then .ok (salt, ⟨token⟩) else .error (.saltSize salt.length)

/-- Opens a sealed text. The key is derived before the token is encoded. -/
def decrypt (v : Vault) (password sealedText : RawText) : Except Failure String := do
  let (salt, token) ← (parts sealedText).mapError .invalidRecord
  let key ← v.key password salt
  let token ← token.text.mapError .notEncodable
  match v.cipher.openToken? key token with
  | none => .error .wrongPassword
  | some message => (Utf8.decode message).mapError .notText

/-- The kept form of a phrase. -/
def parsePhrase (phrase : RawText) : Except Failure String :=
  match SeedPhrase.parse? phrase with
  | some p => .ok p
  | none => .error .invalidMnemonic

/-- A phrase of fresh entropy. -/
def newPhrase (strength : Int) : ExceptT Failure (StateM Entropy) String := do
  if SeedPhrase.strengths.contains strength.toNat then
    let entropy ← liftM (Entropy.draw (strength.toNat / 8))
    return SeedPhrase.ofEntropy entropy
  else throw (.argument .badStrength)

/-- Seals the kept form of a phrase. -/
def sealPhrase (v : Vault) (time : Nat) (password phrase : RawText) :
    ExceptT Failure (StateM Entropy) String := do
  let phrase ← liftM (parsePhrase phrase)
  v.encrypt time password phrase

/-- Opens a sealed phrase. What opens and is no phrase was not sealed as one. -/
def openPhrase (v : Vault) (password sealedText : RawText) : Except Failure String := do
  let phrase ← v.decrypt password sealedText
  match SeedPhrase.parse? phrase with
  | some p => .ok p
  | none => .error .corruptSecret

end Vault

end NodeStore
