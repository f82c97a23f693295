import NodeStore.Base64
import NodeStore.Crypto.Aes
import NodeStore.Crypto.Hmac

/-!
# Authenticated tokens

A token holds a version byte, the time, a vector, the encrypted message and a code over all of
these; it is written in base64. The first half of a key of 32 bytes authenticates, the second
half encrypts. A token is opened only after its code has been checked.
-/

namespace NodeStore.Fernet

/-- The version byte. -/
def version : UInt8 := 0x80

/-- The bytes of a token. -/
def sealBytes (key : Bytes) (time : Nat) (vector msg : Bytes) : Bytes :=
  let body := version :: Bytes.ofNat 8 time ++ vector ++ Aes.encrypt (key.drop 16) vector msg
  body ++ Hmac.mac (key.take 16) body

/-- Seals a message under a key. -/
def sealToken (key : Bytes) (time : Nat) (vector msg : Bytes) : Bytes :=
  Base64.encode (sealBytes key time vector msg)

/-- Opens the bytes of a token. -/
def openBytes? (key data : Bytes) : Option Bytes :=
  if data.head? ≠ some version ∨ data.length < 9 then none
  else
    let body := data.take (data.length - 32)
    if Hmac.mac (key.take 16) body = data.drop (data.length - 32) then
      Aes.decrypt? (key.drop 16) ((body.drop 9).take 16) (body.drop 25)
    else none

/-- Opens a token under a key. -/
def openToken? (key token : Bytes) : Option Bytes :=
  (Base64.decode? token).bind (openBytes? key)

end NodeStore.Fernet
