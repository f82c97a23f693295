import NodeStore.Crypto.Fernet
import NodeStore.Proofs.Base64
import NodeStore.Proofs.Crypto.Aes

/-! # Tokens open under the key that they were sealed with

* `length_mac`, `length_deriveKey`: codes and derived keys have 32 bytes;
* `openBytes?_sealBytes`: what was sealed under a key of 32 bytes is opened under it. -/

namespace NodeStore

namespace Sha256

@[simp] theorem length_finish (s : State) (before : Nat) (msg : Bytes) :
    (finish s before msg).length = 32 := rfl

end Sha256

namespace Hmac

@[simp] theorem length_keyed_mac (k : Keyed) (msg : Bytes) : (k.mac msg).length = 32 :=
  Sha256.length_finish ..

@[simp] theorem length_mac (key msg : Bytes) : (mac key msg).length = 32 :=
  length_keyed_mac ..

theorem length_deriveRounds (k : Keyed) (n : Nat) (last : Bytes) {acc : Bytes}
    (h : acc.length = 32) : (deriveRounds k n last acc).length = 32 := by
  induction n generalizing last acc with
  | zero => exact h
  | succ n ih =>
    apply ih (k.mac last)
    simp [Bytes.length_xor, h]

theorem length_deriveKey (password salt : Bytes) (iterations : Nat) :
    (deriveKey password salt iterations).length = 32 :=
  length_deriveRounds _ _ _ (length_keyed_mac ..)

end Hmac

namespace Fernet

variable {key vector : Bytes} (time : Nat) (msg : Bytes)

/-- What a token says before its code. -/
def body (key : Bytes) (time : Nat) (vector msg : Bytes) : Bytes :=
  version :: (Bytes.ofNat 8 time ++ (vector ++ Aes.encrypt (key.drop 16) vector msg))

theorem sealBytes_eq :
    sealBytes key time vector msg =
      body key time vector msg ++ Hmac.mac (key.take 16) (body key time vector msg) := by
  simp only [sealBytes, body, List.cons_append, List.append_assoc]

/-- Vector and encrypted message are read where they were written. -/
theorem parts_body (key : Bytes) (hvector : vector.length = 16) :
    ((body key time vector msg).drop 9).take 16 = vector ∧
      (body key time vector msg).drop 25 = Aes.encrypt (key.drop 16) vector msg := by
  have htime : (Bytes.ofNat 8 time).length = 8 := Bytes.length_ofNat ..
  have hdrop : (body key time vector msg).drop 9 =
      vector ++ Aes.encrypt (key.drop 16) vector msg := by
    rw [body, List.drop_succ_cons, List.drop_left' htime]
  constructor
  · rw [hdrop, List.take_left' hvector]
  · rw [show 25 = 9 + 16 from rfl, ← List.drop_drop, hdrop, List.drop_left' hvector]

/-- What was sealed under a key is opened under it. -/
theorem openBytes?_sealBytes (hkey : key.length = 32) (hvector : vector.length = 16) :
    openBytes? key (sealBytes key time vector msg) = some msg := by
  rw [sealBytes_eq]
  have hlen : (body key time vector msg ++
      Hmac.mac (key.take 16) (body key time vector msg)).length - 32 =
      (body key time vector msg).length := by simp
  -- The token is long enough and begins with its version, so it is not refused at once.
  have hhead : ¬ ((body key time vector msg ++
      Hmac.mac (key.take 16) (body key time vector msg)).head? ≠ some version ∨
      (body key time vector msg ++
        Hmac.mac (key.take 16) (body key time vector msg)).length < 9) := by
    rintro (h | h)
    · exact h rfl
    · rw [List.length_append, Hmac.length_mac] at h
      omega
  rcases parts_body time msg key hvector with ⟨hv, hmsg⟩
  unfold openBytes?
  rw [if_neg hhead]
  -- The code is cut off where it was put on, and it is the code of what stands before it.
  simp only [hlen, List.take_left, List.drop_left, if_true, hv, hmsg]
  exact Aes.decrypt?_encrypt (by rw [List.length_drop, hkey]) hvector msg

/-- A token is opened from the text that it is written as. -/
theorem openToken?_encodeText (hkey : key.length = 32) (hvector : vector.length = 16) :
    openToken? key (Utf8.encode (Base64.encodeText (sealBytes key time vector msg))) =
      some msg := by
  have hread : Base64.decode? (Utf8.encode (Base64.encodeText (sealBytes key time vector msg))) =
      some (sealBytes key time vector msg) := Base64.decode?_encodeText _
  rw [openToken?, hread, Option.bind_some, openBytes?_sealBytes time msg hkey hvector]

theorem sealBytes_ne_nil : sealBytes key time vector msg ≠ [] := by
  rw [sealBytes_eq, body]
  exact List.cons_ne_nil _ _

/-- A token has its message in whole blocks, and 57 bytes beside it. -/
theorem length_sealBytes (hkey : key.length = 32) (hvector : vector.length = 16) :
    (sealBytes key time vector msg).length = 57 + 16 * (msg.length / 16 + 1) := by
  have hmessage : (Aes.encrypt (key.drop 16) vector msg).length = 16 * (msg.length / 16 + 1) :=
    Aes.length_encrypt (by rw [List.length_drop, hkey]) hvector msg
  have htime : (Bytes.ofNat 8 time).length = 8 := Bytes.length_ofNat ..
  rw [sealBytes_eq, List.length_append, Hmac.length_mac]
  simp only [body, List.length_cons, List.length_append, htime, hvector, hmessage]
  omega

end Fernet

end NodeStore
