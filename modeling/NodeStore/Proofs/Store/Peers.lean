import NodeStore.Proofs.Hex
import NodeStore.Proofs.Store.Settings

/-! # Calls about peers

An identity is 33 bytes, and a caller may name it in many ways: by its bytes, or by any hex text
that stands for them (`Names`). However it is named, a call is about the row of its canonical
spelling.

* `peerKey_iff`: a key is accepted exactly if it names an identity;
* `exec_savePeer`, `exec_deletePeer`, `exec_loadPeers`: what calls that are accepted do;
* `exec_savePeer_refused`, `exec_deletePeer_refused`: a call that is refused changes nothing. -/

namespace NodeStore.Store

open Op

/-! ## Names of identities -/

/-- The bytes of a node's identity, a compressed key. -/
def IsIdentity (b : Bytes) : Prop :=
  b.length = 33 ∧ (b.head? = some 2 ∨ b.head? = some 3)

instance (b : Bytes) : Decidable (IsIdentity b) := inferInstanceAs (Decidable (_ ∧ _))

/-- A value names an identity. -/
inductive Names : Value → Bytes → Prop where
  | bytes {b : Bytes} : IsIdentity b → Names (.blob b) b
  | text {s : String} {b : Bytes} : IsIdentity b → Hex.Spells s b → Names (.text s) b

variable {v key address : Value} {b b' : Bytes} {a k text : String}

theorem Names.isIdentity (h : Names v b) : IsIdentity b := by
  cases h with
  | bytes h => exact h
  | text h _ => exact h

/-- The check of a key accepts the spellings of identities, and keeps the canonical one. -/
theorem publicKey_iff : RowCheck.publicKey (.text text) = .ok k ↔
    ∃ b, IsIdentity b ∧ Hex.Spells text b ∧ k = Hex.encode b := by
  simp only [← Hex.decode?_iff]
  unfold RowCheck.publicKey RowCheck.hex
  cases hdecode : Hex.decode? text with
  | none => simp [hdecode, bind, Except.bind]
  | some b =>
    have hsize : (b.length : Int) = ((RowCheck.publicKeySize : Nat) : Int) ↔ b.length = 33 :=
      Int.ofNat_inj
    simp only [hdecode, hsize]
    by_cases hb : IsIdentity b
    · rw [if_pos hb.1, ok_bind, if_pos hb.2]
      constructor
      · intro h
        exact ⟨b, hb, rfl, (Except.ok.inj h).symm⟩
      · rintro ⟨b', -, hb', rfl⟩
        rw [Option.some.inj hb']
        rfl
    · constructor
      · intro h
        by_cases hlength : b.length = 33
        · have hmark : ¬ (b.head? = some 2 ∨ b.head? = some 3) := fun hmark => hb ⟨hlength, hmark⟩
          rw [if_pos hlength, ok_bind, if_neg hmark] at h
          simp at h
        · rw [if_neg hlength] at h
          simp [bind, Except.bind] at h
      · rintro ⟨b', hb', hsame, -⟩
        rw [Option.some.inj hsame] at hb
        exact absurd hb' hb

/-- The canonical spelling is kept as it is. -/
theorem publicKey_encode (hb : IsIdentity b) :
    RowCheck.publicKey (.text (Hex.encode b)) = .ok (Hex.encode b) :=
  publicKey_iff.2 ⟨b, hb, Hex.spells_encode b, rfl⟩

/-- A key is accepted if it names an identity. What is looked for is the canonical spelling. -/
theorem peerKey_iff : peerKey key = .ok k ↔ ∃ b, Names key b ∧ k = Hex.encode b := by
  have hcheck : ∀ text, (RowCheck.publicKey (.text text)).mapError
      (fun p => Failure.invalidPeer (.given p)) = .ok k ↔
        ∃ b, IsIdentity b ∧ Hex.Spells text b ∧ k = Hex.encode b := by
    intro text
    rw [← publicKey_iff]
    cases RowCheck.publicKey (.text text) <;> simp
  cases key with
  | text text =>
    refine (hcheck text).trans ?_
    constructor
    · rintro ⟨b, hb, hspells, hk⟩
      exact ⟨b, .text hb hspells, hk⟩
    · rintro ⟨b, hname, hk⟩
      cases hname with
      | text hb hspells => exact ⟨b, hb, hspells, hk⟩
  | blob b =>
    refine (hcheck (Hex.encode b)).trans ?_
    constructor
    · rintro ⟨b', hb, hspells, hk⟩
      have hsame := Hex.decode?_iff.2 hspells
      rw [Hex.decode?_encode] at hsame
      obtain rfl := Option.some.inj hsame
      exact ⟨b, .bytes hb, hk⟩
    · rintro ⟨b', hname, hk⟩
      cases hname with
      | bytes hb => exact ⟨b, hb, Hex.spells_encode b, hk⟩
  | other kind =>
    constructor
    · intro h
      simp [peerKey, RowCheck.publicKey] at h
    · rintro ⟨b, hname, -⟩
      cases hname

theorem peerKey_error {e : Failure} (h : peerKey key = .error e) : ∃ p, e = .invalidPeer p := by
  unfold peerKey at h
  rcases mapError_eq_error h with ⟨p, -, rfl⟩
  exact ⟨.given p, rfl⟩

/-- An address that is accepted is kept as it was given. -/
theorem eq_of_socketAddress (h : RowCheck.socketAddress v = .ok a) : v = .text a := by
  unfold RowCheck.socketAddress at h
  split at h
  · split at h
    · simp at h
    · split at h
      · simp at h
      · rw [Except.ok.inj h]
  · simp at h

theorem Names.unique (h : Names v b) (h' : Names v b') : b = b' := by
  have hk := peerKey_iff.2 ⟨b, h, rfl⟩
  have hk' := peerKey_iff.2 ⟨b', h', rfl⟩
  rw [hk] at hk'
  exact Hex.encode_injective (Except.ok.inj hk')
/-! ## Calls -/

/-- A call that is about peers. -/
inductive PeerCall where
  | save (key address : Value)
  | delete (key : Value)
  | load

namespace PeerCall

/-- Carries out a call, whatever it answers. -/
def perform : PeerCall → StoreM Unit
  | save key address => savePeer key address
  | delete key => discard (deletePeer key)
  | load => discard loadPeers

/-- The call is a save of an identity with an address, and both are accepted. -/
def Saves (b : Bytes) (a : String) : PeerCall → Prop
  | save key address => Names key b ∧ RowCheck.socketAddress address = .ok a
  | _ => False

/-- The call is a deletion of an identity. -/
def Deletes (b : Bytes) : PeerCall → Prop
  | delete key => Names key b
  | _ => False

/-- The arguments of the call are accepted. -/
def Accepted : PeerCall → Prop
  | save key address => ∃ b a, (save key address).Saves b a
  | delete key => ∃ b, (delete key).Deletes b
  | load => True

end PeerCall
/-! ## What a call does -/

variable {s : StoreState} {t : Table (Cell × Cell)}

/-- A save that is accepted puts its address into the row of the identity. -/
theorem exec_savePeer (hworks : s.outages.transactions = none) (ht : s.tables.peers = some t)
    (hsaves : (PeerCall.save key address).Saves b a) :
    ∃ log, exec (savePeer key address) s =
      (.ok (), { s with
        tables := { s.tables with
          peers := some (t.upsert (.text (Hex.encode b)) (.text a)) }
        log }) := by
  rcases hsaves with ⟨hname, haddress⟩
  have hkey := peerKey_iff.2 ⟨b, hname, rfl⟩
  unfold savePeer
  rw [exec_bind_of_ok (by rw [exec_liftExcept, hkey]),
    exec_bind_of_ok (by rw [exec_liftExcept, haddress, mapError_ok])]
  unfold log
  rw [exec_modify_bind]
  refine ⟨_, exec_transaction_ok.2 ⟨hworks, _, ?_, rfl⟩⟩
  simp only [ht]
  rfl

/-- A save that is not accepted changes nothing. -/
theorem exec_savePeer_refused (h : ¬ (PeerCall.save key address).Accepted) :
    ∃ p, exec (savePeer key address) s = (.error (.invalidPeer p), s) := by
  unfold savePeer
  cases hkey : peerKey key with
  | error e =>
    rcases peerKey_error hkey with ⟨p, rfl⟩
    exact ⟨p, exec_bind_of_error (by rw [exec_liftExcept])⟩
  | ok k =>
    rw [exec_bind_of_ok (by rw [exec_liftExcept])]
    cases haddress : RowCheck.socketAddress address with
    | error p => exact ⟨.given p, exec_bind_of_error (by rw [exec_liftExcept, mapError_error])⟩
    | ok a =>
      rcases peerKey_iff.1 hkey with ⟨b, hname, -⟩
      exact absurd ⟨b, a, hname, haddress⟩ h

/-- A deletion that is accepted removes the row of the identity, and answers whether it was
there. -/
theorem exec_deletePeer (hworks : s.outages.transactions = none) (ht : s.tables.peers = some t)
    (hname : Names key b) :
    ∃ log, exec (deletePeer key) s =
      (.ok (decide (Cell.text (Hex.encode b) ∈ t.keys)), { s with
        tables := { s.tables with
          peers := some (t.deleteWhere fun d => d.1 == .text (Hex.encode b)) }
        log }) := by
  have hkey := peerKey_iff.2 ⟨b, hname, rfl⟩
  unfold deletePeer log
  rw [exec_bind_of_ok (by rw [exec_liftExcept, hkey]), exec_modify_bind, exec_bind,
    exec_transaction]
  simp only [hworks, ht, present_some, ok_bind, pure, Except.pure]
  have hcount : t.countWhere (fun d => d.1 == .text (Hex.encode b)) = 0 ↔
      Cell.text (Hex.encode b) ∉ t.keys := by
    unfold Table.countWhere
    rw [List.countP_eq_zero, Table.mem_keys]
    simp
  by_cases hmem : Cell.text (Hex.encode b) ∈ t.keys
  · rw [if_neg (fun hzero => hcount.1 hzero hmem), decide_eq_true hmem]
    exact ⟨_, rfl⟩
  · rw [if_pos (hcount.2 hmem), decide_eq_false hmem]
    exact ⟨_, rfl⟩

theorem exec_deletePeer_refused (h : ¬ (PeerCall.delete key).Accepted) :
    ∃ p, exec (deletePeer key) s = (.error (.invalidPeer p), s) := by
  unfold deletePeer
  cases hkey : peerKey key with
  | error e =>
    rcases peerKey_error hkey with ⟨p, rfl⟩
    exact ⟨p, exec_bind_of_error (by rw [exec_liftExcept])⟩
  | ok k =>
    rcases peerKey_iff.1 hkey with ⟨b, hname, -⟩
    exact absurd ⟨b, hname⟩ h

/-- A row with the canonical spelling of an identity and an address that is accepted is read as it
is. -/
theorem checkPeer_saved (hb : IsIdentity b)
    (ha : RowCheck.socketAddress (.text a) = .ok a) :
    checkPeer (.text (Hex.encode b), .text a) = .ok (Hex.encode b, a) := by
  unfold checkPeer
  simp only [Cell.toValue, publicKey_encode hb, ha, mapError_ok]
  rfl

/-- A load of rows that are all well-formed answers with the map of them. -/
theorem exec_loadPeers {peers : List (String × String)} (hworks : s.outages.transactions = none)
    (ht : s.tables.peers = some t) (hmap : t.rows.mapM (fun r => checkPeer r.data) = .ok peers) :
    ∃ log, exec loadPeers s = (.ok (Assoc.ofList peers), { s with log }) := by
  unfold loadPeers log
  rw [exec_bind, exec_transaction]
  simp only [hworks, ht, present_some, ok_bind, pure, Except.pure]
  rw [exec_bind_of_ok (by rw [exec_liftExcept, hmap, mapError_ok]), exec_modify_bind]
  exact ⟨_, rfl⟩

theorem mapM_checkPeer {rows : List (Row (Cell × Cell))}
    (hrows : ∀ r ∈ rows, ∃ p : String × String,
      r.data = (.text p.1, .text p.2) ∧ checkPeer r.data = .ok p) :
    ∃ peers, rows.mapM (fun r => checkPeer r.data) = .ok peers ∧
      peers.map (fun p => (Cell.text p.1, Cell.text p.2)) = rows.map fun r => r.data := by
  induction rows with
  | nil => exact ⟨[], rfl, rfl⟩
  | cons r rest ih =>
    rcases hrows r List.mem_cons_self with ⟨p, hdata, hcheck⟩
    rcases ih fun other hother => hrows other (List.mem_cons_of_mem r hother) with
      ⟨peers, hmap, hpeers⟩
    refine ⟨p :: peers, ?_, ?_⟩
    · rw [List.mapM_cons, hcheck, ok_bind, hmap, ok_bind]
      rfl
    · rw [List.map_cons, List.map_cons, hpeers, hdata]

end NodeStore.Store
