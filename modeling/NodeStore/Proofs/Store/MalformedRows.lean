import NodeStore.Proofs.Address
import NodeStore.Proofs.Checks
import NodeStore.Proofs.Store.ChannelIds
import NodeStore.Proofs.Store.Peers
import NodeStore.Proofs.Store.Revocations
import NodeStore.Proofs.Table.Reading

/-! # Malformed rows

Other programs may write into the tables, so the columns of a row may be any text and any bytes.
`SpellsPair`, `SpellsToken` and `SpellsPeer` say which rows are well-formed, and what they stand
for. The loads of channel ids and revoked tokens pass over all others with a warning; the load of
peers is refused because of the first one.

* `checkPair_iff`, `checkToken_iff`, `checkPeer_iff`: the checks accept the well-formed rows;
* `exec_loadChannelIds_eq`, `exec_loadRevoked_log`, `exec_loadPeers_error_iff`: the loads of any
  table;
* `loads_beside_malformed_rows`: what malformed rows do to loads. -/

namespace NodeStore.Store

open Op

variable {d : Cell × Cell} {cell : Cell} {pair : Bytes × Bytes} {b : Bytes} {k a : String}
  {s s' : StoreState} {t : Table (Cell × Cell)} {u : Table Cell}

/-! ## Well-formed rows -/

/-- A row of the table of channel ids stands for two ids of their size. -/
def SpellsPair (d : Cell × Cell) (pair : Bytes × Bytes) : Prop :=
  ∃ temporary final, d = (.text temporary, .text final) ∧ Hex.Spells temporary pair.1 ∧
    Hex.Spells final pair.2 ∧ ChannelMap.Sized pair

/-- A row of the table of revoked tokens stands for at least one byte. -/
def SpellsToken (cell : Cell) (b : Bytes) : Prop :=
  ∃ text, cell = .text text ∧ Hex.Spells text b ∧ b ≠ []

/-- A row of the table of peers stands for an identity and an address. -/
def SpellsPeer (d : Cell × Cell) (b : Bytes) (a : String) : Prop :=
  ∃ text, d = (.text text, .text a) ∧ Hex.Spells text b ∧ IsIdentity b ∧ Address.IsKept a.toList

/-- The column of an id accepts the spellings of 32 bytes. -/
theorem hex_iff {v : Value} {column : String} :
    RowCheck.hex v column (some (RowCheck.channelIdSize : Nat)) = .ok b ↔
      ∃ text, v = .text text ∧ Hex.Spells text b ∧ b.length = 32 := by
  cases v with
  | text text =>
    simp only [← Hex.decode?_iff, Value.text.injEq, exists_eq_left', RowCheck.hex]
    cases hdecode : Hex.decode? text with
    | none => simp
    | some found =>
      have hsize : (found.length : Int) = ((RowCheck.channelIdSize : Nat) : Int) ↔
          found.length = 32 := Int.ofNat_inj
      simp only [hsize, Option.some.injEq]
      constructor
      · intro h
        split at h
        · rename_i hlength
          obtain rfl := Except.ok.inj h
          exact ⟨rfl, hlength⟩
        · simp at h
      · rintro ⟨rfl, hlength⟩
        rw [if_pos hlength]
  | blob x => simp [RowCheck.hex]
  | other kind => simp [RowCheck.hex]

theorem toValue_eq_text {c : Cell} {text : String} : c.toValue = .text text ↔ c = .text text := by
  cases c <;> simp [Cell.toValue]

theorem checkPair_iff : checkPair d = .ok pair ↔ SpellsPair d pair := by
  rcases d with ⟨temporary, final⟩
  rcases pair with ⟨t, f⟩
  unfold checkPair RowCheck.channelIds
  rw [both_eq_ok_iff, hex_iff, hex_iff]
  simp only [toValue_eq_text]
  constructor
  · rintro ⟨⟨text, rfl, ht, htsize⟩, text', rfl, hf, hfsize⟩
    exact ⟨text, text', rfl, ht, hf, htsize, hfsize⟩
  · rintro ⟨text, text', hd, ht, hf, htsize, hfsize⟩
    obtain ⟨rfl, rfl⟩ := Prod.mk.inj hd
    exact ⟨⟨text, rfl, ht, htsize⟩, text', rfl, hf, hfsize⟩

theorem checkToken_iff : checkToken cell = .ok b ↔ SpellsToken cell b := by
  unfold checkToken SpellsToken
  rw [Revocations.revocationId_ok]
  simp only [toValue_eq_text]

/-- The key of a row of the table of peers. -/
theorem publicKey_toValue_iff {c : Cell} : RowCheck.publicKey c.toValue = .ok k ↔
    ∃ text b, c = .text text ∧ Hex.Spells text b ∧ IsIdentity b ∧ k = Hex.encode b := by
  cases c with
  | blob x => exact ⟨nofun, fun ⟨_, _, hc, _⟩ => absurd hc nofun⟩
  | text text =>
    refine publicKey_iff.trans ?_
    constructor
    · rintro ⟨b, hb, hspells, hk⟩
      exact ⟨text, b, rfl, hspells, hb, hk⟩
    · rintro ⟨text', b, hc, hspells, hb, hk⟩
      obtain rfl := Cell.text.inj hc
      exact ⟨b, hb, hspells, hk⟩

/-- The address of a row of the table of peers. -/
theorem socketAddress_toValue_iff {c : Cell} : RowCheck.socketAddress c.toValue = .ok a ↔
    c = .text a ∧ Address.IsKept a.toList := by
  cases c with
  | blob x => exact ⟨nofun, fun h => absurd h.1 nofun⟩
  | text text =>
    refine Address.socketAddress_iff.trans ?_
    constructor
    · rintro ⟨rfl, hkept⟩
      exact ⟨rfl, hkept⟩
    · rintro ⟨hc, hkept⟩
      obtain rfl := Cell.text.inj hc
      exact ⟨rfl, hkept⟩

/-- A row of the table of peers is read as the canonical spelling of its identity, and its
address. -/
theorem checkPeer_iff : checkPeer d = .ok (k, a) ↔ ∃ b, SpellsPeer d b a ∧ k = Hex.encode b := by
  rcases d with ⟨key, address⟩
  unfold checkPeer
  rw [both_eq_ok_iff, mapError_eq_ok_iff, mapError_eq_ok_iff, publicKey_toValue_iff,
    socketAddress_toValue_iff]
  constructor
  · rintro ⟨⟨text, b, rfl, hspells, hb, hk⟩, rfl, hkept⟩
    exact ⟨b, ⟨text, rfl, hspells, hb, hkept⟩, hk⟩
  · rintro ⟨b, ⟨text, hd, hspells, hb, hkept⟩, hk⟩
    obtain ⟨rfl, rfl⟩ := Prod.mk.inj hd
    exact ⟨⟨text, b, rfl, hspells, hb, hk⟩, rfl, hkept⟩

instance (d : Cell × Cell) : Decidable (∃ pair, SpellsPair d pair) :=
  decidable_of_iff ((checkPair d).isOk = true) <| by
    simp only [← checkPair_iff]
    cases checkPair d <;> simp [Except.isOk, Except.toBool]

instance (cell : Cell) : Decidable (∃ b, SpellsToken cell b) :=
  decidable_of_iff ((checkToken cell).isOk = true) <| by
    simp only [← checkToken_iff]
    cases checkToken cell <;> simp [Except.isOk, Except.toBool]

/-- A row of the table of channel ids stands for nothing. -/
def malformedPair (d : Cell × Cell) : Bool :=
  decide (¬ ∃ pair, SpellsPair d pair)

/-- A row of the table of revoked tokens stands for nothing. -/
def malformedToken (cell : Cell) : Bool :=
  decide (¬ ∃ b, SpellsToken cell b)

theorem malformedPair_iff (d : Cell × Cell) :
    malformedPair d = true ↔ ∃ problem, checkPair d = .error problem := by
  rw [malformedPair, decide_eq_true_eq]
  simp only [← checkPair_iff]
  cases checkPair d <;> simp

theorem malformedToken_iff (cell : Cell) :
    malformedToken cell = true ↔ ∃ problem, checkToken cell = .error problem := by
  rw [malformedToken, decide_eq_true_eq]
  simp only [← checkToken_iff]
  cases checkToken cell <;> simp

/-- What is wrong with a row of the table of peers. The key is looked at before the address. -/
inductive IsFault (d : Cell × Cell) : PeerFault → Prop where
  | key {problem : RowProblem} : RowCheck.publicKey d.1.toValue = .error problem →
    IsFault d (.storedKey problem)
  | address {text : String} {b : Bytes} {problem : RowProblem} : d.1 = .text text →
    Hex.Spells text b → IsIdentity b → RowCheck.socketAddress d.2.toValue = .error problem →
    IsFault d (.given problem)

theorem checkPeer_error_iff {fault : PeerFault} : checkPeer d = .error fault ↔ IsFault d fault := by
  unfold checkPeer
  rw [both_eq_error_iff, mapError_eq_error_iff, mapError_eq_error_iff]
  simp only [mapError_eq_ok_iff, publicKey_toValue_iff]
  constructor
  · rintro (⟨problem, hkey, rfl⟩ | ⟨⟨-, text, b, htext, hspells, hb, -⟩, problem, haddress, rfl⟩)
    · exact .key hkey
    · exact .address htext hspells hb haddress
  · intro h
    cases h with
    | key hkey => exact Or.inl ⟨_, hkey, rfl⟩
    | address htext hspells hb haddress =>
      exact Or.inr ⟨⟨_, _, _, htext, hspells, hb, rfl⟩, _, haddress, rfl⟩

/-- A row of the table of peers is well-formed or has a fault. -/
theorem isFault_or_spellsPeer (d : Cell × Cell) :
    (∃ fault, IsFault d fault) ↔ ¬ ∃ b a, SpellsPeer d b a := by
  simp only [← checkPeer_error_iff]
  cases hd : checkPeer d with
  | error fault =>
    refine ⟨fun _ => ?_, fun _ => ⟨fault, rfl⟩⟩
    rintro ⟨b, a, hspells⟩
    have hok := checkPeer_iff.2 ⟨b, hspells, rfl⟩
    rw [hd] at hok
    exact absurd hok nofun
  | ok p =>
    rcases checkPeer_iff.1 hd with ⟨b, hspells, -⟩
    exact ⟨fun ⟨_, hfault⟩ => absurd hfault nofun, fun h => absurd ⟨b, p.2, hspells⟩ h⟩

/-! ## Loads of any table -/

/-- How a row of the table of channel ids is read. -/
def readPair (d : Cell × Cell) : Option (Bytes × Bytes) :=
  (checkPair d).toOption

/-- How a row of the table of peers is read. -/
def readPeer (d : Cell × Cell) : Option (String × String) :=
  (checkPeer d).toOption

/-- What a load of channel ids logs last. -/
def loadedPairs (n : Nat) : LogLine :=
  ⟨LogLevel.debug, subsystem, s!"Loaded {n} channel ID mappings from database"⟩

/-- What a load of revoked tokens logs last. -/
def loadedTokens (n : Nat) : LogLine :=
  ⟨LogLevel.info, subsystem, s!"Loaded {n} revoked tokens from database"⟩

theorem readPair_iff : readPair d = some pair ↔ SpellsPair d pair :=
  toOption_eq_some_iff.trans checkPair_iff

theorem readPeer_iff : readPeer d = some (k, a) ↔ ∃ b, SpellsPeer d b a ∧ k = Hex.encode b :=
  toOption_eq_some_iff.trans checkPeer_iff

/-- A load of channel ids answers with what the table is read as. -/
theorem exec_loadChannelIds_eq (hworks : s.outages.transactions = none)
    (ht : s.tables.channels = some t) :
    exec loadChannelIds s = (.ok (Table.readMap readPair t.rows), { s with
      log := s.log ++ (problems checkPair t.rows).map warning ++
        [loadedPairs (Table.readMap readPair t.rows).length] }) := by
  unfold loadChannelIds
  rw [exec_bind, exec_transaction]
  simp only [hworks, ht, present_some, ok_bind, pure, Except.pure]
  rw [keepChannelIds_eq, exec_bind_of_ok (exec_keepRows checkPair t.rows s)]
  unfold log
  rw [exec_modify_bind]
  rfl

/-- A load of revoked tokens answers with the bytes of the well-formed rows, each once. -/
theorem exec_loadRevoked_log (hworks : s.outages.transactions = none)
    (hu : s.tables.revoked = some u) :
    exec loadRevoked s = (.ok (kept checkToken u.rows).eraseDups, { s with
      log := s.log ++ (problems checkToken u.rows).map warning ++
        [loadedTokens (kept checkToken u.rows).eraseDups.length] }) := by
  unfold loadRevoked
  rw [exec_bind, exec_transaction]
  simp only [hworks, hu, present_some, ok_bind, pure, Except.pure]
  rw [keepRevoked_eq, exec_bind_of_ok (exec_keepRows checkToken u.rows s)]
  unfold log
  rw [exec_modify_bind]
  rfl

theorem exec_loadPeers_of_error {fault : PeerFault} (hworks : s.outages.transactions = none)
    (ht : s.tables.peers = some t)
    (hmap : t.rows.mapM (fun r => checkPeer r.data) = .error fault) :
    exec loadPeers s = (.error (.invalidPeer fault), s) := by
  unfold loadPeers
  rw [exec_bind, exec_transaction]
  simp only [hworks, ht, present_some, ok_bind, pure, Except.pure]
  exact exec_bind_of_error (by rw [exec_liftExcept, hmap, mapError_error])

/-- Rows are read if all of them are well-formed. -/
theorem mapM_checkPeer_ok {peers : List (String × String)}
    (hmap : t.rows.mapM (fun r => checkPeer r.data) = .ok peers) :
    (∀ r ∈ t.rows, ∃ b a, SpellsPeer r.data b a) ∧
      Assoc.ofList peers = Table.readMap readPeer t.rows := by
  constructor
  · intro r hr
    rcases exists_of_mapM hmap hr with ⟨⟨k, a⟩, hread⟩
    rcases checkPeer_iff.1 hread with ⟨b, hspells, -⟩
    exact ⟨b, a, hspells⟩
  · rw [← filterMap_of_mapM hmap]
    rfl

/-- Rows are refused because of the first malformed one. -/
theorem mapM_checkPeer_error_iff {fault : PeerFault} (horder : t.InOrder) :
    t.rows.mapM (fun r => checkPeer r.data) = .error fault ↔
      ∃ r ∈ t.rows, IsFault r.data fault ∧
        ∀ earlier ∈ t.rows, earlier.id < r.id → ∃ b a, SpellsPeer earlier.data b a := by
  have hwell : ∀ d, (∃ p, checkPeer d = .ok p) ↔ ∃ b a, SpellsPeer d b a := by
    intro d
    constructor
    · rintro ⟨⟨k, a⟩, hread⟩
      rcases checkPeer_iff.1 hread with ⟨b, hspells, -⟩
      exact ⟨b, a, hspells⟩
    · rintro ⟨b, a, hspells⟩
      exact ⟨_, checkPeer_iff.2 ⟨b, hspells, rfl⟩⟩
  rw [mapM_eq_error_iff]
  -- the rows that are read before the fault are those with smaller ids
  simp only [hwell, checkPeer_error_iff]
  constructor
  · rintro ⟨before, r, after, hrows, hbefore, hfault⟩
    refine ⟨r, ?_, hfault, ?_⟩
    · rw [hrows]
      exact List.mem_append_right _ List.mem_cons_self
    · intro earlier hearlier hlt
      exact hbefore earlier ((Table.mem_before_iff horder hrows).2 ⟨hearlier, hlt⟩)
  · rintro ⟨r, hr, hfault, hearlier⟩
    rcases List.append_of_mem hr with ⟨before, after, hrows⟩
    refine ⟨before, r, after, hrows, ?_, hfault⟩
    intro earlier hbefore
    rcases (Table.mem_before_iff horder hrows).1 hbefore with ⟨hmem, hlt⟩
    exact hearlier earlier hmem hlt

/-- A load of peers that succeeds has read every row, and answers with what the table is read
as. -/
theorem peers_of_load {peers : List (String × String)} (hworks : s.outages.transactions = none)
    (ht : s.tables.peers = some t) (h : exec loadPeers s = (.ok peers, s')) :
    (∀ r ∈ t.rows, ∃ b a, SpellsPeer r.data b a) ∧ peers = Table.readMap readPeer t.rows := by
  cases hmap : t.rows.mapM (fun r => checkPeer r.data) with
  | error fault =>
    rw [exec_loadPeers_of_error hworks ht hmap] at h
    exact absurd (congrArg Prod.fst h) nofun
  | ok pairs =>
    rcases exec_loadPeers hworks ht hmap with ⟨log, hload⟩
    rw [hload] at h
    obtain rfl := Except.ok.inj (congrArg Prod.fst h)
    exact mapM_checkPeer_ok hmap

/-- Peers that are loaded have the canonical spelling of an identity, and an address that the check
keeps. -/
theorem of_mem_loaded {peers : List (String × String)} (hworks : s.outages.transactions = none)
    (ht : s.tables.peers = some t) (h : exec loadPeers s = (.ok peers, s'))
    {p : String × String} (hp : p ∈ peers) :
    (∃ b, p.1 = Hex.encode b) ∧ Address.IsKept p.2.toList := by
  rw [(peers_of_load hworks ht h).2] at hp
  rcases List.mem_filterMap.1 (Assoc.mem_of_mem_ofList hp) with ⟨r, -, hread⟩
  rcases readPeer_iff.1 hread with ⟨b, ⟨text, -, -, -, hkept⟩, hkey⟩
  exact ⟨⟨b, hkey⟩, hkept⟩

/-- Well-formed rows are loaded. -/
theorem exec_loadPeers_of_wellFormed (hworks : s.outages.transactions = none)
    (ht : s.tables.peers = some t) (hrows : ∀ r ∈ t.rows, ∃ b a, SpellsPeer r.data b a) :
    ∃ log, exec loadPeers s = (.ok (Table.readMap readPeer t.rows), { s with log }) := by
  cases hmap : t.rows.mapM (fun r => checkPeer r.data) with
  | error fault =>
    rcases mapM_eq_error_iff.1 hmap with ⟨before, r, after, hsplit, -, hr⟩
    have hmem : r ∈ t.rows := by
      rw [hsplit]
      exact List.mem_append_right _ List.mem_cons_self
    -- the row at which the reading stops is malformed
    exact absurd (hrows r hmem) ((isFault_or_spellsPeer _).1 ⟨fault, checkPeer_error_iff.1 hr⟩)
  | ok pairs =>
    rw [← (mapM_checkPeer_ok hmap).2]
    exact exec_loadPeers hworks ht hmap

/-- A load of peers is refused because of the first malformed row. -/
theorem exec_loadPeers_error_iff {e : Failure} (hworks : s.outages.transactions = none)
    (ht : s.tables.peers = some t) (horder : t.InOrder) :
    exec loadPeers s = (.error e, s') ↔ s' = s ∧ ∃ r ∈ t.rows, ∃ fault, e = .invalidPeer fault ∧
      IsFault r.data fault ∧
      ∀ earlier ∈ t.rows, earlier.id < r.id → ∃ b a, SpellsPeer earlier.data b a := by
  constructor
  · intro h
    cases hmap : t.rows.mapM (fun r => checkPeer r.data) with
    | ok pairs =>
      rcases exec_loadPeers hworks ht hmap with ⟨log, hload⟩
      rw [hload] at h
      exact absurd (congrArg Prod.fst h) nofun
    | error fault =>
      rw [exec_loadPeers_of_error hworks ht hmap] at h
      obtain ⟨he, rfl⟩ := Prod.mk.inj h
      rcases (mapM_checkPeer_error_iff horder).1 hmap with ⟨r, hr, hfault, hearlier⟩
      exact ⟨rfl, r, hr, fault, (Except.error.inj he).symm, hfault, hearlier⟩
  · rintro ⟨rfl, r, hr, fault, rfl, hfault, hearlier⟩
    exact exec_loadPeers_of_error hworks ht
      ((mapM_checkPeer_error_iff horder).2 ⟨r, hr, hfault, hearlier⟩)

/-! ## What malformed rows do -/

/-- The store with a table of channel ids. -/
def withChannels (t : Table (Cell × Cell)) (s : StoreState) : StoreState :=
  { s with tables := { s.tables with channels := some t } }

/-- The store with a table of revoked tokens. -/
def withRevoked (u : Table Cell) (s : StoreState) : StoreState :=
  { s with tables := { s.tables with revoked := some u } }

section PassesOver

variable {α β γ : Type} {load : StoreM (List γ)} {put : Table α → StoreState → StoreState}
  {check : α → RowCheck β} {malformed : α → Bool} {tells : Nat → LogLine} {rows : Table α}

/-- A load of rows answers as if the malformed ones were removed. It logs one warning for each of
them, in the order of the rows, and then the number of its entries. -/
def PassesOver (load : StoreM (List γ)) (put : Table α → StoreState → StoreState)
    (check : α → RowCheck β) (malformed : α → Bool) (tells : Nat → LogLine) (rows : Table α)
    (s : StoreState) (loaded : List γ) : Prop :=
  (∃ found, List.Forall₂ (fun r problem => check r.data = .error problem)
      (rows.rows.filter fun r => malformed r.data) found ∧
    exec load s = (.ok loaded, { s with
      log := s.log ++ found.map warning ++ [tells loaded.length] })) ∧
  (exec load (put (rows.deleteWhere malformed) s)).1 = .ok loaded

/-- A load that answers what it makes of the rows that are kept passes over the others. -/
theorem passesOver {answer : List β → List γ}
    (hmalformed : ∀ d, malformed d = true ↔ ∃ problem, check d = .error problem)
    (hput : put rows s = s)
    (hload : ∀ rows', exec load (put rows' s) = (.ok (answer (kept check rows'.rows)),
      { put rows' s with log := (put rows' s).log ++ (problems check rows'.rows).map warning ++
        [tells (answer (kept check rows'.rows)).length] })) :
    PassesOver load put check malformed tells rows s (answer (kept check rows.rows)) := by
  refine ⟨⟨problems check rows.rows, forall₂_problems hmalformed rows.rows, ?_⟩, ?_⟩
  · have hself := hload rows
    rwa [hput] at hself
  · rw [hload, kept_deleteWhere hmalformed]

end PassesOver

/-- The last row that spells a temporary id decides. -/
theorem loadChannelIds_passesOver (hworks : s.outages.transactions = none)
    (ht : s.tables.channels = some t) (horder : t.InOrder) :
    ∃ loaded,
      PassesOver loadChannelIds withChannels checkPair malformedPair loadedPairs t s loaded ∧
      (loaded.map Prod.fst).Nodup ∧
      ∀ temporary final, (temporary, final) ∈ loaded ↔
        ∃ r ∈ t.rows, SpellsPair r.data (temporary, final) ∧
          ∀ later ∈ t.rows, r.id < later.id →
            ∀ other, ¬ SpellsPair later.data (temporary, other) := by
  have hnodup : ((Table.readMap readPair t.rows).map Prod.fst).Nodup := Assoc.nodup_ofList _
  have hput : withChannels t s = s := by rw [withChannels, ← ht]
  refine ⟨Table.readMap readPair t.rows, ?_, hnodup, ?_⟩
  · exact passesOver malformedPair_iff hput fun rows' => exec_loadChannelIds_eq hworks rfl
  · intro temporary final
    rw [Assoc.mem_iff_lookup hnodup, Table.lookup_readMap horder]
    simp only [Table.Reads, ne_eq, readPair_iff]

/-- Any row that spells bytes revokes them. -/
theorem loadRevoked_passesOver (hworks : s.outages.transactions = none)
    (hu : s.tables.revoked = some u) :
    ∃ loaded, PassesOver loadRevoked withRevoked checkToken malformedToken loadedTokens u s loaded ∧
      loaded.Nodup ∧ ∀ b, b ∈ loaded ↔ ∃ r ∈ u.rows, SpellsToken r.data b := by
  have hput : withRevoked u s = s := by rw [withRevoked, ← hu]
  refine ⟨(kept checkToken u.rows).eraseDups, ?_, Assoc.nodup_eraseDups _, ?_⟩
  · exact passesOver malformedToken_iff hput fun rows' => exec_loadRevoked_log hworks rfl
  · intro b
    rw [List.mem_eraseDups, kept, List.mem_filterMap]
    simp only [toOption_eq_some_iff, checkToken_iff]

/-- A load of peers fails exactly if some row is malformed. -/
theorem loadPeers_fails_iff (hworks : s.outages.transactions = none)
    (ht : s.tables.peers = some t) :
    (∃ e s', exec loadPeers s = (.error e, s')) ↔
      ∃ r ∈ t.rows, ¬ ∃ b a, SpellsPeer r.data b a := by
  constructor
  · rintro ⟨e, s', h⟩
    by_contra hnone
    have hrows : ∀ r ∈ t.rows, ∃ b a, SpellsPeer r.data b a := by
      intro r hr
      by_contra hmalformed
      exact hnone ⟨r, hr, hmalformed⟩
    rcases exec_loadPeers_of_wellFormed hworks ht hrows with ⟨log, hload⟩
    rw [hload] at h
    exact absurd (congrArg Prod.fst h) nofun
  · rintro ⟨r, hr, hmalformed⟩
    rcases hload : exec loadPeers s with ⟨answer, s'⟩
    cases answer with
    | error e => exact ⟨e, s', rfl⟩
    | ok peers => exact absurd ((peers_of_load hworks ht hload).1 r hr) hmalformed

/-- Whatever the rows of the tables are:

* the loads of channel ids and of revoked tokens answer, and pass over the malformed rows. A
  temporary id has the final one of the last row that spells it, and a token is revoked if a row
  spells its bytes;
* the load of peers fails exactly if some row is malformed. What it tells is what is wrong with the
  first malformed row, where the key is looked at before the address. It changes nothing then. -/
theorem loads_beside_malformed_rows {ids peers : Table (Cell × Cell)} {tokens : Table Cell}
    (hworks : s.outages.transactions = none) (hids : s.tables.channels = some ids)
    (htokens : s.tables.revoked = some tokens) (hpeers : s.tables.peers = some peers)
    (hidsOrder : ids.InOrder) (hpeersOrder : peers.InOrder) :
    (∃ loaded,
      PassesOver loadChannelIds withChannels checkPair malformedPair loadedPairs ids s loaded ∧
      (loaded.map Prod.fst).Nodup ∧
      ∀ temporary final, (temporary, final) ∈ loaded ↔
        ∃ r ∈ ids.rows, SpellsPair r.data (temporary, final) ∧ ∀ later ∈ ids.rows,
          r.id < later.id → ∀ other, ¬ SpellsPair later.data (temporary, other)) ∧
    (∃ loaded,
      PassesOver loadRevoked withRevoked checkToken malformedToken loadedTokens tokens s loaded ∧
      loaded.Nodup ∧ ∀ b, b ∈ loaded ↔ ∃ r ∈ tokens.rows, SpellsToken r.data b) ∧
    ((∃ e s', exec loadPeers s = (.error e, s')) ↔
      ∃ r ∈ peers.rows, ¬ ∃ b a, SpellsPeer r.data b a) ∧
    (∀ e s', exec loadPeers s = (.error e, s') ↔ s' = s ∧ ∃ r ∈ peers.rows, ∃ fault,
      e = .invalidPeer fault ∧ IsFault r.data fault ∧
        ∀ earlier ∈ peers.rows, earlier.id < r.id → ∃ b a, SpellsPeer earlier.data b a) := by
  refine ⟨loadChannelIds_passesOver hworks hids hidsOrder, loadRevoked_passesOver hworks htokens,
    loadPeers_fails_iff hworks hpeers, ?_⟩
  intro e s'
  exact exec_loadPeers_error_iff hworks hpeers hpeersOrder

/-- A temporary id with a final one, the same id spelled otherwise with another final one, and rows
with bytes, with a number that is no hex, and with ids that are too short. -/
def mixedPairs : Table (Cell × Cell) where
  rows := [⟨1, cellsOf (List.replicate 32 1, List.replicate 32 10)⟩,
    ⟨2, (.blob [0xab], .text "ab")⟩,
    ⟨4, (.text ("0x" ++ Hex.encode (List.replicate 32 1)),
      .text (Hex.encode (List.replicate 32 11)))⟩,
    ⟨5, (.text (Hex.encode (List.replicate 32 1)), .text "zz")⟩,
    ⟨9, (.text "0101", .text "0b0b")⟩]

/-- Tokens of which two are the same, bytes, and a token without bytes. -/
def mixedTokens : Table Cell where
  rows := [⟨1, .text "AB cd"⟩, ⟨2, .blob [1]⟩, ⟨3, .text "0xabcd"⟩, ⟨5, .text "0x"⟩]

/-- A peer, a row whose key is bytes and whose address has no port, and one with a port too high. -/
def mixedPeers : Table (Cell × Cell) where
  rows := [⟨1, (.text ("02" ++ Hex.encode (List.replicate 32 0xab)), .text "10.0.0.1:9735")⟩,
    ⟨2, (.blob [2], .text "10.0.0.1")⟩,
    ⟨3, (.text ("03" ++ Hex.encode (List.replicate 32 0xab)), .text "10.0.0.1:65536")⟩]

/-- A store with these tables. -/
def mixedStore : StoreState where
  tables := { channels := some mixedPairs, revoked := some mixedTokens, peers := some mixedPeers }

/-- Three malformed rows among pairs and two among tokens are passed over, and a malformed peer is
reported by its key. -/
theorem mixed_rows_are_loaded :
    mixedStore.outages.transactions = none ∧ mixedStore.tables.channels = some mixedPairs ∧
    mixedStore.tables.revoked = some mixedTokens ∧ mixedStore.tables.peers = some mixedPeers ∧
    mixedPairs.InOrder ∧ mixedPeers.InOrder ∧
    (∃ loaded found s', exec loadChannelIds mixedStore = (.ok loaded, s') ∧
      s'.log = found.map warning ++ [loadedPairs loaded.length] ∧
      (found : List RowProblem).length = 3 ∧
      (List.replicate 32 1, List.replicate 32 11) ∈ loaded ∧
      (List.replicate 32 1, List.replicate 32 10) ∉ loaded) ∧
    (∃ loaded found s', exec loadRevoked mixedStore = (.ok loaded, s') ∧
      s'.log = found.map warning ++ [loadedTokens loaded.length] ∧
      (found : List RowProblem).length = 2 ∧ [0xab, 0xcd] ∈ loaded) ∧
    exec loadPeers mixedStore =
      (.error (.invalidPeer (.storedKey (.notText "public_key" "bytes"))), mixedStore) := by
  have hids : mixedPairs.InOrder := by decide
  have hpeers : mixedPeers.InOrder := by decide
  obtain ⟨⟨pairs, ⟨⟨pairProblems, hpairProblems, hloadPairs⟩, -⟩, hnodup, hpairs⟩,
    ⟨tokens, ⟨⟨tokenProblems, htokenProblems, hloadTokens⟩, -⟩, -, htokens⟩, -, hfails⟩ :=
    loads_beside_malformed_rows (s := mixedStore) rfl rfl rfl rfl hids hpeers
  have hlast : (List.replicate 32 1, List.replicate 32 11) ∈ pairs := by
    have hmalformed : ∀ r ∈ mixedPairs.rows, 4 < r.id → malformedPair r.data = true := by
      decide +kernel
    refine (hpairs _ _).2
      ⟨_, List.mem_of_getElem? (i := 2) rfl, checkPair_iff.1 (by decide +kernel), ?_⟩
    intro later hlater hlt other hspells
    exact of_decide_eq_true (hmalformed later hlater hlt) ⟨_, hspells⟩
  refine ⟨rfl, rfl, rfl, rfl, hids, hpeers,
    ⟨pairs, pairProblems, _, hloadPairs, rfl, ?_, hlast, ?_⟩,
    ⟨tokens, tokenProblems, _, hloadTokens, rfl, ?_, ?_⟩, ?_⟩
  · rw [← hpairProblems.length_eq]
    decide +kernel
  · intro hfirst
    have hboth := (Assoc.mem_iff_lookup hnodup).1 hfirst
    rw [(Assoc.mem_iff_lookup hnodup).1 hlast] at hboth
    exact absurd hboth (by decide)
  · rw [← htokenProblems.length_eq]
    decide +kernel
  · have hspells : Hex.Spells "AB cd" [0xab, 0xcd] := Hex.decode?_iff.1 (by decide +kernel)
    exact (htokens _).2 ⟨_, List.mem_cons_self, "AB cd", rfl, hspells, nofun⟩
  · refine (hfails _ _).2 ⟨rfl, _, List.mem_of_getElem? (i := 1) rfl, _, rfl, .key rfl, ?_⟩
    intro earlier hearlier hlt
    have hfirst : ∀ r ∈ mixedPeers.rows, r.id < 2 → (checkPeer r.data).isOk = true := by
      decide +kernel
    have hok := hfirst earlier hearlier hlt
    cases hread : checkPeer earlier.data with
    | error fault => simp [hread, Except.isOk, Except.toBool] at hok
    | ok peer =>
      rcases checkPeer_iff.1 hread with ⟨b, hspells, -⟩
      exact ⟨b, peer.2, hspells⟩

end NodeStore.Store
