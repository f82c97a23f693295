import NodeStore.Proofs.Store.ChannelIdMap
import NodeStore.Proofs.Store.MalformedRows

/-! # Rows in other spellings

Loads go by the bytes that a row spells; saves and deletions look for the spelling of the store. A
row that another program wrote in another spelling is therefore loaded, and passed over by saves
and deletions. What these calls do to what is loaded depends on such rows (`Respells`), and on
nothing else in the table.

* `found_iff`, `left_iff`: which peers are loaded before and after a deletion;
* `resolves_iff`: which final ids are loaded after a deletion;
* `edits_beside_respelled_rows`: deletions and saves, and the loads after them. -/

namespace NodeStore.Store

open Op
open Hex (spells_encode)

variable {s s' : StoreState} {t : Table (Cell × Cell)} {c c' : Cell} {b : Bytes} {a k : String}
  {key address : Value} {temporary final : Bytes} {peers : List (String × String)}

/-! ## Spellings -/

/-- The column spells bytes in another way than the store does. -/
def Respells (c : Cell) (b : Bytes) : Prop :=
  c ≠ .text (Hex.encode b) ∧ ∃ text, c = .text text ∧ Hex.Spells text b

instance (c : Cell) (b : Bytes) : Decidable (Respells c b) :=
  match c with
  | .text text =>
    decidable_of_iff (Cell.text text ≠ .text (Hex.encode b) ∧ Hex.decode? text = some b) <| by
      simp [Respells, Hex.decode?_iff]
  | .blob _ => isFalse fun ⟨_, _, h, _⟩ => Cell.noConfusion h

/-- The spelling of the store is read as the identity. -/
theorem key_of_readPeer (h : readPeer (.text (Hex.encode b), c) = some (k, a)) :
    k = Hex.encode b := by
  rcases readPeer_iff.1 h with ⟨b', ⟨text, hd, hspells, -, -⟩, hk⟩
  obtain rfl := Cell.text.inj (congrArg Prod.fst hd)
  rwa [Revocations.spells_unique (spells_encode b) hspells] at hk

theorem key_of_readPair {t f : Bytes} (h : readPair (.text (Hex.encode b), c) = some (t, f)) :
    t = b := by
  rcases readPair_iff.1 h with ⟨text, text', hd, hspells, -, -⟩
  obtain rfl := Cell.text.inj (congrArg Prod.fst hd)
  exact Revocations.spells_unique (spells_encode b) hspells

/-- A well-formed row is read as an identity if its key is the spelling of the store or another
one. -/
theorem readPeer_key_iff {d : Cell × Cell} (hd : ∃ b a, SpellsPeer d b a) :
    (∃ a, readPeer d = some (Hex.encode b, a)) ↔
      d.1 = .text (Hex.encode b) ∨ Respells d.1 b := by
  constructor
  · rintro ⟨a, hread⟩
    rcases readPeer_iff.1 hread with ⟨b', ⟨text, rfl, hspells, -, -⟩, hb⟩
    obtain rfl := Hex.encode_injective hb
    by_cases hsame : Cell.text text = .text (Hex.encode b)
    · exact Or.inl hsame
    · exact Or.inr ⟨hsame, text, rfl, hspells⟩
  · intro hkey
    rcases hd with ⟨b', a, hspells⟩
    have hsame : b' = b := by
      rcases hspells with ⟨text, rfl, hspells', -, -⟩
      rcases hkey with htext | ⟨-, text', htext, hspells''⟩
      · obtain rfl := Cell.text.inj htext
        exact Revocations.spells_unique (spells_encode b) hspells'
      · obtain rfl := Cell.text.inj htext
        exact Revocations.spells_unique hspells'' hspells'
    exact ⟨a, readPeer_iff.2 ⟨b', hspells, by rw [hsame]⟩⟩

/-! ## Peers -/

/-- The table without the row of an identity. -/
def withoutPeer (b : Bytes) (t : Table (Cell × Cell)) : Table (Cell × Cell) :=
  t.deleteWhere fun d => d.1 == .text (Hex.encode b)

/-- An identity is loaded if a row has it in the spelling of the store or in another one. -/
theorem found_iff (hrows : ∀ r ∈ t.rows, ∃ b a, SpellsPeer r.data b a) :
    (Table.readMap readPeer t.rows).lookup (Hex.encode b) ≠ none ↔
      Cell.text (Hex.encode b) ∈ t.keys ∨ ∃ r ∈ t.rows, Respells r.data.1 b := by
  rw [Table.lookup_readMap_ne_none, Table.mem_keys]
  constructor
  · rintro ⟨r, hr, hread⟩
    rcases (readPeer_key_iff (hrows r hr)).1 hread with hkey | hkey
    · exact Or.inl ⟨r, hr, hkey⟩
    · exact Or.inr ⟨r, hr, hkey⟩
  · rintro (⟨r, hr, hkey⟩ | ⟨r, hr, hkey⟩)
    · exact ⟨r, hr, (readPeer_key_iff (hrows r hr)).2 (Or.inl hkey)⟩
    · exact ⟨r, hr, (readPeer_key_iff (hrows r hr)).2 (Or.inr hkey)⟩

/-- An identity is loaded after its deletion if a row has it in another spelling. -/
theorem left_iff (hrows : ∀ r ∈ t.rows, ∃ b a, SpellsPeer r.data b a) :
    (Table.readMap readPeer (withoutPeer b t).rows).lookup (Hex.encode b) ≠ none ↔
      ∃ r ∈ t.rows, Respells r.data.1 b := by
  have hmem : ∀ {r}, r ∈ (withoutPeer b t).rows ↔ r ∈ t.rows ∧ r.data.1 ≠ .text (Hex.encode b) :=
    mem_deleteWhere
  have hrows' : ∀ r ∈ (withoutPeer b t).rows, ∃ b a, SpellsPeer r.data b a := fun r hr =>
    hrows r (hmem.1 hr).1
  rw [found_iff hrows', Table.mem_keys]
  constructor
  · rintro (⟨r, hr, hkey⟩ | ⟨r, hr, hkey⟩)
    · exact absurd hkey (hmem.1 hr).2
    · exact ⟨r, (hmem.1 hr).1, hkey⟩
  · rintro ⟨r, hr, hkey⟩
    exact Or.inr ⟨r, hmem.2 ⟨hr, hkey.1⟩, hkey⟩

/-- A deletion leaves alone what is loaded for other identities. -/
theorem left_of_ne (horder : t.InOrder) (hk : k ≠ Hex.encode b) :
    (Table.readMap readPeer (withoutPeer b t).rows).lookup k =
      (Table.readMap readPeer t.rows).lookup k := by
  refine Table.lookup_readMap_congr horder (Table.inOrder_deleteWhere horder _) fun v => ?_
  refine Table.reads_deleteWhere ?_
  rintro ⟨c, c'⟩ v' hdeleted hread
  obtain rfl : c = .text (Hex.encode b) := by simpa using hdeleted
  exact hk (key_of_readPeer hread)

/-- A deletion of a peer, and a load after it. -/
theorem load_after_deletePeer (hworks : s.outages.transactions = none)
    (ht : s.tables.peers = some t) (horder : t.InOrder)
    (hload : exec loadPeers s = (.ok peers, s')) (hname : Names key b) :
    ∃ found left s₁ s₂, exec (deletePeer key) s = (.ok found, s₁) ∧
      exec loadPeers s₁ = (.ok left, s₂) ∧
      (found = true ↔ Cell.text (Hex.encode b) ∈ t.keys) ∧
      (peers.lookup (Hex.encode b) ≠ none ↔
        found = true ∨ ∃ r ∈ t.rows, Respells r.data.1 b) ∧
      (left.lookup (Hex.encode b) ≠ none ↔ ∃ r ∈ t.rows, Respells r.data.1 b) ∧
      ∀ k, k ≠ Hex.encode b → left.lookup k = peers.lookup k := by
  rcases peers_of_load hworks ht hload with ⟨hrows, rfl⟩
  rcases exec_deletePeer hworks ht hname with ⟨log, hdelete⟩
  -- the rows that are left were read before, so that they can be read again
  have hleft : ∀ r ∈ (withoutPeer b t).rows, ∃ b a, SpellsPeer r.data b a := fun r hr =>
    hrows r (mem_deleteWhere.1 hr).1
  rcases exec_loadPeers_of_wellFormed (s := { s with
    tables := { s.tables with peers := some (withoutPeer b t) }, log }) hworks rfl hleft with
    ⟨log', hload'⟩
  refine ⟨_, _, _, _, hdelete, hload', decide_eq_true_iff, ?_, left_iff hrows,
    fun k hk => left_of_ne horder hk⟩
  rw [found_iff hrows, decide_eq_true_iff]

/-- A save of a peer, and a load after it. -/
theorem load_after_savePeer (hworks : s.outages.transactions = none)
    (ht : s.tables.peers = some t) (horder : t.InOrder)
    (hload : exec loadPeers s = (.ok peers, s')) (hname : Names key b)
    (haddress : RowCheck.socketAddress address = .ok a) :
    ∃ now s₁ s₂, exec (savePeer key address) s = (.ok (), s₁) ∧
      exec loadPeers s₁ = (.ok now, s₂) ∧
      (t.Overtaken readPeer (.text (Hex.encode b)) (Hex.encode b) →
        now.lookup (Hex.encode b) = peers.lookup (Hex.encode b)) ∧
      (¬ t.Overtaken readPeer (.text (Hex.encode b)) (Hex.encode b) →
        now.lookup (Hex.encode b) = some a) ∧
      ∀ k, k ≠ Hex.encode b → now.lookup k = peers.lookup k := by
  rcases peers_of_load hworks ht hload with ⟨hrows, rfl⟩
  rcases exec_savePeer hworks ht ⟨hname, haddress⟩ with ⟨log, hsave⟩
  obtain rfl := eq_of_socketAddress haddress
  have hnew : SpellsPeer (.text (Hex.encode b), .text a) b a :=
    ⟨_, rfl, spells_encode b, hname.isIdentity, (Address.socketAddress_iff.1 haddress).2⟩
  -- no save makes a row malformed
  have hnow : ∀ r ∈ (t.upsert (.text (Hex.encode b)) (.text a)).rows,
      ∃ b a, SpellsPeer r.data b a := by
    intro r hr
    rcases Table.mem_upsert.1 ⟨r, hr, rfl⟩ with hdata | ⟨-, r', hr', hdata⟩
    · exact ⟨b, a, hdata ▸ hnew⟩
    · exact hdata ▸ hrows r' hr'
  rcases exec_loadPeers_of_wellFormed (s := { s with
    tables := { s.tables with peers := some (t.upsert (.text (Hex.encode b)) (.text a)) }, log })
    hworks rfl hnow with ⟨log', hload'⟩
  rcases Table.lookup_upsert_self horder (readPeer_iff.2 ⟨b, hnew, rfl⟩) with
    ⟨hovertaken, hreached⟩
  refine ⟨_, _, _, hsave, hload', hovertaken, hreached, ?_⟩
  intro k hk
  exact Table.lookup_upsert_ne horder (fun _ _ _ => key_of_readPeer) hk

/-! ## Channel ids -/

/-- A final id is loaded after its deletion if a row has it in another spelling, and the last such
row is not hidden by a later row of its temporary id that is left. -/
theorem resolves_iff (horder : t.InOrder) :
    (∃ temporary, (Table.readMap readPair (t.deleteWhere (ChannelIds.resolvesTo final)).rows).lookup
        temporary = some final) ↔
      ∃ r ∈ t.rows, Respells r.data.2 final ∧ ∃ temporary, SpellsPair r.data (temporary, final) ∧
        ∀ later ∈ t.rows, r.id < later.id → ∀ other, SpellsPair later.data (temporary, other) →
          later.data.2 = .text (Hex.encode final) := by
  have hmem : ∀ {r}, r ∈ (t.deleteWhere (ChannelIds.resolvesTo final)).rows ↔
      r ∈ t.rows ∧ r.data.2 ≠ .text (Hex.encode final) := by
    intro r
    rw [Table.mem_deleteWhere, ChannelIds.resolvesTo, beq_eq_false_iff_ne]
  simp only [Table.lookup_readMap (Table.inOrder_deleteWhere horder _), Table.Reads, ne_eq,
    readPair_iff, hmem]
  constructor
  · rintro ⟨temporary, r, ⟨hr, hne⟩, hspells, hlater⟩
    have hrespells : Respells r.data.2 final := by
      rcases hspells with ⟨text, text', hd, -, hfinal, -⟩
      exact ⟨hne, text', congrArg Prod.snd hd, hfinal⟩
    refine ⟨r, hr, hrespells, temporary, hspells, ?_⟩
    intro later hmemLater hlt other hother
    -- a row with another column would be left, and would hide this one
    by_contra hkept
    exact hlater later ⟨hmemLater, hkept⟩ hlt other hother
  · rintro ⟨r, hr, hrespells, temporary, hspells, hlater⟩
    refine ⟨temporary, r, ⟨hr, hrespells.1⟩, hspells, ?_⟩
    rintro later ⟨hmemLater, hkept⟩ hlt other hother
    exact hkept (hlater later hmemLater hlt other hother)

/-- A deletion of a final id, and a load after it. -/
theorem load_after_deleteChannelIds (hworks : s.outages.transactions = none)
    (ht : s.tables.channels = some t) (horder : t.InOrder) (hsize : final.length = 32) :
    ∃ count left s₁ s₂, exec (deleteChannelIds final) s = (.ok count, s₁) ∧
      exec loadChannelIds s₁ = (.ok left, s₂) ∧
      ((∃ temporary, left.lookup temporary = some final) ↔
        ∃ r ∈ t.rows, Respells r.data.2 final ∧ ∃ temporary, SpellsPair r.data (temporary, final) ∧
          ∀ later ∈ t.rows, r.id < later.id → ∀ other, SpellsPair later.data (temporary, other) →
            later.data.2 = .text (Hex.encode final)) := by
  rcases ChannelIds.exec_deleteChannelIds hsize hworks ht with ⟨log, hdelete⟩
  have hload := exec_loadChannelIds_eq (s := { s with tables := { s.tables with
    channels := some (t.deleteWhere (ChannelIds.resolvesTo final)) }, log }) hworks rfl
  exact ⟨_, _, _, _, hdelete, hload, resolves_iff horder⟩

/-- A save of two ids, and loads before and after it. -/
theorem load_after_saveChannelId (hworks : s.outages = {}) (ht : s.tables.channels = some t)
    (horder : t.InOrder) (hsized : ChannelMap.Sized (temporary, final)) :
    ∃ ids now s₁ s₂ s₃, exec loadChannelIds s = (.ok ids, s₁) ∧
      exec (saveChannelId temporary final) s = (.ok (), s₂) ∧
      exec loadChannelIds s₂ = (.ok now, s₃) ∧
      (t.Overtaken readPair (.text (Hex.encode temporary)) temporary →
        now.lookup temporary = ids.lookup temporary) ∧
      (¬ t.Overtaken readPair (.text (Hex.encode temporary)) temporary →
        now.lookup temporary = some final) ∧
      ∀ other, other ≠ temporary → now.lookup other = ids.lookup other := by
  have hgoes : ¬ Stops s.outages := by
    rw [hworks]
    unfold Stops
    decide
  have htransactions : s.outages.transactions = none := by rw [hworks]
  rcases exec_saveChannelId hsized ht hgoes with ⟨log, hsave⟩
  have hload := exec_loadChannelIds_eq (s := { s with
    tables := { s.tables with
      channels := some (t.upsert (cellsOf (temporary, final)).1 (cellsOf (temporary, final)).2) }
    outages := afterSave s.outages
    log }) htransactions rfl
  have hnew : readPair (cellsOf (temporary, final)) = some (temporary, final) :=
    toOption_eq_some_iff.2 (checkChannelIds_cellsOf hsized)
  rcases Table.lookup_upsert_self horder hnew with ⟨hovertaken, hreached⟩
  refine ⟨_, _, _, _, _, exec_loadChannelIds_eq htransactions ht, hsave, hload, hovertaken,
    hreached, ?_⟩
  intro other hother
  exact Table.lookup_upsert_ne horder (fun _ _ _ => key_of_readPair) hother

/-! ## Edits -/

/-- In a store that works, whose peers can be loaded, and for every identity and all ids:

* a deletion of a peer answers whether a row has it in the spelling of the store. The peer was
  loaded before if a row has it in that spelling or in another one, and is still loaded afterwards
  if a row has it in another one;
* after a save of a peer its new address is loaded, unless a row with another spelling of it comes
  after the row with the spelling of the store; then the save changes nothing that is loaded;
* after a deletion of a final id a temporary one is still loaded with it exactly if a row has the
  final id in another spelling, and only rows that were deleted hid that row;
* a save of ids is like that of a peer.

Whatever else is loaded stays as it is when a peer is saved or deleted, or ids are saved. -/
theorem edits_beside_respelled_rows {u : Table (Cell × Cell)} (hworks : s.outages = {})
    (ht : s.tables.peers = some t) (hu : s.tables.channels = some u) (htOrder : t.InOrder)
    (huOrder : u.InOrder) (hload : exec loadPeers s = (.ok peers, s')) :
    (∀ key b, Names key b →
      ∃ found left s₁ s₂, exec (deletePeer key) s = (.ok found, s₁) ∧
        exec loadPeers s₁ = (.ok left, s₂) ∧
        (found = true ↔ Cell.text (Hex.encode b) ∈ t.keys) ∧
        (peers.lookup (Hex.encode b) ≠ none ↔
          found = true ∨ ∃ r ∈ t.rows, Respells r.data.1 b) ∧
        (left.lookup (Hex.encode b) ≠ none ↔ ∃ r ∈ t.rows, Respells r.data.1 b) ∧
        ∀ k, k ≠ Hex.encode b → left.lookup k = peers.lookup k) ∧
    (∀ key b address a, Names key b → RowCheck.socketAddress address = .ok a →
      ∃ now s₁ s₂, exec (savePeer key address) s = (.ok (), s₁) ∧
        exec loadPeers s₁ = (.ok now, s₂) ∧
        (t.Overtaken readPeer (.text (Hex.encode b)) (Hex.encode b) →
          now.lookup (Hex.encode b) = peers.lookup (Hex.encode b)) ∧
        (¬ t.Overtaken readPeer (.text (Hex.encode b)) (Hex.encode b) →
          now.lookup (Hex.encode b) = some a) ∧
        ∀ k, k ≠ Hex.encode b → now.lookup k = peers.lookup k) ∧
    (∀ final : Bytes, final.length = 32 →
      ∃ count left s₁ s₂, exec (deleteChannelIds final) s = (.ok count, s₁) ∧
        exec loadChannelIds s₁ = (.ok left, s₂) ∧
        ((∃ temporary, left.lookup temporary = some final) ↔
          ∃ r ∈ u.rows, Respells r.data.2 final ∧ ∃ temporary,
            SpellsPair r.data (temporary, final) ∧ ∀ later ∈ u.rows, r.id < later.id →
              ∀ other, SpellsPair later.data (temporary, other) →
                later.data.2 = .text (Hex.encode final))) ∧
    (∀ temporary final, ChannelMap.Sized (temporary, final) →
      ∃ ids now s₁ s₂ s₃, exec loadChannelIds s = (.ok ids, s₁) ∧
        exec (saveChannelId temporary final) s = (.ok (), s₂) ∧
        exec loadChannelIds s₂ = (.ok now, s₃) ∧
        (u.Overtaken readPair (.text (Hex.encode temporary)) temporary →
          now.lookup temporary = ids.lookup temporary) ∧
        (¬ u.Overtaken readPair (.text (Hex.encode temporary)) temporary →
          now.lookup temporary = some final) ∧
        ∀ other, other ≠ temporary → now.lookup other = ids.lookup other) := by
  have htransactions : s.outages.transactions = none := by rw [hworks]
  refine ⟨?_, ?_, ?_, ?_⟩
  · intro key b hname
    exact load_after_deletePeer htransactions ht htOrder hload hname
  · intro key b address a hname haddress
    exact load_after_savePeer htransactions ht htOrder hload hname haddress
  · intro final hsize
    exact load_after_deleteChannelIds htransactions hu huOrder hsize
  · intro temporary final hsized
    exact load_after_saveChannelId hworks hu huOrder hsized

/-- Another identity. -/
def otherIdentity : Bytes := 3 :: List.replicate 32 0xab

/-- An identity in the spelling of the store and, in a later row, in another one; and another
identity between them. -/
def twicePeers : Table (Cell × Cell) where
  rows := [⟨1, (.text (Hex.encode identity), .text "10.0.0.1:9735")⟩,
    ⟨2, (.text (Hex.encode otherIdentity), .text "10.0.0.2:9735")⟩,
    ⟨3, (.text capitalSpelling, .text "[fe80::1]:80")⟩]

/-- A temporary id in the spelling of the store and, in a later row, with a mark in front. -/
def twiceIds : Table (Cell × Cell) where
  rows := [⟨1, cellsOf (ChannelIds.idOf 1, ChannelIds.idOf 10)⟩,
    ⟨2, (.text ("0x" ++ Hex.encode (ChannelIds.idOf 1)),
      .text ("0x" ++ Hex.encode (ChannelIds.idOf 11)))⟩]

/-- A store with these tables. -/
def twiceStore : StoreState where
  tables := { peers := some twicePeers, channels := some twiceIds }

theorem respells_capitalSpelling : Respells (.text capitalSpelling) identity := by decide +kernel

/-- The rows of the store spell peers. -/
theorem wellFormed_twicePeers : ∀ r ∈ twicePeers.rows, ∃ b a, SpellsPeer r.data b a := by
  have hkept : ∀ a : String, RowCheck.socketAddress (.text a) = .ok a → Address.IsKept a.toList :=
    fun a h => (Address.socketAddress_iff.1 h).2
  have hstored : ∀ b a, IsIdentity b → Address.IsKept a.toList →
      ∃ b' a', SpellsPeer (.text (Hex.encode b), .text a) b' a' := fun b a hb ha =>
    ⟨b, a, Hex.encode b, rfl, spells_encode b, hb, ha⟩
  rcases respells_capitalSpelling with ⟨-, text, htext, hspells⟩
  intro r hr
  simp only [twicePeers, List.mem_cons, List.not_mem_nil, or_false] at hr
  rcases hr with rfl | rfl | rfl
  · exact hstored identity _ (by decide) (hkept _ (by decide))
  · exact hstored otherIdentity _ (by decide) (hkept _ (by decide))
  · exact ⟨identity, "[fe80::1]:80", text, by rw [htext], hspells, by decide,
      hkept _ (by decide)⟩

/-- A peer in one spelling is gone after its deletion, and one that has a row in another spelling is
not. -/
theorem respelled_peer_stays_loaded :
    ∃ peers s', twiceStore.outages = {} ∧ twiceStore.tables.peers = some twicePeers ∧
      twiceStore.tables.channels = some twiceIds ∧ twicePeers.InOrder ∧ twiceIds.InOrder ∧
      exec loadPeers twiceStore = (.ok peers, s') ∧
      (∃ left s₁ s₂, exec (deletePeer (.blob otherIdentity)) twiceStore = (.ok true, s₁) ∧
        exec loadPeers s₁ = (.ok left, s₂) ∧ left.lookup (Hex.encode otherIdentity) = none) ∧
      (∃ left s₁ s₂, exec (deletePeer (.blob identity)) twiceStore = (.ok true, s₁) ∧
        exec loadPeers s₁ = (.ok left, s₂) ∧ left.lookup (Hex.encode identity) ≠ none) := by
  rcases exec_loadPeers_of_wellFormed (s := twiceStore) rfl rfl wellFormed_twicePeers with
    ⟨log, hload⟩
  have hpeers : twicePeers.InOrder := by decide
  have hids : twiceIds.InOrder := by decide
  have hdelete := (edits_beside_respelled_rows (s := twiceStore) rfl rfl rfl hpeers hids hload).1
  refine ⟨_, _, rfl, rfl, rfl, hpeers, hids, hload, ?_, ?_⟩
  · rcases hdelete (.blob otherIdentity) otherIdentity (.bytes (by decide)) with
      ⟨found, left, s₁, s₂, hrun, hload', hfound, -, hleft, -⟩
    obtain rfl : found = true := hfound.2 (List.mem_cons_of_mem _ List.mem_cons_self)
    refine ⟨left, s₁, s₂, hrun, hload', ?_⟩
    by_contra hne
    -- the other rows spell the first identity
    have hfirst : ∀ {text}, Hex.Spells text identity → ¬ Hex.Spells text otherIdentity :=
      fun h h' => absurd (Revocations.spells_unique h h') (by decide)
    rcases hleft.1 hne with ⟨r, hr, hkey, text, htext, hspells⟩
    rcases respells_capitalSpelling with ⟨-, capital, hcapital, hspells'⟩
    simp only [twicePeers, List.mem_cons, List.not_mem_nil, or_false] at hr
    rcases hr with rfl | rfl | rfl
    · exact hfirst (Cell.text.inj htext ▸ spells_encode identity) hspells
    · exact hkey rfl
    · exact hfirst (Cell.text.inj (hcapital.symm.trans htext) ▸ hspells') hspells
  · rcases hdelete (.blob identity) identity (.bytes (by decide)) with
      ⟨found, left, s₁, s₂, hrun, hload', hfound, -, hleft, -⟩
    obtain rfl : found = true := hfound.2 List.mem_cons_self
    exact ⟨left, s₁, s₂, hrun, hload',
      hleft.2 ⟨_, List.mem_of_getElem? (i := 2) rfl, respells_capitalSpelling⟩⟩

/-- A store with a peer in another spelling only. -/
def capitalStore : StoreState where
  tables := { peers := some { rows := [⟨1, (.text capitalSpelling, .text "[fe80::1]:80")⟩] } }

/-- What is there in another spelling is not found by a deletion and is loaded after it, and a save
that another spelling overtakes is not loaded. -/
theorem respelled_rows_are_passed_over :
    (exec (do return (← deletePeer (.blob identity), ← loadPeers)) capitalStore).1 =
        .ok (false, [(Hex.encode identity, "[fe80::1]:80")]) ∧
      (exec (do
        savePeer (.blob identity) (.text "10.0.0.3:9735")
        loadPeers) twiceStore).1 = .ok
          [(Hex.encode identity, "[fe80::1]:80"), (Hex.encode otherIdentity, "10.0.0.2:9735")] ∧
      (exec (do return (← deleteChannelIds (ChannelIds.idOf 11), ← loadChannelIds)) twiceStore).1 =
        .ok (0, [(ChannelIds.idOf 1, ChannelIds.idOf 11)]) ∧
      (exec (do
        saveChannelId (ChannelIds.idOf 1) (ChannelIds.idOf 12)
        loadChannelIds) twiceStore).1 = .ok [(ChannelIds.idOf 1, ChannelIds.idOf 11)] := by
  refine ⟨?_, ?_, ?_, ?_⟩
  · decide +kernel
  · decide +kernel
  · decide +kernel
  · decide +kernel

end NodeStore.Store
