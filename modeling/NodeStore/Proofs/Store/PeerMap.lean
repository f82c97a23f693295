import NodeStore.Proofs.Assoc
import NodeStore.Proofs.Store.Peers

/-! # The map of peers

The table of peers is a map from identities to addresses. `Saved calls b address` says what the map
holds for an identity after some calls: the address of the last save that is accepted, unless a
deletion comes after it. `Reflects` is the invariant: the rows are what the map holds.

* `Reflects.step`: what one call does to the table;
* `Reflects.run`: what the rest of a run does;
* `peers_refine_map`: what every call answers after any run from an empty table. -/

namespace NodeStore.Store

open Op

variable {key : Value} {b b' : Bytes} {a : String}

/-! ## The map -/

/-- The store after some calls, none of which is stopped by an earlier one that failed. -/
def afterCalls (s : StoreState) (calls : List PeerCall) : StoreState :=
  calls.foldl (fun s call => (exec call.perform s).2) s

/-- The address of an identity after some calls: that of the last save of it, unless a deletion of
it comes later. -/
def Saved (calls : List PeerCall) (b : Bytes) (a : String) : Prop :=
  ∃ before call after, calls = before ++ call :: after ∧ call.Saves b a ∧
    ∀ later ∈ after, ¬ later.Deletes b ∧ ∀ a', ¬ later.Saves b a'

variable {calls : List PeerCall} {call : PeerCall} {s : StoreState}

theorem afterCalls_concat (s : StoreState) (calls : List PeerCall) (call : PeerCall) :
    afterCalls s (calls ++ [call]) = (exec call.perform (afterCalls s calls)).2 := by
  unfold afterCalls
  rw [List.foldl_append]
  rfl

theorem not_saved_nil : ¬ Saved [] b a := by
  rintro ⟨before, call, after, hcalls, -⟩
  simp at hcalls

/-- The last call decides, if it is about the identity. -/
theorem saved_concat : Saved (calls ++ [call]) b a ↔
    call.Saves b a ∨ Saved calls b a ∧ ¬ call.Deletes b ∧ ∀ a', ¬ call.Saves b a' :=
  Assoc.exists_last_concat

/-- A call saves at most one identity with at most one address. -/
theorem PeerCall.Saves.unique {a' : String} (h : call.Saves b a) (h' : call.Saves b' a') :
    b' = b ∧ a' = a := by
  cases call with
  | save key address => exact ⟨h'.1.unique h.1, Except.ok.inj (h'.2.symm.trans h.2)⟩
  | delete key => exact h.elim
  | load => exact h.elim

theorem PeerCall.Deletes.unique (h : call.Deletes b) (h' : call.Deletes b') : b' = b := by
  cases call with
  | save key address => exact h.elim
  | delete key => exact Names.unique h' h
  | load => exact h.elim

theorem PeerCall.Saves.not_deletes (h : call.Saves b a) (b' : Bytes) : ¬ call.Deletes b' := by
  cases call with
  | save key address => exact id
  | delete key => exact h.elim
  | load => exact h.elim

/-- After a save. -/
theorem saved_of_saves {a' : String} (h : call.Saves b a) : Saved (calls ++ [call]) b' a' ↔
    b' = b ∧ a' = a ∨ b' ≠ b ∧ Saved calls b' a' := by
  rw [saved_concat]
  constructor
  · rintro (h' | ⟨hsaved, -, hno⟩)
    · exact Or.inl (h.unique h')
    · refine Or.inr ⟨?_, hsaved⟩
      rintro rfl
      exact hno a h
  · rintro (⟨rfl, rfl⟩ | ⟨hne, hsaved⟩)
    · exact Or.inl h
    · exact Or.inr ⟨hsaved, h.not_deletes b', fun a'' h' => hne (h.unique h').1⟩

/-- After a deletion. -/
theorem saved_of_deletes (h : call.Deletes b) : Saved (calls ++ [call]) b' a ↔
    b' ≠ b ∧ Saved calls b' a := by
  rw [saved_concat]
  constructor
  · rintro (h' | ⟨hsaved, hno, -⟩)
    · exact absurd h (h'.not_deletes b)
    · refine ⟨?_, hsaved⟩
      rintro rfl
      exact hno h
  · rintro ⟨hne, hsaved⟩
    exact Or.inr ⟨hsaved, fun h' => hne (h.unique h'), fun a' h' => h'.not_deletes b h⟩

/-- After a call that is about no identity. -/
theorem saved_of_other (hsaves : ∀ b a, ¬ call.Saves b a) (hdeletes : ∀ b, ¬ call.Deletes b) :
    Saved (calls ++ [call]) b a ↔ Saved calls b a := by
  rw [saved_concat]
  constructor
  · rintro (h | ⟨h, -⟩)
    · exact absurd h (hsaves b a)
    · exact h
  · exact fun h => Or.inr ⟨h, hdeletes b, hsaves b⟩

/-- What is saved was accepted. -/
theorem Saved.accepted (h : Saved calls b a) :
    IsIdentity b ∧ RowCheck.socketAddress (.text a) = .ok a := by
  rcases h with ⟨before, call, after, -, hsaves, -⟩
  cases call with
  | save key address =>
    obtain rfl := eq_of_socketAddress hsaves.2
    exact ⟨hsaves.1.isIdentity, hsaves.2⟩
  | delete key => exact hsaves.elim
  | load => exact hsaves.elim

/-! ## The invariant -/

/-- The rows of the table are what the map holds: one row for each identity that was saved, with
the canonical spelling of the identity and its address. -/
structure Reflects (calls : List PeerCall) (s : StoreState) (t : Table (Cell × Cell)) : Prop where
  works : s.outages.transactions = none
  peers : s.tables.peers = some t
  nodup : t.keys.Nodup
  rows : ∀ d, (∃ r ∈ t.rows, r.data = d) ↔
    ∃ b a, d = (.text (Hex.encode b), .text a) ∧ Saved calls b a

variable {t : Table (Cell × Cell)}

theorem Reflects.mem_keys (h : Reflects calls s t) :
    Cell.text (Hex.encode b) ∈ t.keys ↔ ∃ a, Saved calls b a := by
  rw [Table.mem_keys]
  constructor
  · rintro ⟨r, hr, hkey⟩
    rcases (h.rows r.data).1 ⟨r, hr, rfl⟩ with ⟨b', a, hdata, hsaved⟩
    rw [hdata] at hkey
    obtain rfl := Hex.encode_injective (Cell.text.inj hkey)
    exact ⟨a, hsaved⟩
  · rintro ⟨a, hsaved⟩
    rcases (h.rows _).2 ⟨b, a, rfl, hsaved⟩ with ⟨r, hr, hdata⟩
    exact ⟨r, hr, by rw [hdata]⟩

/-- A load answers with what the map holds, and changes nothing but the log. -/
theorem Reflects.load (h : Reflects calls s t) :
    ∃ peers log, exec loadPeers s = (.ok peers, { s with log }) ∧
      (peers.map Prod.fst).Nodup ∧
      ∀ key a, (key, a) ∈ peers ↔ ∃ b, key = Hex.encode b ∧ Saved calls b a := by
  have hrows : ∀ r ∈ t.rows, ∃ p : String × String,
      r.data = (.text p.1, .text p.2) ∧ checkPeer r.data = .ok p := by
    intro r hr
    rcases (h.rows r.data).1 ⟨r, hr, rfl⟩ with ⟨b, a, hdata, hsaved⟩
    refine ⟨(Hex.encode b, a), hdata, ?_⟩
    rw [hdata]
    exact checkPeer_saved hsaved.accepted.1 hsaved.accepted.2
  rcases mapM_checkPeer hrows with ⟨peers, hmap, hpeers⟩
  -- the keys of the pairs that were read are those of the rows, so that they are distinct
  have hnodup : (peers.map Prod.fst).Nodup := by
    have hkeys : (peers.map Prod.fst).map Cell.text = t.keys := by
      have hfst := congrArg (List.map Prod.fst) hpeers
      rw [List.map_map, List.map_map] at hfst
      rw [List.map_map]
      exact hfst
    exact List.Nodup.of_map Cell.text (hkeys ▸ h.nodup)
  have hmem : ∀ key a, (key, a) ∈ peers ↔ ∃ b, key = Hex.encode b ∧ Saved calls b a := by
    intro key a
    have hpair : (key, a) ∈ peers ↔ (Cell.text key, Cell.text a) ∈ t.rows.map fun r => r.data := by
      rw [← hpeers, List.mem_map]
      constructor
      · intro hp
        exact ⟨_, hp, rfl⟩
      · rintro ⟨⟨key', a'⟩, hp, heq⟩
        simp only [Prod.mk.injEq, Cell.text.injEq] at heq
        rwa [← heq.1, ← heq.2]
    rw [hpair, List.mem_map, h.rows]
    constructor
    · rintro ⟨b, a', hdata, hsaved⟩
      simp only [Prod.mk.injEq, Cell.text.injEq] at hdata
      exact ⟨b, hdata.1, hdata.2 ▸ hsaved⟩
    · rintro ⟨b, rfl, hsaved⟩
      exact ⟨b, a, rfl, hsaved⟩
  rcases exec_loadPeers h.works h.peers hmap with ⟨log, hrun⟩
  rw [Assoc.ofList_of_nodup hnodup] at hrun
  exact ⟨peers, log, hrun, hnodup, hmem⟩

/-- A row is still there, under the same id and the same key. -/
def Stays (r : Row (Cell × Cell)) (t : Table (Cell × Cell)) : Prop :=
  ∃ r' ∈ t.rows, r'.id = r.id ∧ r'.data.1 = r.data.1

/-- A call that is about no identity leaves the table as it is. -/
theorem Reflects.other {s' : StoreState} (h : Reflects calls s t)
    (houtages : s'.outages = s.outages) (htables : s'.tables = s.tables)
    (hsaves : ∀ b a, ¬ call.Saves b a) (hdeletes : ∀ b, ¬ call.Deletes b) :
    Reflects (calls ++ [call]) s' t where
  works := houtages ▸ h.works
  peers := htables ▸ h.peers
  nodup := h.nodup
  rows := by
    intro d
    simp only [saved_of_other hsaves hdeletes]
    exact h.rows d

/-- A save changes the row of its identity, or adds it. -/
theorem Reflects.save {s' : StoreState} (h : Reflects calls s t) (hsaves : call.Saves b a)
    (hworks : s'.outages.transactions = none)
    (ht : s'.tables.peers = some (t.upsert (.text (Hex.encode b)) (.text a))) :
    Reflects (calls ++ [call]) s' (t.upsert (.text (Hex.encode b)) (.text a)) where
  works := hworks
  peers := ht
  nodup := Table.nodup_keys_upsert h.nodup
  rows := by
    intro d
    rw [Table.mem_upsert, h.rows]
    simp only [saved_of_saves hsaves]
    constructor
    · rintro (rfl | ⟨hne, b', a', rfl, hsaved⟩)
      · exact ⟨b, a, rfl, Or.inl ⟨rfl, rfl⟩⟩
      · refine ⟨b', a', rfl, Or.inr ⟨?_, hsaved⟩⟩
        rintro rfl
        exact hne rfl
    · rintro ⟨b', a', rfl, ⟨rfl, rfl⟩ | ⟨hne, hsaved⟩⟩
      · exact Or.inl rfl
      · refine Or.inr ⟨?_, b', a', rfl, hsaved⟩
        exact fun heq => hne (Hex.encode_injective (Cell.text.inj heq))

theorem mem_deleteWhere {key : Cell} {r : Row (Cell × Cell)} :
    r ∈ (t.deleteWhere fun d => d.1 == key).rows ↔ r ∈ t.rows ∧ r.data.1 ≠ key := by
  rw [Table.mem_deleteWhere, beq_eq_false_iff_ne]

/-- A deletion removes the row of its identity. -/
theorem Reflects.delete {s' : StoreState} (h : Reflects calls s t) (hdeletes : call.Deletes b)
    (hworks : s'.outages.transactions = none)
    (ht : s'.tables.peers = some (t.deleteWhere fun d => d.1 == .text (Hex.encode b))) :
    Reflects (calls ++ [call]) s' (t.deleteWhere fun d => d.1 == .text (Hex.encode b)) where
  works := hworks
  peers := ht
  nodup := h.nodup.sublist (List.Sublist.map _ List.filter_sublist)
  rows := by
    intro d
    simp only [saved_of_deletes hdeletes, mem_deleteWhere]
    constructor
    · rintro ⟨r, ⟨hr, hne⟩, rfl⟩
      rcases (h.rows r.data).1 ⟨r, hr, rfl⟩ with ⟨b', a, hdata, hsaved⟩
      refine ⟨b', a, hdata, ?_, hsaved⟩
      rintro rfl
      exact hne (by rw [hdata])
    · rintro ⟨b', a, rfl, hne, hsaved⟩
      rcases (h.rows _).2 ⟨b', a, rfl, hsaved⟩ with ⟨r, hr, hdata⟩
      refine ⟨r, ⟨hr, ?_⟩, hdata⟩
      rw [hdata]
      exact fun heq => hne (Hex.encode_injective (Cell.text.inj heq))

/-- The step of a run: the invariant is kept, and every row stays whose identity is not deleted. -/
theorem Reflects.step (h : Reflects calls s t) (call : PeerCall) :
    ∃ t', Reflects (calls ++ [call]) (exec call.perform s).2 t' ∧
      ∀ r ∈ t.rows, (∀ b, call.Deletes b → r.data.1 ≠ .text (Hex.encode b)) → Stays r t' := by
  have hsame : ∀ r ∈ t.rows, Stays r t := fun r hr => ⟨r, hr, rfl, rfl⟩
  cases call with
  | save key address =>
    by_cases hacc : (PeerCall.save key address).Accepted
    · rcases hacc with ⟨b, a, hsaves⟩
      rcases exec_savePeer h.works h.peers hsaves with ⟨log, hrun⟩
      rw [PeerCall.perform, hrun]
      exact ⟨_, h.save hsaves h.works rfl, fun r hr _ => Table.row_upsert _ _ hr⟩
    · rcases exec_savePeer_refused (s := s) hacc with ⟨p, hrun⟩
      rw [PeerCall.perform, hrun]
      exact ⟨t, h.other rfl rfl (fun b a hsaves => hacc ⟨b, a, hsaves⟩) fun b => id,
        fun r hr _ => hsame r hr⟩
  | delete key =>
    by_cases hacc : (PeerCall.delete key).Accepted
    · rcases hacc with ⟨b, hdeletes⟩
      rcases exec_deletePeer h.works h.peers hdeletes with ⟨log, hrun⟩
      rw [PeerCall.perform, exec_discard, hrun]
      refine ⟨_, h.delete hdeletes h.works rfl, ?_⟩
      intro r hr hkeep
      exact ⟨r, mem_deleteWhere.2 ⟨hr, hkeep b hdeletes⟩, rfl, rfl⟩
    · rcases exec_deletePeer_refused (s := s) hacc with ⟨p, hrun⟩
      rw [PeerCall.perform, exec_discard, hrun]
      exact ⟨t, h.other rfl rfl (fun b a => id) fun b hdeletes => hacc ⟨b, hdeletes⟩,
        fun r hr _ => hsame r hr⟩
  | load =>
    rcases h.load with ⟨peers, log, hrun, -, -⟩
    rw [PeerCall.perform, exec_discard, hrun]
    exact ⟨t, h.other rfl rfl (fun b a => id) fun b => id, fun r hr _ => hsame r hr⟩

/-! ## Runs -/

theorem reflects_start (ht : s.tables.peers = some t) (hempty : t.rows = [])
    (hworks : s.outages.transactions = none) : Reflects [] s t where
  works := hworks
  peers := ht
  nodup := by simp [Table.keys, hempty]
  rows := by
    intro d
    simp [hempty, not_saved_nil]

/-- The rest of a run: rows stay whose identity none of its calls deletes. -/
theorem Reflects.run (h : Reflects calls s t) (later : List PeerCall) :
    ∃ t', Reflects (calls ++ later) (afterCalls s later) t' ∧
      ∀ r ∈ t.rows, (∀ call ∈ later, ∀ b, call.Deletes b → r.data.1 ≠ .text (Hex.encode b)) →
        Stays r t' := by
  induction later using List.reverseRecOn with
  | nil => exact ⟨t, by simpa [afterCalls] using h, fun r hr _ => ⟨r, hr, rfl, rfl⟩⟩
  | append_singleton later call ih =>
    rcases ih with ⟨t', h', hstay'⟩
    rcases h'.step call with ⟨t'', h'', hstay''⟩
    rw [afterCalls_concat, ← List.append_assoc]
    refine ⟨t'', h'', ?_⟩
    intro r hr hkeep
    rcases hstay' r hr fun earlier hearlier =>
      hkeep earlier (List.mem_append_left _ hearlier) with ⟨r', hr', hid', hkey'⟩
    have hkeep' : ∀ b, call.Deletes b → r'.data.1 ≠ .text (Hex.encode b) := by
      rw [hkey']
      exact hkeep call (List.mem_append_right _ List.mem_cons_self)
    rcases hstay'' r' hr' hkeep' with ⟨r'', hr'', hid'', hkey''⟩
    exact ⟨r'', hr'', hid''.trans hid', hkey''.trans hkey'⟩

theorem afterCalls_append (s : StoreState) (calls later : List PeerCall) :
    afterCalls s (calls ++ later) = afterCalls (afterCalls s calls) later :=
  List.foldl_append

/-- A call fails only if its arguments are not accepted, and then changes nothing. -/
theorem Reflects.answer (h : Reflects calls s t) (call : PeerCall) :
    (call.Accepted → (exec call.perform s).1 = .ok ()) ∧
      (¬ call.Accepted → ∃ p, exec call.perform s = (.error (.invalidPeer p), s)) := by
  cases call with
  | save key address =>
    refine ⟨?_, exec_savePeer_refused⟩
    rintro ⟨b, a, hsaves⟩
    rcases exec_savePeer h.works h.peers hsaves with ⟨log, hrun⟩
    rw [PeerCall.perform, hrun]
  | delete key =>
    constructor
    · rintro ⟨b, hdeletes⟩
      rcases exec_deletePeer h.works h.peers hdeletes with ⟨log, hrun⟩
      rw [PeerCall.perform, exec_discard, hrun]
      rfl
    · intro hacc
      rcases exec_deletePeer_refused (s := s) hacc with ⟨p, hrun⟩
      rw [PeerCall.perform, exec_discard, hrun]
      exact ⟨p, rfl⟩
  | load =>
    constructor
    · intro _
      rcases h.load with ⟨peers, log, hrun, -, -⟩
      rw [PeerCall.perform, exec_discard, hrun]
      rfl
    · exact fun hno => absurd trivial hno

/-- After any calls from an empty table:

* a load answers, with the map from the canonical spellings of identities to what was saved for
  them last and not deleted since;
* the table has one row for each identity in the map, and the row keeps its id until the identity
  is deleted;
* a deletion answers whether the identity was in the map;
* a call fails exactly if its arguments are not accepted; it says so, and changes nothing. -/
theorem peers_refine_map (ht : s.tables.peers = some t) (hempty : t.rows = [])
    (hworks : s.outages.transactions = none) (calls : List PeerCall) :
    (∃ peers, (exec loadPeers (afterCalls s calls)).1 = .ok peers ∧
      (peers.map Prod.fst).Nodup ∧
      (∀ key a, (key, a) ∈ peers ↔ ∃ b, key = Hex.encode b ∧ Saved calls b a) ∧
      ∀ key a, (key, a) ∈ peers →
        key.toList.length = 66 ∧ ∀ c ∈ key.toList, c ∈ "0123456789abcdef".toList) ∧
    (∃ u, (afterCalls s calls).tables.peers = some u ∧ u.keys.Nodup ∧
      (∀ key, key ∈ u.keys ↔ ∃ b a, key = .text (Hex.encode b) ∧ Saved calls b a) ∧
      ∀ later, ∃ u', (afterCalls s (calls ++ later)).tables.peers = some u' ∧
        ∀ r ∈ u.rows,
          (∀ call ∈ later, ∀ b, call.Deletes b → r.data.1 ≠ .text (Hex.encode b)) →
          Stays r u') ∧
    (∀ key b, Names key b → ∃ found,
      (exec (deletePeer key) (afterCalls s calls)).1 = .ok found ∧
      (found = true ↔ ∃ a, Saved calls b a)) ∧
    ∀ call : PeerCall,
      (call.Accepted → (exec call.perform (afterCalls s calls)).1 = .ok ()) ∧
      (¬ call.Accepted → ∃ p, exec call.perform (afterCalls s calls) =
        (.error (.invalidPeer p), afterCalls s calls)) := by
  rcases (reflects_start ht hempty hworks).run calls with ⟨u, h, -⟩
  rw [List.nil_append] at h
  refine ⟨?_, ?_, ?_, h.answer⟩
  · rcases h.load with ⟨peers, log, hrun, hnodup, hmem⟩
    refine ⟨peers, by rw [hrun], hnodup, hmem, ?_⟩
    intro key a hpair
    rcases (hmem key a).1 hpair with ⟨b, rfl, hsaved⟩
    rcases Hex.encode_digits b with ⟨hlength, hdigits⟩
    exact ⟨by rw [hlength, hsaved.accepted.1.1], hdigits⟩
  · refine ⟨u, h.peers, h.nodup, ?_, ?_⟩
    · intro key
      rw [Table.mem_keys]
      constructor
      · rintro ⟨r, hr, rfl⟩
        rcases (h.rows r.data).1 ⟨r, hr, rfl⟩ with ⟨b, a, hdata, hsaved⟩
        exact ⟨b, a, by rw [hdata], hsaved⟩
      · rintro ⟨b, a, rfl, hsaved⟩
        rcases (h.rows _).2 ⟨b, a, rfl, hsaved⟩ with ⟨r, hr, hdata⟩
        exact ⟨r, hr, by rw [hdata]⟩
    · intro later
      rcases h.run later with ⟨u', h', hstay⟩
      exact ⟨u', by rw [afterCalls_append]; exact h'.peers, hstay⟩
  · intro key b hname
    rcases exec_deletePeer h.works h.peers hname with ⟨log, hrun⟩
    exact ⟨_, by rw [hrun], by rw [decide_eq_true_eq, h.mem_keys]⟩

/-- A store in which no peer was saved. -/
def noPeers : StoreState where
  tables := { peers := some {} }

/-- An identity. -/
def identity : Bytes := 2 :: List.replicate 32 0xab

/-- The identity in capital digits, with a mark in front and a blank between two pairs. -/
def capitalSpelling : String :=
  "0X02 ABABABABABABABABABABABABABABABABABABABABABABABABABABABABABABABAB"

/-- A save by bytes, a save by another spelling, and a save that is refused. -/
def threeSaves : List PeerCall :=
  [.save (.blob identity) (.text "10.0.0.1:9735"),
    .save (.text capitalSpelling) (.text "[fe80::1]:80"),
    .save (.text "02ab") (.text "10.0.0.1:9735")]

/-- Two spellings of one identity are one peer. -/
theorem respelled_save_replaces_address :
    noPeers.tables.peers = some {} ∧ ({} : Table (Cell × Cell)).rows = [] ∧
    noPeers.outages.transactions = none ∧
    ∃ peers, (exec loadPeers (afterCalls noPeers threeSaves)).1 = .ok peers ∧
      (Hex.encode identity, "[fe80::1]:80") ∈ peers ∧
      (Hex.encode identity, "10.0.0.1:9735") ∉ peers := by
  have hidentity : IsIdentity identity := by decide
  have hspells : Hex.Spells capitalSpelling identity := Hex.decode?_iff.1 (by decide +kernel)
  have hsaves : (PeerCall.save (.text capitalSpelling) (.text "[fe80::1]:80")).Saves identity
      "[fe80::1]:80" := ⟨.text hidentity hspells, by decide +kernel⟩
  have hshort : ¬ Names (.text "02ab") identity := by
    intro hname
    cases hname with
    | text _ hshort =>
      have hdecode := Hex.decode?_iff.2 hshort
      exact absurd hdecode (by decide +kernel)
  have hsaved : Saved threeSaves identity "[fe80::1]:80" := by
    refine ⟨[.save (.blob identity) (.text "10.0.0.1:9735")], _, _, rfl, hsaves, ?_⟩
    intro later hlater
    rw [List.mem_singleton.1 hlater]
    exact ⟨id, fun a hrefused => hshort hrefused.1⟩
  refine ⟨rfl, rfl, rfl, ?_⟩
  rcases (peers_refine_map (s := noPeers) rfl rfl rfl threeSaves).1 with
    ⟨peers, hload, hnodup, hmem, -⟩
  have hnew := (hmem _ _).2 ⟨identity, rfl, hsaved⟩
  refine ⟨peers, hload, hnew, ?_⟩
  intro hold
  have hboth := (Assoc.mem_iff_lookup hnodup).1 hnew
  rw [(Assoc.mem_iff_lookup hnodup).1 hold] at hboth
  exact absurd hboth (by decide)

end NodeStore.Store
