import NodeStore.Proofs.Hex
import NodeStore.Proofs.Store.Footprints
import NodeStore.Proofs.Store.Histories
import NodeStore.Proofs.Store.KeptRows

/-! # Tokens stay revoked

The table of revoked tokens is a set of byte strings that only grows. A token may be given in any
spelling of its bytes; the check for a row that is there already, the row that is added, and the
reader all use the one spelling of the store.

* `Changes.extends`: a call that succeeds adds rows at the end, or none;
* `Refines.changes`: the rows are the bytes that were revoked, each once;
* `revoked_stays_revoked`: what every call answers at the end of any history. -/

namespace NodeStore.Revocations

open Op Store

variable {calls : List StoreCall} {call : StoreCall} {id : Value} {b b' : Bytes} {s : StoreState}
  {u u' : Table Cell} {ids : List Bytes}

/-- After some calls bytes are revoked: a token that spells them was. -/
def Revoked (calls : List StoreCall) (b : Bytes) : Prop :=
  ∃ s, .revoke (.text s) ∈ calls ∧ Hex.Spells s b

/-- The column of a revoked token. -/
def cellOf (b : Bytes) : Cell := .text (Hex.encode b)

theorem cellOf_injective (h : cellOf b = cellOf b') : b = b' :=
  Hex.encode_injective (Cell.text.inj h)

/-! ## The check of a token -/

/-- A text spells at most one byte string. -/
theorem spells_unique {s : String} (h : Hex.Spells s b) (h' : Hex.Spells s b') : b' = b :=
  Option.some.inj ((Hex.decode?_iff.2 h').symm.trans (Hex.decode?_iff.2 h))

/-- The check accepts the spellings of at least one byte. -/
theorem revocationId_ok : RowCheck.revocationId id = .ok b ↔
    ∃ s, id = .text s ∧ Hex.Spells s b ∧ b ≠ [] := by
  cases id with
  | text s =>
    simp only [RowCheck.revocationId, RowCheck.hex]
    cases hdecode : Hex.decode? s with
    | none =>
      refine ⟨nofun, ?_⟩
      rintro ⟨s', hs, hspells, -⟩
      obtain rfl := Value.text.inj hs
      rw [Hex.decode?_iff.2 hspells] at hdecode
      exact absurd hdecode nofun
    | some found =>
      have hfound := Hex.decode?_iff.1 hdecode
      rw [ok_bind]
      constructor
      · intro hok
        cases found with
        | nil => exact absurd hok nofun
        | cons x rest =>
          obtain rfl := Except.ok.inj hok
          exact ⟨s, rfl, hfound, List.cons_ne_nil x rest⟩
      · rintro ⟨s', hs, hspells, hne⟩
        obtain rfl := Value.text.inj hs
        obtain rfl := spells_unique hspells hfound
        cases found with
        | nil => exact absurd rfl hne
        | cons x rest => rfl
  | blob x => exact ⟨nofun, fun ⟨_, hs, _⟩ => absurd hs nofun⟩
  | other kind => exact ⟨nofun, fun ⟨_, hs, _⟩ => absurd hs nofun⟩

/-- Whatever does not spell a byte is refused. -/
theorem revocationId_error (h : ∀ s b, id = .text s → Hex.Spells s b → b = []) :
    ∃ problem, RowCheck.revocationId id = .error problem := by
  cases hcheck : RowCheck.revocationId id with
  | error problem => exact ⟨problem, rfl⟩
  | ok b =>
    rcases revocationId_ok.1 hcheck with ⟨s, hs, hspells, hne⟩
    exact absurd (h s b hs hspells) hne

/-- What is written passes the check of a load. -/
theorem revocationId_cellOf (hne : b ≠ []) : RowCheck.revocationId (cellOf b).toValue = .ok b :=
  revocationId_ok.2 ⟨_, rfl, Hex.spells_encode b, hne⟩

/-! ## One revocation -/

/-- The table with a row for the bytes: the old one if they have a row already. -/
def withToken (b : Bytes) (u : Table Cell) : Table Cell :=
  if (u.find? fun c => c == cellOf b).isSome then u else u.append (cellOf b)

theorem find?_isSome : (u.find? fun c => c == cellOf b).isSome = true ↔
    cellOf b ∈ u.rows.map fun r => r.data := by
  unfold Table.find?
  rw [List.find?_isSome, List.mem_map]
  simp only [beq_iff_eq]

theorem withToken_of_mem (h : cellOf b ∈ u.rows.map fun r => r.data) : withToken b u = u :=
  if_pos (find?_isSome.2 h)

theorem withToken_of_not_mem (h : cellOf b ∉ u.rows.map fun r => r.data) :
    withToken b u = u.append (cellOf b) :=
  if_neg fun hfound => h (find?_isSome.1 hfound)

theorem mem_withToken (b : Bytes) (u : Table Cell) :
    cellOf b ∈ (withToken b u).rows.map fun r => r.data := by
  by_cases h : cellOf b ∈ u.rows.map fun r => r.data
  · rwa [withToken_of_mem h]
  · rw [withToken_of_not_mem h, Table.append, List.map_append]
    exact List.mem_append_right _ List.mem_cons_self

/-- A revocation that is not stopped leaves a table with a row for the bytes. -/
theorem exec_revoke (hcheck : RowCheck.revocationId id = .ok b)
    (hworks : s.outages.transactions = none) (hu : s.tables.revoked = some u) :
    ∃ log, exec (revoke id) s = (.ok (), { s with
      tables := { s.tables with revoked := some (withToken b u) }
      log }) := by
  unfold revoke log
  rw [exec_bind_of_ok (by rw [exec_liftExcept, hcheck]; rfl), exec_modify_bind, exec_bind,
    exec_transaction]
  simp only [hworks, hu, present_some, ok_bind, pure, Except.pure]
  have hsame : { s.tables with revoked := some u } = s.tables := by rw [← hu]
  unfold withToken cellOf
  by_cases hfound : (u.find? fun c => c == .text (Hex.encode b)).isSome = true
  · simp only [if_pos hfound, hsame]
    exact ⟨_, rfl⟩
  · simp only [if_neg hfound]
    exact ⟨_, rfl⟩

/-- A revocation that succeeds was of a token, and found an engine that works. -/
theorem token_of_revoke {s' : StoreState} (h : exec (revoke id) s = (.ok (), s')) :
    ∃ b, RowCheck.revocationId id = .ok b ∧ s.outages.transactions = none := by
  unfold revoke log at h
  rcases exec_bind_ok.1 h with ⟨b, s₁, hcheck, hrest⟩
  rw [exec_liftExcept, Prod.mk.injEq] at hcheck
  rw [exec_modify_bind] at hrest
  rcases exec_bind_ok.1 hrest with ⟨added, s₂, hcommit, -⟩
  have hworks := (exec_transaction_ok.1 hcommit).1
  rw [← hcheck.2] at hworks
  refine ⟨b, ?_, hworks⟩
  cases hid : RowCheck.revocationId id with
  | ok found => rw [hid] at hcheck; exact congrArg _ (Except.ok.inj hcheck.1)
  | error problem => rw [hid] at hcheck; exact absurd hcheck.1 nofun

theorem exec_revoke_refused {problem : RowProblem}
    (hcheck : RowCheck.revocationId id = .error problem) :
    exec (revoke id) s = (.error (.argument (.revocation problem)), s) := by
  unfold revoke
  exact exec_bind_of_error (by rw [exec_liftExcept, hcheck]; rfl)

/-! ## The table -/

/-- What a call that succeeds makes of the table of revoked tokens. -/
inductive Changes (u : Table Cell) : StoreCall → Table Cell → Prop where
  | revoked {id : Value} {b : Bytes} : RowCheck.revocationId id = .ok b →
      Changes u (.revoke id) (withToken b u)
  | other {call : StoreCall} : call.table? ≠ some .revoked → Changes u call u

theorem changes_of_ok {a : StoreAnswer} {s' : StoreState} (hu : s.tables.revoked = some u)
    (h : exec call.perform s = (.ok a, s')) :
    ∃ u', s'.tables.revoked = some u' ∧ Changes u call u' := by
  by_cases hcall : call.table? = some .revoked
  · cases call with
    | revoke id =>
      rcases exec_map_ok.1 h with ⟨done, hrevoke, -⟩
      rcases token_of_revoke hrevoke with ⟨b, hcheck, hworks⟩
      rcases exec_revoke hcheck hworks hu with ⟨log, hrun⟩
      obtain rfl : s' = _ := congrArg Prod.snd (hrevoke.symm.trans hrun)
      exact ⟨_, rfl, .revoked hcheck⟩
    | _ => exact absurd hcall nofun
  · -- every other call writes to another table, if to any
    have hsame := ((writesOnly_perform call).sameBut s).revoked hcall
    rw [h] at hsame
    exact ⟨u, hsame.trans hu, .other hcall⟩

/-- Rows are added at the end, and none is changed or removed. -/
theorem Changes.extends (h : Changes u call u') : u.rows <+: u'.rows := by
  cases h with
  | revoked hcheck =>
    unfold withToken
    split
    · exact List.prefix_refl _
    · exact List.prefix_append _ _
  | other hcall => exact List.prefix_refl _

/-- The table has one row for each of some byte strings, which are those that were revoked. -/
structure Refines (calls : List StoreCall) (u : Table Cell) (ids : List Bytes) : Prop where
  rows : u.rows.map (fun r => r.data) = ids.map cellOf
  nodup : ids.Nodup
  nonempty : [] ∉ ids
  mem : ∀ b, b ∈ ids ↔ Revoked calls b

theorem refines_empty (hempty : u.rows = []) : Refines [] u [] where
  rows := by rw [hempty]; rfl
  nodup := List.nodup_nil
  nonempty := List.not_mem_nil
  mem := by simp [Revoked]

/-- A row has the column of some bytes exactly if they are among those of the table. -/
theorem Refines.mem_rows (h : Refines calls u ids) :
    (cellOf b ∈ u.rows.map fun r => r.data) ↔ b ∈ ids := by
  rw [h.rows, List.mem_map]
  constructor
  · rintro ⟨b', hb', heq⟩
    rwa [← cellOf_injective heq]
  · exact fun hb => ⟨b, hb, rfl⟩

/-- After a revocation. -/
theorem revoked_concat (hcheck : RowCheck.revocationId id = .ok b) :
    Revoked (calls ++ [.revoke id]) b' ↔ b' = b ∨ Revoked calls b' := by
  rcases revocationId_ok.1 hcheck with ⟨s, rfl, hspells, -⟩
  unfold Revoked
  constructor
  · rintro ⟨s', hmem, hspells'⟩
    rcases List.mem_append.1 hmem with hmem | hmem
    · exact Or.inr ⟨s', hmem, hspells'⟩
    · have hsame := List.mem_singleton.1 hmem
      injection hsame with hsame
      injection hsame with hsame
      subst hsame
      exact Or.inl (spells_unique hspells hspells')
  · rintro (rfl | ⟨s', hmem, hspells'⟩)
    · exact ⟨s, List.mem_append_right _ List.mem_cons_self, hspells⟩
    · exact ⟨s', List.mem_append_left _ hmem, hspells'⟩

/-- After a call that is not a revocation. -/
theorem revoked_other (hcall : call.table? ≠ some .revoked) :
    Revoked (calls ++ [call]) b ↔ Revoked calls b := by
  unfold Revoked
  constructor
  · rintro ⟨s, hmem, hspells⟩
    rcases List.mem_append.1 hmem with hmem | hmem
    · exact ⟨s, hmem, hspells⟩
    · obtain rfl := List.mem_singleton.1 hmem
      exact absurd rfl hcall
  · rintro ⟨s, hmem, hspells⟩
    exact ⟨s, List.mem_append_left _ hmem, hspells⟩

/-- Calls that succeed keep the table in step with what was revoked. -/
theorem Refines.changes (h : Refines calls u ids) (hchanges : Changes u call u') :
    ∃ ids', Refines (calls ++ [call]) u' ids' := by
  cases hchanges with
  | @revoked id b hcheck =>
    -- a token whose bytes have a row adds none, another one adds the last row
    by_cases hb : b ∈ ids
    · rw [withToken_of_mem (h.mem_rows.2 hb)]
      refine ⟨ids, h.rows, h.nodup, h.nonempty, ?_⟩
      intro b'
      rw [revoked_concat hcheck, ← h.mem]
      constructor
      · exact Or.inr
      · rintro (rfl | hb')
        · exact hb
        · exact hb'
    · rw [withToken_of_not_mem fun hrow => hb (h.mem_rows.1 hrow)]
      rcases revocationId_ok.1 hcheck with ⟨s, -, -, hne⟩
      refine ⟨ids ++ [b], ?_, ?_, ?_, ?_⟩
      · unfold Table.append
        rw [List.map_append, h.rows, List.map_append]
        rfl
      · rw [List.nodup_append]
        refine ⟨h.nodup, List.nodup_singleton b, ?_⟩
        intro b₁ hb₁ b₂ hb₂
        rw [List.mem_singleton.1 hb₂]
        rintro rfl
        exact hb hb₁
      · rw [List.mem_append, List.mem_singleton, not_or]
        exact ⟨h.nonempty, fun hnil => hne hnil.symm⟩
      · intro b'
        rw [revoked_concat hcheck, List.mem_append, List.mem_singleton, h.mem, or_comm]
  | other hcall =>
    refine ⟨ids, h.rows, h.nodup, h.nonempty, ?_⟩
    intro b
    rw [revoked_other hcall, h.mem]

theorem keptByCalls_refines :
    OpenStore.KeptByCalls fun calls tables =>
      ∃ u ids, tables.revoked = some u ∧ Refines calls u ids where
  accepted := by
    rintro calls call s a s' ⟨u, ids, hu, h⟩ hrun
    rcases changes_of_ok hu hrun with ⟨u', hu', hchanges⟩
    rcases h.changes hchanges with ⟨ids', h'⟩
    exact ⟨u', ids', hu', h'⟩
  createMissing := by
    rintro calls tables ⟨u, ids, hu, h⟩
    exact ⟨u, ids, by simp [Tables.createMissing, hu], h⟩

/-- The table begins with some rows, whatever the calls were. -/
def BeginsWith (rows : List (Row Cell)) (_ : List StoreCall) (tables : Tables) : Prop :=
  ∃ u, tables.revoked = some u ∧ rows <+: u.rows

theorem keptByCalls_beginsWith (rows : List (Row Cell)) :
    OpenStore.KeptByCalls (BeginsWith rows) where
  accepted := by
    rintro calls call s a s' ⟨u, hu, hrows⟩ hrun
    rcases changes_of_ok hu hrun with ⟨u', hu', hchanges⟩
    exact ⟨u', hu', hrows.trans hchanges.extends⟩
  createMissing := by
    rintro calls tables ⟨u, hu, hrows⟩
    exact ⟨u, by simp [Tables.createMissing, hu], hrows⟩

/-! ## Loads -/

/-- The byte strings of the well-formed ones of some rows. -/
def wellFormed (rows : List (Row Cell)) : List Bytes :=
  rows.filterMap fun r => (RowCheck.revocationId r.data.toValue).toOption

theorem wellFormed_cons (r : Row Cell) (rest : List (Row Cell)) :
    wellFormed (r :: rest) =
      match RowCheck.revocationId r.data.toValue with
      | .ok b => b :: wellFormed rest
      | .error _ => wellFormed rest := by
  unfold wellFormed
  rw [List.filterMap_cons]
  cases RowCheck.revocationId r.data.toValue <;> rfl

/-- Malformed rows are logged and left out. -/
theorem exec_keepRevoked (rows : List (Row Cell)) (s : StoreState) :
    ∃ log, exec (keepRevoked rows) s = (.ok (wellFormed rows), { s with log }) := by
  rw [keepRevoked_eq, exec_keepRows]
  exact ⟨_, rfl⟩

/-- A load answers with the byte strings of the well-formed rows, whatever other rows there are. -/
theorem exec_loadRevoked_eq (hworks : s.outages.transactions = none)
    (hu : s.tables.revoked = some u) :
    ∃ log, exec loadRevoked s = (.ok (wellFormed u.rows).eraseDups, { s with log }) := by
  rcases exec_keepRevoked u.rows s with ⟨log, hkeep⟩
  refine ⟨log ++ [⟨LogLevel.info, subsystem,
    s!"Loaded {(wellFormed u.rows).eraseDups.length} revoked tokens from database"⟩], ?_⟩
  unfold loadRevoked Store.log
  rw [exec_bind, exec_transaction]
  simp only [hworks, hu, present_some, ok_bind, pure, Except.pure]
  rw [exec_bind_of_ok hkeep, exec_modify_bind]
  rfl

/-- A row with the column of some bytes is well-formed. -/
theorem mem_wellFormed {rows : List (Row Cell)} (hrow : cellOf b ∈ rows.map fun r => r.data)
    (hne : b ≠ []) : b ∈ wellFormed rows := by
  rcases List.mem_map.1 hrow with ⟨r, hr, hdata⟩
  refine List.mem_filterMap.2 ⟨r, hr, ?_⟩
  rw [hdata, revocationId_cellOf hne]
  rfl

/-- Rows that are the columns of byte strings are all well-formed. -/
theorem wellFormed_of_cells {rows : List (Row Cell)}
    (hrows : rows.map (fun r => r.data) = ids.map cellOf) (hnonempty : [] ∉ ids) :
    wellFormed rows = ids := by
  induction ids generalizing rows with
  | nil =>
    obtain rfl : rows = [] := List.map_eq_nil_iff.1 hrows
    rfl
  | cons b ids ih =>
    rcases List.map_eq_cons_iff.1 hrows with ⟨r, rest, rfl, hdata, hrest⟩
    rw [List.mem_cons, not_or] at hnonempty
    have hb := revocationId_cellOf fun hnil => hnonempty.1 hnil.symm
    rw [wellFormed_cons, hdata, hb]
    exact congrArg (b :: ·) (ih hrest hnonempty.2)

theorem eraseDups_of_nodup (h : ids.Nodup) : ids.eraseDups = ids := by
  induction ids with
  | nil => rfl
  | cons b ids ih =>
    rw [List.nodup_cons] at h
    have hrest : ids.filter (fun x => !x == b) = ids := by
      rw [List.filter_eq_self]
      intro x hx
      have hne : x ≠ b := by
        rintro rfl
        exact h.1 hx
      simpa using hne
    rw [List.eraseDups_cons, hrest, ih h.2]

/-- A load answers with the byte strings of the table. -/
theorem exec_loadRevoked (hworks : s.outages.transactions = none)
    (hu : s.tables.revoked = some u) (h : Refines calls u ids) :
    ∃ log, exec loadRevoked s = (.ok ids, { s with log }) := by
  rcases exec_loadRevoked_eq hworks hu with ⟨log, hload⟩
  rw [wellFormed_of_cells h.rows h.nonempty, eraseDups_of_nodup h.nodup] at hload
  exact ⟨log, hload⟩

/-! ## Histories -/

variable {p q : OpenStore} {tables : Tables}

theorem run_load (hold : q.Holds tables) (hu : tables.revoked = some u) (h : Refines calls u ids)
    (hworks : q.handle.outages.transactions = none) :
    (q.run StoreCall.loadRevoked.perform).1 = .ok (.revoked ids) := by
  rcases exec_loadRevoked (s := q.stateOn tables) hworks hu h with ⟨log, hload⟩
  rw [(OpenStore.exec_run hold _).1, StoreCall.perform, exec_map, hload]
  rfl

/-- A token that spells bytes is accepted; the file stays as it is if they are revoked already. -/
theorem run_revoke (hold : q.Holds tables) (hu : tables.revoked = some u) (h : Refines calls u ids)
    (hworks : q.handle.outages.transactions = none) {s : String} (hspells : Hex.Spells s b)
    (hne : b ≠ []) :
    ∃ q', q.run (StoreCall.revoke (.text s)).perform = (.ok .done, q') ∧
      (b ∈ ids → q'.Holds tables) := by
  rcases exec_revoke (s := q.stateOn tables) (revocationId_ok.2 ⟨s, rfl, hspells, hne⟩) hworks hu
    with ⟨log, hrevoke⟩
  rcases OpenStore.exec_run hold (StoreCall.revoke (.text s)).perform with ⟨hanswer, hold'⟩
  rw [StoreCall.perform, exec_map, hrevoke] at hanswer hold'
  refine ⟨_, Prod.ext hanswer rfl, ?_⟩
  intro hb
  rw [withToken_of_mem (h.mem_rows.2 hb)] at hold'
  have hsame : { tables with revoked := some u } = tables := by rw [← hu]
  rwa [OpenStore.stateOn, hsame] at hold'

/-- After any history from an empty table, whichever calls were made in it:

* the table has one row for each byte string that was revoked by a text which spells it, be it in
  capitals, with `0x` in front, or with blanks between its bytes; the row has the spelling of the
  store;
* whatever happens later, these rows stay as they are;
* a load answers with these byte strings;
* a text that spells at least one byte is accepted, and leaves the file as it is if the bytes were
  revoked before;
* everything else is refused, and changes nothing. -/
theorem revoked_stays_revoked (hold : p.Holds tables) (hu : tables.revoked = some u)
    (hempty : u.rows = []) (hleads : OpenStore.Leads p calls q) :
    ∃ now rows ids, q.Holds now ∧ now.revoked = some rows ∧
      ids.Nodup ∧ (∀ b, b ∈ ids ↔ Revoked calls b) ∧
      rows.rows.map (fun r => r.data) = ids.map cellOf ∧
      (∀ later q', OpenStore.Leads q later q' → ∃ next rows', q'.Holds next ∧
        next.revoked = some rows' ∧ rows.rows <+: rows'.rows) ∧
      (q.handle.outages.transactions = none →
        (q.run StoreCall.loadRevoked.perform).1 = .ok (.revoked ids) ∧
        ∀ s b, Hex.Spells s b → b ≠ [] → ∃ q',
          q.run (StoreCall.revoke (.text s)).perform = (.ok .done, q') ∧
          (b ∈ ids → q'.Holds now)) ∧
      ∀ id, (∀ s b, id = .text s → Hex.Spells s b → b = []) → ∃ problem,
        q.run (StoreCall.revoke id).perform = (.error (.argument (.revocation problem)), q) := by
  rcases keptByCalls_refines.leads hleads hold ⟨u, [], hu, refines_empty hempty⟩ with
    ⟨now, hnow, rows, ids, hrows, h⟩
  rw [List.nil_append] at h
  refine ⟨now, rows, ids, hnow, hrows, h.nodup, h.mem, h.rows, ?_, ?_, ?_⟩
  · -- the rows of now are the first ones at any later time
    intro later q' hlater
    have hbegins : BeginsWith rows.rows [] now := ⟨rows, hrows, List.prefix_refl _⟩
    rcases (keptByCalls_beginsWith rows.rows).leads hlater hnow hbegins with
      ⟨next, hnext, rows', hrows', hextends⟩
    exact ⟨next, rows', hnext, hrows', hextends⟩
  · intro hworks
    exact ⟨run_load hnow hrows h hworks, fun s b hspells hne =>
      run_revoke hnow hrows h hworks hspells hne⟩
  · intro id hid
    rcases revocationId_error hid with ⟨problem, hcheck⟩
    refine ⟨problem, OpenStore.run_of_exec_same hnow ?_⟩
    rw [StoreCall.perform, exec_map, exec_revoke_refused hcheck]
    rfl

/-- A token with a blank between its bytes, one of them in capitals; a question about another table;
and another token. -/
def twoTokens : List StoreCall :=
  [.revoke (.text "AB cd"), .hasSeed, .revoke (.text "0x07")]

/-- The store after these calls. -/
def revokedTwo : OpenStore :=
  twoTokens.foldl (fun p call => (p.run call.perform).2) .fresh

theorem leads_revokedTwo : OpenStore.Leads .fresh twoTokens revokedTwo :=
  ((OpenStore.Leads.nothing.accepted (a := .done) (Prod.ext rfl rfl)).accepted (a := .truth false)
    (Prod.ext rfl rfl)).accepted (a := .done) (Prod.ext rfl rfl)

/-- A token that was revoked is revoked in any spelling: nothing is added for another one. -/
theorem respelled_token_is_revoked :
    OpenStore.fresh.Holds (Tables.createMissing {}) ∧
    (Tables.createMissing {}).revoked = some {} ∧ ({} : Table Cell).rows = [] ∧
    OpenStore.Leads .fresh twoTokens revokedTwo ∧
    ∃ now ids q', revokedTwo.Holds now ∧
      (revokedTwo.run StoreCall.loadRevoked.perform).1 = .ok (.revoked ids) ∧
      [0xab, 0xcd] ∈ ids ∧
      revokedTwo.run (StoreCall.revoke (.text "0xabCD")).perform = (.ok .done, q') ∧
      q'.Holds now := by
  refine ⟨OpenStore.holds_fresh, rfl, rfl, leads_revokedTwo, ?_⟩
  obtain ⟨now, rows, ids, hnow, -, -, hmem, -, -, hanswers, -⟩ :=
    revoked_stays_revoked OpenStore.holds_fresh rfl rfl leads_revokedTwo
  have hrevoked : [0xab, 0xcd] ∈ ids :=
    (hmem _).2 ⟨"AB cd", by decide, Hex.decode?_iff.1 (by decide +kernel)⟩
  rcases (hanswers rfl).2 "0xabCD" [0xab, 0xcd] (Hex.decode?_iff.1 (by decide +kernel)) nofun with
    ⟨q', hrun, hsame⟩
  exact ⟨now, ids, q', hnow, (hanswers rfl).1, hrevoked, hrun, hsame hrevoked⟩

end NodeStore.Revocations
