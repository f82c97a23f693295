import NodeStore.Proofs.Store.Footprints
import NodeStore.Proofs.Store.Histories
import NodeStore.Proofs.Store.PeerMap

/-! # The map of channel ids

The table of channel ids is a map from temporary ids to final ones. Saves are about a temporary id
and deletions about a final one: `Mapped calls temporary final` says that the last save of the
temporary id gave it the final one, and that the final one was not deleted since. A deletion of a
final id that a temporary one had before does not reach it any more.

* `Changes`: what a call that succeeds makes of the table;
* `Refines.changes`: the rows are what the map holds, and stay so;
* `channelIds_refine_map`: what every call answers at the end of any history. -/

namespace NodeStore.ChannelIds

open Op Store

variable {calls : List StoreCall} {call : StoreCall} {t f t' f' temporary final : Bytes}
  {s : StoreState} {u u' : Table (Cell × Cell)}

/-! ## The map -/

/-- After some calls a temporary id has a final one: the last save of the temporary id gave it, and
no deletion of the final id came later. -/
def Mapped (calls : List StoreCall) (temporary final : Bytes) : Prop :=
  ∃ before save after, calls = before ++ save :: after ∧ save = .saveChannelId temporary final ∧
    ∀ later ∈ after, (∀ other, later ≠ .saveChannelId temporary other) ∧
      later ≠ .deleteChannelIds final

theorem not_mapped_nil : ¬ Mapped [] temporary final := by
  rintro ⟨before, save, after, hcalls, -⟩
  simp at hcalls

/-- The last call decides, if it is about the ids. -/
theorem mapped_concat : Mapped (calls ++ [call]) temporary final ↔
    call = .saveChannelId temporary final ∨
      Mapped calls temporary final ∧ (∀ other, call ≠ .saveChannelId temporary other) ∧
        call ≠ .deleteChannelIds final :=
  Assoc.exists_last_concat

/-- After a save. -/
theorem mapped_save : Mapped (calls ++ [.saveChannelId t f]) temporary final ↔
    temporary = t ∧ final = f ∨ temporary ≠ t ∧ Mapped calls temporary final := by
  rw [mapped_concat]
  constructor
  · rintro (hsave | ⟨hmapped, hother, -⟩)
    · injection hsave with htemporary hfinal
      exact Or.inl ⟨htemporary.symm, hfinal.symm⟩
    · refine Or.inr ⟨?_, hmapped⟩
      rintro rfl
      exact hother f rfl
  · rintro (⟨rfl, rfl⟩ | ⟨hne, hmapped⟩)
    · exact Or.inl rfl
    · refine Or.inr ⟨hmapped, ?_, nofun⟩
      intro other hsave
      injection hsave with htemporary
      exact hne htemporary.symm

/-- After a deletion. -/
theorem mapped_delete : Mapped (calls ++ [.deleteChannelIds f]) temporary final ↔
    final ≠ f ∧ Mapped calls temporary final := by
  rw [mapped_concat]
  constructor
  · rintro (hsave | ⟨hmapped, -, hdelete⟩)
    · exact absurd hsave nofun
    · refine ⟨?_, hmapped⟩
      rintro rfl
      exact hdelete rfl
  · rintro ⟨hne, hmapped⟩
    refine Or.inr ⟨hmapped, nofun, ?_⟩
    intro hdelete
    injection hdelete with hfinal
    exact hne hfinal.symm

/-- After a call that is not about channel ids. -/
theorem mapped_other (hcall : call.table? ≠ some .channels) :
    Mapped (calls ++ [call]) temporary final ↔ Mapped calls temporary final := by
  rw [mapped_concat]
  constructor
  · rintro (rfl | ⟨hmapped, -⟩)
    · exact absurd rfl hcall
    · exact hmapped
  · intro hmapped
    refine Or.inr ⟨hmapped, ?_, ?_⟩
    · rintro other rfl
      exact hcall rfl
    · rintro rfl
      exact hcall rfl

/-! ## Saves and deletions -/

theorem channelIdText_ok {id : Bytes} {name text : String} :
    channelIdText id name = .ok text ↔ id.length = 32 ∧ text = Hex.encode id := by
  unfold channelIdText
  split
  · rename_i hsize
    constructor
    · intro htext
      exact ⟨hsize, (Except.ok.inj htext).symm⟩
    · rintro ⟨-, rfl⟩
      rfl
  · rename_i hsize
    constructor
    · exact nofun
    · exact fun h => absurd h.1 hsize

theorem channelIdText_of_wrongSize {id : Bytes} (hsize : id.length ≠ 32) (name : String) :
    channelIdText id name = .error (.argument (.idSize name id.length)) := if_neg hsize

/-- A save that succeeds has ids of their size, and is not stopped. -/
theorem sized_of_save {s' : StoreState} (h : exec (saveChannelId t f) s = (.ok (), s')) :
    ChannelMap.Sized (t, f) ∧ ¬ Stops s.outages := by
  have hsized : ChannelMap.Sized (t, f) := by
    unfold saveChannelId at h
    rcases exec_bind_ok.1 h with ⟨_, s₁, -, htemporary⟩
    rcases exec_bind_ok.1 htemporary with ⟨text, s₂, htext, hfinal⟩
    rcases exec_bind_ok.1 hfinal with ⟨text', s₃, htext', -⟩
    rw [exec_liftExcept, Prod.mk.injEq] at htext htext'
    exact ⟨(channelIdText_ok.1 htext.1).1, (channelIdText_ok.1 htext'.1).1⟩
  refine ⟨hsized, ?_⟩
  intro hstops
  rcases exec_saveChannelId_stopped hsized hstops with ⟨fault, s'', hstopped, -⟩
  rw [hstopped] at h
  simp at h

/-- The row resolves to the final id. -/
def resolvesTo (final : Bytes) (d : Cell × Cell) : Bool :=
  d.2 == .text (Hex.encode final)

theorem resolvesTo_cellsOf {p : Bytes × Bytes} : resolvesTo f (cellsOf p) = true ↔ p.2 = f := by
  unfold resolvesTo cellsOf
  rw [beq_iff_eq, Cell.text.injEq]
  exact ⟨fun h => Hex.encode_injective h, fun h => congrArg Hex.encode h⟩

/-- A deletion removes the rows that resolve to its id, and answers with their number. -/
theorem exec_deleteChannelIds (hsize : f.length = 32) (hworks : s.outages.transactions = none)
    (hu : s.tables.channels = some u) :
    ∃ log, exec (deleteChannelIds f) s = (.ok (u.countWhere (resolvesTo f)), { s with
      tables := { s.tables with channels := some (u.deleteWhere (resolvesTo f)) }
      log }) := by
  unfold deleteChannelIds log
  rw [exec_bind_of_ok (by rw [exec_liftExcept, channelIdText_of_size hsize]), exec_modify_bind,
    exec_bind, exec_transaction]
  simp only [hworks, hu, present_some, ok_bind, pure, Except.pure]
  split
  · exact ⟨_, rfl⟩
  · exact ⟨_, rfl⟩

/-- A deletion that succeeds has an id of its size, and finds an engine that works. -/
theorem sized_of_delete {s' : StoreState} {n : Nat}
    (h : exec (deleteChannelIds f) s = (.ok n, s')) :
    f.length = 32 ∧ s.outages.transactions = none := by
  unfold deleteChannelIds log at h
  rcases exec_bind_ok.1 h with ⟨text, s₁, htext, hrest⟩
  rw [exec_liftExcept, Prod.mk.injEq] at htext
  rw [exec_modify_bind] at hrest
  rcases exec_bind_ok.1 hrest with ⟨count, s₂, hcommit, -⟩
  have hworks := (exec_transaction_ok.1 hcommit).1
  rw [← htext.2] at hworks
  exact ⟨(channelIdText_ok.1 htext.1).1, hworks⟩

/-! ## The table -/

/-- What a call that succeeds makes of the table of channel ids. -/
inductive Changes (u : Table (Cell × Cell)) : StoreCall → Table (Cell × Cell) → Prop where
  | saved {t f : Bytes} : ChannelMap.Sized (t, f) →
      Changes u (.saveChannelId t f) (u.upsert (cellsOf (t, f)).1 (cellsOf (t, f)).2)
  | deleted {f : Bytes} : f.length = 32 →
      Changes u (.deleteChannelIds f) (u.deleteWhere (resolvesTo f))
  | other {call : StoreCall} : call.table? ≠ some .channels → Changes u call u

theorem changes_of_ok {a : StoreAnswer} {s' : StoreState} (hu : s.tables.channels = some u)
    (h : exec call.perform s = (.ok a, s')) :
    ∃ u', s'.tables.channels = some u' ∧ Changes u call u' := by
  by_cases hcall : call.table? = some .channels
  · cases call with
    | saveChannelId t f =>
      rcases exec_map_ok.1 h with ⟨done, hsave, -⟩
      rcases sized_of_save hsave with ⟨hsized, hgoes⟩
      rcases exec_saveChannelId hsized hu hgoes with ⟨log, hrun⟩
      obtain rfl : s' = _ := congrArg Prod.snd (hsave.symm.trans hrun)
      exact ⟨_, rfl, .saved hsized⟩
    | deleteChannelIds f =>
      rcases exec_map_ok.1 h with ⟨n, hdelete, -⟩
      rcases sized_of_delete hdelete with ⟨hsize, hworks⟩
      rcases exec_deleteChannelIds hsize hworks hu with ⟨log, hrun⟩
      obtain rfl : s' = _ := congrArg Prod.snd (hdelete.symm.trans hrun)
      exact ⟨_, rfl, .deleted hsize⟩
    | _ => exact absurd hcall nofun
  · -- every other call writes to another table, if to any
    have hsame := ((writesOnly_perform call).sameBut s).channels hcall
    rw [h] at hsame
    exact ⟨u, hsame.trans hu, .other hcall⟩

/-- A row stays, unless it resolves to an id that is deleted. -/
theorem Changes.stays (h : Changes u call u') {r : Row (Cell × Cell)} (hr : r ∈ u.rows)
    (hkeep : ∀ f, call = .deleteChannelIds f → resolvesTo f r.data = false) : Stays r u' := by
  cases h with
  | saved hsized => exact Table.row_upsert _ _ hr
  | deleted hsize => exact ⟨r, Table.mem_deleteWhere.2 ⟨hr, hkeep _ rfl⟩, rfl, rfl⟩
  | other hcall => exact ⟨r, hr, rfl, rfl⟩

/-- The table holds what the map does: one row for each temporary id, in the spelling of the
store. -/
structure Refines (calls : List StoreCall) (u : Table (Cell × Cell)) : Prop where
  canonical : Canonical u
  rows : ∀ t f, (∃ r ∈ u.rows, r.data = cellsOf (t, f)) ↔ Mapped calls t f

theorem refines_empty (hempty : u.rows = []) : Refines [] u where
  canonical := ⟨by simp [Table.keys, hempty], by simp [hempty]⟩
  rows := by
    intro t f
    simp [hempty, not_mapped_nil]

/-- Calls that succeed keep the table in step with the map. -/
theorem Refines.changes (h : Refines calls u) (hchanges : Changes u call u') :
    Refines (calls ++ [call]) u' := by
  cases hchanges with
  | @saved t f hsized =>
    refine ⟨h.canonical.upsert hsized, ?_⟩
    intro t' f'
    rw [Table.mem_upsert, h.rows, mapped_save]
    -- the spelling of the store is one to one, so rows are told apart as ids are
    have hkey : (cellsOf (t', f')).1 = (cellsOf (t, f)).1 ↔ t' = t := by
      unfold cellsOf
      rw [Cell.text.injEq]
      exact ⟨fun heq => Hex.encode_injective heq, fun heq => congrArg Hex.encode heq⟩
    have hpair : cellsOf (t', f') = ((cellsOf (t, f)).1, (cellsOf (t, f)).2) ↔
        t' = t ∧ f' = f := by
      rw [Prod.mk.eta, ← Prod.mk.injEq]
      exact ⟨cellsOf_injective, fun heq => congrArg cellsOf heq⟩
    rw [hpair, ne_eq, hkey]
  | @deleted f hsize =>
    refine ⟨h.canonical.deleteWhere _, ?_⟩
    intro t' f'
    simp only [Table.mem_deleteWhere]
    rw [mapped_delete, ← h.rows]
    constructor
    · rintro ⟨r, ⟨hr, hkept⟩, hdata⟩
      refine ⟨?_, r, hr, hdata⟩
      rintro rfl
      have hresolves := resolvesTo_cellsOf (p := (t', f')).2 rfl
      rw [hdata, hresolves] at hkept
      simp at hkept
    · rintro ⟨hne, r, hr, hdata⟩
      refine ⟨r, ⟨hr, ?_⟩, hdata⟩
      rw [hdata, Bool.eq_false_iff, ne_eq, resolvesTo_cellsOf]
      exact hne
  | other hcall =>
    refine ⟨h.canonical, ?_⟩
    intro t' f'
    rw [mapped_other hcall]
    exact h.rows t' f'

/-- The map at any time of a history is what the table holds then. -/
theorem keptByCalls_refines :
    OpenStore.KeptByCalls fun calls tables =>
      ∃ u, tables.channels = some u ∧ Refines calls u where
  accepted := by
    rintro calls call s a s' ⟨u, hu, h⟩ hrun
    rcases changes_of_ok hu hrun with ⟨u', hu', hchanges⟩
    exact ⟨u', hu', h.changes hchanges⟩
  createMissing := by
    rintro calls tables ⟨u, hu, h⟩
    exact ⟨u, by simp [Tables.createMissing, hu], h⟩

/-! ## Answers -/

/-- What is said about ids of which one has not its size; the temporary one is looked at first. -/
def wrongSize (t f : Bytes) : ArgumentFault :=
  if t.length = 32 then .idSize "channel_id" f.length
  else .idSize "temporary_channel_id" t.length

theorem exec_saveChannelId_wrongSize (hwrong : ¬ ChannelMap.Sized (t, f))
    (hworks : s.outages = {}) :
    exec (saveChannelId t f) s = (.error (.argument (wrongSize t f)), s) := by
  have hcount : exec countChannelSave s = (.ok (), s) := by
    have hafter : afterSave s.outages = s.outages := by rw [hworks]; rfl
    rw [exec_countChannelSave, hafter, if_neg]
    rw [hworks]
    decide
  unfold saveChannelId wrongSize
  rw [exec_bind_of_ok hcount]
  by_cases htemporary : t.length = 32
  · have hfinal : f.length ≠ 32 := fun hfinal => hwrong ⟨htemporary, hfinal⟩
    rw [if_pos htemporary,
      exec_bind_of_ok (by rw [exec_liftExcept, channelIdText_of_size htemporary])]
    exact exec_bind_of_error (by rw [exec_liftExcept, channelIdText_of_wrongSize hfinal])
  · rw [if_neg htemporary]
    exact exec_bind_of_error (by rw [exec_liftExcept, channelIdText_of_wrongSize htemporary])

theorem exec_deleteChannelIds_wrongSize (hwrong : f.length ≠ 32) :
    exec (deleteChannelIds f) s = (.error (.argument (.idSize "channel_id" f.length)), s) := by
  unfold deleteChannelIds
  exact exec_bind_of_error (by rw [exec_liftExcept, channelIdText_of_wrongSize hwrong])

variable {ids : List (Bytes × Bytes)}

/-- The number of rows that resolve to an id. -/
theorem countWhere_pairs (hids : u.rows.map (fun r => r.data) = ids.map cellsOf) (f : Bytes) :
    u.countWhere (resolvesTo f) = ids.countP fun p => p.2 = f := by
  have hcount : u.countWhere (resolvesTo f) =
      (u.rows.map fun r => r.data).countP (resolvesTo f) := by
    rw [List.countP_map]
    rfl
  rw [hcount, hids, List.countP_map]
  refine List.countP_congr fun p _ => ?_
  rw [Function.comp_apply, resolvesTo_cellsOf, decide_eq_true_eq]

/-- The rows that are left after a deletion. -/
theorem deleteWhere_pairs (hids : u.rows.map (fun r => r.data) = ids.map cellsOf) (f : Bytes) :
    (u.deleteWhere (resolvesTo f)).rows.map (fun r => r.data) =
      (ids.filter fun p => p.2 ≠ f).map cellsOf := by
  have hrows : (u.deleteWhere (resolvesTo f)).rows.map (fun r => r.data) =
      (u.rows.map fun r => r.data).filter fun d => !resolvesTo f d := by
    rw [List.filter_map]
    rfl
  rw [hrows, hids, List.filter_map]
  refine congrArg (List.map cellsOf) (List.filter_congr fun p _ => ?_)
  rw [Function.comp_apply, Bool.eq_iff_iff, Bool.not_eq_true', Bool.eq_false_iff, ne_eq,
    resolvesTo_cellsOf, decide_eq_true_eq]

variable {q : OpenStore} {tables : Tables}

/-- A load of a table of pairs. -/
theorem run_load (hold : q.Holds tables) (hu : tables.channels = some u) (hcanonical : Canonical u)
    (hids : u.rows.map (fun r => r.data) = ids.map cellsOf)
    (hworks : q.handle.outages.transactions = none) :
    (q.run StoreCall.loadChannelIds.perform).1 = .ok (.channelIds ids) := by
  have hsized : ∀ p ∈ ids, ChannelMap.Sized p := by
    intro p hp
    rcases (mem_pairs hids).1 hp with ⟨r, hr, hdata⟩
    rcases hcanonical.rows r hr with ⟨p', hsized, hdata'⟩
    rwa [cellsOf_injective (hdata.symm.trans hdata')]
  rcases exec_loadChannelIds_pairs (s := q.stateOn tables) hworks hu hids hsized
    hcanonical.nodup with ⟨log, hload⟩
  rw [(OpenStore.exec_run hold _).1, StoreCall.perform, exec_map, hload]
  rfl

/-- A deletion from a table of pairs, and a load after it. -/
theorem run_delete (hold : q.Holds tables) (hu : tables.channels = some u)
    (hcanonical : Canonical u) (hids : u.rows.map (fun r => r.data) = ids.map cellsOf)
    (hworks : q.handle.outages.transactions = none) (hsize : f.length = 32) :
    ∃ q', q.run (StoreCall.deleteChannelIds f).perform =
        (.ok (.count (ids.countP fun p => p.2 = f)), q') ∧
      (q'.run StoreCall.loadChannelIds.perform).1 =
        .ok (.channelIds (ids.filter fun p => p.2 ≠ f)) := by
  rcases exec_deleteChannelIds (s := q.stateOn tables) hsize hworks hu with ⟨log, hdelete⟩
  rcases OpenStore.exec_run hold (StoreCall.deleteChannelIds f).perform with ⟨hanswer, hold'⟩
  rw [StoreCall.perform, exec_map, hdelete] at hanswer hold'
  refine ⟨_, Prod.ext (hanswer.trans ?_) rfl, ?_⟩
  · rw [countWhere_pairs hids]
    rfl
  · exact run_load hold' rfl (hcanonical.deleteWhere _) (deleteWhere_pairs hids f) hworks

/-- A save of ids that have their size. -/
theorem run_save (hold : q.Holds tables) (hu : tables.channels = some u)
    (hworks : q.handle.outages = {}) (hsized : ChannelMap.Sized (t, f)) :
    ∃ q', q.run (StoreCall.saveChannelId t f).perform = (.ok .done, q') := by
  have hgoes : ¬ Stops (q.stateOn tables).outages := by
    show ¬ Stops q.handle.outages
    rw [hworks]
    unfold Stops
    decide
  rcases exec_saveChannelId hsized hu hgoes with ⟨log, hsave⟩
  refine ⟨_, Prod.ext ?_ rfl⟩
  rw [(OpenStore.exec_run hold _).1, StoreCall.perform, exec_map, hsave]
  rfl

/-! ## Histories -/

/-- Whatever happens next, every row stays that does not resolve to an id that is deleted. -/
theorem stays_step {q' : OpenStore} {new : List StoreCall} (hold : q.Holds tables)
    (hu : tables.channels = some u) (hstep : OpenStore.Step q new q') :
    ∃ next u', q'.Holds next ∧ next.channels = some u' ∧
      ∀ r ∈ u.rows, (∀ f, .deleteChannelIds f ∈ new → r.data.2 ≠ .text (Hex.encode f)) →
        Stays r u' := by
  rcases hstep.holds hold with ⟨next, hold', ⟨rfl, hsame⟩ | ⟨call, a, s, rfl, hexec, rfl⟩⟩
  · refine ⟨next, u, hold', ?_, fun r hr _ => ⟨r, hr, rfl, rfl⟩⟩
    rcases hsame with rfl | rfl
    · exact hu
    · simp [Tables.createMissing, hu]
  · rcases changes_of_ok (s := q.stateOn tables) hu hexec with ⟨u', hu', hchanges⟩
    refine ⟨s.tables, u', hold', hu', fun r hr hkeep => hchanges.stays hr ?_⟩
    rintro f rfl
    unfold resolvesTo
    rw [beq_eq_false_iff_ne]
    exact hkeep f List.mem_cons_self

/-- The text of an id: 64 small digits. -/
def IsIdText (s : String) : Prop :=
  s.toList.length = 64 ∧ ∀ c ∈ s.toList, c ∈ "0123456789abcdef".toList

theorem isIdText_encode {id : Bytes} (hsize : id.length = 32) : IsIdText (Hex.encode id) := by
  rcases Hex.encode_digits id with ⟨hlength, hdigits⟩
  exact ⟨by rw [hlength, hsize], hdigits⟩

/-- After any history from an empty table:

* the table has one row for each temporary id that has a final one, with both ids as 64 small
  digits; every row passes the check of a load, so that none is skipped;
* what happens next keeps the id and the key of every row, unless the row resolves to an id that is
  deleted;
* a load answers with the pairs of all rows: each temporary id that has a final one, with that;
* a deletion answers with the number of pairs of its final id, and a load after it with the others;
* a save of ids that have their size succeeds, and a save or a deletion with an id of another size
  says so and changes nothing.

The answers are those of an engine that works; in the history before it may have failed. -/
theorem channelIds_refine_map {p : OpenStore} (hold : p.Holds tables)
    (hu : tables.channels = some u) (hempty : u.rows = []) (hleads : OpenStore.Leads p calls q) :
    ∃ now rows ids, q.Holds now ∧ now.channels = some rows ∧
      rows.rows.map (fun r => r.data) = ids.map cellsOf ∧ rows.keys.Nodup ∧
      (∀ r ∈ rows.rows, ∃ t f : String, r.data = (.text t, .text f) ∧ IsIdText t ∧ IsIdText f ∧
        ∃ pair, RowCheck.channelIds r.data.1.toValue r.data.2.toValue = .ok pair) ∧
      (ids.map Prod.fst).Nodup ∧ (∀ pair ∈ ids, ChannelMap.Sized pair) ∧
      (∀ t f, (t, f) ∈ ids ↔ Mapped calls t f) ∧
      (∀ new q', OpenStore.Step q new q' → ∃ next rows', q'.Holds next ∧
        next.channels = some rows' ∧
        ∀ r ∈ rows.rows,
          (∀ f, .deleteChannelIds f ∈ new → r.data.2 ≠ .text (Hex.encode f)) →
          Stays r rows') ∧
      (q.handle.outages = {} →
        (q.run StoreCall.loadChannelIds.perform).1 = .ok (.channelIds ids) ∧
        (∀ f, f.length = 32 → ∃ q', q.run (StoreCall.deleteChannelIds f).perform =
            (.ok (.count (ids.countP fun pair => pair.2 = f)), q') ∧
          (q'.run StoreCall.loadChannelIds.perform).1 =
            .ok (.channelIds (ids.filter fun pair => pair.2 ≠ f))) ∧
        (∀ t f, t.length = 32 → f.length = 32 →
          ∃ q', q.run (StoreCall.saveChannelId t f).perform = (.ok .done, q')) ∧
        (∀ t f, ¬ (t.length = 32 ∧ f.length = 32) →
          q.run (StoreCall.saveChannelId t f).perform =
            (.error (.argument (wrongSize t f)), q)) ∧
        ∀ f, f.length ≠ 32 → q.run (StoreCall.deleteChannelIds f).perform =
          (.error (.argument (.idSize "channel_id" f.length)), q)) := by
  rcases keptByCalls_refines.leads hleads hold ⟨u, hu, refines_empty hempty⟩ with
    ⟨now, hnow, rows, hrows, h⟩
  rw [List.nil_append] at h
  -- the pairs that the rows spell are what every answer is about
  rcases exists_pairs h.canonical.rows with ⟨ids, hids, hsized⟩
  refine ⟨now, rows, ids, hnow, hrows, hids, h.canonical.nodup, ?_, ?_, hsized, ?_, ?_, ?_⟩
  · intro r hr
    rcases h.canonical.rows r hr with ⟨pair, hpair, hdata⟩
    refine ⟨_, _, hdata, isIdText_encode hpair.1, isIdText_encode hpair.2, pair, ?_⟩
    rw [hdata]
    exact checkChannelIds_cellsOf hpair
  · exact List.Nodup.of_map _ (keys_of_pairs hids ▸ h.canonical.nodup)
  · intro t f
    rw [mem_pairs hids, h.rows]
  · exact fun new q' hstep => stays_step hnow hrows hstep
  · intro hworks
    have htransactions : q.handle.outages.transactions = none := by rw [hworks]
    refine ⟨run_load hnow hrows h.canonical hids htransactions, ?_, ?_, ?_, ?_⟩
    · exact fun f hsize => run_delete hnow hrows h.canonical hids htransactions hsize
    · exact fun t f htemporary hfinal => run_save hnow hrows hworks ⟨htemporary, hfinal⟩
    · intro t f hwrong
      refine OpenStore.run_of_exec_same hnow ?_
      rw [StoreCall.perform, exec_map, exec_saveChannelId_wrongSize hwrong hworks]
      rfl
    · intro f hwrong
      refine OpenStore.run_of_exec_same hnow ?_
      rw [StoreCall.perform, exec_map, exec_deleteChannelIds_wrongSize hwrong]
      rfl

/-- An id of one byte over and over. -/
def idOf (x : UInt8) : Bytes := List.replicate 32 x

/-- Two temporary ids get one final id, and then the first gets another one. -/
def remapping : List StoreCall :=
  [.saveChannelId (idOf 1) (idOf 10), .saveChannelId (idOf 2) (idOf 10),
    .saveChannelId (idOf 1) (idOf 11)]

/-- The store after these calls. -/
def remapped : OpenStore :=
  remapping.foldl (fun p call => (p.run call.perform).2) .fresh

theorem leads_remapped : OpenStore.Leads .fresh remapping remapped :=
  ((OpenStore.Leads.nothing.accepted (a := .done) (Prod.ext rfl rfl)).accepted (a := .done)
    (Prod.ext rfl rfl)).accepted (a := .done) (Prod.ext rfl rfl)

/-- A temporary id that got another final id is out of reach of a deletion of its first one. -/
theorem remapped_id_survives_deletion :
    OpenStore.fresh.Holds (Tables.createMissing {}) ∧
    (Tables.createMissing {}).channels = some {} ∧ ({} : Table (Cell × Cell)).rows = [] ∧
    OpenStore.Leads .fresh remapping remapped ∧
    ∃ n ids q', remapped.run (StoreCall.deleteChannelIds (idOf 10)).perform =
        (.ok (.count n), q') ∧
      (q'.run StoreCall.loadChannelIds.perform).1 = .ok (.channelIds ids) ∧
      (idOf 1, idOf 11) ∈ ids ∧ (idOf 2, idOf 10) ∉ ids := by
  refine ⟨OpenStore.holds_fresh, rfl, rfl, leads_remapped, ?_⟩
  obtain ⟨now, rows, ids, -, -, -, -, -, -, -, hmapped, -, hanswers⟩ :=
    channelIds_refine_map OpenStore.holds_fresh rfl rfl leads_remapped
  rcases (hanswers rfl).2.1 (idOf 10) rfl with ⟨q', hdelete, hload⟩
  refine ⟨_, _, q', hdelete, hload, ?_, ?_⟩
  · have hlast : Mapped remapping (idOf 1) (idOf 11) :=
      ⟨[.saveChannelId (idOf 1) (idOf 10), .saveChannelId (idOf 2) (idOf 10)], _, [], rfl, rfl,
        by simp⟩
    rw [List.mem_filter]
    exact ⟨(hmapped _ _).2 hlast, by decide⟩
  · rw [List.mem_filter]
    rintro ⟨-, hkept⟩
    exact absurd hkept (by decide)

end NodeStore.ChannelIds
