import NodeStore.Proofs.Assoc
import NodeStore.Proofs.Hex
import NodeStore.Proofs.Record.ChannelMap
import NodeStore.Proofs.Store.Settings
import NodeStore.Proofs.Table.Replay

/-! # Saved channel ids

Saving the pairs of a channel map one after the other may stop at a pair that cannot be saved.
`Outages.savedBefore` tells how many pairs are saved before that. What the store's own calls make
of an empty table is canonical: ids have their size and are spelled in one way, and no temporary
id comes twice. From a canonical table every pair is loaded.

* `exec_saveChannelId`, `exec_saveChannelId_stopped`: one save, and one that fails;
* `Produced.canonical`: what the store's own calls make;
* `exec_loadChannelIds_pairs`: what is loaded from a table of pairs, as a canonical one is. -/

namespace NodeStore

/-- How many of some saves of channel ids are carried out before the first one that fails, if one
of them does. -/
def Outages.savedBefore (o : Outages) (saves : Nat) : Option Nat :=
  if o.transactions.isSome then (if saves = 0 then none else some 0)
  else
    match o.channelSave with
    | some (k + 1) => if k < saves then some k else none
    | _ => none

namespace Store

open Op

/-- The next save of a channel id fails. -/
def Stops (o : Outages) : Prop :=
  o.transactions.isSome = true ∨ (countDown o.channelSave).1 = true

/-- The outages after a save of a channel id. -/
def afterSave (o : Outages) : Outages :=
  { o with channelSave := (countDown o.channelSave).2 }

variable {o : Outages} {n : Nat}

theorem savedBefore_zero (o : Outages) : o.savedBefore 0 = none := by
  unfold Outages.savedBefore
  split
  · rfl
  · split <;> simp

theorem savedBefore_of_stops (h : Stops o) (n : Nat) : o.savedBefore (n + 1) = some 0 := by
  unfold Outages.savedBefore
  split
  · simp
  · rename_i hworks
    rcases h with h | h
    · exact absurd h hworks
    · unfold countDown at h
      split at h
      · simp_all
      · simp at h
      · simp at h

theorem savedBefore_of_not_stops (h : ¬ Stops o) (n : Nat) :
    o.savedBefore (n + 1) = ((afterSave o).savedBefore n).map (· + 1) := by
  unfold Stops at h
  rw [not_or] at h
  have hworks : (afterSave o).transactions.isSome = false := by simpa [afterSave] using h.1
  unfold Outages.savedBefore
  rw [if_neg h.1, hworks, if_neg Bool.false_ne_true]
  unfold afterSave
  rcases o with ⟨transactions, reads, channelSave, settingSave⟩
  match channelSave with
  | none => rfl
  | some 0 => rfl
  | some 1 => simp [countDown] at h
  | some (k + 2) =>
    simp only [countDown]
    by_cases hk : k < n
    · rw [if_pos (by omega), if_pos hk]
      rfl
    · rw [if_neg (by omega), if_neg hk]
      rfl

/-! ## One save -/

/-- The columns of a pair of ids. -/
def cellsOf (p : Bytes × Bytes) : Cell × Cell :=
  (.text (Hex.encode p.1), .text (Hex.encode p.2))

theorem cellsOf_injective {p q : Bytes × Bytes} (h : cellsOf p = cellsOf q) : p = q := by
  simp only [cellsOf, Prod.mk.injEq, Cell.text.injEq] at h
  exact Prod.ext (Hex.encode_injective h.1) (Hex.encode_injective h.2)

/-- The pairs of a map that is read have distinct keys. -/
theorem nodup_cellsOf {d : Bytes} {m : ChannelMap} (h : ChannelMap.decode d = .ok m) :
    ((m.entries.map cellsOf).map Prod.fst).Nodup := by
  have hkeys : (m.entries.map cellsOf).map Prod.fst =
      (m.entries.map Prod.fst).map fun id => Cell.text (Hex.encode id) := by
    rw [List.map_map, List.map_map]
    rfl
  rw [hkeys]
  refine (ChannelMap.fits_of_decode h).1.map ?_
  intro id id' heq
  exact Hex.encode_injective (Cell.text.inj heq)

variable {s : StoreState} {t : Table (Cell × Cell)} {p : Bytes × Bytes}

theorem exec_countChannelSave (s : StoreState) : exec countChannelSave s =
    (if (countDown s.outages.channelSave).1 then .error (.database locked) else .ok (),
      { s with outages := afterSave s.outages }) := by
  unfold countChannelSave
  rw [exec_get_bind]
  simp only [exec_set_bind]
  split <;> rfl

/-- Saves of channel ids do not touch what is known of settings. -/
theorem keeps_saveChannelId_cache (cache : ConfigCache Cell) (temporary final : Bytes) :
    Keeps (fun s : StoreState => s.cache = cache) (saveChannelId temporary final) := by
  have hcount : Keeps (fun s : StoreState => s.cache = cache) countChannelSave := by
    intro s hs
    rw [exec_countChannelSave]
    exact hs
  unfold saveChannelId
  refine keeps_bind hcount fun _ => ?_
  refine keeps_bind (keeps_liftExcept _) fun _ => ?_
  refine keeps_bind (keeps_liftExcept _) fun _ => ?_
  refine keeps_bind (keeps_modify fun _ hs => hs) fun _ => ?_
  exact keeps_transaction fun _ _ _ hs _ => hs

theorem channelIdText_of_size {id : Bytes} (h : id.length = 32) (name : String) :
    channelIdText id name = .ok (Hex.encode id) := if_pos h

/-- A save that is not stopped puts its pair into the table. -/
theorem exec_saveChannelId (hsized : ChannelMap.Sized p) (ht : s.tables.channels = some t)
    (hgoes : ¬ Stops s.outages) :
    ∃ log, exec (saveChannelId p.1 p.2) s =
      (.ok (), { s with
        tables := { s.tables with
          channels := some (t.upsert (cellsOf p).1 (cellsOf p).2) }
        outages := afterSave s.outages
        log }) := by
  unfold Stops at hgoes
  rw [not_or] at hgoes
  have hworks : s.outages.transactions = none := by simpa using hgoes.1
  have hcount := exec_countChannelSave s
  rw [if_neg hgoes.2] at hcount
  unfold saveChannelId log
  rw [exec_bind_of_ok hcount,
    exec_bind_of_ok (by rw [exec_liftExcept, channelIdText_of_size hsized.1]),
    exec_bind_of_ok (by rw [exec_liftExcept, channelIdText_of_size hsized.2]), exec_modify_bind]
  refine ⟨_, exec_transaction_ok.2 ⟨hworks, _, ?_, rfl⟩⟩
  simp only [ht]
  rfl

/-- A save that is stopped leaves the tables as they are. -/
theorem exec_saveChannelId_stopped (hsized : ChannelMap.Sized p) (hstops : Stops s.outages) :
    ∃ fault s', exec (saveChannelId p.1 p.2) s = (.error (.database fault), s') ∧
      s'.tables = s.tables := by
  have hcount := exec_countChannelSave s
  unfold saveChannelId log
  by_cases hcounted : (countDown s.outages.channelSave).1 = true
  · rw [if_pos hcounted] at hcount
    exact ⟨locked, _, exec_bind_of_error hcount, rfl⟩
  · have houtage := Option.isSome_iff_exists.1 (hstops.resolve_right hcounted)
    rcases houtage with ⟨fault, houtage⟩
    have houtage' : (afterSave s.outages).transactions = some fault := houtage
    rw [if_neg hcounted] at hcount
    rw [exec_bind_of_ok hcount,
      exec_bind_of_ok (by rw [exec_liftExcept, channelIdText_of_size hsized.1]),
      exec_bind_of_ok (by rw [exec_liftExcept, channelIdText_of_size hsized.2]), exec_modify_bind,
      exec_transaction]
    simp only [houtage']
    exact ⟨fault, _, rfl, rfl⟩

/-! ## Canonical tables -/

/-- Ids have their size and are spelled in one way, and no temporary id comes twice. -/
structure Canonical (t : Table (Cell × Cell)) : Prop where
  nodup : t.keys.Nodup
  rows : ∀ r ∈ t.rows, ∃ p, ChannelMap.Sized p ∧ r.data = cellsOf p

theorem canonical_empty : Canonical {} := ⟨by simp [Table.keys], by simp⟩

theorem Canonical.upsert (h : Canonical t) (hsized : ChannelMap.Sized p) :
    Canonical (t.upsert (cellsOf p).1 (cellsOf p).2) where
  nodup := Table.nodup_keys_upsert h.nodup
  rows := by
    intro r hr
    rcases Table.mem_upsert.1 ⟨r, hr, rfl⟩ with hdata | ⟨-, r', hr', hdata⟩
    · exact ⟨p, hsized, hdata⟩
    · rw [← hdata]
      exact h.rows r' hr'

theorem Canonical.deleteWhere (h : Canonical t) (q : Cell × Cell → Bool) :
    Canonical (t.deleteWhere q) where
  nodup := h.nodup.sublist (List.filter_sublist.map _)
  rows := fun r hr => h.rows r (List.mem_filter.1 hr).1

/-- A table into which a map that was read is put stays canonical. -/
theorem Canonical.upsertAll {pairs : List (Bytes × Bytes)} (h : Canonical t)
    (hsized : ∀ p ∈ pairs, ChannelMap.Sized p) :
    Canonical (Table.upsertAll (pairs.map cellsOf) t) := by
  refine Table.upsertAll_keeps ?_ h
  intro q hq t ht
  rcases List.mem_map.1 hq with ⟨p, hp, rfl⟩
  exact ht.upsert (hsized p hp)

/-- A call that is about channel ids. -/
inductive ChannelCall where
  | save (temporary final : Bytes)
  | delete (final : Bytes)
  | load

/-- Carries out a call, whatever it answers. -/
def ChannelCall.perform : ChannelCall → StoreM Unit
  | save temporary final => saveChannelId temporary final
  | delete final => discard (deleteChannelIds final)
  | load => discard loadChannelIds

/-- A table of channel ids that the store's own calls make of a new one, whether they succeed or
fail. -/
inductive Produced : Table (Cell × Cell) → Prop where
  | new : Produced {}
  | call {t t' : Table (Cell × Cell)} {s : StoreState} (call : ChannelCall) : Produced t →
    s.tables.channels = some t → (exec call.perform s).2.tables.channels = some t' → Produced t'

/-- The table of channel ids, if there is one, is canonical. -/
def CanonicalChannels (s : StoreState) : Prop :=
  ∀ t, s.tables.channels = some t → Canonical t

theorem keeps_log {I : StoreState → Prop} (hlog : ∀ s log, I s → I { s with log }) (level : Int)
    (message : String) : Keeps I (log level message) := fun s hs => hlog s _ hs

/-- The rule for a transaction that edits the table of channel ids. -/
theorem keeps_editChannels {α : Type} (statement : Option Statement)
    (answer : Table (Cell × Cell) → α) {edit : Table (Cell × Cell) → Table (Cell × Cell)}
    (hedit : ∀ t, Canonical t → Canonical (edit t)) :
    Keeps CanonicalChannels (transaction fun tables => do
      let channels ← present .channels statement tables.channels
      return (answer channels, { tables with channels := some (edit channels) })) := by
  apply keeps_transaction
  intro s u tables hs hbody
  cases ht : s.tables.channels with
  | none => simp [ht, present, bind, Except.bind] at hbody
  | some t =>
    simp only [ht, present_some, ok_bind, pure, Except.pure, Except.ok.injEq,
      Prod.mk.injEq] at hbody
    rcases hbody with ⟨-, rfl⟩
    intro t' ht'
    obtain rfl := Option.some.inj ht'
    exact hedit t (hs t ht)

theorem keeps_saveChannelId (temporary final : Bytes) :
    Keeps CanonicalChannels (saveChannelId temporary final) := by
  have hcount : Keeps CanonicalChannels countChannelSave := by
    intro s hs
    rw [exec_countChannelSave]
    exact hs
  unfold saveChannelId
  refine keeps_bind hcount fun _ => ?_
  intro s hs
  -- an id of another size is refused before the table is reached
  by_cases htemporary : temporary.length = 32
  · rw [exec_bind_of_ok (by rw [exec_liftExcept, channelIdText_of_size htemporary])]
    by_cases hfinal : final.length = 32
    · rw [exec_bind_of_ok (by rw [exec_liftExcept, channelIdText_of_size hfinal])]
      refine keeps_bind (keeps_log (fun _ _ hs => hs) _ _) (fun _ => ?_) s hs
      refine keeps_editChannels _ _ fun t ht => ?_
      exact ht.upsert (p := (temporary, final)) ⟨htemporary, hfinal⟩
    · rw [exec_bind_of_error (by rw [exec_liftExcept]; exact congrArg (·, s) (if_neg hfinal))]
      exact hs
  · rw [exec_bind_of_error (by rw [exec_liftExcept]; exact congrArg (·, s) (if_neg htemporary))]
    exact hs

theorem keeps_deleteChannelIds (final : Bytes) :
    Keeps CanonicalChannels (deleteChannelIds final) := by
  unfold deleteChannelIds
  refine keeps_bind (keeps_liftExcept _) fun text => ?_
  refine keeps_bind (keeps_log (fun _ _ hs => hs) _ _) fun _ => ?_
  refine keeps_bind (keeps_editChannels _ _ fun t ht => ht.deleteWhere _) fun count => ?_
  split
  · exact keeps_bind (keeps_log (fun _ _ hs => hs) _ _) fun _ => keeps_pure count
  · exact keeps_pure count

theorem keeps_keepChannelIds {I : StoreState → Prop} (hlog : ∀ s log, I s → I { s with log })
    (rows : List (Row (Cell × Cell))) : Keeps I (keepChannelIds rows) := by
  induction rows with
  | nil => exact keeps_pure []
  | cons r rest ih =>
    unfold keepChannelIds
    split
    · exact keeps_bind ih fun _ => keeps_pure _
    · exact keeps_bind (keeps_log hlog _ _) fun _ => ih

theorem keeps_loadChannelIds : Keeps CanonicalChannels loadChannelIds := by
  unfold loadChannelIds
  refine keeps_bind ?_ fun rows => ?_
  · apply keeps_transaction
    intro s u tables hs hbody
    cases ht : s.tables.channels with
    | none => simp [ht, present, bind, Except.bind] at hbody
    | some t =>
      simp only [ht, present_some, ok_bind, pure, Except.pure, Except.ok.injEq,
        Prod.mk.injEq] at hbody
      rcases hbody with ⟨-, rfl⟩
      exact hs
  · refine keeps_bind (keeps_keepChannelIds (fun _ _ hs => hs) rows) fun _ => ?_
    exact keeps_bind (keeps_log (fun _ _ hs => hs) _ _) fun _ => keeps_pure _

/-- What the store's own calls make is canonical. -/
theorem Produced.canonical (h : Produced t) : Canonical t := by
  induction h with
  | new => exact canonical_empty
  | @call t t' s call _ ht ht' ih =>
    have hs : CanonicalChannels s := by
      intro t'' ht''
      rw [ht] at ht''
      obtain rfl := Option.some.inj ht''
      exact ih
    refine (?_ : Keeps CanonicalChannels call.perform) s hs t' ht'
    cases call with
    | save temporary final => exact keeps_saveChannelId temporary final
    | delete final => exact keeps_map (keeps_deleteChannelIds final)
    | load => exact keeps_map keeps_loadChannelIds

/-! ## Loads -/

theorem checkChannelIds_cellsOf (hsized : ChannelMap.Sized p) :
    RowCheck.channelIds (cellsOf p).1.toValue (cellsOf p).2.toValue = .ok p := by
  have hhex : ∀ id : Bytes, id.length = 32 → ∀ column,
      RowCheck.hex (.text (Hex.encode id)) column (some (RowCheck.channelIdSize : Nat)) =
        .ok id := by
    intro id hsize column
    unfold RowCheck.hex
    simp only [Hex.decode?_encode]
    rw [if_pos (by rw [hsize]; rfl)]
  unfold RowCheck.channelIds cellsOf
  simp only [Cell.toValue]
  rw [hhex p.1 hsized.1, ok_bind, hhex p.2 hsized.2, ok_bind]
  rfl

/-- Rows that each are the columns of a pair are the columns of a list of pairs. -/
theorem exists_pairs {rows : List (Row (Cell × Cell))}
    (hrows : ∀ r ∈ rows, ∃ p, ChannelMap.Sized p ∧ r.data = cellsOf p) :
    ∃ ids : List (Bytes × Bytes), rows.map (fun r => r.data) = ids.map cellsOf ∧
      ∀ p ∈ ids, ChannelMap.Sized p := by
  induction rows with
  | nil => exact ⟨[], rfl, by simp⟩
  | cons r rest ih =>
    rcases hrows r List.mem_cons_self with ⟨p, hsized, hdata⟩
    rcases ih fun other hother => hrows other (List.mem_cons_of_mem r hother) with
      ⟨ids, hids, hall⟩
    refine ⟨p :: ids, ?_, List.forall_mem_cons.2 ⟨hsized, hall⟩⟩
    rw [List.map_cons, List.map_cons, hids, hdata]

/-- The temporary ids of the pairs that a table holds are its keys. -/
theorem keys_of_pairs {ids : List (Bytes × Bytes)}
    (hids : t.rows.map (fun r => r.data) = ids.map cellsOf) :
    t.keys = (ids.map Prod.fst).map fun id => Cell.text (Hex.encode id) := by
  have hfst := congrArg (List.map Prod.fst) hids
  rw [List.map_map, List.map_map] at hfst
  rw [List.map_map]
  exact hfst

/-- Rows that are the columns of pairs are well-formed. -/
theorem exec_keepChannelIds {rows : List (Row (Cell × Cell))} {ids : List (Bytes × Bytes)}
    (hids : rows.map (fun r => r.data) = ids.map cellsOf)
    (hsized : ∀ p ∈ ids, ChannelMap.Sized p) (s : StoreState) :
    exec (keepChannelIds rows) s = (.ok ids, s) := by
  induction ids generalizing rows with
  | nil =>
    obtain rfl : rows = [] := List.map_eq_nil_iff.1 hids
    rfl
  | cons p ids ih =>
    rcases List.map_eq_cons_iff.1 hids with ⟨r, rest, rfl, hdata, hrest⟩
    unfold keepChannelIds
    rw [hdata, checkChannelIds_cellsOf (hsized p List.mem_cons_self)]
    simp only
    have hrun := ih hrest fun q hq => hsized q (List.mem_cons_of_mem p hq)
    rw [exec_bind_of_ok hrun, exec_pure]

/-- The pairs that a table holds are loaded, if no temporary id comes twice. -/
theorem exec_loadChannelIds_pairs {ids : List (Bytes × Bytes)}
    (hworks : s.outages.transactions = none) (ht : s.tables.channels = some t)
    (hids : t.rows.map (fun r => r.data) = ids.map cellsOf)
    (hsized : ∀ p ∈ ids, ChannelMap.Sized p) (hnodup : t.keys.Nodup) :
    ∃ log, exec loadChannelIds s = (.ok ids, { s with log }) := by
  have hkeys : (ids.map Prod.fst).Nodup := List.Nodup.of_map _ (keys_of_pairs hids ▸ hnodup)
  refine ⟨s.log ++ [⟨LogLevel.debug, subsystem,
    s!"Loaded {ids.length} channel ID mappings from database"⟩], ?_⟩
  unfold loadChannelIds log
  rw [exec_bind, exec_transaction]
  simp only [hworks, ht, present_some, ok_bind, pure, Except.pure]
  rw [exec_bind_of_ok (exec_keepChannelIds hids hsized _), Assoc.ofList_of_nodup hkeys,
    exec_modify_bind]
  rfl

/-- A pair is held by the table if a row has its columns. -/
theorem mem_pairs {ids : List (Bytes × Bytes)}
    (hids : t.rows.map (fun r => r.data) = ids.map cellsOf) :
    p ∈ ids ↔ ∃ r ∈ t.rows, r.data = cellsOf p := by
  rw [← List.mem_map, hids, List.mem_map]
  constructor
  · exact fun hp => ⟨p, hp, rfl⟩
  · rintro ⟨q, hq, heq⟩
    rwa [← cellsOf_injective heq]

/-- From a canonical table the pairs of all rows are loaded. -/
theorem exec_loadChannelIds (hworks : s.outages.transactions = none)
    (ht : s.tables.channels = some t) (hcanonical : Canonical t) :
    ∃ ids log, exec loadChannelIds s = (.ok ids, { s with log }) ∧
      ∀ p, p ∈ ids ↔ ∃ r ∈ t.rows, r.data = cellsOf p := by
  rcases exists_pairs hcanonical.rows with ⟨ids, hids, hsized⟩
  rcases exec_loadChannelIds_pairs hworks ht hids hsized hcanonical.nodup with ⟨log, hload⟩
  exact ⟨ids, log, hload, fun p => mem_pairs hids⟩

end Store

end NodeStore
