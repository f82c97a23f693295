import NodeStore.Proofs.Assoc
import NodeStore.Proofs.Checks
import NodeStore.Proofs.Node.Contents

/-! # Reports of migrations

What becomes of a legacy file in a migration is told by what stands at its own place: nothing is
there, or it is read, or there is a failure (`settingFault`, `channelFault`). The report notes one
answer after the other (`reportOf`), so that every setting is in exactly one of its lists.

* `migrated_accountAll`, `skipped_accountAll`, `failed_accountAll`: the lists of a report;
* `accounts_reportOf`: a report accounts for the files whose answers it notes;
* `copiedFrom_migratedAll`: the rows that the texts of the files make. -/

namespace NodeStore

/-! ## What becomes of a file -/

namespace Migration

/-- Why the file of a setting is not copied, if something is there that cannot be. -/
def settingFault (path : Path) : Option FileEntry → Option Failure
  | none => none
  | some e =>
    match e.bytes? with
    | none => some (.transfer (.unreadable path.toString .isDirectory))
    | some b =>
      match Utf8.decode b with
      | .ok _ => none
      | .error fault => some (.transfer (.notText path.toString fault))

/-- Why the channel map is not moved, if something is there that cannot be. -/
def channelFault (path : Path) : Option FileEntry → Option Failure
  | none => none
  | some e =>
    match e.bytes? with
    | none => some (.transfer (.unreadable path.toString .isDirectory))
    | some b =>
      match ChannelMap.decode b with
      | .ok _ => none
      | .error fault => some (.transfer (.notAChannelMap fault))

/-- The answer of the migration of a setting's file. -/
def settingAnswer (path : Path) (e : Option FileEntry) : Except Failure Bool :=
  match settingFault path e with
  | some fault => .error fault
  | none => .ok e.isSome

/-- The pairs of the channel map that is read, none if there is no map. -/
def channelPairs (e : Option FileEntry) : List (Bytes × Bytes) :=
  match (e.bind FileEntry.bytes?).map ChannelMap.decode with
  | some (.ok m) => m.entries
  | _ => []

/-- The answer of the migration of the channel map. -/
def channelAnswer (path : Path) (e : Option FileEntry) : Except Failure Nat :=
  match channelFault path e with
  | some fault => .error fault
  | none => .ok (channelPairs e).length

/-- Notes the answer for a setting. -/
def MigrationReport.account (r : MigrationReport) (key : String) :
    Except Failure Bool → MigrationReport
  | .ok found => MigrationReport.note r key found
  | .error e => MigrationReport.fail r key e

/-- Notes the answers for settings. -/
def MigrationReport.accountAll (answers : String → Except Failure Bool) (keys : List String)
    (r : MigrationReport) : MigrationReport :=
  keys.foldl (fun r key => MigrationReport.account r key (answers key)) r

/-- Notes the answer for the channel map. -/
def MigrationReport.accountMap (r : MigrationReport) : Except Failure Nat → MigrationReport
  | .ok n => { r with channelIds := n }
  | .error e => MigrationReport.fail r channelFile e

/-- The report of a migration whose files gave these answers. -/
def reportOf (answers : String → Except Failure Bool) (answer : Except Failure Nat) :
    MigrationReport :=
  MigrationReport.accountMap (MigrationReport.accountAll answers settingKeys {}) answer

variable {path : Path} {e : Option FileEntry} {answers : String → Except Failure Bool}
  {keys : List String} {key : String} {r : MigrationReport}

theorem settingAnswer_error {fault : Failure} :
    settingAnswer path e = .error fault ↔ settingFault path e = some fault := by
  unfold settingAnswer
  cases settingFault path e <;> simp

theorem settingAnswer_skipped : settingAnswer path e = .ok false ↔ e = none := by
  unfold settingAnswer
  cases e with
  | none => simp [settingFault]
  | some e => cases settingFault path (some e) <;> simp

/-- A file is copied exactly if a text is read from it. -/
theorem settingAnswer_migrated :
    settingAnswer path e = .ok true ↔ ∃ text, textAt e = some text := by
  unfold settingAnswer settingFault textAt
  cases e with
  | none => simp
  | some e =>
    cases hbytes : e.bytes? with
    | none => simp [hbytes]
    | some b => cases hdecode : Utf8.decode b <;> simp [hbytes, hdecode, Except.toOption]

/-- What cannot be copied fails within the tree of kinds. -/
theorem isStore_settingFault {fault : Failure} (h : settingFault path e = some fault) :
    fault.isStore = true := by
  unfold settingFault at h
  split at h
  · simp at h
  · split at h
    · obtain rfl := Option.some.inj h
      rfl
    · split at h
      · simp at h
      · obtain rfl := Option.some.inj h
        rfl

theorem channelAnswer_error {fault : Failure} :
    channelAnswer path e = .error fault ↔ channelFault path e = some fault := by
  unfold channelAnswer
  cases channelFault path e <;> simp

theorem isStore_channelFault {fault : Failure} (h : channelFault path e = some fault) :
    fault.isStore = true := by
  unfold channelFault at h
  split at h
  · simp at h
  · split at h
    · obtain rfl := Option.some.inj h
      rfl
    · split at h
      · simp at h
      · obtain rfl := Option.some.inj h
        rfl

/-! ## The lists of a report -/

/-- Where no channel map is read there are no pairs. -/
theorem channelPairs_of_stays (h : e = none ∨ channelFault path e ≠ none) :
    channelPairs e = [] := by
  unfold channelPairs
  rcases h with rfl | h
  · rfl
  · unfold channelFault at h
    split at h
    · simp at h
    · split at h
      · rename_i hbytes
        simp [hbytes]
      · rename_i b hbytes
        cases hdecode : ChannelMap.decode b <;> simp_all

namespace MigrationReport

theorem accountAll_cons (answers : String → Except Failure Bool) (key : String)
    (rest : List String) (r : MigrationReport) :
    accountAll answers (key :: rest) r = accountAll answers rest (account r key (answers key)) :=
  rfl

/-- The settings that were copied, in order. -/
theorem migrated_accountAll (answers : String → Except Failure Bool) (keys : List String)
    (r : MigrationReport) : (accountAll answers keys r).migrated =
      r.migrated ++ keys.filter fun key => (answers key).toOption == some true := by
  induction keys generalizing r with
  | nil => exact (List.append_nil _).symm
  | cons key rest ih =>
    rw [accountAll_cons, ih]
    cases hanswer : answers key with
    | error e => simp [account, fail, Except.toOption, hanswer]
    | ok found => cases found <;> simp [account, note, Except.toOption, hanswer]

/-- The settings that had no file, in order. -/
theorem skipped_accountAll (answers : String → Except Failure Bool) (keys : List String)
    (r : MigrationReport) : (accountAll answers keys r).skipped =
      r.skipped ++ keys.filter fun key => (answers key).toOption == some false := by
  induction keys generalizing r with
  | nil => exact (List.append_nil _).symm
  | cons key rest ih =>
    rw [accountAll_cons, ih]
    cases hanswer : answers key with
    | error e => simp [account, fail, Except.toOption, hanswer]
    | ok found => cases found <;> simp [account, note, Except.toOption, hanswer]

/-- The settings that could not be copied, in order. -/
theorem failed_accountAll (answers : String → Except Failure Bool) {keys : List String}
    (hkeys : keys.Nodup) {r : MigrationReport} (hnew : ∀ key ∈ keys, key ∉ r.failed.map Prod.fst) :
    (accountAll answers keys r).failed.map Prod.fst =
      r.failed.map Prod.fst ++ keys.filter fun key => (answers key).toOption == none := by
  induction keys generalizing r with
  | nil => exact (List.append_nil _).symm
  | cons key rest ih =>
    rcases List.nodup_cons.1 hkeys with ⟨hkey, hrest⟩
    have hnew' : ∀ k ∈ rest, k ∉ r.failed.map Prod.fst := fun k hk =>
      hnew k (List.mem_cons_of_mem key hk)
    rw [accountAll_cons]
    cases hanswer : answers key with
    | ok found =>
      have hsame : (account r key (.ok found)).failed = r.failed := by cases found <;> rfl
      rw [ih hrest (by rwa [hsame]), hsame]
      simp [hanswer, Except.toOption]
    | error e =>
      have hput : (account r key (.error e)).failed.map Prod.fst =
          r.failed.map Prod.fst ++ [key] := by
        show (Assoc.put key e r.failed).map Prod.fst = _
        rw [Assoc.keys_put, if_neg (hnew key List.mem_cons_self)]
      rw [ih hrest ?_, hput]
      · simp [hanswer, Except.toOption]
      · intro k hk
        rw [hput, List.mem_append, List.mem_singleton]
        rintro (hold | rfl)
        · exact hnew' k hk hold
        · exact hkey hk

/-- What is noted for a setting depends on its own answer. -/
theorem lookup_accountAll (answers : String → Except Failure Bool) {keys : List String}
    (hkeys : keys.Nodup) (r : MigrationReport) (name : String) :
    (accountAll answers keys r).failed.lookup name =
      match if name ∈ keys then answers name else .ok true with
      | .error e => some e
      | .ok _ => r.failed.lookup name := by
  induction keys generalizing r with
  | nil => rfl
  | cons key rest ih =>
    rcases List.nodup_cons.1 hkeys with ⟨hkey, hrest⟩
    rw [accountAll_cons, ih hrest]
    by_cases hname : name = key
    · subst hname
      rw [if_neg hkey, if_pos List.mem_cons_self]
      cases hanswer : answers name with
      | ok found => cases found <;> rfl
      | error e => exact (Assoc.lookup_put name name e r.failed).trans (if_pos rfl)
    · have hsame : (account r key (answers key)).failed.lookup name = r.failed.lookup name := by
        cases answers key with
        | ok found => cases found <;> rfl
        | error e => exact (Assoc.lookup_put key name e r.failed).trans (if_neg hname)
      rw [hsame]
      by_cases hmem : name ∈ rest
      · rw [if_pos hmem, if_pos (List.mem_cons_of_mem key hmem)]
      · have hnot : name ∉ key :: rest := by
          intro h
          rcases List.mem_cons.1 h with h | h
          · exact hname h
          · exact hmem h
        rw [if_neg hmem, if_neg hnot]

end MigrationReport

end Migration

/-! ## Reports and rows -/

/-- The report accounts for what stands at the places of the legacy files. -/
structure MigrationReport.Accounts (c : Config) (files : String → Option FileEntry)
    (container : Option FileEntry) (r : MigrationReport) : Prop where
  /-- A setting is in exactly one of the lists, and once. -/
  once : ∀ key ∈ Migration.settingKeys,
    r.migrated.count key + r.skipped.count key + (r.failed.map Prod.fst).count key = 1
  skipped : ∀ key, key ∈ r.skipped ↔ key ∈ Migration.settingKeys ∧ files key = none
  migrated : ∀ key, key ∈ r.migrated ↔ key ∈ Migration.settingKeys ∧
    ∃ b text, files key = some (.file b) ∧ Utf8.decode b = .ok text
  failed : ∀ key ∈ Migration.settingKeys, key ∈ r.failed.map Prod.fst ↔
    files key = some .folder ∨ ∃ b fault, files key = some (.file b) ∧ Utf8.decode b = .error fault
  /-- What is noted for a failure is told by the file itself, whatever the other files are. -/
  fault : ∀ key ∈ Migration.settingKeys,
    r.failed.lookup key = Migration.settingFault (c.storageDir / key) (files key)
  channel : Migration.channelFile ∈ r.failed.map Prod.fst ↔
    container = some .folder ∨
      ∃ b fault, container = some (.file b) ∧ ChannelMap.decode b = .error fault
  channelFault : r.failed.lookup Migration.channelFile =
    Migration.channelFault c.channelFile container
  /-- Nothing else is noted. -/
  others : ∀ name ∈ r.failed.map Prod.fst,
    name ∈ Migration.settingKeys ∨ name = Migration.channelFile

/-- The table of settings after the texts of files have been copied into it. -/
structure Table.CopiedFrom (before : Table (Cell × Cell)) (files : String → Option FileEntry)
    (after : Table (Cell × Cell)) : Prop where
  text : ∀ key ∈ Migration.settingKeys, ∀ b text, files key = some (.file b) →
    Utf8.decode b = .ok text → after.Has (.text key) (.text (settingText text))
  others : ∀ row : Row (Cell × Cell), (∀ key ∈ Migration.settingKeys, ∀ b text,
      files key = some (.file b) → Utf8.decode b = .ok text → row.data.1 ≠ .text key) →
    (row ∈ after.rows ↔ row ∈ before.rows)
  ids : ∀ row ∈ before.rows, ∃ row' ∈ after.rows, row'.id = row.id ∧ row'.data.1 = row.data.1

section

variable {c : Config} {files : String → Option FileEntry} {container e : Option FileEntry}
  {t : Table (Cell × Cell)} {texts : String → Option String} {keys : List String} {key : String}

/-- A text is read from a file of bytes, or from a database. -/
theorem textAt_eq_some (hplain : ∀ d, e ≠ some (.database d)) {text : String} :
    textAt e = some text ↔ ∃ b, e = some (.file b) ∧ Utf8.decode b = .ok text := by
  rcases e with _ | e
  · simp [textAt]
  · cases e with
    | folder => simp [textAt, FileEntry.bytes?]
    | database d => exact absurd rfl (hplain d)
    | file b =>
      cases hdecode : Utf8.decode b <;>
        simp [textAt, FileEntry.bytes?, Except.toOption, hdecode]

theorem settingFault_ne_none (path : Path) (hplain : ∀ d, e ≠ some (.database d)) :
    Migration.settingFault path e ≠ none ↔ e = some .folder ∨
      ∃ b fault, e = some (.file b) ∧ Utf8.decode b = .error fault := by
  rcases e with _ | e
  · simp [Migration.settingFault]
  · cases e with
    | folder => simp [Migration.settingFault, FileEntry.bytes?]
    | database d => exact absurd rfl (hplain d)
    | file b =>
      cases hdecode : Utf8.decode b <;> simp [Migration.settingFault, FileEntry.bytes?, hdecode]

theorem channelFault_ne_none (path : Path) (hplain : ∀ d, e ≠ some (.database d)) :
    Migration.channelFault path e ≠ none ↔ e = some .folder ∨
      ∃ b fault, e = some (.file b) ∧ ChannelMap.decode b = .error fault := by
  rcases e with _ | e
  · simp [Migration.channelFault]
  · cases e with
    | folder => simp [Migration.channelFault, FileEntry.bytes?]
    | database d => exact absurd rfl (hplain d)
    | file b =>
      cases hdecode : ChannelMap.decode b <;>
        simp [Migration.channelFault, FileEntry.bytes?, hdecode]

/-- The rows of other settings are those that were there. -/
theorem Table.mem_migratedAll_of_ne {row : Row (Cell × Cell)}
    (hrow : ∀ key ∈ keys, texts key ≠ none → row.data.1 ≠ .text key) :
    row ∈ (t.migratedAll texts keys).rows ↔ row ∈ t.rows := by
  induction keys generalizing t with
  | nil => exact Iff.rfl
  | cons key rest ih =>
    refine (ih fun k hk => hrow k (List.mem_cons_of_mem key hk)).trans ?_
    show row ∈ (t.migrated key (texts key)).rows ↔ _
    cases htext : texts key with
    | none => exact Iff.rfl
    | some text =>
      exact Table.mem_upsert_of_ne (hrow key List.mem_cons_self (by simp [htext]))

/-- A row that was there still is, under the same id and the same key. -/
theorem Table.row_migratedAll {row : Row (Cell × Cell)} (hrow : row ∈ t.rows) :
    ∃ row' ∈ (t.migratedAll texts keys).rows, row'.id = row.id ∧ row'.data.1 = row.data.1 := by
  induction keys generalizing t row with
  | nil => exact ⟨row, hrow, rfl, rfl⟩
  | cons key rest ih =>
    obtain ⟨row₁, hrow₁, hid₁, hkey₁⟩ :
        ∃ row₁ ∈ (t.migrated key (texts key)).rows, row₁.id = row.id ∧
          row₁.data.1 = row.data.1 := by
      cases texts key with
      | none => exact ⟨row, hrow, rfl, rfl⟩
      | some text => exact Table.row_upsert _ _ hrow
    obtain ⟨row₂, hrow₂, hid₂, hkey₂⟩ := ih hrow₁
    exact ⟨row₂, hrow₂, hid₂.trans hid₁, hkey₂.trans hkey₁⟩

theorem Table.copiedFrom_migratedAll
    (hplain : ∀ key ∈ Publication.keys, ∀ d, files key ≠ some (.database d)) :
    t.CopiedFrom files
      (t.migratedAll (fun key => textAt (files key)) Migration.settingKeys) where
  text key hkey b text hfile hdecode :=
    Contents.has_migratedAll hkey ((textAt_eq_some (hplain key hkey)).2 ⟨b, hfile, hdecode⟩)
  others := by
    intro row hrow
    refine Table.mem_migratedAll_of_ne fun key hkey htext => ?_
    obtain ⟨text, htext⟩ := Option.ne_none_iff_exists'.1 htext
    obtain ⟨b, hfile, hdecode⟩ := (textAt_eq_some (hplain key hkey)).1 htext
    exact hrow key hkey b text hfile hdecode
  ids row hrow := Table.row_migratedAll hrow

/-- A key of a list without repetitions is counted once or not at all in a part of it. -/
theorem count_filter_of_mem (hkeys : keys.Nodup) (hkey : key ∈ keys) (p : String → Bool) :
    (keys.filter p).count key = if p key then 1 else 0 := by
  by_cases hp : p key = true
  · rw [if_pos hp, List.count_filter hp]
    exact List.count_eq_one_of_mem hkeys hkey
  · rw [if_neg hp, List.count_eq_zero]
    intro hmem
    exact hp (List.mem_filter.1 hmem).2

variable {answers : String → Except Failure Bool} {answer : Except Failure Nat}

theorem Migration.nodup_settingKeys : Migration.settingKeys.Nodup := by decide

theorem Migration.channelFile_not_mem : Migration.channelFile ∉ Migration.settingKeys := by decide

theorem Migration.reportOf_migrated : (Migration.reportOf answers answer).migrated =
    Migration.settingKeys.filter fun key => (answers key).toOption == some true := by
  cases answer <;> exact Migration.MigrationReport.migrated_accountAll answers _ {}

theorem Migration.reportOf_skipped : (Migration.reportOf answers answer).skipped =
    Migration.settingKeys.filter fun key => (answers key).toOption == some false := by
  cases answer <;> exact Migration.MigrationReport.skipped_accountAll answers _ {}

/-- The settings that failed come first, and then the channel map if it failed. -/
theorem Migration.reportOf_failed : (Migration.reportOf answers answer).failed.map Prod.fst =
    (Migration.settingKeys.filter fun key => (answers key).toOption == none) ++
      (if answer.toOption = none then [Migration.channelFile] else []) := by
  have hfailed := Migration.MigrationReport.failed_accountAll answers Migration.nodup_settingKeys
    (r := {}) (by simp)
  cases answer with
  | ok n => exact hfailed.trans (List.append_nil _).symm
  | error e =>
    show (Assoc.put Migration.channelFile e _).map Prod.fst = _
    rw [Assoc.keys_put, hfailed, if_neg]
    · rfl
    · intro hmem
      exact Migration.channelFile_not_mem (List.mem_filter.1 hmem).1

theorem Migration.reportOf_fault (c : Config) (files : String → Option FileEntry)
    (answer : Except Failure Nat) (hkey : key ∈ Migration.settingKeys) :
    (Migration.reportOf (fun key => Migration.settingAnswer (c.storageDir / key) (files key))
      answer).failed.lookup key = Migration.settingFault (c.storageDir / key) (files key) := by
  let answers (key : String) : Except Failure Bool :=
    Migration.settingAnswer (c.storageDir / key) (files key)
  have hsame : (Migration.reportOf answers answer).failed.lookup key =
      (Migration.MigrationReport.accountAll answers Migration.settingKeys {}).failed.lookup
        key := by
    cases answer with
    | ok n => rfl
    | error e =>
      refine (Assoc.lookup_put _ key e _).trans (if_neg ?_)
      rintro rfl
      exact Migration.channelFile_not_mem hkey
  rw [hsame, Migration.MigrationReport.lookup_accountAll answers Migration.nodup_settingKeys,
    if_pos hkey]
  simp only [answers, Migration.settingAnswer]
  cases Migration.settingFault (c.storageDir / key) (files key) <;> rfl

theorem Migration.reportOf_channelFault (answers : String → Except Failure Bool) (c : Config)
    (container : Option FileEntry) :
    (Migration.reportOf answers (Migration.channelAnswer c.channelFile container)).failed.lookup
      Migration.channelFile = Migration.channelFault c.channelFile container := by
  unfold Migration.channelAnswer
  cases Migration.channelFault c.channelFile container with
  | some e => exact (Assoc.lookup_put _ Migration.channelFile e _).trans (if_pos rfl)
  | none =>
    have hlookup := Migration.MigrationReport.lookup_accountAll answers
      Migration.nodup_settingKeys {} Migration.channelFile
    rwa [if_neg Migration.channelFile_not_mem] at hlookup

/-- The answers of the files make a report that accounts for them. -/
theorem Migration.accounts_reportOf
    (hsettings : ∀ key ∈ Publication.keys, ∀ d, files key ≠ some (.database d))
    (hchannel : ∀ d, container ≠ some (.database d)) :
    MigrationReport.Accounts c files container (Migration.reportOf
      (fun key => Migration.settingAnswer (c.storageDir / key) (files key))
      (Migration.channelAnswer c.channelFile container)) where
  once := by
    intro key hkey
    have hother : (if (Migration.channelAnswer c.channelFile container).toOption = none then
        [Migration.channelFile] else []).count key = 0 := by
      rw [List.count_eq_zero]
      intro hmem
      split at hmem
      · exact Migration.channelFile_not_mem (List.mem_singleton.1 hmem ▸ hkey)
      · simp at hmem
    rw [reportOf_migrated, reportOf_skipped, reportOf_failed, List.count_append, hother,
      count_filter_of_mem nodup_settingKeys hkey, count_filter_of_mem nodup_settingKeys hkey,
      count_filter_of_mem nodup_settingKeys hkey]
    cases Migration.settingAnswer (c.storageDir / key) (files key) with
    | error e => simp [Except.toOption]
    | ok found => cases found <;> simp [Except.toOption]
  skipped := by
    intro key
    rw [reportOf_skipped, List.mem_filter, beq_iff_eq, toOption_eq_some_iff, settingAnswer_skipped]
  migrated := by
    intro key
    rw [reportOf_migrated, List.mem_filter, beq_iff_eq, toOption_eq_some_iff,
      settingAnswer_migrated]
    refine and_congr_right fun hkey => ?_
    simp only [textAt_eq_some (hsettings key hkey)]
    exact exists_comm
  failed := by
    intro key hkey
    rw [Assoc.mem_keys_iff_lookup, reportOf_fault c files _ hkey,
      settingFault_ne_none _ (hsettings key hkey)]
  fault key hkey := reportOf_fault c files _ hkey
  channel := by
    rw [Assoc.mem_keys_iff_lookup, reportOf_channelFault, channelFault_ne_none _ hchannel]
  channelFault := reportOf_channelFault _ c container
  others := by
    intro name hname
    rw [reportOf_failed, List.mem_append] at hname
    rcases hname with hname | hname
    · exact Or.inl (List.mem_filter.1 hname).1
    · split at hname
      · exact Or.inr (List.mem_singleton.1 hname)
      · simp at hname

end

end NodeStore
