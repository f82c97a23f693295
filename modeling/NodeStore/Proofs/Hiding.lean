import NodeStore.Proofs.SecretStore.Handle

/-! # Hosts whose seeds are hidden

`Host.hide f` writes `f c` over every seed `c` in every database, and leaves all else. What is done
with files, with logs and with an open secret store does not look at seeds: on the hidden host it
does the same, and leaves what it would have left, hidden. Two hosts that are the same when they
are hidden cannot be told apart by it.

* `resolve_hide`, `read_hide`, `remove_hide`: files;
* `emitAll_hide`, `databaseAt_hide`, `putTables_hide`: hosts;
* `start_hide`, `writeBack_hide`, `hide_run`: secret stores. -/

namespace NodeStore

open Op

variable {f : Cell → Cell}

/-! ## Tables -/

/-- The table with other seeds. -/
def Table.hide (f : Cell → Cell) (t : Table Cell) : Table Cell :=
  { t with rows := t.rows.map fun r => ⟨r.id, f r.data⟩ }

/-- The tables with other seeds. -/
def Tables.hide (f : Cell → Cell) (t : Tables) : Tables :=
  { t with seeds := t.seeds.map (Table.hide f) }

namespace Table

variable {t : Table Cell}

theorem withId?_hide (id : Int) :
    (t.hide f).withId? id = (t.withId? id).map fun r => ⟨r.id, f r.data⟩ := by
  unfold withId? hide
  rw [List.find?_map]
  rfl

theorem nextId_hide : (t.hide f).nextId = t.nextId := by
  have hafter : idAfter (t.hide f).rows = idAfter t.rows := by
    unfold idAfter hide
    rw [List.getLast?_map]
    cases t.rows.getLast? <;> rfl
  unfold nextId
  rw [hafter]
  rfl

theorem append_hide (c : Cell) : (t.append c).hide f = (t.hide f).append (f c) := by
  unfold append
  rw [nextId_hide]
  simp [hide]

/-- A phrase that is put into the table is hidden like those that were there. -/
theorem putPhrase_hide {text hidden : String} (htext : f (.text text) = .text hidden) :
    (t.putPhrase text).hide f = (t.hide f).putPhrase hidden := by
  unfold putPhrase
  rw [withId?_hide]
  cases t.withId? SecretStore.phraseId with
  | none =>
    simp only [Option.map_none]
    rw [append_hide, htext]
  | some row =>
    simp only [Option.map_some, hide, List.map_map, Table.mk.injEq, and_true]
    refine List.map_congr_left fun r _ => ?_
    by_cases hid : r.id = SecretStore.phraseId
    · simp [hid, htext]
    · simp [hid]

end Table

/-! ## Files -/

/-- An entry with other seeds, if it is a database. -/
def FileEntry.hide (f : Cell → Cell) : FileEntry → FileEntry
  | .folder => .folder
  | .file content => .file content
  | .database tables => .database (tables.hide f)

namespace FileTree

/-- The files with other seeds in the databases. -/
def hide (f : Cell → Cell) (t : FileTree) : FileTree :=
  ⟨t.entries.map fun e => (e.1, e.2.hide f)⟩

variable {t : FileTree} {workDir place p : Place} {path : Path}

theorem entry?_hide (t : FileTree) (p : Place) :
    FileTree.entry? (t.hide f) p = (t.entry? p).map (FileEntry.hide f) := by
  have hlookup : (t.hide f).entries.lookup p = (t.entries.lookup p).map (FileEntry.hide f) := by
    unfold hide
    induction t.entries with
    | nil => rfl
    | cons e rest ih =>
      rw [List.map_cons, List.lookup_cons, List.lookup_cons]
      cases p == e.1 with
      | true => rfl
      | false => exact ih
  unfold FileTree.entry?
  rw [hlookup]
  split <;> rfl

theorem put_hide (t : FileTree) (p : Place) (e : FileEntry) :
    (t.put p e).hide f = (t.hide f).put p (e.hide f) := by
  unfold put hide
  congr 1
  induction t.entries with
  | nil => rfl
  | cons entry rest ih =>
    rcases entry with ⟨q, old⟩
    by_cases hq : q = p
    · simp [Assoc.put, hq]
    · simp [Assoc.put, hq, ih]

/-- Writing what is there changes nothing. -/
theorem put_self {e : FileEntry} (hp : p ≠ []) (h : t.entry? p = some e) : t.put p e = t := by
  unfold FileTree.entry? at h
  rw [if_neg hp] at h
  unfold put
  rcases t with ⟨entries⟩
  congr 1
  induction entries with
  | nil => simp at h
  | cons entry rest ih =>
    rcases entry with ⟨q, old⟩
    by_cases hq : q = p
    · subst hq
      simp at h
      simp [Assoc.put, h]
    · have hne : (p == q) = false := by simpa using fun heq => hq heq.symm
      simp only [List.lookup_cons, hne] at h
      simp [Assoc.put, hq, ih h]

theorem erase_hide (t : FileTree) (p : Place) : (t.erase p).hide f = (t.hide f).erase p := by
  unfold erase hide
  rw [List.filter_map]
  rfl

theorem hasBelow_hide (t : FileTree) (p : Place) : (t.hide f).hasBelow p = t.hasBelow p := by
  unfold hasBelow hide
  rw [List.any_map]
  rfl

theorem append_hide (t : FileTree) (p : Place) (content : Bytes) :
    (t.append p content).hide f = (t.hide f).append p content := by
  unfold append
  rw [entry?_hide]
  cases t.entry? p with
  | none => exact put_hide ..
  | some e =>
    cases e with
    | file old => exact put_hide ..
    | folder => rfl
    | database d => rfl

theorem follow_hide (t : FileTree) (here : Place) (names : List String) :
    (t.hide f).follow here names = t.follow here names := by
  induction names generalizing here with
  | nil => rfl
  | cons name rest ih =>
    unfold follow
    rw [entry?_hide]
    cases t.entry? here with
    | none => rfl
    | some e =>
      cases e with
      | folder => simp only [Option.map_some, FileEntry.hide, ih]
      | file content => rfl
      | database d => rfl

theorem resolve_hide : (t.hide f).resolve workDir path = t.resolve workDir path := by
  unfold resolve
  rw [follow_hide]

theorem read_hide : (t.hide f).read workDir path = t.read workDir path := by
  unfold read find
  rw [resolve_hide]
  cases t.resolve workDir path with
  | error fault => rfl
  | ok place =>
    simp only [ok_bind, entry?_hide]
    cases t.entry? place with
    | none => rfl
    | some e => cases e <;> rfl

theorem remove_hide :
    (t.hide f).remove workDir path = (t.remove workDir path).map (hide f) := by
  unfold remove
  rw [resolve_hide]
  cases t.resolve workDir path with
  | error fault => rfl
  | ok place =>
    simp only [ok_bind, entry?_hide, hasBelow_hide, ← erase_hide]
    cases t.entry? place with
    | none => rfl
    | some e =>
      cases e with
      | folder =>
        simp only [Option.map_some, FileEntry.hide]
        split <;> rfl
      | file content => rfl
      | database d => rfl

end FileTree

/-- Lines are written to files with other seeds alike. -/
theorem Logging.write_hide (s : Logging) (time : String) (l : LogLine) (files : FileTree) :
    (s.write time l (files.hide f)).2 = (s.write time l files).2.hide f := by
  unfold write
  -- The induction is on the handlers that write, whatever the console has shown before.
  generalize s.writers l = writers
  generalize "" = console
  induction writers generalizing console files with
  | nil => rfl
  | cons handler rest ih =>
    rw [List.foldl_cons, List.foldl_cons]
    cases hsink : handler.sink with
    | console => exact ih _ _
    | file place =>
      simp only [← FileTree.append_hide]
      exact ih _ _

/-! ## Hosts -/

namespace Host

/-- The host with other seeds in its databases. -/
def hide (f : Cell → Cell) (h : Host) : Host :=
  { h with files := h.files.hide f }

variable {h h' : Host} {p : Path}

theorem emit_hide (h : Host) (l : LogLine) : (h.hide f).emit l = (h.emit l).hide f := by
  have hwrite := Logging.write_hide (f := f) h.logging h.stamp l h.files
  simp [emit, hide, hwrite]

theorem emitAll_hide (h : Host) (ls : List LogLine) :
    (h.hide f).emitAll ls = (h.emitAll ls).hide f := by
  unfold emitAll
  induction ls generalizing h with
  | nil => rfl
  | cons l rest ih => rw [List.foldl_cons, List.foldl_cons, emit_hide, ih]

theorem putTables_hide (h : Host) (place : Place) (tables : Tables) :
    (h.hide f).putTables place (tables.hide f) = (h.putTables place tables).hide f := by
  have hput := FileTree.put_hide (f := f) h.files place (.database tables)
  simp [putTables, hide, hput, FileEntry.hide]

/-- Writing the tables that are there changes nothing. -/
theorem putTables_self {place : Place} {tables : Tables}
    (hentry : h.files.entry? place = some (.database tables)) : h.putTables place tables = h := by
  have hroot := FileTree.ne_root_of_entry hentry (by simp)
  unfold putTables
  rw [FileTree.put_self hroot hentry]

theorem databaseAt_hide (h : Host) (p : Path) :
    (h.hide f).databaseAt p = (h.databaseAt p).map fun found => (found.1, found.2.hide f) := by
  unfold databaseAt
  simp only [hide, FileTree.resolve_hide]
  cases h.files.resolve h.workDir p with
  | error fault => rfl
  | ok place =>
    simp only [FileTree.entry?_hide]
    cases h.files.entry? place with
    | none =>
      simp only [Option.map_none]
      cases h.files.entry? place.dropLast with
      | none => rfl
      | some e => cases e <;> rfl
    | some e =>
      cases e with
      | folder => rfl
      | database d => rfl
      | file content => cases content <;> rfl

theorem removeFile_hide (h : Host) (p : Path) :
    (h.hide f).removeFile p = (h.removeFile p).map (hide f) := by
  unfold removeFile
  simp only [hide, FileTree.remove_hide]
  split
  · rfl
  · cases h.files.remove h.workDir p <;> rfl

end Host

/-! ## Secret stores -/

/-- The state with other seeds. -/
def SecretState.hide (f : Cell → Cell) (u : SecretState) : SecretState :=
  { u with seeds := u.seeds.map (Table.hide f) }

namespace SecretHandle

variable {s : SecretHandle} {h h' : Host}

theorem start_hide (s : SecretHandle) (h : Host) : s.start (h.hide f) = (s.start h).hide f := by
  unfold start
  rw [Host.databaseAt_hide]
  split
  · rfl
  · cases h.databaseAt s.path <;> rfl

/-- A table that is written back is hidden like the one that was there. -/
theorem writeBack_hide (s : SecretHandle) (seeds : Option (Table Cell)) (h : Host) :
    s.writeBack (seeds.map (Table.hide f)) (h.hide f) = (s.writeBack seeds h).hide f := by
  unfold writeBack
  rw [Host.databaseAt_hide]
  by_cases hclosed : s.closed = true
  · rw [if_pos hclosed, if_pos hclosed]
  · rw [if_neg hclosed, if_neg hclosed]
    cases hdb : h.databaseAt s.path with
    | error fault => rfl
    | ok found =>
      rcases found with ⟨place, tables⟩
      simp only [Except.map]
      have hput := Host.putTables_hide (f := f) h place { tables with seeds }
      by_cases hsame : seeds = tables.seeds
      · rw [if_pos hsame, hsame]
        exact if_pos rfl
      · rw [if_neg hsame]
        by_cases hhidden : seeds.map (Table.hide f) = (tables.hide f).seeds
        · -- the tables differ in what is hidden: the hidden file is as it was
          rw [if_pos hhidden, ← hput]
          rcases Host.databaseAt_ok hdb with ⟨-, -, hentry | ⟨rfl, -⟩⟩
          · have htables : Tables.hide f { tables with seeds } = tables.hide f := by
              simp only [Tables.hide] at hhidden ⊢
              rw [hhidden]
            rw [htables, Host.putTables_self]
            exact (FileTree.entry?_hide ..).trans (by rw [hentry]; rfl)
          · rw [show (Tables.hide f {}).seeds = none from rfl, Option.map_eq_none_iff] at hhidden
            exact absurd hhidden hsame
        · rw [if_neg hhidden, ← hput]
          rfl

/-- What an operation leaves of a hidden host is told by the hidden state that it leaves. -/
theorem hide_run {α : Type} (s : SecretHandle) (op : SecretStore → SecretM α) (h : Host)
    {u : SecretState} (hu : (exec (op (s.store h)) (s.start h)).2.hide f = u) :
    (exec (s.run op) h).2.hide f =
      (s.writeBack u.seeds { h.hide f with entropy := u.entropy }).emitAll u.log := by
  subst hu
  rw [exec_run_eq, ← Host.emitAll_hide, ← writeBack_hide]
  rfl

/-- A sealed phrase is read from a file, and no seed is looked at. -/
theorem readPhraseFile_hide (path : Path) (h : Host) :
    (exec (readPhraseFile path) (h.hide f)).1 = (exec (readPhraseFile path) h).1 :=
  readPhraseFile_congr (congrArg Except.toOption FileTree.read_hide)

/-- A file is removed, or cannot be removed. -/
theorem exec_removeOld_hide (path : Path) (subsystem what : String) (done : Option String)
    (h : Host) :
    ∃ t, exec (removeOld path subsystem what done) h = (.ok (), t) ∧
      exec (removeOld path subsystem what done) (h.hide f) = (.ok (), t.hide f) := by
  unfold removeOld
  rw [exec_get_bind, exec_get_bind, Host.removeFile_hide]
  cases h.removeFile path with
  | error fault => exact ⟨_, rfl, by rw [← Host.emit_hide]; rfl⟩
  | ok t =>
    simp only [Except.map, exec_set_bind]
    cases done with
    | none => exact ⟨t, rfl, rfl⟩
    | some message => exact ⟨_, rfl, by rw [← Host.emit_hide]; rfl⟩

end SecretHandle

end NodeStore
