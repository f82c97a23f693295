import NodeStore.Proofs.Frame
import NodeStore.Proofs.Node.SettingFiles
import NodeStore.Proofs.Store.SoleUse

/-! # A publication mirrors the store

A publication goes through the published keys in order. What it finds of a key is the row, since
the store tells the truth, and is written to the key's file, unless that is refused; the other keys
do not matter to this. `Mirrored` says what has become of the files when some keys have been gone
through, and `Publication.outcome` which of them were written and which could not be.

* `Mirroring.publish`, `Mirroring.publishAll`: one key, and all keys;
* `publication_mirrors_store`: a publication of a store that is used alone. -/

namespace NodeStore

open Op

namespace Publication

/-- The file of a key can be written. -/
def accepts (h : Host) (dir : Path) (key : String) : Bool :=
  (h.files.writable h.workDir (dir / key)).isOk

/-- Which of the keys that have a row can be written, and which cannot. -/
def outcome (h : Host) (dir : Path) (t : Tables) (keys : List String) : Outcome where
  written := keys.filter fun key => (t.setting key).isSome && accepts h dir key
  failed := keys.filter fun key => (t.setting key).isSome && !accepts h dir key

/-- The place is that of a key that has a row and can be written. -/
def WrittenAt (h : Host) (dir : Path) (t : Tables) (keys : List String) (place : Place) : Prop :=
  ∃ key ∈ keys, t.setting key ≠ none ∧ h.files.writable h.workDir (dir / key) = .ok place

/-- The second host has the rows of the keys in their files, where these can be written on the
first one. No other file was changed but logs. -/
structure Mirrored (dir : Path) (t : Tables) (keys : List String) (h h' : Host) : Prop where
  files : ∀ key ∈ keys, ∀ text, t.setting key = some (.text text) → ∀ place,
    h.files.writable h.workDir (dir / key) = .ok place →
      h'.files.entry? place = some (.file (Utf8.encode text))
  frame : h.Frame (fun q => h.Logged q ∨ WrittenAt h dir t keys q) h'

section

variable {h h₁ h₂ : Host} {dir : Path} {t : Tables} {keys : List String} {key text : String}
  {place : Place}

theorem outcome_append_absent (hrow : t.setting key = none) :
    outcome h dir t (keys ++ [key]) = outcome h dir t keys := by
  simp [outcome, hrow]

theorem outcome_append_written (hrow : t.setting key = some (.text text))
    (haccepts : accepts h dir key = true) :
    outcome h dir t (keys ++ [key]) =
      { outcome h dir t keys with written := (outcome h dir t keys).written ++ [key] } := by
  simp [outcome, hrow, haccepts]

theorem outcome_append_failed (hrow : t.setting key = some (.text text))
    (haccepts : accepts h dir key = false) :
    outcome h dir t (keys ++ [key]) =
      { outcome h dir t keys with failed := (outcome h dir t keys).failed ++ [key] } := by
  simp [outcome, hrow, haccepts]

/-- The file of a key is in the folder, under the name of the key. -/
theorem place_of_writable (hkey : key ∈ Publication.keys)
    (hwritable : h.files.writable h.workDir (dir / key) = .ok place) :
    place = dir.placeFrom h.workDir ++ [key] := by
  rw [FileTree.place_eq_of_resolve (FileTree.writable_ok hwritable).1,
    (plainName_of_published hkey).placeFrom]

theorem fileName_ne_published {key : String} (hkey : key ∈ Publication.keys) :
    key ≠ Logging.fileName := by
  have hall : ∀ key ∈ Publication.keys, key ≠ Logging.fileName := by decide +kernel
  exact hall key hkey

theorem mirrored_nil (h : Host) : Mirrored dir t [] h h :=
  ⟨nofun, .refl _ h⟩

/-- Logs do not matter to what is mirrored. -/
theorem Mirrored.logged (hm : Mirrored dir t keys h h₁) (hown : h.logging.Own)
    (hkeys : ∀ key ∈ keys, key ∈ Publication.keys) (hf : h₁.Frame h.Logged h₂) :
    Mirrored dir t keys h h₂ := by
  refine ⟨?_, hm.frame.trans (hf.imp fun _ hq => Or.inl hq)⟩
  intro key hkey text hrow place hwritable
  refine (hf.files.entry place ?_).trans (hm.files key hkey text hrow place hwritable)
  rw [place_of_writable (hkeys key hkey) hwritable]
  exact Host.not_logged hown (fileName_ne_published (hkeys key hkey)) _

/-- A key that is not written leaves everything as it was. -/
theorem Mirrored.skip (hm : Mirrored dir t keys h h₁)
    (hkey : t.setting key = none ∨ accepts h dir key = false) :
    Mirrored dir t (keys ++ [key]) h h₁ := by
  constructor
  · intro k hk text hrow place hwritable
    rcases List.mem_append.1 hk with hk | hk
    · exact hm.files k hk text hrow place hwritable
    · obtain rfl := List.mem_singleton.1 hk
      rcases hkey with hnone | hrefused
      · simp [hnone] at hrow
      · simp [accepts, hwritable, Except.isOk, Except.toBool] at hrefused
  · refine hm.frame.imp fun q hq => hq.imp_right ?_
    rintro ⟨k, hk, hrow, hwritable⟩
    exact ⟨k, List.mem_append_left _ hk, hrow, hwritable⟩

/-- The text of a key's row is put at the place of its file. -/
theorem Mirrored.write (hm : Mirrored dir t keys h h₁)
    (hkeys : ∀ key ∈ keys, key ∈ Publication.keys) (hkey : key ∈ Publication.keys)
    (hnew : key ∉ keys) (hrow : t.setting key = some (.text text))
    (hwritable : h.files.writable h.workDir (dir / key) = .ok place) :
    Mirrored dir t (keys ++ [key]) h
      { h₁ with files := h₁.files.put place (.file (Utf8.encode text)) } := by
  have hplace := place_of_writable hkey hwritable
  have hfolder : h₁.files.entry? place ≠ some .folder := fun hf =>
    (FileTree.writable_ok hwritable).2 ((hm.frame.files.folder place).1 hf)
  constructor
  · intro k hk other hother q hwritable'
    rcases List.mem_append.1 hk with hmem | hlast
    · -- a key that was written before has its file under another name
      have hq := place_of_writable (hkeys k hmem) hwritable'
      have hne : q ≠ place := by
        rw [hq, hplace]
        intro hsame
        obtain rfl : k = key := by simpa using hsame
        exact hnew hmem
      exact (FileTree.entry?_put_ne hne _).trans (hm.files k hmem other hother q hwritable')
    · obtain rfl := List.mem_singleton.1 hlast
      obtain rfl : place = q := Except.ok.inj (hwritable.symm.trans hwritable')
      obtain rfl : text = other := by simpa using hrow.symm.trans hother
      refine FileTree.entry?_put_self ?_ _
      rw [hplace]
      simp
  · have hframe := hm.frame.imp (Q := fun q => h.Logged q ∨ WrittenAt h dir t (keys ++ [key]) q)
      fun q hq => hq.imp_right fun ⟨k, hk, hrow, hwritable⟩ =>
        ⟨k, List.mem_append_left _ hk, hrow, hwritable⟩
    refine hframe.trans (Host.frame_files (FileTree.frame_put ?_ hfolder nofun))
    exact Or.inr ⟨key, List.mem_append_right _ (List.mem_singleton.2 rfl), by simp [hrow],
      hwritable⟩

end

end Publication

namespace Node

open Publication

variable {path dir : Path} {t : Tables} {h : Host} {keys : List String} {s : NodeState}
  {key text : String} {place : Place}

/-- A node in the course of a publication that has gone through the keys: settings can be read, its
store tells the truth, and the rows of the keys are mirrored. -/
structure Mirroring (path dir : Path) (t : Tables) (h : Host) (keys : List String)
    (s : NodeState) : Prop where
  file : s.node.store.path = path
  reads : s.node.store.outages.reads = none
  transactions : s.node.store.outages.transactions = none
  holds : s.host.Holds path t
  truthful : Store.Truthful t s.node.store.cache
  mirrored : Mirrored dir t keys h s.host

theorem Mirroring.logged (hs : Mirroring path dir t h keys s) : s.host.Logged = h.Logged := by
  funext q
  rw [Host.Logged, Host.Logged, hs.mirrored.frame.logging]

theorem Mirroring.emit (hs : Mirroring path dir t h keys s) (hown : h.logging.Own)
    (hkeys : ∀ key ∈ keys, key ∈ Publication.keys) (l : LogLine) :
    Mirroring path dir t h keys { s with host := s.host.emit l } := by
  have hframe := Host.frame_emit s.host.logsTo_logged l
  rw [hs.logged] at hframe
  exact ⟨hs.file, hs.reads, hs.transactions, hs.holds.emit l, hs.truthful,
    hs.mirrored.logged hown hkeys hframe⟩

/-- What is found of a setting is its row. -/
theorem Mirroring.load (hs : Mirroring path dir t h keys s) (hown : h.logging.Own)
    (hkeys : ∀ key ∈ keys, key ∈ Publication.keys) (key : String) :
    ∃ s', exec (onStore (Store.loadSetting key)) s = (.ok (t.setting key), s') ∧
      Mirroring path dir t h keys s' := by
  have hold := hs.holds
  rw [← hs.file] at hold
  obtain ⟨u, hload, htables, hout, htruth⟩ := Store.exec_loadSetting_truthful
    (s := ⟨t, s.node.store.cache, s.node.store.outages, []⟩) hs.truthful hs.reads hs.transactions
    key
  have hframe := s.node.store.run_frame_of_same s.host.logsTo_logged
    (Store.loadSetting_tables key (s.node.store.start s.host))
  rcases StoreHandle.exec_run hold (Store.loadSetting key) with ⟨h', hrun, -, hold'⟩
  rw [hload] at hrun hold'
  rw [hrun, hs.logged] at hframe
  have hstep := exec_onStore_eq (Store.loadSetting key) s
  rw [hrun] at hstep
  refine ⟨_, hstep, ⟨hs.file, ?_, hs.transactions, ?_, ?_, hs.mirrored.logged hown hkeys hframe⟩⟩
  · rw [hout]
    exact hs.reads
  · rw [hs.file, htables] at hold'
    exact hold'
  · rw [htables] at htruth
    exact htruth

theorem Mirroring.skip (hs : Mirroring path dir t h keys s)
    (hkey : t.setting key = none ∨ accepts h dir key = false) :
    Mirroring path dir t h (keys ++ [key]) s :=
  ⟨hs.file, hs.reads, hs.transactions, hs.holds, hs.truthful, hs.mirrored.skip hkey⟩

/-- The file of a key can be written where it could. -/
theorem Mirroring.writable_iff (hs : Mirroring path dir t h keys s) :
    s.host.files.writable s.host.workDir (dir / key) = .ok place ↔
      h.files.writable h.workDir (dir / key) = .ok place := by
  rw [hs.mirrored.frame.workDir]
  exact hs.mirrored.frame.files.writable_iff

/-- The text of a row is written to the file of its key. -/
theorem Mirroring.write (hs : Mirroring path dir t h keys s)
    (hkeys : ∀ key ∈ keys, key ∈ Publication.keys) (hkey : key ∈ Publication.keys)
    (hnew : key ∉ keys) (hrow : t.setting key = some (.text text))
    (hwritable : h.files.writable h.workDir (dir / key) = .ok place)
    (hapart : path.placeFrom h.workDir ≠ place) :
    Mirroring path dir t h (keys ++ [key])
      { s with host :=
        { s.host with files := s.host.files.put place (.file (Utf8.encode text)) } } := by
  have hfolder : s.host.files.entry? place ≠ some .folder := fun hf =>
    (FileTree.writable_ok hwritable).2 ((hs.mirrored.frame.files.folder place).1 hf)
  refine ⟨hs.file, hs.reads, hs.transactions, ?_, hs.truthful,
    hs.mirrored.write hkeys hkey hnew hrow hwritable⟩
  rw [← hs.mirrored.frame.workDir] at hapart
  exact ⟨Host.resolve_put hfolder hs.holds.1,
    (FileTree.entry?_put_ne hapart _).trans hs.holds.2⟩

/-- A folder whose path has no NUL, for files that are not the database of the store. -/
structure MirrorFolder (path dir : Path) (h : Host) : Prop where
  noNul : (dir.parts.any fun name => name.toList.any fun c => c.toNat == 0) = false
  apart : ∀ key ∈ Publication.keys,
    path.placeFrom h.workDir ≠ dir.placeFrom h.workDir ++ [key]

/-- A key is published: its row is written, or that this was refused is noted. -/
theorem Mirroring.publish (hs : Mirroring path dir t h keys s) (hown : h.logging.Own)
    (hdir : MirrorFolder path dir h) (hkeys : ∀ key ∈ keys, key ∈ Publication.keys)
    (hkey : key ∈ Publication.keys) (hnew : key ∉ keys) :
    ∃ s', exec (publish dir key (outcome h dir t keys)) s =
        (.ok (outcome h dir t (keys ++ [key])), s') ∧
      Mirroring path dir t h (keys ++ [key]) s' := by
  rcases hs.load hown hkeys key with ⟨s₁, hload, hs₁⟩
  have hkeys' : ∀ k ∈ keys ++ [key], k ∈ Publication.keys := by
    intro k hk
    rcases List.mem_append.1 hk with hk | hk
    · exact hkeys k hk
    · exact List.mem_singleton.1 hk ▸ hkey
  unfold Publication.publish
  rw [exec_bind_of_ok hload]
  cases hrow : t.setting key with
  | none =>
    rw [outcome_append_absent hrow]
    exact ⟨s₁, rfl, hs₁.skip (Or.inl hrow)⟩
  | some value =>
    rcases hs₁.truthful.texts key value hrow with ⟨text, rfl⟩
    simp only [exec_bind, exec_liftExcept, bytesOf, exec_get]
    cases hwritable : s₁.host.files.writable s₁.host.workDir (dir / key) with
    | ok place =>
      have hwritable₀ := hs₁.writable_iff.1 hwritable
      have haccepts : accepts h dir key = true := by
        simp [accepts, hwritable₀, Except.isOk, Except.toBool]
      have hapart := hdir.apart key hkey
      rw [← place_of_writable hkey hwritable₀] at hapart
      have hwritten := hs₁.write hkeys hkey hnew hrow hwritable₀ hapart
      rw [outcome_append_written hrow haccepts]
      simp only [FileTree.write, hwritable, Except.map]
      exact ⟨_, rfl, hwritten.emit hown hkeys' _⟩
    | error fault =>
      have haccepts : accepts h dir key = false := by
        cases hwritable₀ : h.files.writable h.workDir (dir / key) with
        | ok place =>
          rw [hs₁.writable_iff.2 hwritable₀] at hwritable
          simp at hwritable
        | error fault => simp [accepts, hwritable₀, Except.isOk, Except.toBool]
      have hsystem : fault.isSystem = true := by
        refine FileTree.writable_error ?_ hwritable
        rw [(plainName_of_published hkey).div, List.any_append, hdir.noNul]
        simp [(plainName_of_published hkey).noNul]
      have hnone : (outcome h dir t keys).failed.contains key = false := by
        simp [outcome, hnew]
      rw [outcome_append_failed hrow haccepts]
      simp only [FileTree.write, hwritable, Except.map, hsystem, if_true, hnone,
        Bool.false_eq_true, if_false]
      exact ⟨_, rfl, (hs₁.skip (Or.inr haccepts)).emit hown hkeys' _⟩

/-- Keys are published one after the other, whatever was refused. -/
theorem Mirroring.publishAll (hs : Mirroring path dir t h keys s) (hown : h.logging.Own)
    (hdir : MirrorFolder path dir h) (rest : List String)
    (hkeys : ∀ key ∈ keys ++ rest, key ∈ Publication.keys) (hnodup : (keys ++ rest).Nodup) :
    ∃ s', exec (publishAll dir rest (outcome h dir t keys)) s =
        (.ok (outcome h dir t (keys ++ rest)), s') ∧
      Mirroring path dir t h (keys ++ rest) s' := by
  induction rest generalizing keys s with
  | nil =>
    rw [List.append_nil]
    exact ⟨s, rfl, hs⟩
  | cons key rest ih =>
    have hsplit : keys ++ key :: rest = (keys ++ [key]) ++ rest := by simp
    have hnew : key ∉ keys := by
      intro hmem
      exact (List.nodup_append.1 hnodup).2.2 key hmem key List.mem_cons_self rfl
    rcases hs.publish hown hdir (fun k hk => hkeys k (List.mem_append_left _ hk))
      (hkeys key (by simp)) hnew with ⟨s₁, hpublish, hs₁⟩
    rw [hsplit] at hkeys hnodup ⊢
    rcases ih hs₁ hkeys hnodup with ⟨s', hrest, hs'⟩
    refine ⟨s', ?_, hs'⟩
    unfold Publication.publishAll
    rw [exec_bind_of_ok hpublish, hrest]

/-! ## A whole publication -/

/-- The file of a key cannot be written. -/
def Refuses (h : Host) (dir : Path) (key : String) : Prop :=
  ∃ fault, h.files.writable h.workDir (dir / key) = .error fault

theorem accepts_eq_false_iff : accepts h dir key = false ↔ Refuses h dir key := by
  unfold accepts Refuses
  cases h.files.writable h.workDir (dir / key) <;> simp [Except.isOk, Except.toBool]

/-- What a publication makes of the settings in some tables, with its answer. Each key whose file
can be written has its row in it, each other one what was there before. Keys without a row and all
other files, logs apart, are as they were. The answer names the keys with a row, or else exactly
those that were refused, in order. -/
structure MirrorsStore (dir : Path) (t : Tables) (h h' : Host)
    (answer : Except Failure SyncReport) : Prop where
  texts : ∀ key ∈ Publication.keys, ∀ value, t.setting key = some value →
    ∃ text, value = .text text
  written : ∀ key ∈ Publication.keys, ∀ text, t.setting key = some (.text text) →
    ¬ Refuses h dir key → h'.files.find h'.workDir (dir / key) = .ok (.file (Utf8.encode text))
  refused : ∀ key ∈ Publication.keys, Refuses h dir key →
    h'.files.entry? ((dir / key).placeFrom h.workDir) =
      h.files.entry? ((dir / key).placeFrom h.workDir)
  others : ∀ place, ¬ h.Logged place →
    (∀ key ∈ Publication.keys, t.setting key ≠ none → place ≠ (dir / key).placeFrom h.workDir) →
    h'.files.entry? place = h.files.entry? place
  report : (∀ key ∈ Publication.keys, t.setting key ≠ none → ¬ Refuses h dir key) →
    answer = .ok ⟨Publication.keys.filter fun key => (t.setting key).isSome⟩
  failure : (∃ key ∈ Publication.keys, t.setting key ≠ none ∧ Refuses h dir key) →
    ∃ names, answer = .error (.transfer (.notSynced names)) ∧ names.Pairwise (· ≤ ·) ∧
      names.Nodup ∧ ∀ key, key ∈ names ↔
        key ∈ Publication.keys ∧ t.setting key ≠ none ∧ Refuses h dir key

theorem mem_failed :
    key ∈ (outcome h dir t keys).failed ↔
      key ∈ keys ∧ t.setting key ≠ none ∧ Refuses h dir key := by
  simp [outcome, Option.isSome_iff_ne_none, accepts_eq_false_iff]

/-- If no key is refused, all keys with a row are written. -/
theorem outcome_of_all (hall : ∀ key ∈ keys, t.setting key ≠ none → ¬ Refuses h dir key) :
    outcome h dir t keys = ⟨keys.filter fun key => (t.setting key).isSome, []⟩ := by
  have hnone : (outcome h dir t keys).failed = [] := by
    refine List.eq_nil_iff_forall_not_mem.2 fun key hmem => ?_
    rcases mem_failed.1 hmem with ⟨hkey, hrow, hrefused⟩
    exact hall key hkey hrow hrefused
  have hwritten : (outcome h dir t keys).written =
      keys.filter fun key => (t.setting key).isSome := by
    refine List.filter_congr fun key hkey => ?_
    cases hrow : t.setting key with
    | none => rfl
    | some value =>
      have haccepts : accepts h dir key ≠ false := fun hrefused =>
        hall key hkey (by simp [hrow]) (accepts_eq_false_iff.1 hrefused)
      simpa using haccepts
  rw [← hnone, ← hwritten]

/-- The names in an answer are in order. -/
theorem sorted_mergeSort (names : List String) :
    (names.mergeSort fun a b => a ≤ b).Pairwise (· ≤ ·) := by
  have hsorted : List.Pairwise (fun a b : String => decide (a ≤ b) = true)
      (names.mergeSort fun a b => a ≤ b) := by
    refine List.pairwise_mergeSort ?_ ?_ _
    · intro a b c hab hbc
      simpa using String.le_trans (of_decide_eq_true hab) (of_decide_eq_true hbc)
    · intro a b
      simpa using String.le_total a b
  simpa using hsorted

/-- The files after a publication, and its answer. -/
theorem Mirroring.mirrorsStore {s' : NodeState}
    (hs' : Mirroring path dir t h Publication.keys s') (hown : h.logging.Own)
    {answer : Except Failure SyncReport}
    (hanswer : answer =
      if (outcome h dir t Publication.keys).failed.isEmpty then
        .ok ⟨(outcome h dir t Publication.keys).written⟩
      else .error (.transfer (.notSynced
        ((outcome h dir t Publication.keys).failed.mergeSort fun a b => a ≤ b)))) :
    MirrorsStore dir t h s'.host answer where
  texts key _ value hrow := hs'.truthful.texts key value hrow
  written := by
    intro key hkey text hrow hwritten
    cases hwritable : h.files.writable h.workDir (dir / key) with
    | error fault => exact absurd ⟨fault, hwritable⟩ hwritten
    | ok place =>
      have hres := (hs'.mirrored.frame.files.resolve_iff).2 (FileTree.writable_ok hwritable).1
      rw [FileTree.find, hs'.mirrored.frame.workDir, hres]
      simp only [ok_bind, hs'.mirrored.files key hkey text hrow place hwritable]
  refused := by
    intro key hkey hrefused
    rw [(plainName_of_published hkey).placeFrom]
    refine hs'.mirrored.frame.files.entry _ ?_
    rintro (hlogged | ⟨k, hk, -, hwritable⟩)
    · exact Host.not_logged hown (fileName_ne_published hkey) _ hlogged
    · -- files of two keys have different names
      obtain rfl : key = k := by simpa using place_of_writable hk hwritable
      rcases hrefused with ⟨fault, hfault⟩
      simp [hwritable] at hfault
  others := by
    intro place hlogged hothers
    refine hs'.mirrored.frame.files.entry place ?_
    rintro (hlog | ⟨key, hkey, hrow, hwritable⟩)
    · exact hlogged hlog
    · exact hothers key hkey hrow
        (FileTree.place_eq_of_resolve (FileTree.writable_ok hwritable).1)
  report := by
    intro hall
    rw [hanswer, outcome_of_all hall]
    rfl
  failure := by
    rintro ⟨key, hkey, hrow, hrefused⟩
    have hmem := mem_failed.2 ⟨hkey, hrow, hrefused⟩
    have hsome : (outcome h dir t Publication.keys).failed.isEmpty = false := by
      simpa using List.ne_nil_of_mem hmem
    have hperm := List.mergeSort_perm (outcome h dir t Publication.keys).failed
      fun a b => decide (a ≤ b)
    refine ⟨_, by rw [hanswer, hsome]; rfl, sorted_mergeSort _, ?_, ?_⟩
    · exact hperm.nodup_iff.2 (List.Nodup.filter _ (by decide))
    · intro key
      rw [hperm.mem_iff, mem_failed]

/-- A store that is used alone, and of which settings can be read, is mirrored by a publication,
whatever is in the folder. The rows stay as they are. -/
theorem publication_mirrors_store {path dir : Path} {s : NodeState}
    (hsole : StoreHandle.SoleUse path s.node.store s.host)
    (hreads : s.node.store.outages.reads = none)
    (htransactions : s.node.store.outages.transactions = none) (hown : s.host.logging.Own)
    (hdir : MirrorFolder s.node.store.path dir s.host) :
    ∃ t answer s', s.host.Holds s.node.store.path t ∧
      exec (Publication.run dir Publication.keys) s = (answer, s') ∧
      MirrorsStore dir t s.host s'.host answer ∧ s'.host.Holds s.node.store.path t := by
  rcases hsole.tellsTruth with ⟨t, hold, htruth⟩
  have hstart : Mirroring s.node.store.path dir t s.host [] s :=
    ⟨rfl, hreads, htransactions, hold, htruth, mirrored_nil s.host⟩
  rcases hstart.publishAll hown hdir Publication.keys (fun _ hk => hk) (by decide) with
    ⟨s', hrun, hs'⟩
  have hnothing : outcome s.host dir t [] = {} := rfl
  rw [List.nil_append] at hs'
  rw [List.nil_append, hnothing] at hrun
  refine ⟨t, _, s', hold, ?_, hs'.mirrorsStore hown rfl, hs'.holds⟩
  unfold Publication.run
  rw [exec_bind_of_ok hrun]
  split <;> rfl

/-- A machine with a folder in the place of one published file and an old file of another. -/
def mirrorHost : Host :=
  { Host.bare with
    files :=
      { entries :=
          [(["node"], .folder), (["node", "proxy_endpoint"], .folder),
            (["node", "bitcoin_network"], .file (Utf8.encode "testnet"))] } }

/-- The path of a store on it. -/
def mirrorPath : Path := Path.ofString "/node/lnstore.db"

/-- Two settings that are saved in that store. -/
def mirrorSaves : List StoreCall :=
  [.saveSetting (some "indexer_url") (some "127.0.0.1:50001"),
    .saveSetting (some "proxy_endpoint") (some "rpcs://proxy")]

/-- Calls on a store and its host in order. -/
def performAll (calls : List StoreCall) (s : StoreHandle × Host) : StoreHandle × Host :=
  calls.foldl (fun s call => (s.1.run call.perform s.2).2) s

theorem soleUse_performAll {handle : StoreHandle} (calls : List StoreCall)
    (hsole : StoreHandle.SoleUse path handle h) :
    StoreHandle.SoleUse path (performAll calls (handle, h)).1 (performAll calls (handle, h)).2 := by
  induction calls generalizing handle h with
  | nil => exact hsole
  | cons call rest ih => exact ih (.call call hsole)

/-- The store and its host after it was opened and the settings were saved. -/
def mirrorUsed : StoreHandle × Host :=
  performAll mirrorSaves
    ({ path := mirrorPath }, (exec (StoreHandle.open mirrorPath) mirrorHost).2)

/-- What the file of the store holds then. -/
def mirrorTables : Tables :=
  { (Tables.createMissing {}) with
    settings := some
      { rows := [⟨1, .text "indexer_url", .text "127.0.0.1:50001"⟩,
          ⟨2, .text "proxy_endpoint", .text "rpcs://proxy"⟩] } }

/-- A node with that store. -/
def mirrorNode : NodeState where
  node :=
    { config := { storageDir := Path.ofString "/node" }
      store := mirrorUsed.1
      secret := { path := Path.ofString "/node/secret.db", iterations := 1 } }
  host := mirrorUsed.2

/-- The setting whose file is blocked by a folder is named, and the other one is in its file. The
old file, whose key has no row, stays. -/
theorem blocked_key_is_named :
    StoreHandle.SoleUse mirrorPath mirrorNode.node.store mirrorNode.host ∧
    mirrorNode.host.logging.Own ∧
    MirrorFolder mirrorNode.node.store.path (Path.ofString "/node") mirrorNode.host ∧
    ∃ names s', exec (Publication.run (Path.ofString "/node") Publication.keys) mirrorNode =
        (.error (.transfer (.notSynced names)), s') ∧
      "proxy_endpoint" ∈ names ∧ "indexer_url" ∉ names ∧
      s'.host.files.find s'.host.workDir (Path.ofString "/node" / "indexer_url") =
        .ok (.file (Utf8.encode "127.0.0.1:50001")) ∧
      s'.host.files.entry? ["node", "bitcoin_network"] = some (.file (Utf8.encode "testnet")) := by
  have hopened : StoreHandle.SoleUse mirrorPath { path := mirrorPath }
      (exec (StoreHandle.open mirrorPath) mirrorHost).2 := by
    have hanswer : (exec (StoreHandle.open mirrorPath) mirrorHost).1 =
        .ok { path := mirrorPath } := by decide +kernel
    have hhold : (exec (StoreHandle.open mirrorPath) mirrorHost).2.Holds mirrorPath
        (Tables.createMissing {}) := ⟨by decide +kernel, by decide +kernel⟩
    refine .opened (h := mirrorHost) (Prod.ext hanswer rfl) hhold ?_
    intro key value hvalue
    simp [Tables.setting, Tables.createMissing, Table.valueOf?, Table.find?] at hvalue
  have hsole : StoreHandle.SoleUse mirrorPath mirrorNode.node.store mirrorNode.host :=
    soleUse_performAll mirrorSaves hopened
  have hown : mirrorNode.host.logging.Own := by
    have hquiet : mirrorNode.host.logging.handlers = [] := by decide +kernel
    simp [Logging.Own, hquiet]
  have hdir : MirrorFolder mirrorNode.node.store.path (Path.ofString "/node") mirrorNode.host :=
    ⟨by decide +kernel, by decide +kernel⟩
  rcases publication_mirrors_store hsole (by decide +kernel) (by decide +kernel) hown hdir with
    ⟨t, answer, s', hold, hrun, hmirrors, -⟩
  obtain rfl : t = mirrorTables := by
    have hentry : mirrorNode.host.files.entry?
        (mirrorNode.node.store.path.placeFrom mirrorNode.host.workDir) =
          some (.database mirrorTables) := by decide +kernel
    simpa using hold.2.symm.trans hentry
  have hindexer : mirrorTables.setting "indexer_url" = some (.text "127.0.0.1:50001") := by
    decide +kernel
  have hproxy : mirrorTables.setting "proxy_endpoint" ≠ none := by decide +kernel
  have hfree : ¬ Refuses mirrorNode.host (Path.ofString "/node") "indexer_url" := by
    rw [← accepts_eq_false_iff]
    decide +kernel
  have hblocked : Refuses mirrorNode.host (Path.ofString "/node") "proxy_endpoint" := by
    rw [← accepts_eq_false_iff]
    decide +kernel
  rcases hmirrors.failure ⟨"proxy_endpoint", by decide, hproxy, hblocked⟩ with
    ⟨names, rfl, -, -, hnames⟩
  refine ⟨hsole, hown, hdir, names, s', hrun, ?_, ?_, ?_, ?_⟩
  · exact (hnames _).2 ⟨by decide, hproxy, hblocked⟩
  · exact fun hmem => hfree ((hnames _).1 hmem).2.2
  · exact hmirrors.written _ (by decide) _ hindexer hfree
  · have hsame := hmirrors.others ["node", "bitcoin_network"]
      (Host.not_logged hown (by decide) ["node"]) (by decide +kernel)
    rw [hsame]
    decide +kernel

end Node

end NodeStore
