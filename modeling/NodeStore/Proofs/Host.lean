import NodeStore.Host
import NodeStore.Proofs.FileTree
import NodeStore.Proofs.Rules

/-! # What happens to a host

Logging adds to files and changes nothing else (`emit_eq`, `grown_emit`). A database file that is
there (`Host.Holds`) is still there after logging, after folders have been made, and after other
files have been changed; putting its tables in place changes it and no other file.

* `Holds.grown`, `Holds.emit`, `Holds.emitAll`: the file is still there;
* `holds_putTables`: the file after its tables have been put in place. -/

namespace NodeStore

open Op

/-! ## Logging -/

namespace Logging

variable {s : Logging} {time : String} {l : LogLine}

/-- What holds of files, and still holds after a handler has added to its file, holds after a line
has been written. -/
theorem write_files {P : FileTree → Prop} {files : FileTree} (h : P files)
    (happend : ∀ files place content, (∃ handler ∈ s.handlers, handler.sink = .file place) →
      P files → P (files.append place content)) : P (s.write time l files).2 := by
  have hwriters : ∀ handler ∈ s.writers l, handler ∈ s.handlers := by
    intro handler hmem
    unfold writers at hmem
    split at hmem
    · exact (List.mem_filter.1 hmem).1
    · simp at hmem
  unfold write
  -- The induction is on the handlers that write, whatever the console has shown before.
  generalize s.writers l = writers at hwriters
  generalize "" = console
  induction writers generalizing console files with
  | nil => exact h
  | cons handler rest ih =>
    have hrest : ∀ other ∈ rest, other ∈ s.handlers := fun other hother =>
      hwriters other (List.mem_cons_of_mem handler hother)
    rw [List.foldl_cons]
    cases hsink : handler.sink with
    | console => exact ih h hrest _
    | file place =>
      refine ih ?_ hrest _
      exact happend files place _ ⟨handler, hwriters handler List.mem_cons_self, hsink⟩ h

/-- Log files have a name of their own. -/
def Own (s : Logging) : Prop :=
  ∀ handler ∈ s.handlers, ∀ place, handler.sink = .file place → place.getLast? = some fileName

/-- A log file that was opened can be written to, and folders were made for it. -/
theorem openFile_eq_ok {files files' : FileTree} {workDir place : Place} {dir : Path}
    (h : openFile files workDir dir = (.ok place, files')) :
    place = (dir / fileName).placeFrom workDir ∧ ∃ made, files.MadeFolders made ∧
      made.entry? place ≠ some .folder ∧ files' = made.append place [] := by
  have hmade := FileTree.madeFolders_makeAll files workDir dir
  unfold openFile at h
  split at h
  · simp at h
  · rename_i made heq
    rw [heq] at hmade
    cases hwritable : made.writable workDir (dir / fileName) with
    | error fault => simp [hwritable] at h
    | ok found =>
      simp only [hwritable, Prod.mk.injEq, Except.ok.injEq] at h
      rcases h with ⟨rfl, rfl⟩
      have hok := FileTree.writable_ok hwritable
      exact ⟨FileTree.place_eq_of_resolve hok.1, made, hmade, hok.2, rfl⟩

theorem Own.sink_ne (hown : s.Own) {handler : LogHandler} (hmem : handler ∈ s.handlers)
    {name : String} (hname : name ≠ fileName) (folder : Place) :
    handler.sink ≠ .file (folder ++ [name]) := by
  intro hsink
  have hlast := hown handler hmem _ hsink
  rw [List.getLast?_append, List.getLast?_singleton, Option.some_or] at hlast
  exact hname (Option.some.inj hlast)

end Logging

namespace Host

variable {h h' : Host} {p q : Path} {tables new : Tables} {place : Place}

/-- Logging a line changes the files and the log. -/
theorem emit_eq (h : Host) (l : LogLine) :
    h.emit l = { h with files := (h.emit l).files, log := (h.emit l).log } := rfl

theorem grown_emit (h : Host) (l : LogLine) : h.files.Grown (h.emit l).files :=
  Logging.write_files (P := h.files.Grown) (.refl _) fun files place content _ hgrown =>
    hgrown.trans (FileTree.grown_append files place content)

/-- A line changes nothing at a place that no handler writes to. -/
theorem entry?_emit (hlog : ∀ handler ∈ h.logging.handlers, handler.sink ≠ .file place)
    (l : LogLine) : (h.emit l).files.entry? place = h.files.entry? place := by
  refine Logging.write_files (P := fun t => t.entry? place = h.files.entry? place) rfl ?_
  intro files place' content hsink hsame
  rcases hsink with ⟨handler, hhandler, hplace⟩
  refine (FileTree.entry?_append_ne ?_ content).trans hsame
  rintro rfl
  exact hlog handler hhandler hplace

/-- Logging lines changes the files, which are added to, and the log. -/
theorem emitAll_eq (h : Host) (ls : List LogLine) :
    ∃ files log, h.emitAll ls = { h with files, log } ∧ h.files.Grown files := by
  induction ls generalizing h with
  | nil => exact ⟨h.files, h.log, rfl, .refl _⟩
  | cons l ls ih =>
    rcases ih (h.emit l) with ⟨files, log, heq, hgrown⟩
    refine ⟨files, log, ?_, (grown_emit h l).trans hgrown⟩
    rw [emitAll, List.foldl_cons]
    exact heq.trans (by rw [emit_eq])

theorem exec_say (level : Int) (subsystem message : String) (h : Host) :
    exec (say level subsystem message) h = (.ok (), h.emit ⟨level, subsystem, message⟩) := rfl

/-! ## Database files -/

/-- The file of a path is a database with the given tables. -/
def Holds (h : Host) (p : Path) (tables : Tables) : Prop :=
  h.files.resolve h.workDir p = .ok (p.placeFrom h.workDir) ∧
    h.files.entry? (p.placeFrom h.workDir) = some (.database tables)

theorem Holds.databaseAt (hold : h.Holds p tables) :
    h.databaseAt p = .ok (p.placeFrom h.workDir, tables) := by
  simp only [Host.databaseAt, hold.1, hold.2]

/-- Where an engine may work there is a database, or an empty file or place. -/
theorem databaseAt_ok (hdb : h.databaseAt p = .ok (place, tables)) :
    place = p.placeFrom h.workDir ∧ h.files.resolve h.workDir p = .ok place ∧
      (h.files.entry? place = some (.database tables) ∨
        tables = {} ∧ (h.files.entry? place = some (.file []) ∨ h.files.entry? place = none)) := by
  unfold Host.databaseAt at hdb
  cases hres : h.files.resolve h.workDir p with
  | error fault => simp [hres] at hdb
  | ok q =>
    have hq := FileTree.place_eq_of_resolve hres
    simp only [hres] at hdb
    split at hdb
    · rename_i d he
      simp only [Except.ok.injEq, Prod.mk.injEq] at hdb
      rcases hdb with ⟨rfl, rfl⟩
      exact ⟨hq, rfl, Or.inl he⟩
    · rename_i he
      simp only [Except.ok.injEq, Prod.mk.injEq] at hdb
      rcases hdb with ⟨rfl, rfl⟩
      exact ⟨hq, rfl, Or.inr ⟨rfl, Or.inl he⟩⟩
    · simp at hdb
    · simp at hdb
    · rename_i he
      split at hdb
      · simp only [Except.ok.injEq, Prod.mk.injEq] at hdb
        rcases hdb with ⟨rfl, rfl⟩
        exact ⟨hq, rfl, Or.inr ⟨rfl, Or.inr he⟩⟩
      · simp at hdb

/-- An engine does not work at a folder. -/
theorem databaseAt_ne_folder (hdb : h.databaseAt p = .ok (place, tables)) :
    h.files.entry? place ≠ some .folder := by
  rcases databaseAt_ok hdb with ⟨-, -, he⟩
  rcases he with he | ⟨-, he | he⟩
  · simp [he]
  · simp [he]
  · simp [he]

/-- Tables are there only in a database. -/
theorem holds_of_databaseAt (hdb : h.databaseAt p = .ok (place, tables)) (hne : tables ≠ {}) :
    h.Holds p tables := by
  rcases databaseAt_ok hdb with ⟨rfl, hres, he⟩
  rcases he with he | ⟨hempty, -⟩
  · exact ⟨hres, he⟩
  · exact absurd hempty hne

theorem Holds.grown (hold : h.Holds p tables) (hdir : h'.workDir = h.workDir)
    (hgrown : h.files.Grown h'.files) : h'.Holds p tables := by
  rw [Holds, hdir]
  exact ⟨FileTree.resolve_of_folders hgrown.folder hold.1, hgrown.database _ _ hold.2⟩

theorem Holds.emit (hold : h.Holds p tables) (l : LogLine) : (h.emit l).Holds p tables :=
  hold.grown rfl (grown_emit h l)

theorem Holds.emitAll (hold : h.Holds p tables) (ls : List LogLine) :
    (h.emitAll ls).Holds p tables := by
  rcases emitAll_eq h ls with ⟨files, log, heq, hgrown⟩
  have hgrew : { h with files, log }.Holds p tables := hold.grown rfl hgrown
  rwa [heq]

theorem Holds.made (hold : h.Holds p tables) {files : FileTree}
    (hmade : h.files.MadeFolders files) : { h with files }.Holds p tables :=
  ⟨FileTree.resolve_of_folders (fun _ => hmade.entry?) hold.1, hmade.entry? hold.2⟩

/-- Changing what is no folder leaves every path as it was. -/
theorem resolve_put {e : FileEntry} (hplace : h.files.entry? place ≠ some .folder)
    (hres : h.files.resolve h.workDir q = .ok (q.placeFrom h.workDir)) :
    (h.files.put place e).resolve h.workDir q = .ok (q.placeFrom h.workDir) := by
  refine FileTree.resolve_of_folders ?_ hres
  intro r hr
  rw [FileTree.entry?_put_ne ?_, hr]
  rintro rfl
  exact hplace hr

/-- Folders stay when tables are put in place. -/
theorem folder_putTables (hdb : h.databaseAt p = .ok (place, tables)) (new : Tables) {q : Place}
    (hq : h.files.entry? q = some .folder) :
    (h.putTables place new).files.entry? q = some .folder := by
  refine (FileTree.entry?_put_ne ?_ (.database new)).trans hq
  rintro rfl
  exact databaseAt_ne_folder hdb hq

/-- After its tables have been put in place the file is a database with them. -/
theorem holds_putTables (hdb : h.databaseAt p = .ok (place, tables)) (new : Tables) :
    (h.putTables place new).Holds p new := by
  have hfolder := databaseAt_ne_folder hdb
  rcases databaseAt_ok hdb with ⟨rfl, hres, -⟩
  -- the root is a folder, so that the file is not there
  have hroot : p.placeFrom h.workDir ≠ [] := by
    intro hnil
    exact hfolder (by rw [hnil, FileTree.entry?_root])
  exact ⟨resolve_put hfolder hres, FileTree.entry?_put_self hroot _⟩

/-- Another file stays as it is. -/
theorem Holds.putTables_ne (hold : h.Holds q tables) (hdb : h.databaseAt p = .ok (place, new'))
    (hne : q.placeFrom h.workDir ≠ p.placeFrom h.workDir) (new : Tables) :
    (h.putTables place new).Holds q tables := by
  have hfolder := databaseAt_ne_folder hdb
  rcases databaseAt_ok hdb with ⟨rfl, hres, -⟩
  exact ⟨resolve_put hfolder hold.1, (FileTree.entry?_put_ne hne _).trans hold.2⟩

/-- Erasing another file leaves a database as it is. -/
theorem Holds.erase {h : Host} {p : Path} {tables : Tables} {place : Place} {b : Bytes}
    (hold : h.Holds p tables) (hfile : h.files.entry? place = some (.file b)) :
    { h with files := h.files.erase place }.Holds p tables := by
  have hne : p.placeFrom h.workDir ≠ place := by
    rintro rfl
    have hboth := hold.2.symm.trans hfile
    simp at hboth
  refine ⟨FileTree.resolve_of_folders ?_ hold.1, (FileTree.entry?_erase_ne hne).trans hold.2⟩
  intro q hq
  rw [FileTree.entry?_erase_ne ?_, hq]
  rintro rfl
  rw [hfile] at hq
  simp at hq

/-! ## Folders -/

theorem exec_makeAll_eq (p : Path) (h : Host) :
    exec (makeAll p) h = ((h.files.makeAll h.workDir p).1.mapError Failure.file,
      { h with files := (h.files.makeAll h.workDir p).2 }) := by
  unfold makeAll
  rw [exec_get_bind, exec_set_bind]
  cases (h.files.makeAll h.workDir p).1 <;> rfl

theorem exec_makeAll (p : Path) (h : Host) :
    ∃ files, h.files.MadeFolders files ∧ (exec (makeAll p) h).2 = { h with files } := by
  refine ⟨(h.files.makeAll h.workDir p).2, FileTree.madeFolders_makeAll _ _ _, ?_⟩
  rw [exec_makeAll_eq]

/-- A folder that could be made is there. -/
theorem makeAll_ok (hrun : exec (makeAll p) h = (.ok (), h')) :
    h'.files.FolderAt h'.workDir p := by
  rw [exec_makeAll_eq] at hrun
  rcases hmade : h.files.makeAll h.workDir p with ⟨r, files⟩
  rw [hmade] at hrun
  cases r with
  | error fault => simp at hrun
  | ok done =>
    simp only [mapError_ok, Prod.mk.injEq, true_and] at hrun
    rw [← hrun]
    exact FileTree.folderAt_of_makeAll hmade

/-- Where a folder is there already nothing is made. -/
theorem exec_makeAll_of_folderAt (hfolder : h.files.FolderAt h.workDir p) :
    exec (makeAll p) h = (.ok (), h) := by
  rw [exec_makeAll_eq, FileTree.makeAll_of_folderAt hfolder]
  rfl

theorem exec_find? (p : Path) (h : Host) :
    exec (find? p) h = ((h.files.find? h.workDir p).mapError Failure.file, h) := by
  unfold find?
  rw [exec_get_bind, exec_liftExcept]

/-- Making the folder of a file makes folders and nothing else. -/
theorem exec_makeParent (p : Path) (h : Host) :
    ∃ files, h.files.MadeFolders files ∧ (exec (makeParent p) h).2 = { h with files } := by
  unfold makeParent
  rw [exec_bind, exec_find?]
  cases (h.files.find? h.workDir p.parent).mapError Failure.file with
  | error fault => exact ⟨h.files, .refl _, rfl⟩
  | ok found =>
    cases found with
    | some e => exact ⟨h.files, .refl _, rfl⟩
    | none => exact exec_makeAll p.parent h

theorem exec_makeParent_of_folderAt (hfolder : h.files.FolderAt h.workDir p.parent) :
    exec (makeParent p) h = (.ok (), h) := by
  unfold makeParent
  rw [exec_bind, exec_find?, FileTree.find?_of_resolve hfolder.1, hfolder.2]
  rfl

/-- The folder of a database file is there. -/
theorem exec_makeParent_of_holds (hold : h.Holds p tables) :
    exec (makeParent p) h = (.ok (), h) := by
  have hfound : ∃ e, h.files.find? h.workDir p.parent = .ok (some e) := by
    rcases FileTree.resolve_parent hold.1 with ⟨parent, hparent, hentry⟩
    obtain ⟨e, he⟩ : ∃ e, h.files.entry? parent = some e := by
      rcases hentry with hfolder | rfl
      · exact ⟨_, hfolder⟩
      · exact ⟨_, hold.2⟩
    exact ⟨e, by simp only [FileTree.find?, FileTree.find, hparent, he, bind, Except.bind]⟩
  rcases hfound with ⟨e, hfound⟩
  unfold makeParent
  rw [exec_bind, exec_find?, hfound]
  rfl

/-- A machine with nothing on it. -/
def bare : Host where
  files := {}
  workDir := []
  entropy := .ofBytes []
  time := 0
  stamp := ""
  cipher := .fernet

end Host

end NodeStore
