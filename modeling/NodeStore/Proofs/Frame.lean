import NodeStore.Proofs.Alike
import NodeStore.Proofs.Node.Invariants

/-! # What a change leaves alone

Most of what happens to a host happens at few places. `FileTree.Frame P` says that two trees are the
same at all places that are not of the kind `P`, and that both have the same folders;
`Host.Frame P` says that besides this only lines were logged and random bytes were drawn.

* `Frame.resolve_iff`, `Frame.find?_eq`: a path leads to the same place, and finds the same there;
* `frame_emitAll`, `frame_putTables`: logging, and writing a database;
* `StoreHandle.run_frame`, `Node.exec_onStore_frame`: operations of the relational store. -/

namespace NodeStore

open Op

namespace FileTree

/-- The trees are the same but at places of a kind, and have the same folders. -/
structure Frame (P : Place → Prop) (t t' : FileTree) : Prop where
  entry : ∀ q, ¬ P q → t'.entry? q = t.entry? q
  folder : ∀ q, t'.entry? q = some .folder ↔ t.entry? q = some .folder

variable {P Q : Place → Prop} {t t' t'' : FileTree} {workDir here place : Place} {path : Path}
  {parts : List String}

theorem Frame.refl (P : Place → Prop) (t : FileTree) : Frame P t t :=
  ⟨fun _ _ => rfl, fun _ => Iff.rfl⟩

theorem Frame.trans (hf : Frame P t t') (hf' : Frame P t' t'') : Frame P t t'' :=
  ⟨fun q hq => (hf'.entry q hq).trans (hf.entry q hq),
    fun q => (hf'.folder q).trans (hf.folder q)⟩

theorem Frame.imp (hf : Frame P t t') (hPQ : ∀ q, P q → Q q) : Frame Q t t' :=
  ⟨fun q hq => hf.entry q fun hP => hq (hPQ q hP), hf.folder⟩

/-- Putting what is no folder where there is none. -/
theorem frame_put {e : FileEntry} (hplace : P place) (hfolder : t.entry? place ≠ some .folder)
    (he : e ≠ .folder) : Frame P t (t.put place e) := by
  have hroot : place ≠ [] := by
    rintro rfl
    exact hfolder (entry?_root t)
  constructor
  · intro q hq
    refine entry?_put_ne ?_ e
    rintro rfl
    exact hq hplace
  · intro q
    by_cases hsame : q = place
    · subst hsame
      rw [entry?_put_self hroot]
      simp [he, hfolder]
    · rw [entry?_put_ne hsame]

/-- Erasing what is no folder. -/
theorem frame_erase (hplace : P place) (hfolder : t.entry? place ≠ some .folder) :
    Frame P t (t.erase place) := by
  have hroot : place ≠ [] := by
    rintro rfl
    exact hfolder (entry?_root t)
  constructor
  · intro q hq
    refine entry?_erase_ne ?_
    rintro rfl
    exact hq hplace
  · intro q
    by_cases hsame : q = place
    · subst hsame
      rw [entry?_erase_self hroot]
      simp [hfolder]
    · rw [entry?_erase_ne hsame]

/-- Trees that are alike differ at places of the kind only. -/
theorem Alike.frame (ha : Alike P t t') : Frame P t t' :=
  ⟨fun _ hq => ha.entry?_eq hq, fun _ => ⟨ha.symm.entry? id, ha.entry? id⟩⟩

/-- With the same folders a path leads to the same place. -/
theorem Frame.resolve_iff (hf : Frame P t t') :
    t'.resolve workDir path = .ok place ↔ t.resolve workDir path = .ok place :=
  ⟨resolve_of_folders fun q => (hf.folder q).1, resolve_of_folders fun q => (hf.folder q).2⟩

/-- With the same folders a file can be written where it could. -/
theorem Frame.writable_iff (hf : Frame P t t') :
    t'.writable workDir path = .ok place ↔ t.writable workDir path = .ok place := by
  rw [FileTree.writable_iff, FileTree.writable_iff, hf.resolve_iff, ne_eq, hf.folder, hf.folder]

/-- A name that is too long is met in both trees or in none. -/
theorem Frame.follow_nameTooLong (hf : Frame P t t') (here : Place) (parts : List String) :
    t'.follow here parts = .error .nameTooLong ↔ t.follow here parts = .error .nameTooLong := by
  induction parts generalizing here with
  | nil => exact ⟨nofun, nofun⟩
  | cons name rest ih =>
    by_cases hfolder : t.entry? here = some .folder
    · have hfolder' := (hf.folder here).2 hfolder
      by_cases hname : (Utf8.encode name).length ≤ maxName
      · rw [follow_cons hfolder hname, follow_cons hfolder' hname]
        split
        · exact ih _
        · exact ih _
      · have hlong : maxName < (Utf8.encode name).length := Nat.lt_of_not_le hname
        simp only [follow, hfolder, hfolder', hlong, if_true]
    · -- what is no folder ends both walks, for reasons that may differ
      have hends : ∀ u : FileTree, u.entry? here ≠ some .folder →
          u.follow here (name :: rest) ≠ .error .nameTooLong := by
        intro u hu
        rw [follow]
        cases he : u.entry? here with
        | none => simp
        | some e =>
          cases e with
          | folder => exact absurd he hu
          | file b => simp
          | database d => simp
      have hfolder' : t'.entry? here ≠ some .folder := fun h => hfolder ((hf.folder here).1 h)
      exact ⟨fun h => absurd h (hends t' hfolder'), fun h => absurd h (hends t hfolder)⟩

/-- Where a path cannot be followed nothing is found, unless a name is too long. -/
theorem find?_of_error {fault : FileFault} (hres : t.resolve workDir path = .error fault) :
    t.find? workDir path = if fault = .nameTooLong then .error .nameTooLong else .ok none := by
  unfold find? find
  rw [hres]
  cases fault <;> rfl

/-- A path finds what it found, unless it leads to a place of the kind. -/
theorem Frame.find?_eq (hf : Frame P t t')
    (hplace : ∀ place, t.resolve workDir path = .ok place → ¬ P place) :
    t'.find? workDir path = t.find? workDir path := by
  cases hres : t.resolve workDir path with
  | ok place =>
    rw [find?_of_resolve hres, find?_of_resolve (hf.resolve_iff.2 hres),
      hf.entry place (hplace place hres)]
  | error fault =>
    cases hres' : t'.resolve workDir path with
    | ok place => simp [hf.resolve_iff.1 hres'] at hres
    | error fault' =>
      have hlong : fault' = .nameTooLong ↔ fault = .nameTooLong := by
        unfold FileTree.resolve at hres hres'
        split at hres
        · rename_i hnul
          rw [if_pos hnul] at hres'
          rw [← Except.error.inj hres, ← Except.error.inj hres']
        · rename_i hnul
          rw [if_neg hnul] at hres'
          generalize (if path.isAbsolute then [] else workDir) = here at hres hres'
          have hboth := hf.follow_nameTooLong here path.parts
          rwa [hres, hres', Except.error.injEq, Except.error.injEq] at hboth
      rw [find?_of_error hres, find?_of_error hres']
      by_cases hname : fault = .nameTooLong
      · rw [if_pos hname, if_pos (hlong.2 hname)]
      · rw [if_neg hname, if_neg fun h => hname (hlong.1 h)]

end FileTree

namespace Host

/-- The hosts are the same but for files at places of a kind that are no folders, lines that were
logged, and random bytes that were drawn. -/
structure Frame (P : Place → Prop) (h h' : Host) : Prop where
  same : h' = { h with files := h'.files, log := h'.log, entropy := h'.entropy }
  files : FileTree.Frame P h.files h'.files

variable {P Q : Place → Prop} {h h' h'' : Host} {p : Path} {place : Place} {tables new : Tables}

theorem Frame.refl (P : Place → Prop) (h : Host) : Frame P h h := ⟨rfl, .refl P _⟩

theorem Frame.trans (hf : Frame P h h') (hf' : Frame P h' h'') : Frame P h h'' := by
  refine ⟨?_, hf.files.trans hf'.files⟩
  rw [hf'.same, hf.same]

theorem Frame.imp (hf : Frame P h h') (hPQ : ∀ q, P q → Q q) : Frame Q h h' :=
  ⟨hf.same, hf.files.imp hPQ⟩

theorem Frame.workDir (hf : Frame P h h') : h'.workDir = h.workDir := by
  rw [hf.same]

theorem Frame.logging (hf : Frame P h h') : h'.logging = h.logging := by
  rw [hf.same]

theorem Frame.logsTo (hf : Frame P h h') (hlogs : h.LogsTo Q) : h'.LogsTo Q := by
  rw [LogsTo, hf.logging]
  exact hlogs

/-- Changing the files within a frame. -/
theorem frame_files {files : FileTree} (hf : FileTree.Frame P h.files files) :
    Frame P h { h with files } :=
  ⟨rfl, hf⟩

theorem Alike.frame (ha : Alike P h h') : Frame P h h' := by
  refine ⟨?_, ha.files.frame⟩
  rw [ha.same]

theorem frame_emit (hlogs : h.LogsTo P) (l : LogLine) : Frame P h (h.emit l) :=
  (alike_emit hlogs l).frame

theorem frame_emitAll (hlogs : h.LogsTo P) (ls : List LogLine) : Frame P h (h.emitAll ls) :=
  (alike_emitAll hlogs ls).frame

theorem frame_putTables (hdb : h.databaseAt p = .ok (place, tables)) (hplace : P place)
    (new : Tables) : Frame P h (h.putTables place new) :=
  ⟨rfl, FileTree.frame_put hplace (databaseAt_ne_folder hdb) nofun⟩

/-- A folder is where it was. -/
theorem Frame.folderAt (hf : Frame P h h') (hfolder : h.files.FolderAt h.workDir p) :
    h'.files.FolderAt h'.workDir p := by
  rw [FileTree.FolderAt, hf.workDir]
  exact ⟨hf.files.resolve_iff.2 hfolder.1, (hf.files.folder _).2 hfolder.2⟩

/-- A log file is written at the place. -/
def Logged (h : Host) (place : Place) : Prop :=
  ∃ handler ∈ h.logging.handlers, handler.sink = .file place

theorem logsTo_logged (h : Host) : h.LogsTo h.Logged :=
  fun handler hmem _ hsink => ⟨handler, hmem, hsink⟩

theorem LogsTo.imp (hlogs : h.LogsTo P) (hPQ : ∀ q, P q → Q q) : h.LogsTo Q :=
  fun handler hmem place hsink => hPQ place (hlogs handler hmem place hsink)

/-- Log files have a name of their own. -/
theorem not_logged (hown : h.logging.Own) {name : String} (hname : name ≠ Logging.fileName)
    (folder : Place) : ¬ h.Logged (folder ++ [name]) := by
  rintro ⟨handler, hmem, hsink⟩
  exact hown.sink_ne hmem hname folder hsink

end Host

/-! ## Stores -/

/-- An operation of the relational store writes to its file and to log files. -/
theorem StoreHandle.run_frame {α : Type} {P : Place → Prop} {h : Host} (handle : StoreHandle)
    (hlogs : h.LogsTo P) (hplace : P (handle.path.placeFrom h.workDir)) (op : StoreM α) :
    h.Frame P (handle.run op h).2.2 := by
  rw [run_eq]
  have hback : h.Frame P (handle.writeBack (exec op (handle.start h)).2.tables h) := by
    unfold writeBack
    cases hdb : h.databaseAt handle.path with
    | error fault => exact .refl P h
    | ok found =>
      rcases found with ⟨place, old⟩
      simp only
      split
      · exact .refl P h
      · refine Host.frame_putTables hdb ?_ _
        rw [(Host.databaseAt_ok hdb).1]
        exact hplace
  exact hback.trans (Host.frame_emitAll (hback.logsTo hlogs) _)

/-- An operation that leaves the tables as they are writes to log files only. -/
theorem StoreHandle.run_frame_of_same {α : Type} {P : Place → Prop} {h : Host} {op : StoreM α}
    (handle : StoreHandle) (hlogs : h.LogsTo P)
    (hsame : (exec op (handle.start h)).2.tables = (handle.start h).tables) :
    h.Frame P (handle.run op h).2.2 := by
  rw [run_eq, hsame, writeBack_start]
  exact Host.frame_emitAll hlogs _

namespace Node

/-- While the store's file is a database, an operation of the store runs on its tables. It leaves a
database with the tables that it left, and changes no other files but logs. -/
theorem exec_onStore_frame {α : Type} {P : Place → Prop} {s : NodeState} {tables : Tables}
    (hold : s.host.Holds s.node.store.path tables) (hlogs : s.host.LogsTo P)
    (hplace : P (s.node.store.path.placeFrom s.host.workDir)) {op : StoreM α}
    {r : Except Failure α} {u : StoreState}
    (hrun : exec op ⟨tables, s.node.store.cache, s.node.store.outages, []⟩ = (r, u)) :
    ∃ h', exec (onStore op) s =
        (r, { node := { s.node with store :=
                { s.node.store with
                  cache := u.cache
                  outages :=
                    { u.outages with transactions := s.node.store.outages.transactions } } },
              host := h' }) ∧
      h'.Holds s.node.store.path u.tables ∧ s.host.Frame P h' := by
  have hframe := s.node.store.run_frame hlogs hplace op
  rcases StoreHandle.exec_run hold op with ⟨h', hexec, -, hold'⟩
  rw [hrun] at hexec hold'
  rw [hexec] at hframe
  have hstep := exec_onStore_eq op s
  rw [hexec] at hstep
  exact ⟨h', hstep, hold', hframe⟩

end Node

end NodeStore
