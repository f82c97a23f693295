import Mathlib.Data.List.Nodup
import Mathlib.Data.List.Perm.Subperm
import NodeStore.Proofs.Assoc
import NodeStore.Proofs.FileTree.Way
import NodeStore.Proofs.Host
import NodeStore.Proofs.Text.Digit
import NodeStore.Record.File

/-! # Records are written whole or not at all

A record goes to a temporary file first, at a place where nothing is (`entry?_temporaryPlace`), and
that file is moved over the target. Whatever fails on the way, every place is afterwards as it was,
unless the temporary file cannot be discarded; if nothing fails, every place but the target is.

* `replace_ok`, `replace_error`: what replacing a target leaves of the files;
* `exec_deposit`: writing, step by step;
* `exec_readOrDefault`: what is read of any file;
* `files_hold_whole_records`: both together. -/

namespace NodeStore.RecordFile

open Op FileTree

variable {files files' : FileTree} {h : Host} {path : Path} {folder target place workDir : Place}
  {encoded : Except Failure Bytes} {flushFails discardFails : Bool}

/-! ## The temporary file -/

theorem temporaryName_injective {name : String} {i j : Nat}
    (h : temporaryName name i = temporaryName name j) : i = j :=
  Text.decimal_injective (String.append_right_inj _ |>.1 h)

/-- More names are tried than there are entries, so that one of them is free. -/
theorem exists_free (files : FileTree) (folder : Place) (name : String) :
    ∃ i ∈ List.range (files.entries.length + 1),
      (files.entry? (folder ++ [temporaryName name i])).isNone = true := by
  by_contra hall
  have hkeys : (List.range (files.entries.length + 1)).map
      (fun i => folder ++ [temporaryName name i]) ⊆ files.entries.map Prod.fst := by
    intro p hp
    rcases List.mem_map.1 hp with ⟨i, hi, rfl⟩
    rw [Assoc.mem_keys_iff_lookup]
    intro hnone
    refine hall ⟨i, hi, ?_⟩
    unfold FileTree.entry?
    rw [if_neg (by simp), hnone]
    rfl
  have hnodup : ((List.range (files.entries.length + 1)).map
      fun i => folder ++ [temporaryName name i]).Nodup := by
    refine List.nodup_range.map_on fun i _ j _ hij => ?_
    exact temporaryName_injective (List.cons.inj (List.append_cancel_left hij)).1
  have hlength := (hnodup.subperm hkeys).length_le
  simp only [List.length_map, List.length_range] at hlength
  omega

theorem entry?_temporaryPlace (files : FileTree) (folder : Place) (name : String) :
    files.entry? (temporaryPlace files folder name) = none := by
  unfold temporaryPlace
  cases hfind : (List.range (files.entries.length + 1)).find? fun i =>
      (files.entry? (folder ++ [temporaryName name i])).isNone with
  | none =>
    rcases exists_free files folder name with ⟨i, hi, hnone⟩
    exact absurd hnone (List.find?_eq_none.1 hfind i hi)
  | some i => simpa using List.find?_some hfind

theorem temporaryPlace_ne_nil (files : FileTree) (folder : Place) (name : String) :
    temporaryPlace files folder name ≠ [] :=
  List.append_ne_nil_of_right_ne_nil folder (List.cons_ne_nil _ _)

/-- A temporary name is longer than the name that it is made of. -/
theorem temporaryPlace_ne (files : FileTree) (folder : Place) (name : String) :
    temporaryPlace files folder name ≠ folder ++ [name] := by
  intro hsame
  have hname := (List.cons.inj (List.append_cancel_left hsame)).1
  have hlength := congrArg String.length hname
  have hdot : ".".length = 1 := rfl
  simp only [temporaryName, String.length_append] at hlength
  omega

/-! ## Replacing a target -/

/-- A path whose last name stands for itself. -/
def IsNamed (path : Path) : Prop :=
  path.name ≠ "" ∧ path.name ≠ ".."

instance (path : Path) : Decidable (IsNamed path) :=
  inferInstanceAs (Decidable (_ ∧ _))

theorem IsNamed.parts (hnamed : IsNamed path) : path.parts = path.parent.parts ++ [path.name] := by
  have hparts : path.parts ≠ [] := by
    intro hnil
    exact hnamed.1 (by rw [Path.name, hnil]; rfl)
  show path.parts = path.parts.dropLast ++ [path.parts.getLast?.getD ""]
  rw [List.getLast?_eq_some_getLast hparts, Option.getD_some, List.dropLast_append_getLast hparts]

theorem IsNamed.placeFrom (hnamed : IsNamed path) (workDir : Place) :
    path.placeFrom workDir = path.parent.placeFrom workDir ++ [path.name] := by
  unfold Path.placeFrom
  rw [hnamed.parts, walk_append, walk, if_neg hnamed.2]
  rfl

/-- What can be moved over the target has been encoded, and no folder is in the way. -/
theorem flushAndMove_ok {source : Place}
    (hmoved : flushAndMove files flushFails encoded source path target = .ok files') :
    IsNamed path ∧ flushFails = false ∧ files.entry? target ≠ some .folder ∧
      ∃ content, encoded = .ok content ∧
        files' = FileTree.erase (files.put target (.file content)) source := by
  unfold flushAndMove at hmoved
  cases encoded with
  | error e => simp [bind, Except.bind] at hmoved
  | ok content =>
    cases flushFails with
    | true => simp at hmoved
    | false =>
      simp only [ok_bind, Bool.false_eq_true, if_false, moveOver] at hmoved
      by_cases hname : path.name = "" ∨ path.name = ".."
      · simp [hname] at hmoved
      · rw [if_neg hname] at hmoved
        split at hmoved
        · simp at hmoved
        · rename_i hfolder
          exact ⟨not_or.1 hname, rfl, hfolder, content, rfl, (Except.ok.inj hmoved).symm⟩

theorem exists_flushAndMove (source : Place) (content : Bytes) (hnamed : IsNamed path)
    (hfolder : files.entry? target ≠ some .folder) :
    ∃ files', flushAndMove files false (.ok content) source path target = .ok files' := by
  unfold flushAndMove moveOver
  simp only [ok_bind, Bool.false_eq_true, if_false, if_neg (not_or.2 hnamed)]
  exact ⟨_, rfl⟩

/-- Whatever fails, every place is as it was, but for a temporary file that cannot be discarded. -/
theorem replace_error {e : Failure}
    (hreplace : replace files flushFails discardFails encoded folder path target =
      (.error e, files')) (place : Place) :
    files'.entry? place = files.entry? place ∨
      discardFails = true ∧ place = temporaryPlace files folder path.name := by
  unfold replace at hreplace
  simp only at hreplace
  split at hreplace
  · simp at hreplace
  · by_cases hplace : place = temporaryPlace files folder path.name
    · subst hplace
      split at hreplace
      · rename_i hdiscard
        exact Or.inr ⟨hdiscard, rfl⟩
      · simp only [Prod.mk.injEq] at hreplace
        rw [← hreplace.2, entry?_erase_self (temporaryPlace_ne_nil _ _ _), entry?_temporaryPlace]
        exact Or.inl rfl
    · left
      split at hreplace
      · simp only [Prod.mk.injEq] at hreplace
        rw [← hreplace.2, entry?_put_ne hplace]
      · simp only [Prod.mk.injEq] at hreplace
        rw [← hreplace.2, entry?_erase_ne hplace, entry?_put_ne hplace]

/-- The target is replaced, and nothing else is changed. -/
theorem replace_ok (htarget : IsNamed path → target = folder ++ [path.name])
    (hreplace : replace files flushFails discardFails encoded folder path target =
      (.ok (), files')) :
    IsNamed path ∧ flushFails = false ∧ files.entry? target ≠ some .folder ∧
      ∃ content, encoded = .ok content ∧ files'.entry? target = some (.file content) ∧
        ∀ place, place ≠ target → files'.entry? place = files.entry? place := by
  unfold replace at hreplace
  simp only at hreplace
  split at hreplace
  · rename_i moved hmoved
    simp only [Prod.mk.injEq, true_and] at hreplace
    subst hreplace
    rcases flushAndMove_ok hmoved with ⟨hnamed, hflush, hfolder, content, hencoded, rfl⟩
    have hne : target ≠ temporaryPlace files folder path.name := by
      rw [htarget hnamed]
      exact (temporaryPlace_ne files folder path.name).symm
    rw [entry?_put_ne hne] at hfolder
    refine ⟨hnamed, hflush, hfolder, content, hencoded, ?_, ?_⟩
    · rw [entry?_erase_ne hne, entry?_put_self (ne_root_of_entry rfl hfolder)]
    · intro place hplace
      by_cases hsource : place = temporaryPlace files folder path.name
      · rw [hsource, entry?_erase_self (temporaryPlace_ne_nil _ _ _), entry?_temporaryPlace]
      · rw [entry?_erase_ne hsource, entry?_put_ne hplace, entry?_put_ne hsource]
  · split at hreplace <;> simp at hreplace

/-- A target that is no folder can be replaced. -/
theorem exists_replace (content : Bytes) (discardFails : Bool) (hnamed : IsNamed path)
    (htarget : target = folder ++ [path.name]) (hfolder : files.entry? target ≠ some .folder) :
    ∃ files', replace files false discardFails (.ok content) folder path target =
      (.ok (), files') := by
  have hne : target ≠ temporaryPlace files folder path.name := by
    rw [htarget]
    exact (temporaryPlace_ne files folder path.name).symm
  have hbegun : FileTree.entry? (files.put (temporaryPlace files folder path.name)
      (.file content)) target ≠ some .folder := by
    rwa [entry?_put_ne hne]
  obtain ⟨moved, hmoved⟩ :=
    exists_flushAndMove (temporaryPlace files folder path.name) content hnamed hbegun
  refine ⟨moved, ?_⟩
  unfold replace
  simp only [Except.toOption, Option.getD_some, hmoved]

/-! ## Writing -/

/-- Writing makes the folders of the path, looks where it leads, and replaces what is there. -/
theorem exec_deposit (encoded : Except Failure Bytes) (path : Path) (h : Host) :
    exec (deposit encoded path) h =
      match h.files.makeAll h.workDir path.parent with
      | (.error fault, made) => (.error (.file fault), { h with files := made })
      | (.ok (), made) =>
        match made.resolve h.workDir path with
        | .error fault => (.error (.file fault), { h with files := made })
        | .ok target =>
          if maxName < (Utf8.encode path.name).length + temporaryExtra then
            (.error (.file .nameTooLong), { h with files := made })
          else
            let written := replace made h.flushFails h.discardFails encoded
              (path.parent.placeFrom h.workDir) path target
            (written.1, { h with files := written.2 }) := by
  unfold deposit
  rw [exec_bind, Host.exec_makeAll_eq]
  rcases hmade : h.files.makeAll h.workDir path.parent with ⟨r, made⟩
  cases r with
  | error fault => rfl
  | ok u =>
    have hfolder := folderAt_of_makeAll hmade
    simp only [mapError_ok]
    rw [exec_get_bind, exec_bind, hfolder.1, exec_liftExcept]
    simp only [mapError_ok]
    rw [exec_bind, exec_liftExcept]
    cases hres : made.resolve h.workDir path with
    | error fault => rfl
    | ok target =>
      simp only [mapError_ok]
      split
      · rfl
      · rw [exec_set_bind, exec_liftExcept]

/-- What a path has to be like on a machine for a record to be written to it. -/
structure Accepts (h : Host) (path : Path) : Prop where
  parent : (h.files.makeAll h.workDir path.parent).1 = .ok ()
  named : IsNamed path
  noNul : (path.name.toList.any fun c => c.toNat == 0) = false
  short : (Utf8.encode path.name).length + temporaryExtra ≤ maxName
  noFolder :
    FileTree.entry? (h.files.makeAll h.workDir path.parent).2 (path.placeFrom h.workDir) ≠
      some .folder
  flushes : h.flushFails = false

/-- A name can be looked up in a folder that is there. -/
theorem resolve_of_parent (hnamed : IsNamed path) (hnul : (path.name.toList.any fun c =>
    c.toNat == 0) = false) (hshort : (Utf8.encode path.name).length ≤ maxName)
    (hfolder : files.FolderAt workDir path.parent) :
    files.resolve workDir path = .ok (path.placeFrom workDir) := by
  rcases hfolder with ⟨hres, hentry⟩
  unfold FileTree.resolve at hres ⊢
  split at hres
  · simp at hres
  · rename_i hparent
    have hroot : path.parent.isAbsolute = path.isAbsolute := rfl
    rw [hroot] at hres
    rw [if_neg]
    · rw [hnamed.parts, follow_append hres, follow_cons hentry hshort, if_neg hnamed.2,
        hnamed.placeFrom]
      rfl
    · rw [hnamed.parts, List.any_append, Bool.or_eq_true, not_or]
      exact ⟨hparent, by simpa using hnul⟩

/-- A place of a temporary file that a path is written through. -/
def IsTemporary (workDir : Place) (path : Path) (place : Place) : Prop :=
  ∃ i, place = path.parent.placeFrom workDir ++ [temporaryName path.name i]

theorem isTemporary_temporaryPlace (files : FileTree) (workDir : Place) (path : Path) :
    IsTemporary workDir path
      (temporaryPlace files (path.parent.placeFrom workDir) path.name) :=
  ⟨_, rfl⟩

/-- What writing leaves of the files: the record at its target, or what was there and maybe a
temporary file. -/
theorem deposit_spec (encoded : Except Failure Bytes) (path : Path) (h : Host) :
    ∃ files, (exec (deposit encoded path) h).2 = { h with files } ∧
      match (exec (deposit encoded path) h).1 with
      | .ok () =>
        Accepts h path ∧ ∃ content, encoded = .ok content ∧
          files.entry? (path.placeFrom h.workDir) = some (.file content) ∧
          ∀ place, place ≠ path.placeFrom h.workDir →
            SameOrMade h.files files h.workDir path.parent place
      | .error _ => ∀ place, SameOrMade h.files files h.workDir path.parent place ∨
          h.discardFails = true ∧ IsTemporary h.workDir path place := by
  have hmakeAll := sameOrMade_makeAll h.files h.workDir path.parent
  rw [exec_deposit]
  rcases hmade : h.files.makeAll h.workDir path.parent with ⟨r, made⟩
  rw [hmade] at hmakeAll
  cases r with
  | error fault => exact ⟨made, rfl, fun place => Or.inl (hmakeAll place)⟩
  | ok u =>
    simp only
    cases hres : made.resolve h.workDir path with
    | error fault => exact ⟨made, rfl, fun place => Or.inl (hmakeAll place)⟩
    | ok target =>
      obtain rfl := place_eq_of_resolve hres
      simp only
      split
      · exact ⟨made, rfl, fun place => Or.inl (hmakeAll place)⟩
      · rename_i hshort
        rcases hreplace : replace made h.flushFails h.discardFails encoded
          (path.parent.placeFrom h.workDir) path (path.placeFrom h.workDir) with ⟨written, files⟩
        refine ⟨files, rfl, ?_⟩
        cases written with
        | error e =>
          intro place
          rcases replace_error hreplace place with hsame | ⟨hdiscard, rfl⟩
          · left
            unfold SameOrMade
            rw [hsame]
            exact hmakeAll place
          · exact Or.inr ⟨hdiscard, isTemporary_temporaryPlace made h.workDir path⟩
        | ok u =>
          rcases replace_ok (fun hnamed => hnamed.placeFrom h.workDir) hreplace with
            ⟨hnamed, hflush, hfolder, content, hencoded, hwritten, hothers⟩
          refine ⟨⟨by rw [hmade], hnamed, ?_, by omega, by rwa [hmade], hflush⟩, content, hencoded,
            hwritten, ?_⟩
          · -- a path with a NUL would not have been resolved
            unfold FileTree.resolve at hres
            split at hres
            · simp at hres
            · rename_i hnul
              rw [hnamed.parts, List.any_append, Bool.or_eq_true, not_or] at hnul
              simpa using hnul.2
          · intro place hplace
            unfold SameOrMade
            rw [hothers place hplace]
            exact hmakeAll place

/-- What was encoded is written to a path that can be written to. -/
theorem deposit_of_accepts {content : Bytes} (haccepts : Accepts h path) :
    (exec (deposit (.ok content) path) h).1 = .ok () := by
  rcases haccepts with ⟨hparent, hnamed, hnul, hshort, hfolder, hflush⟩
  rw [exec_deposit]
  rcases hmade : h.files.makeAll h.workDir path.parent with ⟨r, made⟩
  rw [hmade] at hparent hfolder
  obtain rfl : r = .ok () := hparent
  replace hfolder : made.entry? (path.placeFrom h.workDir) ≠ some .folder := hfolder
  have hres := resolve_of_parent hnamed hnul (by omega) (folderAt_of_makeAll hmade)
  obtain ⟨files, hreplace⟩ :=
    exists_replace content h.discardFails hnamed (hnamed.placeFrom h.workDir) hfolder
  simp only [hres, if_neg (Nat.not_lt.2 hshort), hflush, hreplace]

/-! ## Reading -/

/-- The record that bytes stand for, or the empty one of its kind if there are none or they stand
for none. -/
def recordOf (kind : RecordKind) (read : Except FileFault Bytes) : Record :=
  match read with
  | .error _ => kind.default
  | .ok b =>
    match kind.decode b with
    | .ok record => record
    | .error _ => kind.default

/-- Reading answers the record of the file whatever is at the path, and at most logs a line. -/
theorem exec_readOrDefault (kind : RecordKind)
    (hnul : (path.parts.any fun name => name.toList.any fun c => c.toNat == 0) = false)
    (h : Host) :
    ∃ h', exec (readOrDefault kind path) h =
        (.ok (recordOf kind (h.files.read h.workDir path)), h') ∧
      (h' = h ∨ ∃ line, h' = h.emit line) := by
  unfold readOrDefault
  rw [exec_get_bind]
  cases hread : h.files.read h.workDir path with
  | error fault =>
    have hfault : fault.isSystem = true := by
      have hne : fault ≠ .embeddedNul := fun heq => by simp [(read_error hread).1 heq] at hnul
      simpa [FileFault.isSystem] using hne
    simp only [hfault, if_true]
    exact ⟨h, rfl, Or.inl rfl⟩
  | ok b =>
    simp only [recordOf]
    cases hdecode : kind.decode b with
    | ok record => exact ⟨h, rfl, Or.inl rfl⟩
    | error e =>
      simp only
      rw [exec_bind, Host.exec_say]
      exact ⟨_, rfl, Or.inr ⟨_, rfl⟩⟩

/-- A path with a NUL names no file, and reading from it fails. -/
theorem exec_readOrDefault_nul (kind : RecordKind)
    (hnul : (path.parts.any fun name => name.toList.any fun c => c.toNat == 0) = true)
    (h : Host) : exec (readOrDefault kind path) h = (.error (.file .embeddedNul), h) := by
  have hread : h.files.read h.workDir path = .error .embeddedNul := by
    unfold FileTree.read FileTree.find FileTree.resolve
    rw [hnul]
    rfl
  unfold readOrDefault
  rw [exec_get_bind, hread]
  rfl

/-! ## Files of records -/

/-- Writing is all or nothing, and reading answers whatever there is.

* A record is written as what it was encoded as, if it was.
* Writing either succeeds, and then the path has exactly what the record was encoded as, or it
  fails. Every other place, and after a failure every place, is as it was, but for folders that were
  made of empty places on the way of the path's parent; so no temporary file is left, unless the
  machine fails to discard it.
* It succeeds exactly if the record was encoded and the path accepts it.
* For a path that does not go up, those folders lie above it: none is made at the path or beside it.
* Reading answers the record of the file, or the empty one of its kind if the file cannot be read or
  decoded, and at most logs a line. Only a path with a NUL, which names no file, is refused. -/
theorem files_hold_whole_records (path : Path) (h : Host) :
    (∀ record, write record path = deposit record.encode path) ∧
    (∀ encoded, ∃ files, (exec (deposit encoded path) h).2 = { h with files } ∧
      match (exec (deposit encoded path) h).1 with
      | .ok () => ∃ content, encoded = .ok content ∧
          files.entry? (path.placeFrom h.workDir) = some (.file content) ∧
          ∀ place, place ≠ path.placeFrom h.workDir →
            SameOrMade h.files files h.workDir path.parent place
      | .error _ => ∀ place, SameOrMade h.files files h.workDir path.parent place ∨
          h.discardFails = true ∧ IsTemporary h.workDir path place) ∧
    (∀ encoded, (exec (deposit encoded path) h).1 = .ok () ↔
      Accepts h path ∧ ∃ content, encoded = .ok content) ∧
    (path.parts ≠ [] → ".." ∉ path.parts → ∀ place, OnWay h.workDir path.parent place →
      place.length < (path.placeFrom h.workDir).length) ∧
    ∀ kind,
      ((path.parts.any fun name => name.toList.any fun c => c.toNat == 0) = false →
        ∃ h', exec (readOrDefault kind path) h =
            (.ok (recordOf kind (h.files.read h.workDir path)), h') ∧
          (h' = h ∨ ∃ line, h' = h.emit line)) ∧
      ((path.parts.any fun name => name.toList.any fun c => c.toNat == 0) = true →
        exec (readOrDefault kind path) h = (.error (.file .embeddedNul), h)) := by
  refine ⟨fun _ => rfl, ?_, ?_, ?_, ?_⟩
  · intro encoded
    rcases deposit_spec encoded path h with ⟨files, hafter, hspec⟩
    refine ⟨files, hafter, ?_⟩
    split at hspec
    · exact hspec.2
    · exact hspec
  · intro encoded
    constructor
    · intro hok
      rcases deposit_spec encoded path h with ⟨files, -, hspec⟩
      rw [hok] at hspec
      rcases hspec with ⟨haccepts, content, hencoded, -⟩
      exact ⟨haccepts, content, hencoded⟩
    · rintro ⟨haccepts, content, rfl⟩
      exact deposit_of_accepts haccepts
  · intro hparts hup place hway
    have hparent : ".." ∉ path.parent.parts := fun hmem => hup (List.dropLast_subset _ hmem)
    exact Nat.lt_of_le_of_lt (hway.length_le hparent) (length_parent_lt hup hparts)
  · intro kind
    exact ⟨fun hnul => exec_readOrDefault kind hnul h,
      fun hnul => exec_readOrDefault_nul kind hnul h⟩

/-- A machine with a file and a folder beside it. -/
def shelf : Host :=
  { Host.bare with
    files := ⟨[(["d"], .folder), (["d", "r"], .file [1]), (["d", "f"], .folder)]⟩ }

theorem accepts_shelf : Accepts shelf ⟨.root, ["d", "r"]⟩ where
  parent := rfl
  named := by decide
  noNul := by decide
  short := by decide +kernel
  noFolder := by decide +kernel
  flushes := rfl

/-- On such a machine a blob replaces the file, and a map with an id that has not its size does not.
The folder is not replaced. The file is read as an empty map. -/
theorem blob_replaces_file :
    (∃ files, exec (write (.blob [2]) ⟨.root, ["d", "r"]⟩) shelf =
        (.ok (), { shelf with files }) ∧ files.entry? ["d", "r"] = some (.file [2])) ∧
      (∃ e files, exec (write (.channelMap ⟨[([0], [1])]⟩) ⟨.root, ["d", "r"]⟩) shelf =
        (.error e, { shelf with files }) ∧ files.entry? ["d", "r"] = some (.file [1])) ∧
      (∃ e files, exec (write (.blob [2]) ⟨.root, ["d", "f"]⟩) shelf =
        (.error e, { shelf with files }) ∧ files.entry? ["d", "f"] = some .folder) ∧
      (["d", "r"].any fun name => name.toList.any fun c => c.toNat == 0) = false ∧
      (exec (readOrDefault .channelMap ⟨.root, ["d", "r"]⟩) shelf).1 = .ok (.channelMap {}) := by
  obtain ⟨hwrite, hfiles, hok, -, hread⟩ := files_hold_whole_records ⟨.root, ["d", "r"]⟩ shelf
  obtain ⟨-, hfiles', hok', -, -⟩ := files_hold_whole_records ⟨.root, ["d", "f"]⟩ shelf
  refine ⟨?_, ?_, ?_, by decide, ?_⟩
  · have hanswer := (hok (.ok [2])).2 ⟨accepts_shelf, [2], rfl⟩
    obtain ⟨files, hafter, hspec⟩ := hfiles (.ok [2])
    rw [hanswer] at hspec
    obtain ⟨content, hcontent, hentry, -⟩ := hspec
    obtain rfl : [2] = content := Except.ok.inj hcontent
    exact ⟨files, Prod.ext hanswer hafter, hentry⟩
  · obtain ⟨files, hafter, hspec⟩ := hfiles (.error (.channelMap .badIdSize))
    cases hanswer :
      (exec (deposit (.error (.channelMap .badIdSize)) ⟨.root, ["d", "r"]⟩) shelf).1 with
    | ok u =>
      obtain ⟨-, content, hcontent⟩ := (hok _).1 hanswer
      exact absurd hcontent nofun
    | error e =>
      rw [hanswer] at hspec
      refine ⟨e, files, Prod.ext hanswer hafter, ?_⟩
      rcases hspec ["d", "r"] with (hsame | ⟨-, hnone, -⟩) | ⟨hdiscard, -⟩
      · exact hsame
      · exact absurd hnone (by decide +kernel)
      · exact absurd hdiscard (by decide)
  · obtain ⟨files, hafter, hspec⟩ := hfiles' (.ok [2])
    cases hanswer : (exec (deposit (.ok [2]) ⟨.root, ["d", "f"]⟩) shelf).1 with
    | ok u => exact absurd rfl ((hok' _).1 hanswer).1.noFolder
    | error e =>
      rw [hanswer] at hspec
      refine ⟨e, files, Prod.ext hanswer hafter, ?_⟩
      rcases hspec ["d", "f"] with (hsame | ⟨-, hnone, -⟩) | ⟨hdiscard, -⟩
      · exact hsame
      · exact absurd hnone (by decide +kernel)
      · exact absurd hdiscard (by decide)
  · obtain ⟨h', hanswer, -⟩ := (hread .channelMap).1 (by decide)
    rw [hanswer]
    rfl

/-- A path with a NUL is not answered with the empty blob. -/
theorem nul_is_no_empty_blob :
    exec (readOrDefault .blob ⟨.relative, ["a\x00b"]⟩) Host.bare =
        (.error (.file .embeddedNul), Host.bare) ∧
      RecordKind.blob.default = .blob [] := by
  exact ⟨rfl, rfl⟩

end NodeStore.RecordFile
