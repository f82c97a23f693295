import NodeStore.FileTree

/-! # What file operations change

A path names the same place as long as it can be followed at all (`place_eq_of_resolve`), and it
can be followed as long as folders stay folders (`resolve_of_folders`). Adding to files and making
folders changes little of a tree: `Grown` says what it leaves, `MadeFolders` what it makes.

* `PlainName.resolve`: the place of something in a folder;
* `find?_of_resolve`, `read_ok`, `write_ok`, `remove_ok`: what operations on one path do;
* `grown_append`: adding to a file;
* `madeFolders_makeAll`: making a folder and the folders that it lies in. -/

namespace NodeStore

/-- The bytes that are read from a file or a database; a folder has none. -/
def FileEntry.bytes? : FileEntry → Option Bytes
  | .folder => none
  | .file content => some content
  | .database _ => some FileTree.databaseMark

namespace FileTree

variable {t t' t'' : FileTree} {here place p q : Place}

/-! ## Entries -/

@[simp] theorem entry?_root (t : FileTree) : t.entry? [] = some .folder := if_pos rfl

theorem entry?_put_self (h : p ≠ []) (e : FileEntry) : FileTree.entry? (t.put p e) p = some e := by
  unfold FileTree.entry?
  rw [if_neg h]
  exact (Assoc.lookup_put ..).trans (if_pos rfl)

theorem entry?_put_ne (h : q ≠ p) (e : FileEntry) : FileTree.entry? (t.put p e) q = t.entry? q := by
  have hlookup : (t.put p e).entries.lookup q = t.entries.lookup q :=
    (Assoc.lookup_put ..).trans (if_neg h)
  unfold FileTree.entry?
  rw [hlookup]

theorem ne_root_of_entry {e : Option FileEntry} (h : t.entry? p = e) (he : e ≠ some .folder) :
    p ≠ [] := by
  rintro rfl
  exact he (h.symm.trans (entry?_root t))

theorem entry?_erase_ne (h : q ≠ p) : FileTree.entry? (t.erase p) q = t.entry? q := by
  have hlookup : (t.entries.filter fun e => e.1 ≠ p).lookup q = t.entries.lookup q := by
    induction t.entries with
    | nil => rfl
    | cons e rest ih =>
      rcases e with ⟨k, v⟩
      by_cases hk : k = p
      · subst hk
        have hq : (q == k) = false := by simpa using h
        simpa [hq, List.lookup_cons] using ih
      · rw [List.filter_cons_of_pos (by simpa using hk), List.lookup_cons, List.lookup_cons, ih]
  unfold FileTree.entry? erase
  rw [hlookup]

theorem entry?_erase_self (h : p ≠ []) : FileTree.entry? (t.erase p) p = none := by
  have hlookup : (t.entries.filter fun e => e.1 ≠ p).lookup p = none := by
    rw [List.lookup_eq_none_iff]
    intro e he
    have hne : e.1 ≠ p := by simpa using (List.mem_filter.1 he).2
    simpa using fun hp : p = e.1 => hne hp.symm
  unfold FileTree.entry? erase
  rw [if_neg h, hlookup]

theorem entry?_append_ne (h : q ≠ p) (content : Bytes) :
    FileTree.entry? (t.append p content) q = t.entry? q := by
  unfold append
  split
  · exact entry?_put_ne h _
  · rfl
  · exact entry?_put_ne h _

/-! ## Places -/

/-- The place that names lead to from a place, if all of them can be followed. -/
def walk : Place → List String → Place
  | here, [] => here
  | here, name :: rest =>
    if name = ".." then walk here.dropLast rest else walk (here ++ [name]) rest

theorem walk_append (here : Place) (names rest : List String) :
    walk here (names ++ rest) = walk (walk here names) rest := by
  induction names generalizing here with
  | nil => rfl
  | cons name names ih =>
    rw [List.cons_append, walk, walk]
    split <;> exact ih _

theorem follow_cons {name : String} {rest : List String} (h : t.entry? here = some .folder)
    (hname : (Utf8.encode name).length ≤ maxName) :
    t.follow here (name :: rest) =
      if name = ".." then t.follow here.dropLast rest else t.follow (here ++ [name]) rest := by
  rw [follow]
  simp only [h]
  rw [if_neg (Nat.not_lt.2 hname)]

/-- What can be followed starts with a folder, and with a name that is not too long. -/
theorem follow_cons_ok {name : String} {rest : List String}
    (h : t.follow here (name :: rest) = .ok place) :
    t.entry? here = some .folder ∧ (Utf8.encode name).length ≤ maxName := by
  rw [follow] at h
  cases he : t.entry? here with
  | none => simp [he] at h
  | some e =>
    cases e with
    | folder =>
      by_cases hname : maxName < (Utf8.encode name).length
      · simp [he, hname] at h
      · exact ⟨rfl, Nat.not_lt.1 hname⟩
    | file b => simp [he] at h
    | database d => simp [he] at h

theorem place_eq_of_follow {parts : List String} (h : t.follow here parts = .ok place) :
    place = walk here parts := by
  induction parts generalizing here with
  | nil => exact (Except.ok.inj h).symm
  | cons name rest ih =>
    rcases follow_cons_ok h with ⟨hfolder, hname⟩
    rw [follow_cons hfolder hname] at h
    rw [walk]
    split at h
    · rename_i hup
      rw [if_pos hup]
      exact ih h
    · rename_i hup
      rw [if_neg hup]
      exact ih h

/-- As long as folders stay folders, what can be followed leads to the same place. -/
theorem follow_of_folders {parts : List String}
    (hfolders : ∀ q, t.entry? q = some .folder → t'.entry? q = some .folder)
    (h : t.follow here parts = .ok place) : t'.follow here parts = .ok place := by
  induction parts generalizing here with
  | nil => exact h
  | cons name rest ih =>
    rcases follow_cons_ok h with ⟨hfolder, hname⟩
    rw [follow_cons hfolder hname] at h
    rw [follow_cons (hfolders here hfolder) hname]
    split at h
    · rename_i hup
      rw [if_pos hup]
      exact ih h
    · rename_i hup
      rw [if_neg hup]
      exact ih h

theorem follow_append {names rest : List String} (h : t.follow here names = .ok place) :
    t.follow here (names ++ rest) = t.follow place rest := by
  induction names generalizing here with
  | nil => exact congrArg (t.follow · rest) (Except.ok.inj h)
  | cons name names ih =>
    rcases follow_cons_ok h with ⟨hfolder, hname⟩
    rw [follow_cons hfolder hname] at h
    rw [List.cons_append, follow_cons hfolder hname]
    split at h
    · rename_i hup
      rw [if_pos hup]
      exact ih h
    · rename_i hup
      rw [if_neg hup]
      exact ih h

/-- What can be followed can be followed up to its last name, and leads to a folder there. -/
theorem follow_dropLast {parts : List String} (h : t.follow here parts = .ok place)
    (hne : parts ≠ []) :
    ∃ parent, t.follow here parts.dropLast = .ok parent ∧ t.entry? parent = some .folder := by
  induction parts generalizing here with
  | nil => exact absurd rfl hne
  | cons name rest ih =>
    rcases follow_cons_ok h with ⟨hfolder, hname⟩
    cases rest with
    | nil => exact ⟨here, rfl, hfolder⟩
    | cons next rest =>
      rw [follow_cons hfolder hname] at h
      rw [List.dropLast_cons_of_ne_nil (List.cons_ne_nil next rest), follow_cons hfolder hname]
      split at h
      · rename_i hup
        rw [if_pos hup]
        exact ih h (List.cons_ne_nil next rest)
      · rename_i hup
        rw [if_neg hup]
        exact ih h (List.cons_ne_nil next rest)

end FileTree

/-- The place that a path names, if it can be followed. -/
def Path.placeFrom (workDir : Place) (p : Path) : Place :=
  FileTree.walk (if p.isAbsolute then [] else workDir) p.parts

namespace FileTree

variable {t t' t'' : FileTree} {workDir place p q : Place} {path : Path}

theorem place_eq_of_resolve (h : t.resolve workDir path = .ok place) :
    place = path.placeFrom workDir := by
  unfold resolve at h
  split at h
  · simp at h
  · exact place_eq_of_follow h

/-- As long as folders stay folders, what can be resolved leads to the same place. -/
theorem resolve_of_folders
    (hfolders : ∀ q, t.entry? q = some .folder → t'.entry? q = some .folder)
    (h : t.resolve workDir path = .ok place) : t'.resolve workDir path = .ok place := by
  unfold resolve at h ⊢
  split at h
  · simp at h
  · rename_i hnul
    rw [if_neg hnul]
    exact follow_of_folders hfolders h

/-- A name that a file can have and that stands for nothing else. -/
structure PlainName (name : String) : Prop where
  path : Path.ofString name = ⟨.relative, [name]⟩
  notUp : name ≠ ".."
  short : (Utf8.encode name).length ≤ maxName
  noNul : (name.toList.any fun c => c.toNat == 0) = false

instance (name : String) : Decidable (PlainName name) :=
  decidable_of_iff (Path.ofString name = ⟨.relative, [name]⟩ ∧ name ≠ ".." ∧
      (Utf8.encode name).length ≤ maxName ∧ (name.toList.any fun c => c.toNat == 0) = false)
    ⟨fun ⟨hpath, hup, hshort, hnul⟩ => ⟨hpath, hup, hshort, hnul⟩,
      fun ⟨hpath, hup, hshort, hnul⟩ => ⟨hpath, hup, hshort, hnul⟩⟩

/-- The path of something in a folder. -/
theorem PlainName.div {name : String} (hname : PlainName name) (folder : Path) :
    folder / name = ⟨folder.root, folder.parts ++ [name]⟩ := by
  show folder.join (Path.ofString name) = _
  rw [hname.path]
  rfl

theorem PlainName.placeFrom {name : String} (hname : PlainName name) (folder : Path)
    (workDir : Place) : (folder / name).placeFrom workDir = folder.placeFrom workDir ++ [name] := by
  rw [hname.div]
  show walk _ (folder.parts ++ [name]) = _
  rw [walk_append, walk, if_neg hname.notUp]
  rfl

theorem PlainName.resolve {name : String} {folder : Path} (hname : PlainName name)
    (h : t.resolve workDir folder = .ok place) (hfolder : t.entry? place = some .folder) :
    t.resolve workDir (folder / name) = .ok (place ++ [name]) := by
  rw [hname.div]
  unfold FileTree.resolve at h ⊢
  split at h
  · simp at h
  · rename_i hnul
    rw [if_neg]
    · apply (follow_append h).trans
      rw [follow_cons hfolder hname.short, if_neg hname.notUp]
      rfl
    · simpa [hname.noNul] using hnul

/-- The parent of a path that can be resolved is a folder, unless the path has no names. -/
theorem resolve_parent (h : t.resolve workDir path = .ok place) :
    ∃ parent, t.resolve workDir path.parent = .ok parent ∧
      (t.entry? parent = some .folder ∨ parent = place) := by
  by_cases hparts : path.parts = []
  · have hsame : path.parent = path := by
      rcases path with ⟨start, parts⟩
      subst hparts
      rfl
    exact ⟨place, by rw [hsame, h], Or.inr rfl⟩
  · unfold resolve at h
    split at h
    · simp at h
    · rename_i hnul
      rcases follow_dropLast h hparts with ⟨parent, hparent, hfolder⟩
      refine ⟨parent, ?_, Or.inl hfolder⟩
      rw [resolve, if_neg]
      · exact hparent
      · rw [List.any_eq_true] at hnul ⊢
        rintro ⟨name, hname, hzero⟩
        exact hnul ⟨name, List.dropLast_subset _ hname, hzero⟩

/-! ## Finding, reading, writing and removing -/

/-- Files and databases are read, folders are not. -/
theorem read_ok {b : Bytes} (h : t.read workDir path = .ok b) :
    ∃ place, t.resolve workDir path = .ok place ∧
      (t.entry? place = some (.file b) ∨
        b = databaseMark ∧ ∃ d, t.entry? place = some (.database d)) := by
  unfold read find at h
  cases hres : t.resolve workDir path with
  | error fault => simp [hres, bind, Except.bind] at h
  | ok place =>
    refine ⟨place, rfl, ?_⟩
    cases he : t.entry? place with
    | none => simp [hres, he, bind, Except.bind] at h
    | some e =>
      cases e with
      | folder => simp [hres, he, bind, Except.bind] at h
      | file content =>
        simp only [hres, he, bind, Except.bind, Except.ok.injEq] at h
        exact Or.inl (by rw [h])
      | database d =>
        simp only [hres, he, bind, Except.bind, Except.ok.injEq] at h
        exact Or.inr ⟨h.symm, d, rfl⟩

theorem follow_error {parts : List String} {fault : FileFault}
    (h : t.follow here parts = .error fault) : fault ≠ .embeddedNul := by
  induction parts generalizing here with
  | nil => exact absurd h nofun
  | cons name rest ih =>
    rw [follow] at h
    cases he : t.entry? here with
    | none =>
      simp only [he, Except.error.injEq] at h
      simp [← h]
    | some e =>
      cases e with
      | file b =>
        simp only [he, Except.error.injEq] at h
        simp [← h]
      | database d =>
        simp only [he, Except.error.injEq] at h
        simp [← h]
      | folder =>
        simp only [he] at h
        split at h
        · rw [← Except.error.inj h]
          nofun
        · split at h
          · exact ih h
          · exact ih h

/-- Only a path with a NUL is refused before the file system is asked. -/
theorem read_error {fault : FileFault} (h : t.read workDir path = .error fault) :
    fault = .embeddedNul ↔
      (path.parts.any fun name => name.toList.any fun c => c.toNat == 0) = true := by
  unfold read find resolve at h
  split at h
  · rename_i hnul
    obtain rfl : FileFault.embeddedNul = fault := Except.error.inj h
    exact ⟨fun _ => hnul, fun _ => rfl⟩
  · rename_i hnul
    refine ⟨fun hfault => ?_, fun h => absurd h hnul⟩
    subst hfault
    cases hfollow : t.follow (if path.isAbsolute = true then [] else workDir) path.parts with
    | error fault =>
      simp only [hfollow, bind, Except.bind, Except.error.injEq] at h
      exact absurd h (follow_error hfollow)
    | ok place =>
      cases he : t.entry? place with
      | none => simp [hfollow, he, bind, Except.bind] at h
      | some e => cases e <;> simp [hfollow, he, bind, Except.bind] at h

theorem find?_of_resolve (hres : t.resolve workDir path = .ok place) :
    t.find? workDir path = .ok (t.entry? place) := by
  unfold find? find
  rw [hres]
  cases he : t.entry? place <;> simp [bind, Except.bind, he]

theorem of_find? {e : FileEntry} (hfind : t.find? workDir path = .ok (some e)) :
    ∃ place, t.resolve workDir path = .ok place ∧ t.entry? place = some e := by
  cases hres : t.resolve workDir path with
  | error fault => cases fault <;> simp [find?, find, hres, bind, Except.bind] at hfind
  | ok place =>
    rw [find?_of_resolve hres] at hfind
    exact ⟨place, rfl, Except.ok.inj hfind⟩

/-- The bytes that are read, if a file can be read at all. -/
theorem read_toOption (hres : t.resolve workDir path = .ok place) :
    (t.read workDir path).toOption = (t.entry? place).bind FileEntry.bytes? := by
  unfold read find
  rw [hres]
  cases he : t.entry? place with
  | none => simp [bind, Except.bind, he, Except.toOption]
  | some e => cases e <;> simp [bind, Except.bind, he, Except.toOption, FileEntry.bytes?]

theorem read_of_file {b : Bytes} (hres : t.resolve workDir path = .ok place)
    (hfile : t.entry? place = some (.file b)) : t.read workDir path = .ok b := by
  unfold read find
  rw [hres]
  simp [bind, Except.bind, hfile]

/-- What is read of something that is there; a folder cannot be read. -/
theorem read_of_entry {e : FileEntry} (hres : t.resolve workDir path = .ok place)
    (he : t.entry? place = some e) : t.read workDir path =
      match e.bytes? with
      | some b => .ok b
      | none => .error .isDirectory := by
  unfold read find
  rw [hres]
  cases e <;> simp [bind, Except.bind, he, FileEntry.bytes?]

theorem writable_iff : t.writable workDir path = .ok place ↔
    t.resolve workDir path = .ok place ∧ t.entry? place ≠ some .folder ∧
      t.entry? place.dropLast = some .folder := by
  unfold writable
  cases hres : t.resolve workDir path with
  | error fault => simp [bind, Except.bind]
  | ok found =>
    simp only [bind, Except.bind, Except.ok.injEq]
    constructor
    · intro h
      split at h
      · simp at h
      · rename_i hfolder
        split at h
        · rename_i hparent
          obtain rfl := Except.ok.inj h
          exact ⟨rfl, hfolder, hparent⟩
        · simp at h
        · simp at h
    · rintro ⟨rfl, hfolder, hparent⟩
      rw [hparent]
      split
      · rename_i hfound
        exact absurd hfound hfolder
      · rfl

theorem writable_ok (h : t.writable workDir path = .ok place) :
    t.resolve workDir path = .ok place ∧ t.entry? place ≠ some .folder :=
  ⟨(writable_iff.1 h).1, (writable_iff.1 h).2.1⟩

/-- What cannot be written is refused by the file system, unless the path has a NUL. -/
theorem writable_error {fault : FileFault}
    (hnul : (path.parts.any fun name => name.toList.any fun c => c.toNat == 0) = false)
    (h : t.writable workDir path = .error fault) : fault.isSystem = true := by
  have hsystem : fault ≠ .embeddedNul := by
    rintro rfl
    unfold writable resolve at h
    rw [hnul] at h
    simp only [Bool.false_eq_true, if_false] at h
    cases hfollow : t.follow (if path.isAbsolute = true then [] else workDir) path.parts with
    | error fault =>
      simp only [hfollow, bind, Except.bind, Except.error.injEq] at h
      exact follow_error hfollow h
    | ok found =>
      simp only [hfollow, bind, Except.bind] at h
      split at h
      · simp at h
      · split at h <;> simp at h
  simpa [FileFault.isSystem] using hsystem

/-- What is written is put at its place, which is no folder. -/
theorem write_ok {content : Bytes} (h : t.write workDir path content = .ok t') :
    ∃ place, t.resolve workDir path = .ok place ∧ t.entry? place ≠ some .folder ∧
      t' = t.put place (.file content) := by
  unfold write at h
  cases hwritable : t.writable workDir path with
  | error fault => simp [hwritable, Except.map] at h
  | ok place =>
    rcases writable_ok hwritable with ⟨hres, hfolder⟩
    simp only [hwritable, Except.map, Except.ok.injEq] at h
    exact ⟨place, hres, hfolder, h.symm⟩

theorem remove_of_file {b : Bytes} (hres : t.resolve workDir path = .ok place)
    (hfile : t.entry? place = some (.file b)) : t.remove workDir path = .ok (t.erase place) := by
  unfold remove
  simp [hres, hfile, bind, Except.bind]

/-- What is removed is erased from its place. -/
theorem remove_ok (h : t.remove workDir path = .ok t') :
    ∃ place, t.resolve workDir path = .ok place ∧ t' = t.erase place := by
  unfold remove at h
  cases hres : t.resolve workDir path with
  | error fault => simp [hres, bind, Except.bind] at h
  | ok place =>
    refine ⟨place, rfl, ?_⟩
    cases he : t.entry? place with
    | none => simp [hres, he, bind, Except.bind] at h
    | some e =>
      cases e with
      | folder =>
        by_cases hbelow : t.hasBelow place = true
        · simp [hres, he, hbelow, bind, Except.bind] at h
        · simp only [hres, he, hbelow, bind, Except.bind, Bool.false_eq_true, if_false,
            Except.ok.injEq] at h
          exact h.symm
      | file content =>
        simp only [hres, he, bind, Except.bind, Except.ok.injEq] at h
        exact h.symm
      | database d =>
        simp only [hres, he, bind, Except.bind, Except.ok.injEq] at h
        exact h.symm

/-! ## Growth -/

/-- Folders and databases stay as they are, and files are only added to. -/
structure Grown (t t' : FileTree) : Prop where
  folder : ∀ p, t.entry? p = some .folder → t'.entry? p = some .folder
  database : ∀ p d, t.entry? p = some (.database d) → t'.entry? p = some (.database d)
  file : ∀ p b, t.entry? p = some (.file b) → ∃ c, t'.entry? p = some (.file (b ++ c))

theorem Grown.refl (t : FileTree) : Grown t t where
  folder _ h := h
  database _ _ h := h
  file _ b h := ⟨[], by rw [List.append_nil, h]⟩

theorem Grown.trans (h : Grown t t') (h' : Grown t' t'') : Grown t t'' where
  folder p hp := h'.folder p (h.folder p hp)
  database p d hp := h'.database p d (h.database p d hp)
  file := by
    intro p b hp
    rcases h.file p b hp with ⟨c, hc⟩
    rcases h'.file p (b ++ c) hc with ⟨c', hc'⟩
    exact ⟨c ++ c', by rw [hc', List.append_assoc]⟩

/-- Putting something at an empty place. -/
theorem grown_put (h : t.entry? p = none) (e : FileEntry) : Grown t (t.put p e) := by
  have hsame : ∀ q, t.entry? q ≠ none → FileTree.entry? (t.put p e) q = t.entry? q := by
    intro q hq
    refine entry?_put_ne ?_ e
    rintro rfl
    exact hq h
  constructor
  · intro q hq
    rw [hsame q (by simp [hq]), hq]
  · intro q d hq
    rw [hsame q (by simp [hq]), hq]
  · intro q b hq
    exact ⟨[], by rw [hsame q (by simp [hq]), hq, List.append_nil]⟩

/-- Adding to a file. -/
theorem grown_append (t : FileTree) (p : Place) (content : Bytes) :
    Grown t (t.append p content) := by
  unfold append
  cases he : t.entry? p with
  | none => exact grown_put he _
  | some e =>
    cases e with
    | folder => exact Grown.refl t
    | database d => exact Grown.refl t
    | file old =>
      -- the file itself grows, and every other place stays
      have hroot : p ≠ [] := ne_root_of_entry he (by simp)
      constructor
      · intro q hq
        by_cases hqp : q = p
        · rw [hqp, he] at hq
          simp at hq
        · rw [entry?_put_ne hqp, hq]
      · intro q d hq
        by_cases hqp : q = p
        · rw [hqp, he] at hq
          simp at hq
        · rw [entry?_put_ne hqp, hq]
      · intro q b hq
        by_cases hqp : q = p
        · rw [hqp, he] at hq
          obtain rfl : old = b := by simpa using hq
          exact ⟨content, by rw [hqp, entry?_put_self hroot]⟩
        · exact ⟨[], by rw [entry?_put_ne hqp, hq, List.append_nil]⟩

/-- Folders are made at empty places, and nothing else is changed. -/
def MadeFolders (t t' : FileTree) : Prop :=
  ∀ p, t'.entry? p = t.entry? p ∨ t.entry? p = none ∧ t'.entry? p = some .folder

theorem MadeFolders.refl (t : FileTree) : MadeFolders t t := fun _ => Or.inl rfl

theorem MadeFolders.trans (h : MadeFolders t t') (h' : MadeFolders t' t'') : MadeFolders t t'' := by
  intro p
  rcases h p with hp | ⟨hnone, hp⟩
  · rw [← hp]
    exact h' p
  -- a folder that the first change made is no empty place for the second
  · rcases h' p with hp' | ⟨hnone', -⟩
    · exact Or.inr ⟨hnone, by rw [hp', hp]⟩
    · rw [hp] at hnone'
      simp at hnone'

theorem MadeFolders.entry? (h : MadeFolders t t') {e : FileEntry} (he : t.entry? p = some e) :
    t'.entry? p = some e := by
  rcases h p with hp | ⟨hnone, -⟩
  · rw [hp, he]
  · rw [he] at hnone
    simp at hnone

theorem madeFolders_makeFolder (h : t.makeFolder workDir path = .ok t') : MadeFolders t t' := by
  unfold makeFolder at h
  cases hplace : t.resolve workDir path with
  | error fault => simp [hplace, bind, Except.bind] at h
  | ok place =>
    simp only [hplace, bind, Except.bind] at h
    split at h
    · simp at h
    · rename_i hnone _
      obtain rfl := Except.ok.inj h
      intro q
      by_cases hq : q = place
      · subst hq
        exact Or.inr ⟨hnone, entry?_put_self (ne_root_of_entry hnone (by simp)) _⟩
      · exact Or.inl (entry?_put_ne hq _)
    · simp at h
    · simp at h

theorem madeFolders_ensureFolder (h : t.ensureFolder workDir path = .ok t') :
    MadeFolders t t' := by
  unfold ensureFolder at h
  cases hmade : t.makeFolder workDir path with
  | ok made =>
    simp only [hmade, Except.ok.injEq] at h
    exact h ▸ madeFolders_makeFolder hmade
  | error fault =>
    simp only [hmade] at h
    split at h
    · exact Except.ok.inj h ▸ MadeFolders.refl t
    · simp at h

theorem madeFolders_makeFolders (t : FileTree) (workDir : Place) (start : Path.Root)
    (reversed : List String) : MadeFolders t (t.makeFolders workDir start reversed).2 := by
  induction reversed generalizing t with
  | nil =>
    rw [makeFolders]
    cases h : t.ensureFolder workDir ⟨start, []⟩ with
    | ok made => exact madeFolders_ensureFolder h
    | error fault => exact MadeFolders.refl t
  | cons name parents ih =>
    rw [makeFolders]
    cases h : t.ensureFolder workDir ⟨start, (name :: parents).reverse⟩ with
    | ok made => exact madeFolders_ensureFolder h
    | error fault =>
      split
      · rename_i hok
        exact absurd hok (by simp)
      · -- the folders that it lies in come first, then the folder is tried again
        have hparents := ih t
        rcases hrec : t.makeFolders workDir start parents with ⟨r, made⟩
        rw [hrec] at hparents
        cases r with
        | error fault => exact hparents
        | ok u =>
          simp only
          cases hagain : made.ensureFolder workDir ⟨start, (name :: parents).reverse⟩ with
          | ok again => exact hparents.trans (madeFolders_ensureFolder hagain)
          | error fault => exact hparents
      · exact MadeFolders.refl t

/-- The path of a folder that is there. -/
def FolderAt (t : FileTree) (workDir : Place) (p : Path) : Prop :=
  t.resolve workDir p = .ok (p.placeFrom workDir) ∧ t.entry? (p.placeFrom workDir) = some .folder

theorem folderAt_of_isFolder (h : t.isFolder workDir path = true) : t.FolderAt workDir path := by
  unfold isFolder find at h
  cases hres : t.resolve workDir path with
  | error fault => simp [hres, bind, Except.bind] at h
  | ok place =>
    obtain rfl := place_eq_of_resolve hres
    cases he : t.entry? (path.placeFrom workDir) with
    | none => simp [hres, he, bind, Except.bind] at h
    | some e =>
      cases e with
      | folder => exact ⟨hres, he⟩
      | file b => simp [hres, he, bind, Except.bind] at h
      | database d => simp [hres, he, bind, Except.bind] at h

theorem folderAt_of_makeFolder (h : t.makeFolder workDir path = .ok t') :
    t'.FolderAt workDir path := by
  have hmade := madeFolders_makeFolder h
  unfold makeFolder at h
  cases hres : t.resolve workDir path with
  | error fault => simp [hres, bind, Except.bind] at h
  | ok place =>
    simp only [hres, bind, Except.bind] at h
    split at h
    · simp at h
    · rename_i hnone _
      obtain rfl := Except.ok.inj h
      obtain rfl := place_eq_of_resolve hres
      exact ⟨resolve_of_folders (fun _ => hmade.entry?) hres,
        entry?_put_self (ne_root_of_entry hnone (by simp)) _⟩
    · simp at h
    · simp at h

theorem folderAt_of_ensureFolder (h : t.ensureFolder workDir path = .ok t') :
    t'.FolderAt workDir path := by
  unfold ensureFolder at h
  cases hmade : t.makeFolder workDir path with
  | ok made =>
    simp only [hmade, Except.ok.injEq] at h
    exact h ▸ folderAt_of_makeFolder hmade
  | error fault =>
    simp only [hmade] at h
    split at h
    · rename_i hfolder
      exact Except.ok.inj h ▸ folderAt_of_isFolder hfolder
    · simp at h

/-- If a folder and those that it lies in could be made, it is there. -/
theorem folderAt_of_makeFolders {start : Path.Root} {reversed : List String}
    (h : t.makeFolders workDir start reversed = (.ok (), t')) :
    t'.FolderAt workDir ⟨start, reversed.reverse⟩ := by
  cases reversed with
  | nil =>
    rw [makeFolders] at h
    cases hmade : t.ensureFolder workDir ⟨start, []⟩ with
    | ok made =>
      simp only [hmade, Prod.mk.injEq, true_and] at h
      exact h ▸ folderAt_of_ensureFolder hmade
    | error fault => simp [hmade] at h
  | cons name parents =>
    rw [makeFolders] at h
    cases hmade : t.ensureFolder workDir ⟨start, (name :: parents).reverse⟩ with
    | ok made =>
      simp only [hmade, Prod.mk.injEq, true_and] at h
      exact h ▸ folderAt_of_ensureFolder hmade
    | error fault =>
      simp only [hmade] at h
      split at h
      · rename_i hok
        exact absurd hok (by simp)
      · split at h
        · rename_i made _
          cases hagain : made.ensureFolder workDir ⟨start, (name :: parents).reverse⟩ with
          | ok again =>
            simp only [hagain, Prod.mk.injEq, true_and] at h
            exact h ▸ folderAt_of_ensureFolder hagain
          | error fault => simp only [hagain, Prod.mk.injEq, reduceCtorEq, false_and] at h
        · rename_i hfailed
          exact absurd h (hfailed t')
      · simp at h

theorem folderAt_of_makeAll (h : t.makeAll workDir path = (.ok (), t')) :
    t'.FolderAt workDir path := by
  have hfolder := folderAt_of_makeFolders h
  rwa [List.reverse_reverse] at hfolder

/-- Where the folder is there already nothing is made. -/
theorem makeAll_of_folderAt (h : t.FolderAt workDir path) :
    t.makeAll workDir path = (.ok (), t) := by
  have hensure : t.ensureFolder workDir path = .ok t := by
    have hmake : t.makeFolder workDir path = .error .alreadyExists := by
      unfold makeFolder
      simp [h.1, h.2, bind, Except.bind]
    have hfolder : t.isFolder workDir path = true := by
      unfold isFolder find
      simp [h.1, h.2, bind, Except.bind]
    unfold ensureFolder
    rw [hmake]
    simp [hfolder]
  rcases path with ⟨start, parts⟩
  unfold makeAll
  simp only
  cases hparts : parts.reverse with
  | nil =>
    obtain rfl : parts = [] := by simpa using hparts
    rw [makeFolders, hensure]
  | cons name parents =>
    have hback : (name :: parents).reverse = parts := by rw [← hparts, List.reverse_reverse]
    rw [makeFolders]
    simp only [hback, hensure]

/-- Making a folder and the folders that it lies in. -/
theorem madeFolders_makeAll (t : FileTree) (workDir : Place) (path : Path) :
    MadeFolders t (t.makeAll workDir path).2 :=
  madeFolders_makeFolders t workDir path.root path.parts.reverse

end FileTree

end NodeStore
