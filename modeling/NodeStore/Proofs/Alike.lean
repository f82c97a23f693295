import NodeStore.Proofs.Host

/-! # Hosts that differ in logged lines only

Logging adds to files at the places of the handlers. `FileTree.Alike P` says that two trees are the
same but for files of bytes at places of some kind `P`, which may be there or not and hold any
bytes; `Host.Alike P` says the same of two hosts that have logged different lines. Folders and
databases are then the same, so that paths lead to the same places.

* `Alike.resolve_iff`: a path is followed in both trees or in none;
* `Alike.holds_iff`: databases hold the same tables;
* `alike_emitAll`: logging. -/

namespace NodeStore

namespace FileTree

/-- Nothing is there, or a file of bytes. -/
def Loose : Option FileEntry → Prop
  | none => True
  | some (.file _) => True
  | some .folder => False
  | some (.database _) => False

/-- The trees are the same but for files of bytes at places of a kind. -/
def Alike (P : Place → Prop) (t t' : FileTree) : Prop :=
  ∀ q, t'.entry? q = t.entry? q ∨ P q ∧ Loose (t.entry? q) ∧ Loose (t'.entry? q)

variable {P Q : Place → Prop} {t t' t'' : FileTree} {workDir place p q : Place} {path : Path}

theorem Alike.refl (t : FileTree) : Alike P t t := fun _ => Or.inl rfl

theorem Alike.symm (h : Alike P t t') : Alike P t' t := by
  intro q
  rcases h q with heq | ⟨hq, hloose, hloose'⟩
  · exact Or.inl heq.symm
  · exact Or.inr ⟨hq, hloose', hloose⟩

theorem Alike.trans (h : Alike P t t') (h' : Alike P t' t'') : Alike P t t'' := by
  intro q
  rcases h q with heq | ⟨hq, hloose, hloose'⟩
  · rw [← heq]
    exact h' q
  · rcases h' q with heq' | ⟨-, -, hloose''⟩
    · exact Or.inr ⟨hq, hloose, heq' ▸ hloose'⟩
    · exact Or.inr ⟨hq, hloose, hloose''⟩

/-- What is no file of bytes is the same in both trees. -/
theorem Alike.entry? (h : Alike P t t') {e : FileEntry} (he : ¬ Loose (some e))
    (hq : t.entry? q = some e) : t'.entry? q = some e := by
  rcases h q with heq | ⟨-, hloose, -⟩
  · exact heq.trans hq
  · rw [hq] at hloose
    exact absurd hloose he

/-- Places of another kind are the same in both trees. -/
theorem Alike.entry?_eq (h : Alike P t t') (hq : ¬ P q) : t'.entry? q = t.entry? q := by
  rcases h q with heq | ⟨hP, -, -⟩
  · exact heq
  · exact absurd hP hq

/-- A path is followed in both trees or in none. -/
theorem Alike.resolve_iff (h : Alike P t t') :
    t'.resolve workDir path = .ok place ↔ t.resolve workDir path = .ok place := by
  constructor
  · exact resolve_of_folders fun q hq => h.symm.entry? id hq
  · exact resolve_of_folders fun q hq => h.entry? id hq

/-- Putting the same at one place. -/
theorem Alike.put (h : Alike P t t') (hp : p ≠ []) (e : FileEntry) :
    Alike P (t.put p e) (t'.put p e) := by
  intro q
  by_cases hq : q = p
  · left
    rw [hq, entry?_put_self hp, entry?_put_self hp]
  · rw [entry?_put_ne hq, entry?_put_ne hq]
    exact h q

/-- Erasing one place. -/
theorem Alike.erase (h : Alike P t t') (hp : p ≠ []) : Alike P (t.erase p) (t'.erase p) := by
  intro q
  by_cases hq : q = p
  · left
    rw [hq, entry?_erase_self hp, entry?_erase_self hp]
  · rw [entry?_erase_ne hq, entry?_erase_ne hq]
    exact h q

/-- Adding to a file at a place of the kind. -/
theorem alike_append (hp : P p) (content : Bytes) : Alike P t (t.append p content) := by
  intro q
  by_cases hq : q = p
  · subst hq
    unfold append
    cases he : t.entry? q with
    | none =>
      have hroot : q ≠ [] := ne_root_of_entry he (by simp)
      right
      simp only
      rw [entry?_put_self hroot]
      exact ⟨hp, trivial, trivial⟩
    | some e =>
      cases e with
      | folder => exact Or.inl he
      | database d => exact Or.inl he
      | file old =>
        have hroot : q ≠ [] := ne_root_of_entry he (by simp)
        right
        simp only
        rw [entry?_put_self hroot]
        exact ⟨hp, trivial, trivial⟩
  · exact Or.inl (entry?_append_ne hq content)

end FileTree

namespace Host

/-- The hosts are the same but for lines that were logged, and files of bytes at places of a
kind. -/
structure Alike (P : Place → Prop) (h h' : Host) : Prop where
  same : h' = { h with files := h'.files, log := h'.log }
  files : FileTree.Alike P h.files h'.files

variable {P : Place → Prop} {h h' h'' : Host} {p : Path} {tables : Tables}

theorem Alike.refl (h : Host) : Alike P h h := ⟨rfl, .refl _⟩

theorem Alike.symm (ha : Alike P h h') : Alike P h' h := by
  refine ⟨?_, ha.files.symm⟩
  rw [ha.same]

theorem Alike.trans (ha : Alike P h h') (ha' : Alike P h' h'') : Alike P h h'' := by
  refine ⟨?_, ha.files.trans ha'.files⟩
  rw [ha'.same, ha.same]

theorem Alike.workDir (ha : Alike P h h') : h'.workDir = h.workDir := by
  rw [ha.same]

theorem Alike.holds_iff (ha : Alike P h h') : h'.Holds p tables ↔ h.Holds p tables := by
  unfold Holds
  rw [ha.workDir, ha.files.resolve_iff]
  constructor
  · rintro ⟨hres, hentry⟩
    exact ⟨hres, ha.files.symm.entry? id hentry⟩
  · rintro ⟨hres, hentry⟩
    exact ⟨hres, ha.files.entry? id hentry⟩

/-- All handlers write to places of the kind. -/
def LogsTo (P : Place → Prop) (h : Host) : Prop :=
  ∀ handler ∈ h.logging.handlers, ∀ place, handler.sink = .file place → P place

theorem Alike.logsTo (ha : Alike P h h') (hlogs : h.LogsTo P) : h'.LogsTo P := by
  rw [ha.same]
  exact hlogs

theorem alike_emit (hlogs : h.LogsTo P) (l : LogLine) : Alike P h (h.emit l) := by
  refine ⟨rfl, ?_⟩
  refine Logging.write_files (P := FileTree.Alike P h.files) (.refl _) ?_
  intro files place content hsink halike
  rcases hsink with ⟨handler, hmem, hplace⟩
  exact halike.trans (FileTree.alike_append (hlogs handler hmem place hplace) content)

/-- A host after logging is like the host before. -/
theorem alike_emitAll (hlogs : h.LogsTo P) (ls : List LogLine) : Alike P h (h.emitAll ls) := by
  induction ls generalizing h with
  | nil => exact .refl h
  | cons l ls ih =>
    have hemit := alike_emit hlogs l
    exact hemit.trans (ih (hemit.logsTo hlogs))

/-- Logging leaves the databases as they are, wherever it writes to. -/
theorem holds_emitAll_iff (ls : List LogLine) : (h.emitAll ls).Holds p tables ↔ h.Holds p tables :=
  (alike_emitAll (P := fun _ => True) (fun _ _ _ _ => trivial) ls).holds_iff

end Host

end NodeStore
