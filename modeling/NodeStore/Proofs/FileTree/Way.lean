import NodeStore.Proofs.FileTree

/-! # Where folders are made

Making a folder and the folders that it lies in touches no other place than those that its path
passes (`sameOrMade_makeAll`). A path that does not go up passes only what lies above it
(`OnWay.length_le`), so that nothing is made where the path itself leads, or beside it. -/

namespace NodeStore

namespace FileTree

variable {t t' : FileTree} {workDir place : Place} {path : Path}

/-! ## The way of a path -/

/-- A place that a path, or a beginning of it, leads to. -/
def OnWay (workDir : Place) (path : Path) (place : Place) : Prop :=
  ∃ names, names <+: path.parts ∧ place = Path.placeFrom workDir ⟨path.root, names⟩

theorem onWay_self (workDir : Place) (path : Path) :
    OnWay workDir path (path.placeFrom workDir) := ⟨path.parts, List.prefix_refl _, rfl⟩

theorem walk_of_no_up {here : Place} {names : List String} (h : ".." ∉ names) :
    walk here names = here ++ names := by
  induction names generalizing here with
  | nil => exact (List.append_nil here).symm
  | cons name names ih =>
    rw [List.mem_cons, not_or] at h
    rw [walk, if_neg fun hup => h.1 hup.symm, ih h.2, List.append_assoc]
    rfl

/-- A path that does not go up lies deeper with every name. -/
theorem length_placeFrom (h : ".." ∉ path.parts) : (path.placeFrom workDir).length =
    (if path.isAbsolute then [] else workDir).length + path.parts.length := by
  unfold Path.placeFrom
  rw [walk_of_no_up h, List.length_append]

/-- A path that does not go up passes no place that lies deeper. -/
theorem OnWay.length_le (hup : ".." ∉ path.parts) (h : OnWay workDir path place) :
    place.length ≤ (path.placeFrom workDir).length := by
  rcases h with ⟨names, hnames, rfl⟩
  have hnoUp : ".." ∉ names := fun hmem => hup (hnames.subset hmem)
  have hnamesLength : (Path.placeFrom workDir ⟨path.root, names⟩).length =
      (if path.isAbsolute then [] else workDir).length + names.length := length_placeFrom hnoUp
  rw [length_placeFrom hup, hnamesLength]
  exact Nat.add_le_add_left hnames.length_le _

/-- A path with names that does not go up leads deeper than its parent. -/
theorem length_parent_lt (hup : ".." ∉ path.parts) (hparts : path.parts ≠ []) :
    (path.parent.placeFrom workDir).length < (path.placeFrom workDir).length := by
  have hparent : ".." ∉ path.parent.parts := fun hmem => hup (List.dropLast_subset _ hmem)
  have hlength : path.parent.parts.length = path.parts.length - 1 := List.length_dropLast
  have hpos : 0 < path.parts.length := List.length_pos_iff.2 hparts
  rw [length_placeFrom hup, length_placeFrom hparent, hlength]
  have hroot : path.parent.isAbsolute = path.isAbsolute := rfl
  rw [hroot]
  omega

/-! ## What is made -/

/-- Something is as it was, or a folder was made of an empty place on the way of a path. -/
def SameOrMade (t t' : FileTree) (workDir : Place) (path : Path) (place : Place) : Prop :=
  t'.entry? place = t.entry? place ∨
    OnWay workDir path place ∧ t.entry? place = none ∧ t'.entry? place = some .folder

theorem ensureFolder_elsewhere (h : t.ensureFolder workDir path = .ok t')
    (hne : place ≠ path.placeFrom workDir) : t'.entry? place = t.entry? place := by
  unfold ensureFolder at h
  cases hmade : t.makeFolder workDir path with
  | error fault =>
    simp only [hmade] at h
    split at h
    · rw [Except.ok.inj h]
    · simp at h
  | ok made =>
    simp only [hmade, Except.ok.injEq] at h
    subst h
    unfold makeFolder at hmade
    cases hres : t.resolve workDir path with
    | error fault => simp [hres, bind, Except.bind] at hmade
    | ok target =>
      obtain rfl := place_eq_of_resolve hres
      simp only [hres, bind, Except.bind] at hmade
      split at hmade
      · simp at hmade
      · rw [← Except.ok.inj hmade]
        exact entry?_put_ne hne _
      · simp at hmade
      · simp at hmade

/-- The names are those of the path from the last to the first, as they are gone through. -/
theorem makeFolders_elsewhere {start : Path.Root} {reversed : List String}
    (h : ¬ OnWay workDir ⟨start, reversed.reverse⟩ place) :
    FileTree.entry? (t.makeFolders workDir start reversed).2 place = t.entry? place := by
  induction reversed generalizing t with
  | nil =>
    rw [makeFolders]
    cases hmade : t.ensureFolder workDir ⟨start, []⟩ with
    | error fault => rfl
    | ok made =>
      refine ensureFolder_elsewhere hmade ?_
      rintro rfl
      exact h (onWay_self workDir ⟨start, []⟩)
  | cons name parents ih =>
    have hne : place ≠ Path.placeFrom workDir ⟨start, (name :: parents).reverse⟩ := by
      rintro rfl
      exact h (onWay_self workDir _)
    have hparents : ¬ OnWay workDir ⟨start, parents.reverse⟩ place := by
      rintro ⟨names, hnames, hplace⟩
      refine h ⟨names, ?_, hplace⟩
      rw [List.reverse_cons]
      exact hnames.trans (List.prefix_append _ _)
    rw [makeFolders]
    cases hmade : t.ensureFolder workDir ⟨start, (name :: parents).reverse⟩ with
    | ok made => exact ensureFolder_elsewhere hmade hne
    | error fault =>
      split
      · rename_i hok
        exact absurd hok (by simp)
      · -- the folders that it lies in come first, then the folder is tried again
        have hfirst := ih (t := t) hparents
        rcases hrec : t.makeFolders workDir start parents with ⟨r, made⟩
        rw [hrec] at hfirst
        cases r with
        | error fault => exact hfirst
        | ok u =>
          simp only
          cases hagain : made.ensureFolder workDir ⟨start, (name :: parents).reverse⟩ with
          | error fault => exact hfirst
          | ok again => exact (ensureFolder_elsewhere hagain hne).trans hfirst
      · rfl

/-- Making a folder and the folders that it lies in makes folders on its way only. -/
theorem sameOrMade_makeAll (t : FileTree) (workDir : Place) (path : Path) (place : Place) :
    SameOrMade t (t.makeAll workDir path).2 workDir path place := by
  by_cases hway : OnWay workDir path place
  · rcases madeFolders_makeAll t workDir path place with hsame | ⟨hnone, hmade⟩
    · exact Or.inl hsame
    · exact Or.inr ⟨hway, hnone, hmade⟩
  · refine Or.inl (makeFolders_elsewhere ?_)
    rwa [List.reverse_reverse]

end FileTree

end NodeStore
