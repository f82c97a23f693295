import NodeStore.Proofs.Node.Holdings

/-! # What a publication leaves

Publication goes through the keys in order, and writes the value that the store knows of each. It
ends with a failure if a value is no text or a file could not be written. So where it succeeds all
rows of published settings were texts, and their files have these texts.

* `Holding.publish`, `Holding.publishAll`: one key, and all keys;
* `Holding.sync`: a publication that succeeded. -/

namespace NodeStore

open Op

namespace Node

variable {c : Config} {w : Place} {fails : Bool} {x : Contents} {s s' : NodeState} {key : String}
  {o o' : Publication.Outcome}

/-- A node of a host that holds contents. What it knows of settings is in the contents. -/
structure Holding (c : Config) (w : Place) (fails : Bool) (x : Contents) (s : NodeState) : Prop
    where
  of : Of c (Host.HasContents c w fails x) s
  cached : Cached x.settings s

theorem Holding.emit (hc : c.Usual w) (hs : Holding c w fails x s) (l : LogLine) :
    Holding c w fails x { s with host := s.host.emit l } :=
  ⟨⟨hs.of.1, hs.of.2, hs.of.3, (keptByStore_hasContents hc).emit _ l hs.of.4⟩, hs.cached⟩

/-- Loading a setting answers with the value in its row. -/
theorem Holding.load (hc : c.Usual w) (hs : Holding c w fails x s) {value : Option Cell}
    (hrun : exec (onStore (Store.loadSetting key)) s = (.ok value, s')) :
    value = x.settings.valueOf? (.text key) ∧ Holding c w fails x s' := by
  rcases hs.of.host.tables with ⟨hdir, tables, hold, hsettings, hchannels⟩
  let u : StoreState := ⟨tables, s.node.store.cache, s.node.store.outages, []⟩
  have hsetting : ∀ k, u.setting k = x.settings.valueOf? (.text k) := by
    intro k
    simp only [u, StoreState.setting, Tables.setting, hsettings, Option.bind_some]
  rcases hload : exec (Store.loadSetting key) u with ⟨r, v⟩
  have hsame : ∀ v, KeepsTables v.tables (exec (Store.loadSetting key) v).2.tables := by
    intro v
    rw [Store.loadSetting_tables]
    exact allowsOpening_keepsTables.same v.tables
  rcases exec_onStore (keptByStore_hasContents hc) hs.of hold hsame hload with
    ⟨s'', hexec, hof, -, -, hcache, -⟩
  rw [hrun, Prod.mk.injEq] at hexec
  rcases hexec with ⟨rfl, rfl⟩
  have hagrees : ∀ k known, u.known k = some known → known = u.setting k := fun k known hk =>
    (hs.cached k known hk).trans (hsetting k).symm
  rcases Store.loadSetting_ok_of_agrees hagrees hload with ⟨hvalue, -, hagrees'⟩
  refine ⟨hvalue.trans (hsetting key), hof, ?_⟩
  intro k known hk
  rw [hcache] at hk
  exact (hagrees' k known hk).trans (hsetting k)

/-! ## Keys -/

/-- What becomes of a key: it has no row, or its text is written, or that it could not be written
is noted. -/
theorem publish_ok {dir : Path} (hrun : exec (Publication.publish dir key o) s = (.ok o', s')) :
    ∃ loaded s₁, exec (onStore (Store.loadSetting key)) s = (.ok loaded, s₁) ∧
      (loaded = none ∧ o' = o ∧ s' = s₁ ∨
        ∃ text, loaded = some (.text text) ∧
          ((∃ files l, s₁.host.files.write s₁.host.workDir (dir / key) (Utf8.encode text) =
              .ok files ∧ o'.failed = o.failed ∧
              s' = { s₁ with host := Host.emit { s₁.host with files } l }) ∨
            o'.failed ≠ [])) := by
  unfold Publication.publish at hrun
  rcases exec_bind_ok.1 hrun with ⟨loaded, s₁, hload, hrun⟩
  refine ⟨loaded, s₁, hload, ?_⟩
  cases loaded with
  | none =>
    simp only [exec_pure, Prod.mk.injEq, Except.ok.injEq] at hrun
    exact Or.inl ⟨rfl, hrun.1.symm, hrun.2.symm⟩
  | some value =>
    rw [exec_bind, exec_liftExcept] at hrun
    cases value with
    | blob b => simp [Publication.bytesOf] at hrun
    | text text =>
      refine Or.inr ⟨text, rfl, ?_⟩
      simp only [Publication.bytesOf, exec_get_bind] at hrun
      cases hwrite : s₁.host.files.write s₁.host.workDir (dir / key) (Utf8.encode text) with
      | ok files =>
        simp only [hwrite, exec_set_bind] at hrun
        rcases exec_bind_ok.1 hrun with ⟨_, s₂, hsay, hrun⟩
        simp only [exec_pure, Prod.mk.injEq, Except.ok.injEq] at hrun
        exact Or.inl ⟨files, _, rfl, by rw [← hrun.1],
          hrun.2.symm.trans (congrArg Prod.snd hsay).symm⟩
      | error fault =>
        simp only [hwrite] at hrun
        split at hrun
        · rcases exec_bind_ok.1 hrun with ⟨_, s₂, -, hrun⟩
          simp only [exec_pure, Prod.mk.injEq, Except.ok.injEq] at hrun
          refine Or.inr ?_
          rw [← hrun.1]
          simp only
          split
          · rename_i hknown
            exact List.ne_nil_of_mem (List.elem_iff.1 hknown)
          · simp
        · simp at hrun

/-- Failures are not forgotten. -/
theorem publishAll_failed {dir : Path} {keys : List String}
    (hrun : exec (Publication.publishAll dir keys o) s = (.ok o', s')) (hnone : o'.failed = []) :
    o.failed = [] := by
  induction keys generalizing o s with
  | nil =>
    obtain rfl : o = o' := Except.ok.inj (congrArg Prod.fst hrun)
    exact hnone
  | cons key rest ih =>
    rcases exec_bind_ok.1 hrun with ⟨o₁, s₁, hpublish, hrest⟩
    have hnone₁ := ih hrest
    rcases publish_ok hpublish with ⟨-, -, -, ⟨-, rfl, -⟩ | ⟨-, -, ⟨-, -, -, hsame, -⟩ | hfailed⟩⟩
    · exact hnone₁
    · exact hsame ▸ hnone₁
    · exact absurd hnone₁ hfailed

/-- A setting that is published has no row, or has text in it. -/
theorem Holding.publish (hc : c.Usual w) (hs : Holding c w fails x s)
    (hkey : key ∈ Publication.keys)
    (hrun : exec (Publication.publish c.storageDir key o) s = (.ok o', s'))
    (hnone : o'.failed = []) :
    (∀ value, x.settings.valueOf? (.text key) = some value → ∃ text, value = .text text) ∧
      Holding c w fails (x.publishedAll [key]) s' := by
  rcases publish_ok hrun with ⟨loaded, s₁, hload, houtcome⟩
  rcases hs.load hc hload with ⟨rfl, hs₁⟩
  rcases houtcome with ⟨hrow, -, rfl⟩ | ⟨text, hrow, ⟨files, l, hwrite, -, rfl⟩ | hfailed⟩
  · rw [Contents.publishedAll_of_not_text (by simp [hrow])]
    exact ⟨by simp [hrow], hs₁⟩
  · refine ⟨by simp [hrow], ?_⟩
    -- the path of the file leads to the place of the setting
    rcases FileTree.write_ok hwrite with ⟨place, hres, hfolder, rfl⟩
    rw [resolve_settingFile hs₁.of.host.files.storage hkey, Except.ok.injEq] at hres
    subst hres
    let written : Host :=
      { s₁.host with
        files := s₁.host.files.put (c.settingPlace w key) (.file (Utf8.encode text)) }
    have hwritten : written.HasContents c w fails (x.publishedAll [key]) :=
      hs₁.of.host.publish hc hkey hrow hfolder
    have hs₂ : Holding c w fails (x.publishedAll [key]) { s₁ with host := written } :=
      ⟨⟨hs₁.of.1, hs₁.of.2, hs₁.of.3, hwritten⟩, hs₁.cached⟩
    exact hs₂.emit hc l
  · exact absurd hnone hfailed

/-- Settings that are published have no rows, or have texts in them. -/
theorem Holding.publishAll (hc : c.Usual w) {keys : List String} (hs : Holding c w fails x s)
    (hkeys : ∀ key ∈ keys, key ∈ Publication.keys)
    (hrun : exec (Publication.publishAll c.storageDir keys o) s = (.ok o', s'))
    (hnone : o'.failed = []) :
    (∀ key ∈ keys, ∀ value, x.settings.valueOf? (.text key) = some value →
      ∃ text, value = .text text) ∧ Holding c w fails (x.publishedAll keys) s' := by
  induction keys generalizing x o s with
  | nil =>
    obtain rfl : s = s' := congrArg Prod.snd hrun
    rw [Contents.publishedAll_nil]
    exact ⟨by simp, hs⟩
  | cons key rest ih =>
    rcases exec_bind_ok.1 hrun with ⟨o₁, s₁, hpublish, hrest⟩
    rcases hs.publish hc (hkeys key List.mem_cons_self) hpublish
      (publishAll_failed hrest hnone) with ⟨htext, hs₁⟩
    rcases ih hs₁ (fun k hk => hkeys k (List.mem_cons_of_mem key hk)) hrest with ⟨htexts, hs'⟩
    rw [Contents.publishedAll_cons] at hs'
    refine ⟨?_, hs'⟩
    intro k hk
    rcases List.mem_cons.1 hk with rfl | hk
    · exact htext
    · exact htexts k hk

/-! ## Publications -/

/-- After a publication that succeeded the rows of published settings are texts, and their files
have these texts. -/
theorem Holding.sync (hc : c.Usual w) (hs : Holding c w fails x s) {report : SyncReport}
    (hrun : exec Node.sync s = (.ok report, s')) :
    (∀ key ∈ Publication.keys, ∀ value, x.settings.valueOf? (.text key) = some value →
      ∃ text, value = .text text) ∧
      Of c (Host.HasContents c w fails (x.publishedAll Publication.keys)) s' := by
  unfold Node.sync at hrun
  rw [exec_get_bind, hs.of.config] at hrun
  rcases exec_bind_ok.1 hrun with ⟨r, s₁, hpublication, hnote⟩
  unfold Publication.run at hpublication
  rcases exec_bind_ok.1 hpublication with ⟨o, s₂, hpublish, hend⟩
  split at hend
  · rename_i hempty
    obtain rfl : s₂ = s₁ := congrArg Prod.snd hend
    rcases hs.publishAll hc (fun _ hk => hk) hpublish (List.isEmpty_iff.1 hempty) with
      ⟨htexts, hs₂⟩
    rw [exec_modify_bind, exec_pure, Prod.mk.injEq] at hnote
    rw [← hnote.2]
    exact ⟨htexts, hs₂.of.1, hs₂.of.2, hs₂.of.3, hs₂.of.4⟩
  · simp at hend

end Node

end NodeStore
