import NodeStore.Proofs.Cli.Commands
import NodeStore.Proofs.Node.Restart

/-! # Nodes that come and go

Any number of nodes are opened on one host with one configuration, and are used in any order:
settings are saved, loaded and published, nodes are closed and used again, more nodes are opened
and started, and settings are saved from the command line (`Deployment.act`). In between the host
may do whatever leaves its files as they are (`Deployment.Reachable`).

The invariant is `Deployment.Ordered`: every node has the files of the configuration, and a
property holds of the host that stands all that a node does. With it the files of published
settings hold texts or are not there. What a start then makes of a setting's row is decided by
these files alone (`row_after_start`): a start keeps the row exactly if its file is not there, or
holds a text that reads as the row's value. A row that was saved after its file was written is
lost with the next start (`stale_file_replaces_row`). -/

namespace NodeStore

open Op

/-- A host, and the nodes that were opened on it. -/
structure Deployment where
  host : Host
  nodes : List Node := []

namespace Deployment

/-- What is done on a host. Nodes are named by their number. -/
inductive Act where
  | «open»
  | start
  | close (i : Nat)
  | save (i : Nat) (key : String) (value : Option String)
  | load (i : Nat) (key : String)
  | sync (i : Nat)
  /-- A setting is saved from the command line. -/
  | command (key value : String) (publishes : Bool)

/-- There is one more node if the operation gives one. -/
def join (d : Deployment) (op : HostM Node) : Deployment :=
  match exec op d.host with
  | (.ok node, host) => ⟨host, d.nodes ++ [node]⟩
  | (.error _, host) => ⟨host, d.nodes⟩

/-- An operation of a node, if there is such a node. -/
def onNode {α : Type} (d : Deployment) (i : Nat) (op : NodeM α) : Deployment :=
  match d.nodes[i]? with
  | some node =>
    let s := (exec op ⟨node, d.host⟩).2
    ⟨s.host, d.nodes.set i s.node⟩
  | none => d

/-- Does something with a configuration. -/
def act (c : Config) (d : Deployment) : Act → Deployment
  | .open => d.join (Node.open c)
  | .start => d.join (Node.start c)
  | .close i => d.onNode i Node.close
  | .save i key value => d.onNode i (Node.onStore (Store.saveSetting key value))
  | .load i key => d.onNode i (Node.onStore (Store.loadSetting key))
  | .sync i => d.onNode i Node.sync
  | .command key value publishes =>
    { d with host := (Cli.Command.run (.saveSetting key value publishes) c d.host).2 }

/-- What can come of a host without nodes. -/
inductive Reachable (c : Config) (start : Host) : Deployment → Prop where
  | start : Reachable c start ⟨start, []⟩
  | act {d : Deployment} (a : Act) : Reachable c start d → Reachable c start (d.act c a)
  /-- Something else happens on the host. -/
  | other {d : Deployment} {host : Host} : Reachable c start d → host.files = d.host.files →
      host.workDir = d.host.workDir → host.logging = d.host.logging →
      Reachable c start { d with host }

/-! ## The invariant -/

/-- The property holds of the host, and every node has the files of the configuration. -/
structure Ordered (c : Config) (I : Host → Prop) (d : Deployment) : Prop where
  host : I d.host
  nodes : ∀ node ∈ d.nodes, node.config = c ∧ node.store.path = c.storeFile ∧
    node.secret.path = c.secretPath

variable {c : Config} {I : Host → Prop} {d : Deployment}

theorem Ordered.join (h : d.Ordered c I) {op : HostM Node} (hop : Node.Opens c I op) :
    (d.join op).Ordered c I := by
  rcases hop d.host h.host with ⟨hhost, hof⟩
  unfold Deployment.join
  rcases hexec : exec op d.host with ⟨r, host⟩
  rw [hexec] at hhost
  cases r with
  | error e => exact ⟨hhost, h.nodes⟩
  | ok node =>
    refine ⟨hhost, ?_⟩
    intro n hn
    rcases List.mem_append.1 hn with hn | hn
    · exact h.nodes n hn
    · rw [List.mem_singleton] at hn
      have hs := hof node host hexec
      exact hn ▸ ⟨hs.config, hs.storePath, hs.secretPath⟩

theorem Ordered.onNode {α : Type} (h : d.Ordered c I) {op : NodeM α}
    (hkeeps : Keeps (Node.Of c I) op) (i : Nat) : (d.onNode i op).Ordered c I := by
  unfold Deployment.onNode
  cases hi : d.nodes[i]? with
  | none => exact h
  | some node =>
    rcases h.nodes node (List.mem_of_getElem? hi) with ⟨hconfig, hstore, hsecret⟩
    have hs := hkeeps ⟨node, d.host⟩ ⟨hconfig, hstore, hsecret, h.host⟩
    refine ⟨hs.host, ?_⟩
    intro n hn
    rcases List.mem_or_eq_of_mem_set hn with hn | rfl
    · exact h.nodes n hn
    · exact ⟨hs.config, hs.storePath, hs.secretPath⟩

/-- Saving a setting from the command line keeps what opening, saving, publishing and closing
keep. -/
theorem keeps_command (hI : Kept c (fun _ _ => True) I) (key value : String) (publishes : Bool)
    {h : Host} (hh : I h) : I (Cli.Command.run (.saveSetting key value publishes) c h).2 :=
  Cli.Command.keeps_run (Cli.Command.keeps_onNode hI.toKeptByOpening
    (Cli.Command.opens_node hI allowsSaves_all _)
    (Cli.Command.keeps_saveSettingWork hI allowsSaves_all key value publishes)) hh

theorem Ordered.act (hI : Kept c (fun _ _ => True) I) (h : d.Ordered c I) (a : Act) :
    (d.act c a).Ordered c I := by
  cases a with
  | «open» => exact h.join (Node.opens_open hI.toKeptByOpening)
  | start => exact h.join (Node.opens_start hI allowsSaves_all)
  | close i => exact h.onNode (Node.keeps_close hI.toKeptByOpening) i
  | save i key value =>
    exact h.onNode (Node.keeps_saveSetting hI.toKeptByStore allowsSaves_all key value) i
  | load i key => exact h.onNode (Node.keeps_loadSetting hI.toKeptByOpening key) i
  | sync i => exact h.onNode (Node.keeps_sync hI) i
  | command key value publishes => exact ⟨keeps_command hI key value publishes h.host, h.nodes⟩

/-! ## Rows after a start -/

/-- Where the storage folder was empty the files of published settings hold texts, or are not
there. -/
theorem Reachable.ordered {start : Host}
    (hempty : ∀ name, start.files.entry? (c.storageDir.placeFrom start.workDir ++ [name]) = none)
    (hsep : c.Separate start.workDir start.logging) (hrun : Reachable c start d) :
    d.Ordered c (Host.HasSettingFiles c start.workDir start.logging) := by
  induction hrun with
  | start =>
    -- in an empty folder no file is there
    refine ⟨⟨fun _ => none, rfl, rfl, fun key hkey => Or.inl ?_⟩, by simp⟩
    rw [c.settingPlace_eq start.workDir hkey]
    exact hempty key
  | act a _ ih => exact ih.act (kept_settingFiles hsep) a
  | other _ hfiles hdir hlogging ih =>
    rcases ih.host with ⟨texts, hold⟩
    refine ⟨⟨texts, hdir.trans hold.workDir, hlogging.trans hold.logging, ?_⟩,
      ih.nodes⟩
    intro key hkey
    rw [hfiles]
    exact hold.shows key hkey

/-- What a start that succeeds makes of the row of a published setting. If its file is there, the
row becomes what migration reads from it; otherwise the row stays. So the row is kept exactly if
there is no file, or it reads as the row's value. -/
theorem row_after_start {start h' : Host} {node : Node} {key : String} {value : Cell}
    (hempty : ∀ name, start.files.entry? (c.storageDir.placeFrom start.workDir ++ [name]) = none)
    (hsep : c.Separate start.workDir start.logging) (hrun : Reachable c start d)
    (hstart : exec (Node.start c) d.host = (.ok node, h')) (hkey : key ∈ Publication.keys)
    (hrow : d.host.setting c key = some value) :
    ((∃ text, d.host.files.entry? (c.settingPlace start.workDir key) =
          some (.file (Utf8.encode text)) ∧
        h'.setting c key = some (.text (settingText text))) ∨
      (∀ b, d.host.files.entry? (c.settingPlace start.workDir key) ≠ some (.file b)) ∧
        h'.setting c key = some value) ∧
    (h'.setting c key = some value ↔
      ∀ text, d.host.files.entry? (c.settingPlace start.workDir key) =
          some (.file (Utf8.encode text)) → value = .text (settingText text)) := by
  rcases (hrun.ordered hempty hsep).host with ⟨texts, hfiles⟩
  have hafter := Node.setting_start hsep hfiles hstart hkey hrow
  have hshows := hfiles.shows key hkey
  cases htext : texts key with
  | none =>
    rw [htext] at hafter hshows
    have hnoFile : ∀ b, d.host.files.entry? (c.settingPlace start.workDir key) ≠
        some (.file b) := by
      intro b
      rcases hshows with hnone | hfolder
      · simp [hnone]
      · simp [hfolder]
    have hkept : h'.setting c key = some value := hafter
    exact ⟨Or.inr ⟨hnoFile, hkept⟩, fun _ text hfile => absurd hfile (hnoFile _), fun _ => hkept⟩
  | some text =>
    rw [htext] at hafter hshows
    have hfile : d.host.files.entry? (c.settingPlace start.workDir key) =
        some (.file (Utf8.encode text)) := hshows
    have hread : h'.setting c key = some (.text (settingText text)) := hafter
    refine ⟨Or.inl ⟨text, hfile, hread⟩, ?_, ?_⟩
    · -- the file has one text only
      intro hkept text' hfile'
      have hsame := hfile.symm.trans hfile'
      simp only [Option.some.injEq, FileEntry.file.injEq] at hsame
      obtain rfl := Utf8.encode_injective hsame
      have hboth := hkept.symm.trans hread
      exact Option.some.inj hboth
    · intro hreads
      rw [hread, hreads text hfile]

/-- A configuration whose storage folder is at the root. -/
def rootConfig : Config where
  storageDir := ⟨.root, ["node"]⟩

/-- A node is opened, saves a setting and publishes it. -/
def published : Deployment :=
  let opened := act rootConfig ⟨Host.bare, []⟩ .open
  let saved := opened.act rootConfig (.save 0 "indexer_url" (some "127.0.0.1:50001"))
  saved.act rootConfig (.sync 0)

/-- After that it saves the setting once more, and is closed. -/
def republishMissed : Deployment :=
  let saved := published.act rootConfig (.save 0 "indexer_url" (some "127.0.0.1:50002"))
  saved.act rootConfig (.close 0)

theorem reachable_published : Reachable rootConfig Host.bare published :=
  ((Reachable.start.act .open).act (.save 0 _ _)).act (.sync 0)

theorem separate_rootConfig : rootConfig.Separate Host.bare.workDir Host.bare.logging :=
  ⟨by decide +kernel, by decide +kernel, by simp [Host.bare]⟩

theorem rootConfig_empty (name : String) :
    Host.bare.files.entry? (rootConfig.storageDir.placeFrom Host.bare.workDir ++ [name]) = none :=
  rfl

/-- A setting that was not saved again after it was published is kept by the next start. -/
theorem published_row_is_kept :
    (∀ name, Host.bare.files.entry?
        (rootConfig.storageDir.placeFrom Host.bare.workDir ++ [name]) = none) ∧
      rootConfig.Separate Host.bare.workDir Host.bare.logging ∧
      Reachable rootConfig Host.bare published ∧ "indexer_url" ∈ Publication.keys ∧
      published.host.setting rootConfig "indexer_url" = some (.text "127.0.0.1:50001") ∧
      ∃ node h', exec (Node.start rootConfig) published.host = (.ok node, h') ∧
        h'.setting rootConfig "indexer_url" = some (.text "127.0.0.1:50001") := by
  have hkey : "indexer_url" ∈ Publication.keys := by decide
  have hrow : published.host.setting rootConfig "indexer_url" =
      some (.text "127.0.0.1:50001") := by decide +kernel
  have hfile : published.host.files.entry?
      (rootConfig.settingPlace Host.bare.workDir "indexer_url") =
      some (.file (Utf8.encode "127.0.0.1:50001")) := by decide +kernel
  have hreads : settingText "127.0.0.1:50001" = "127.0.0.1:50001" := by decide +kernel
  have hok : (exec (Node.start rootConfig) published.host).1.isOk = true := by decide +kernel
  rcases hstart : exec (Node.start rootConfig) published.host with ⟨r, h'⟩
  rw [hstart] at hok
  cases r with
  | error e => simp [Except.isOk, Except.toBool] at hok
  | ok node =>
    have hkept := (row_after_start rootConfig_empty separate_rootConfig reachable_published hstart
      hkey hrow).2.2 fun text hfile' => by
        have hsame := hfile.symm.trans hfile'
        simp only [Option.some.injEq, FileEntry.file.injEq] at hsame
        rw [← Utf8.encode_injective hsame, hreads]
    exact ⟨rootConfig_empty, separate_rootConfig, reachable_published, hkey, hrow, node, h', rfl,
      hkept⟩

/-- A setting that was saved again after it was published goes back to the published value with
the next start. -/
theorem stale_file_replaces_row :
    (∀ name, Host.bare.files.entry?
        (rootConfig.storageDir.placeFrom Host.bare.workDir ++ [name]) = none) ∧
      Reachable rootConfig Host.bare republishMissed ∧ "indexer_url" ∈ Publication.keys ∧
      republishMissed.host.setting rootConfig "indexer_url" = some (.text "127.0.0.1:50002") ∧
      ∃ node h', exec (Node.start rootConfig) republishMissed.host = (.ok node, h') ∧
        h'.setting rootConfig "indexer_url" = some (.text "127.0.0.1:50001") := by
  have hrun : Reachable rootConfig Host.bare republishMissed :=
    (reachable_published.act (.save 0 _ _)).act (.close 0)
  have hrow : republishMissed.host.setting rootConfig "indexer_url" =
      some (.text "127.0.0.1:50002") := by decide +kernel
  have hafter : (exec (Node.start rootConfig) republishMissed.host).1.isOk = true ∧
      (exec (Node.start rootConfig) republishMissed.host).2.setting rootConfig "indexer_url" =
        some (.text "127.0.0.1:50001") := by decide +kernel
  rcases hstart : exec (Node.start rootConfig) republishMissed.host with ⟨r, h'⟩
  rw [hstart] at hafter
  cases r with
  | error e => simp [Except.isOk, Except.toBool] at hafter
  | ok node => exact ⟨rootConfig_empty, hrun, by decide, hrow, node, h', rfl, hafter.2⟩

end Deployment

end NodeStore
