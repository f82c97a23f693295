import NodeStore.Proofs.Cli.Commands
import NodeStore.Proofs.Node.Reopening
import NodeStore.Proofs.Store.Revocations

/-! # Revoking tokens by command

A token is checked twice: by the command, which reads bare digit pairs, and by the store, which
also takes a mark in front of them but asks for at least one byte. They differ on marked texts,
which only the store takes (`Marked`), and on blank ones, which only the command takes (`Blank`).

* `accepts_iff`: what the store accepts;
* `run_revoke_of_pairs`, `run_revoke_of_not`: what the command makes of a text;
* `lists_of_serves`: what is listed later;
* `revoke_agrees_with_store`: the command and the store. -/

namespace NodeStore.Cli

open Op Revocations

namespace Command

variable {c : Config} {restores : Bool} {cache : ConfigCache Cell} {h h₁ : Host} {opened : Node}
  {s : NodeState} {id : String} {b : Bytes} {tables : Tables} {u : Table Cell}

/-! ## Texts -/

/-- A mark stands in front, `0x` or `0X`. -/
def Marked (id : String) : Prop :=
  Hex.dropMark id.toList ≠ id.toList

instance (id : String) : Decidable (Marked id) :=
  inferInstanceAs (Decidable (Hex.dropMark id.toList ≠ id.toList))

/-- Nothing but blanks. -/
def Blank (id : String) : Prop :=
  ∀ ch ∈ id.toList, Text.isAsciiBlank ch = true

instance (id : String) : Decidable (Blank id) :=
  List.decidableBAll _ _

/-- The texts that spell no byte. -/
theorem pairs_nil_iff {cs : List Char} :
    Hex.Pairs cs [] ↔ ∀ ch ∈ cs, Text.isAsciiBlank ch = true := by
  constructor
  · intro h
    generalize hb : ([] : Bytes) = b at h
    induction h with
    | done => simp
    | blank hblank _ ih =>
      intro ch hch
      rcases List.mem_cons.1 hch with rfl | hch
      · exact hblank
      · exact ih hb ch hch
    | pair => simp at hb
  · intro h
    induction cs with
    | nil => exact .done
    | cons ch rest ih =>
      exact .blank (h ch List.mem_cons_self) (ih fun d hd => h d (List.mem_cons_of_mem ch hd))

/-- Without a mark only digit pairs spell bytes. -/
theorem spells_iff_of_not_marked (hmark : ¬ Marked id) :
    Hex.Spells id b ↔ Hex.Pairs id.toList b := by
  unfold Marked at hmark
  rw [← Hex.decode?_iff, Hex.decode?_iff_pairs, not_not.1 hmark]

theorem spells_of_pairs (h : Hex.Pairs id.toList b) : Hex.Spells id b :=
  ⟨_, h, Or.inl rfl⟩

/-- Digit pairs have no mark in front. -/
theorem not_pairs_of_marked (hmark : Marked id) : ¬ Hex.Pairs id.toList b :=
  fun h => hmark h.dropMark_eq

/-! ## The store -/

/-- The store of a node accepts a token. -/
def Accepts (s : NodeState) (id : String) : Prop :=
  (exec (Node.onStore (Store.revoke (.text id))) s).1 = .ok ()

/-- The file of the store has a row for some bytes. -/
def HasToken (c : Config) (b : Bytes) (h : Host) : Prop :=
  h.FileHas c.storeFile fun tables =>
    ∃ u, tables.revoked = some u ∧ cellOf b ∈ u.rows.map fun r => r.data

/-- A token that spells a byte is accepted, and has a row then. -/
theorem revoke_of_spells (hs : Node.Ready c restores s) (hspells : Hex.Spells id b) (hne : b ≠ []) :
    ∃ s', exec (Node.onStore (Store.revoke (.text id))) s = (.ok (), s') ∧
      Node.Ready c restores s' ∧ HasToken c b s'.host := by
  rcases hs.start with ⟨tables, -, -, hsound⟩
  rcases Option.ne_none_iff_exists'.1 hsound.complete.revoked with ⟨u, hu⟩
  have hcheck := revocationId_ok.2 ⟨id, rfl, hspells, hne⟩
  have hworks : (s.node.store.start s.host).outages.transactions = none := by rw [hsound.works]
  rcases exec_revoke hcheck hworks hu with ⟨log, hrevoke⟩
  have hsound' := (Store.agree_perform (.revoke (.text id)) _ _ ⟨hsound, hsound, rfl⟩).2.sound
  rw [StoreCall.perform, exec_map] at hsound'
  rcases hs.onStore_holds (Store.revoke (.text id)) with ⟨hanswer, hold⟩
  rw [hrevoke] at hanswer hold
  exact ⟨_, Prod.ext hanswer rfl, hs.onStore hsound', _, hold, _, rfl, mem_withToken b u⟩

/-- A token that does not pass the check is refused, and nothing is changed. -/
theorem revoke_of_problem (hs : Node.Ready c restores s) {problem : RowProblem}
    (hcheck : RowCheck.revocationId (.text id) = .error problem) :
    exec (Node.onStore (Store.revoke (.text id))) s =
      (.error (.argument (.revocation problem)), s) :=
  hs.onStore_same (exec_revoke_refused hcheck)

/-- The store of a node that is ready accepts the spellings of at least one byte. -/
theorem accepts_iff (hs : Node.Ready c restores s) :
    Accepts s id ↔ ∃ b, Hex.Spells id b ∧ b ≠ [] := by
  constructor
  · intro haccepts
    cases hcheck : RowCheck.revocationId (.text id) with
    | ok b =>
      rcases revocationId_ok.1 hcheck with ⟨id', hid, hspells, hne⟩
      obtain rfl := Value.text.inj hid
      exact ⟨b, hspells, hne⟩
    | error problem =>
      rw [Accepts, revoke_of_problem hs hcheck] at haccepts
      exact absurd haccepts nofun
  · rintro ⟨b, hspells, hne⟩
    rcases revoke_of_spells hs hspells hne with ⟨s', hrevoke, -⟩
    rw [Accepts, hrevoke]

/-- A blank text spells no byte. -/
theorem revocationId_of_blank (hblank : Blank id) :
    RowCheck.revocationId (.text id) = .error .emptyRevocationId := by
  have hspells : Hex.Spells id [] := spells_of_pairs (pairs_nil_iff.2 hblank)
  simp only [RowCheck.revocationId, RowCheck.hex, Hex.decode?_iff.2 hspells]
  rfl

/-! ## The command -/

/-- The usage fault of a token. -/
def tokenFault : UsageFault := .notHex "REVOCATION_ID" "revocation id"

theorem usageFault?_of_pairs (h : Hex.Pairs id.toList b) :
    (Command.revoke id).usageFault? = none := by
  simp only [usageFault?, Hex.decodePairs_iff.2 h]

/-- What is no digit pairs is refused before anything is opened. -/
theorem run_revoke_of_not_pairs (c : Config) (h : Host) (hnot : ∀ b, ¬ Hex.Pairs id.toList b) :
    (Command.revoke id).run c h = (⟨"", .misused tokenFault⟩, h) := by
  have hfault : (Command.revoke id).usageFault? = some tokenFault := by
    cases hdecode : Hex.decodePairs id.toList with
    | ok b => exact absurd (Hex.decodePairs_iff.1 hdecode) (hnot b)
    | error place => simp only [usageFault?, hdecode, tokenFault]
  rw [run_eq, hfault]

/-- Digit pairs with at least one byte are revoked, and the host serves a node afterwards. -/
theorem run_revoke_of_pairs (hopen : exec (Node.open c) h = (.ok opened, h₁))
    (hpairs : Hex.Pairs id.toList b) (hne : b ≠ []) :
    ∃ h' cache, (Command.revoke id).run c h = (⟨Reply.line "✓ Token revoked", .done⟩, h') ∧
      h'.Serves c false cache ∧ HasToken c b h' := by
  have hready : Node.Ready c false ⟨opened, h₁⟩ := Node.ready_of_open hopen nofun
  rcases revoke_of_spells hready (spells_of_pairs hpairs) hne with ⟨s', hrevoke, hready', htoken⟩
  have hwork : exec (work (.revoke id)) ⟨opened, h₁⟩ = (.ok .revoked, s') := exec_bind_of_ok hrevoke
  rcases hready'.exec_close with ⟨closed, hclose⟩
  have hnode : exec (node (.revoke id) c) h = (.ok opened, h₁) := hopen
  have hrun := exec_onNode_of_ok hnode hwork
  rw [hclose] at hrun
  exact ⟨s'.host, _, run_of_onNode (usageFault?_of_pairs hpairs) hrun, hready'.host, htoken⟩

/-- A blank text passes the check of the command, and the failure of the store is not told. -/
theorem run_revoke_of_blank (hopen : exec (Node.open c) h = (.ok opened, h₁)) (hblank : Blank id) :
    (Command.revoke id).run c h =
      (⟨"", .crashed (.argument (.revocation .emptyRevocationId))⟩, h₁) := by
  have hready : Node.Ready c false ⟨opened, h₁⟩ := Node.ready_of_open hopen nofun
  have hwork : exec (work (.revoke id)) ⟨opened, h₁⟩ =
      (.error (.argument (.revocation .emptyRevocationId)), ⟨opened, h₁⟩) :=
    exec_bind_of_error (revoke_of_problem hready (revocationId_of_blank hblank))
  rcases hready.exec_close with ⟨closed, hclose⟩
  have hnode : exec (node (.revoke id) c) h = (.ok opened, h₁) := hopen
  have hrun := exec_onNode_of_ok hnode hwork
  rw [hclose] at hrun
  exact run_of_onNode (usageFault?_of_pairs (pairs_nil_iff.2 hblank)) hrun

/-! ## Listing -/

/-- The lines of some tokens. -/
def tokenLines (ids : List Bytes) : List String :=
  ((ids.map Hex.encode).mergeSort fun a b => a ≤ b).map fun id => Reply.line ("  " ++ id)

theorem outcome_revokedIds (ids : List Bytes) :
    outcome (.ok (.revokedIds ids)) = ⟨String.join (tokenLines ids), .done⟩ := rfl

theorem mem_tokenLines {ids : List Bytes} (hb : b ∈ ids) :
    Reply.line ("  " ++ Hex.encode b) ∈ tokenLines ids := by
  refine List.mem_map.2 ⟨Hex.encode b, ?_, rfl⟩
  rw [List.mem_mergeSort]
  exact List.mem_map_of_mem hb

/-- The command that lists revoked tokens shows some bytes. -/
def Lists (c : Config) (h : Host) (b : Bytes) : Prop :=
  ∃ lines, (Command.listRevoked.run c h).1 = ⟨String.join lines, .done⟩ ∧
    Reply.line ("  " ++ Hex.encode b) ∈ lines

/-- A node that is ready loads the bytes of a row, whatever other rows there are. -/
theorem loadRevoked_of_token (hs : Node.Ready c restores s) (htoken : HasToken c b s.host)
    (hne : b ≠ []) :
    ∃ ids s', exec (Node.onStore Store.loadRevoked) s = (.ok ids, s') ∧ b ∈ ids := by
  rcases hs.start with ⟨tables, hold, hstart, -⟩
  rcases htoken with ⟨old, holdOld, u, hu, hrow⟩
  obtain rfl : tables = old := holdOld.unique hold
  rcases exec_loadRevoked_eq (s := ⟨tables, s.node.store.cache, {}, []⟩) rfl hu with ⟨log, hload⟩
  have hanswer := (hs.onStore_holds Store.loadRevoked).1
  rw [hstart, hload] at hanswer
  exact ⟨_, _, Prod.ext hanswer rfl, List.mem_eraseDups.2 (mem_wellFormed hrow hne)⟩

/-- The bytes of a row are listed by a node that is opened. -/
theorem lists_of_serves (hh : h.Serves c restores cache) (htoken : HasToken c b h) (hne : b ≠ []) :
    Lists c h b := by
  rcases hh.exec_open with ⟨t, hopen, hserves, halike⟩
  rcases htoken with ⟨tables, hold, hrow⟩
  have hready : Node.Ready c restores
      ⟨{ config := c, store := { path := c.storeFile }, secret := Host.secretOf c }, t⟩ :=
    ⟨rfl, rfl, rfl, rfl, hserves.forget⟩
  obtain ⟨ids, s', hload, hmem⟩ :=
    loadRevoked_of_token hready ⟨tables, halike.holds_iff.2 hold, hrow⟩ hne
  have hnode : exec (node .listRevoked c) h = (.ok _, t) := hopen
  have hwork : exec (work .listRevoked) _ = (.ok (.revokedIds ids), s') := exec_bind_of_ok hload
  have hrun : Command.listRevoked.run c h = _ := run_of_onNode rfl (exec_onNode_of_ok hnode hwork)
  exact ⟨tokenLines ids, by rw [hrun, outcome_revokedIds], mem_tokenLines hmem⟩

/-! ## The command and the store -/

/-- A node can be opened, so that its tables work. Then, for every text that is given as a token:

* without a mark, and not blank: the command succeeds exactly if the store accepts the text, and
  its bytes are listed then; otherwise the text is refused as misused, and nothing has happened;
* with a mark the command refuses it as misused, though the store accepts it if it spells a byte;
* a blank one is refused by the store, and the command ends with a failure that is not told; it
  leaves what opening the node left. -/
theorem revoke_agrees_with_store (hopen : exec (Node.open c) h = (.ok opened, h₁)) (id : String) :
    (¬ Marked id → ¬ Blank id →
      (Accepts ⟨opened, h₁⟩ id → ∃ b h', Hex.Spells id b ∧
        (Command.revoke id).run c h = (⟨Reply.line "✓ Token revoked", .done⟩, h') ∧
        Lists c h' b) ∧
      (¬ Accepts ⟨opened, h₁⟩ id →
        (Command.revoke id).run c h = (⟨"", .misused tokenFault⟩, h))) ∧
    (Marked id →
      (Command.revoke id).run c h = (⟨"", .misused tokenFault⟩, h) ∧
      (Accepts ⟨opened, h₁⟩ id ↔ ∃ b, Hex.Spells id b ∧ b ≠ [])) ∧
    (Blank id →
      (Command.revoke id).run c h =
        (⟨"", .crashed (.argument (.revocation .emptyRevocationId))⟩, h₁) ∧
      ¬ Accepts ⟨opened, h₁⟩ id) := by
  have hready : Node.Ready c false ⟨opened, h₁⟩ := Node.ready_of_open hopen nofun
  refine ⟨?_, ?_, ?_⟩
  · intro hmark hblank
    constructor
    · intro haccepts
      rcases (accepts_iff hready).1 haccepts with ⟨b, hspells, hne⟩
      have hpairs := (spells_iff_of_not_marked hmark).1 hspells
      rcases run_revoke_of_pairs hopen hpairs hne with ⟨h', cache, hrun, hserves, htoken⟩
      exact ⟨b, h', hspells, hrun, lists_of_serves hserves htoken hne⟩
    · intro hrefused
      refine run_revoke_of_not_pairs c h fun b hpairs => ?_
      -- digit pairs that the store does not accept spell no byte
      cases b with
      | nil => exact hblank (pairs_nil_iff.1 hpairs)
      | cons x rest =>
        exact hrefused ((accepts_iff hready).2 ⟨_, spells_of_pairs hpairs, List.cons_ne_nil x rest⟩)
  · intro hmark
    exact ⟨run_revoke_of_not_pairs c h fun b => not_pairs_of_marked hmark, accepts_iff hready⟩
  · intro hblank
    refine ⟨run_revoke_of_blank hopen hblank, fun haccepts => ?_⟩
    rw [Accepts, revoke_of_problem hready (revocationId_of_blank hblank)] at haccepts
    exact absurd haccepts nofun

/-- The node that is opened on a bare machine. -/
theorem exec_open_plain : ∃ h₁, exec (Node.open Node.plainConfig) Host.bare =
    (.ok Node.plainNode, h₁) := by
  have hnode : (exec (Node.open Node.plainConfig) Host.bare).1 = .ok Node.plainNode := by
    decide +kernel
  exact ⟨_, Prod.ext hnode rfl⟩

/-- Two bytes with a blank between them, one in capitals, are revoked and listed. -/
theorem spaced_token_is_revoked :
    ∃ h₁, exec (Node.open Node.plainConfig) Host.bare = (.ok Node.plainNode, h₁) ∧
      ¬ Marked "AB cd" ∧ ¬ Blank "AB cd" ∧ Accepts ⟨Node.plainNode, h₁⟩ "AB cd" ∧
      ∃ h', (Command.revoke "AB cd").run Node.plainConfig Host.bare =
          (⟨"✓ Token revoked\n", .done⟩, h') ∧
        Lists Node.plainConfig h' [0xab, 0xcd] := by
  rcases exec_open_plain with ⟨h₁, hopen⟩
  have hready : Node.Ready Node.plainConfig false ⟨Node.plainNode, h₁⟩ :=
    Node.ready_of_open hopen nofun
  have hmark : ¬ Marked "AB cd" := by decide
  have hblank : ¬ Blank "AB cd" := by decide
  have hspells : Hex.Spells "AB cd" [0xab, 0xcd] := Hex.decode?_iff.1 (by decide +kernel)
  have haccepts : Accepts ⟨Node.plainNode, h₁⟩ "AB cd" :=
    (accepts_iff hready).2 ⟨_, hspells, nofun⟩
  obtain ⟨b, h', hb, hrun, hlists⟩ :=
    ((revoke_agrees_with_store hopen "AB cd").1 hmark hblank).1 haccepts
  obtain rfl := spells_unique hb hspells
  have hline : Reply.line "✓ Token revoked" = "✓ Token revoked\n" := by decide +kernel
  exact ⟨h₁, hopen, hmark, hblank, haccepts, h', by rw [hrun, hline], hlists⟩

/-- A token with a mark is accepted by the store and refused by the command; an empty one passes the
check of the command, which then ends with a failure that is not told. -/
theorem marked_and_empty_tokens_differ :
    ∃ h₁, exec (Node.open Node.plainConfig) Host.bare = (.ok Node.plainNode, h₁) ∧
      Accepts ⟨Node.plainNode, h₁⟩ "0xab" ∧
      (Command.revoke "0xab").run Node.plainConfig Host.bare =
        (⟨"", .misused tokenFault⟩, Host.bare) ∧
      ((Command.revoke "").run Node.plainConfig Host.bare).1 =
        ⟨"", .crashed (.argument (.revocation .emptyRevocationId))⟩ := by
  rcases exec_open_plain with ⟨h₁, hopen⟩
  have hready : Node.Ready Node.plainConfig false ⟨Node.plainNode, h₁⟩ :=
    Node.ready_of_open hopen nofun
  have hspells : Hex.Spells "0xab" [0xab] := Hex.decode?_iff.1 (by decide +kernel)
  have hmark : Marked "0xab" := by decide
  have hblank : Blank "" := by decide
  refine ⟨h₁, hopen, (accepts_iff hready).2 ⟨_, hspells, nofun⟩, ?_, ?_⟩
  · exact run_revoke_of_not_pairs _ _ fun b => not_pairs_of_marked hmark
  · rw [run_revoke_of_blank hopen hblank]

end Command

end NodeStore.Cli
