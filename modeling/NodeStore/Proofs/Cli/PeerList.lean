import NodeStore.Proofs.Cli.Revocation
import NodeStore.Proofs.Store.MalformedRows
import NodeStore.Proofs.Text.Escape
import NodeStore.Proofs.Text.Line

/-! # Listing peers

An address that is kept has one line in the list of peers, and takes a second one, which is empty,
if a line feed ends it.

* `lines_peers`: the lines of the list;
* `addresses_are_kept_and_listed`: which addresses are kept, and how they are listed. -/

namespace NodeStore.Cli.Command

open Op

variable {c : Config} {h h₁ : Host} {opened : Node} {s : NodeState}
  {peers : List (String × String)} {p : String × String} {b : Bytes}

/-- The lines of a peer. -/
def peerLines (p : String × String) : List String :=
  ("  " ++ p.1 ++ "@" ++ String.ofList (RowCheck.dropFinalNewline p.2.toList)) ::
    if p.2.toList.getLast? = some '\n' then [""] else []

/-- What is shown of a peer. -/
def peerText (p : String × String) : String :=
  Reply.line ("  " ++ p.1 ++ "@" ++ p.2)

/-- The characters of what is shown of a peer. -/
theorem mem_entry {a : List Char} {ch : Char}
    (h : ch ∈ ("  " ++ Hex.encode b ++ "@" ++ String.ofList a).toList) :
    ch ∈ " @0123456789abcdef".toList ∨ ch ∈ a := by
  have hshown : ∀ cs : List Char, cs.all (· ∈ " @0123456789abcdef".toList) = true →
      ch ∈ cs → ch ∈ " @0123456789abcdef".toList := fun cs hcs hch =>
    of_decide_eq_true (List.all_eq_true.1 hcs ch hch)
  simp only [String.toList_append, List.mem_append, String.toList_ofList] at h
  rcases h with ((h | h) | h) | h
  · exact Or.inl (hshown "  ".toList (by decide) h)
  · exact Or.inl (hshown "0123456789abcdef".toList (by decide) ((Hex.encode_digits b).2 ch h))
  · exact Or.inl (hshown "@".toList (by decide) h)
  · exact Or.inr h

/-- What is shown of a peer has no terminal escapes that would be left out. -/
theorem peerText_eq (hkey : p.1 = Hex.encode b) (hkept : Address.IsKept p.2.toList) :
    peerText p = "  " ++ p.1 ++ "@" ++ p.2 ++ "\n" := by
  have hmem : ∀ ch, ch ∈ ("  " ++ p.1 ++ "@" ++ p.2).toList → ch ∉ " @0123456789abcdef".toList →
      ch ∈ p.2.toList := by
    intro ch hch hother
    rw [hkey, ← String.ofList_toList (s := p.2)] at hch
    exact (mem_entry hch).resolve_left hother
  unfold peerText Reply.line
  rcases hkept.no_escape with hescape | hbracket
  · rw [Text.withoutEscapes_eq]
    rintro ch hch rfl
    exact hescape (hmem _ hch (by decide))
  · rw [Text.withoutEscapes_of_no_bracket]
    exact fun hch => hbracket (hmem _ hch (by decide))

/-- A peer's lines come before those of what follows. -/
theorem lines_peer (hkey : p.1 = Hex.encode b) (hkept : Address.IsKept p.2.toList)
    (rest : String) : Text.lines (peerText p ++ rest) = peerLines p ++ Text.lines rest := by
  have haddress := Address.isKept_iff.1 hkept
  -- neither the address nor what stands before it has a line ending
  have hnone : ∀ ch, ch ∉ " @0123456789abcdef".toList → Text.isBlank ch = true →
      ch ∉ ("  " ++ p.1 ++ "@" ++ String.ofList (RowCheck.dropFinalNewline p.2.toList)).toList := by
    intro ch hother hblank hch
    rw [hkey] at hch
    have hclean := haddress.not_blank ch ((mem_entry hch).resolve_left hother)
    rw [hblank] at hclean
    exact absurd hclean (by decide)
  have hcut := fun rest => Text.lines_cons rest (hnone '\n' (by decide) (by decide))
    (hnone '\r' (by decide) (by decide))
  rw [peerText_eq hkey hkept, peerLines]
  rcases Address.dropFinalNewline_cases p.2.toList with hsame | hends
  · have hlast : p.2.toList.getLast? ≠ some '\n' := by
      rw [← hsame]
      exact haddress.getLast?_ne
    rw [hsame, String.ofList_toList] at hcut
    rw [if_neg hlast, hsame, String.ofList_toList, hcut]
    rfl
  · have hlast : p.2.toList.getLast? = some '\n' := by
      rw [hends, List.getLast?_concat]
    have htext : p.2 = String.ofList (RowCheck.dropFinalNewline p.2.toList) ++ "\n" := by
      rw [← String.toList_inj, String.toList_append, String.toList_ofList]
      exact hends
    have hempty : Text.lines ("\n" ++ rest) = "" :: Text.lines rest := by
      show Text.lines ("" ++ "\n" ++ rest) = "" :: Text.lines rest
      exact Text.lines_cons rest (by decide) (by decide)
    have hshown : "  " ++ p.1 ++ "@" ++ p.2 ++ "\n" ++ rest =
        "  " ++ p.1 ++ "@" ++ String.ofList (RowCheck.dropFinalNewline p.2.toList) ++ "\n" ++
          ("\n" ++ rest) := by
      conv_lhs => rw [htext]
      simp only [String.append_assoc]
    rw [if_pos hlast, hshown, hcut, hempty]
    rfl

/-- The lines of the peers in a list. -/
theorem lines_peers (hpeers : ∀ p ∈ peers, (∃ b, p.1 = Hex.encode b) ∧ Address.IsKept p.2.toList) :
    Text.lines (String.join (peers.map peerText)) = peers.flatMap peerLines := by
  induction peers with
  | nil => rfl
  | cons p rest ih =>
    rcases hpeers p List.mem_cons_self with ⟨⟨b, hkey⟩, hkept⟩
    rw [List.map_cons, String.join_cons, lines_peer hkey hkept, List.flatMap_cons,
      ih fun q hq => hpeers q (List.mem_cons_of_mem p hq)]

/-! ## The list -/

/-- The peers in the order of their keys. -/
def sortedPeers (peers : List (String × String)) : List (String × String) :=
  peers.mergeSort fun p q => p.1 ≤ q.1

theorem outcome_peers (hne : peers ≠ []) :
    outcome (.ok (.peers peers)) = ⟨String.join ((sortedPeers peers).map peerText), .done⟩ := by
  cases peers with
  | nil => exact absurd rfl hne
  | cons p rest => rfl

/-- What a node loads has been checked. -/
theorem checked_of_load (hopen : exec (Node.open c) h = (.ok opened, h₁))
    (hload : exec (Node.onStore Store.loadPeers) ⟨opened, h₁⟩ = (.ok peers, s)) :
    ∀ p ∈ peers, (∃ b, p.1 = Hex.encode b) ∧ Address.IsKept p.2.toList := by
  have hready : Node.Ready c false ⟨opened, h₁⟩ := Node.ready_of_open hopen nofun
  rcases hready.start with ⟨tables, -, hstart, hsound⟩
  rcases Option.ne_none_iff_exists'.1 hsound.complete.peers with ⟨t, ht⟩
  have hanswer := (hready.onStore_holds Store.loadPeers).1
  rw [hload] at hanswer
  have hworks : (opened.store.start h₁).outages.transactions = none := by rw [hsound.works]
  exact fun p hp => Store.of_mem_loaded hworks ht (Prod.ext hanswer.symm rfl) hp

/-- The list of peers shows the lines of each peer, in the order of the keys. -/
theorem run_listPeers (hopen : exec (Node.open c) h = (.ok opened, h₁))
    (hload : exec (Node.onStore Store.loadPeers) ⟨opened, h₁⟩ = (.ok peers, s)) (hne : peers ≠ []) :
    ∃ shown, (Command.listPeers.run c h).1 = ⟨shown, .done⟩ ∧
      Text.lines shown = (sortedPeers peers).flatMap peerLines := by
  have hnode : exec (node .listPeers c) h = (.ok opened, h₁) := hopen
  have hwork : exec (work .listPeers) ⟨opened, h₁⟩ = (.ok (.peers peers), s) :=
    exec_bind_of_ok hload
  have hrun : Command.listPeers.run c h = _ := run_of_onNode rfl (exec_onNode_of_ok hnode hwork)
  refine ⟨_, by rw [hrun, outcome_peers hne], lines_peers ?_⟩
  intro p hp
  exact checked_of_load hopen hload p (List.mem_mergeSort.1 hp)

theorem peerLines_of_isAddress (haddress : Address.IsAddress p.2.toList) :
    peerLines p = ["  " ++ p.1 ++ "@" ++ p.2] := by
  rw [peerLines, if_neg haddress.getLast?_ne,
    Address.dropFinalNewline_eq_self haddress.getLast?_ne, String.ofList_toList]

theorem peerLines_of_lineFeed {a : List Char} (ha : p.2.toList = a ++ ['\n']) :
    peerLines p = ["  " ++ p.1 ++ "@" ++ String.ofList a, ""] := by
  rw [peerLines, ha, if_pos List.getLast?_concat, Address.dropFinalNewline_append]

/-- For every text:

* it is kept, as it is written, exactly if it is an address, or an address and one line feed;
* an address has no blanks, and so no line ending.

A node that can be opened lists its peers in the order of their keys. A peer whose address has no
line feed at the end takes one line, and any other takes a second one, which is empty. -/
theorem addresses_are_kept_and_listed (text : String) (c : Config) (h : Host) :
    (∀ kept, RowCheck.socketAddress (.text text) = .ok kept ↔ kept = text ∧
      (Address.IsAddress text.toList ∨
        ∃ a, text.toList = a ++ ['\n'] ∧ Address.IsAddress a)) ∧
    (Address.IsAddress text.toList → ∀ ch ∈ text.toList, Text.isBlank ch = false) ∧
    (∀ h₁ opened peers s, exec (Node.open c) h = (.ok opened, h₁) →
      exec (Node.onStore Store.loadPeers) ⟨opened, h₁⟩ = (.ok peers, s) → peers ≠ [] →
      ∃ shown, (Command.listPeers.run c h).1 = ⟨shown, .done⟩ ∧
        Text.lines shown = (sortedPeers peers).flatMap peerLines ∧
        ∀ p ∈ peers,
          (Address.IsAddress p.2.toList ∧ peerLines p = ["  " ++ p.1 ++ "@" ++ p.2]) ∨
          ∃ a, p.2.toList = a ++ ['\n'] ∧ Address.IsAddress a ∧
            peerLines p = ["  " ++ p.1 ++ "@" ++ String.ofList a, ""]) := by
  refine ⟨fun _ => Address.socketAddress_iff, Address.IsAddress.not_blank, ?_⟩
  intro h₁ opened peers s hopen hload hne
  rcases run_listPeers hopen hload hne with ⟨shown, hrun, hlines⟩
  refine ⟨shown, hrun, hlines, ?_⟩
  intro p hp
  rcases (checked_of_load hopen hload p hp).2 with haddress | ⟨a, ha, haddress⟩
  · exact Or.inl ⟨haddress, peerLines_of_isAddress haddress⟩
  · exact Or.inr ⟨a, ha, haddress, peerLines_of_lineFeed ha⟩

/-- A key in bytes. -/
def peerBytes (mark : UInt8) : Bytes :=
  mark :: List.replicate 32 0xab

/-- Saves two peers, one of them with an address that a line feed follows. -/
def saveTwoPeers : NodeM Unit := do
  Node.onStore (Store.savePeer (.blob (peerBytes 3)) (.text "[fe80::1]:80\n"))
  Node.onStore (Store.savePeer (.blob (peerBytes 2)) (.text "10.0.0.1:9735"))

/-- A host with these peers. -/
def twoPeersHost : Host :=
  (exec saveTwoPeers ⟨Node.plainNode, (exec (Node.open Node.plainConfig) Host.bare).2⟩).2.host

/-- The peers. -/
def twoPeers : List (String × String) :=
  [(Hex.encode (peerBytes 3), "[fe80::1]:80\n"), (Hex.encode (peerBytes 2), "10.0.0.1:9735")]

/-- A peer whose address a line feed follows takes a second line in the list, and another does
not. -/
theorem two_peers_are_listed :
    ∃ h₁ s shown, exec (Node.open Node.plainConfig) twoPeersHost = (.ok Node.plainNode, h₁) ∧
      exec (Node.onStore Store.loadPeers) ⟨Node.plainNode, h₁⟩ = (.ok twoPeers, s) ∧
      twoPeers ≠ [] ∧
      (Command.listPeers.run Node.plainConfig twoPeersHost).1 = ⟨shown, .done⟩ ∧
      "" ∈ Text.lines shown ∧
      "  " ++ Hex.encode (peerBytes 2) ++ "@10.0.0.1:9735" ∈ Text.lines shown := by
  have hnode : (exec (Node.open Node.plainConfig) twoPeersHost).1 = .ok Node.plainNode := by
    decide +kernel
  have hpeers : (exec (Node.onStore Store.loadPeers)
      ⟨Node.plainNode, (exec (Node.open Node.plainConfig) twoPeersHost).2⟩).1 = .ok twoPeers := by
    decide +kernel
  have hne : twoPeers ≠ [] := by decide
  rcases hopen : exec (Node.open Node.plainConfig) twoPeersHost with ⟨answer, h₁⟩
  rw [hopen] at hnode hpeers
  obtain rfl : answer = .ok Node.plainNode := hnode
  rcases hload : exec (Node.onStore Store.loadPeers) ⟨Node.plainNode, h₁⟩ with ⟨answer, s⟩
  rw [hload] at hpeers
  obtain rfl : answer = .ok twoPeers := hpeers
  rcases (addresses_are_kept_and_listed "10.0.0.1:9735" _ _).2.2 _ _ _ _ hopen hload hne with
    ⟨shown, hrun, hlines, -⟩
  have hfirst : "" ∈ peerLines (Hex.encode (peerBytes 3), "[fe80::1]:80\n") := by decide +kernel
  have hsecond : "  " ++ Hex.encode (peerBytes 2) ++ "@10.0.0.1:9735" ∈
      peerLines (Hex.encode (peerBytes 2), "10.0.0.1:9735") := by decide +kernel
  refine ⟨h₁, s, shown, rfl, hload, hne, hrun, ?_, ?_⟩
  · rw [hlines, List.mem_flatMap]
    exact ⟨_, List.mem_mergeSort.2 List.mem_cons_self, hfirst⟩
  · rw [hlines, List.mem_flatMap]
    exact ⟨_, List.mem_mergeSort.2 (List.mem_cons_of_mem _ List.mem_cons_self), hsecond⟩

/-- An address that a line feed follows is kept, though it is no address. -/
theorem lineFeed_is_kept :
    RowCheck.socketAddress (.text "127.0.0.1:9735\n") = .ok "127.0.0.1:9735\n" ∧
      ¬ Address.IsAddress "127.0.0.1:9735\n".toList ∧
      Text.isBlank '\n' = true ∧ '\n' ∈ "127.0.0.1:9735\n".toList ∧
      ∀ key, peerLines (key, "127.0.0.1:9735\n") = ["  " ++ key ++ "@127.0.0.1:9735", ""] := by
  refine ⟨by decide +kernel, ?_, by decide, by decide, ?_⟩
  · intro haddress
    exact haddress.getLast?_ne (by decide)
  · intro key
    have ha : "127.0.0.1:9735\n".toList = "127.0.0.1:9735".toList ++ ['\n'] := by decide
    rw [peerLines_of_lineFeed (p := (key, _)) ha, String.ofList_toList, String.append_assoc]
    rfl

end NodeStore.Cli.Command
