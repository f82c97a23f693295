import NodeStore.Cli.Run
import NodeStore.Proofs.Node.Migration

/-! # Commands on a host

A command opens a node, or starts one, does its work with it and closes it again; what the work
did stays also when it failed (`exec_onNode_of_ok`). So a property of hosts is kept by a command if
it is kept by the opening, by the work and by the closing of a node (`keeps_onNode`). -/

namespace NodeStore.Cli

open Op

namespace Command

/-- The node that a command works with. -/
def node (cmd : Command) (c : Config) : HostM Node :=
  if cmd.startsNode then Node.start c else Node.open c

variable {c : Config} {R : Tables → Tables → Prop} {I : Host → Prop} {cmd : Command} {h h' : Host}

theorem exec_onNode_of_error {e : Failure} (hnode : exec (cmd.node c) h = (.error e, h')) :
    exec (cmd.onNode c) h = (.error e, h') := by
  unfold node at hnode
  unfold onNode
  split at hnode
  · rw [if_pos ‹_›]
    exact exec_bind_of_error hnode
  · rw [if_neg ‹_›]
    exact exec_bind_of_error hnode

/-- Once there is a node, a command answers what its work answers, and closes the node. -/
theorem exec_onNode_of_ok {node : Node} {r : Except Failure Reply} {s : NodeState}
    (hnode : exec (cmd.node c) h = (.ok node, h')) (hwork : exec cmd.work ⟨node, h'⟩ = (r, s)) :
    exec (cmd.onNode c) h = (r, (exec Node.close s).2.host) := by
  have hworked : exec (cmd.onNode c) h = ((exec cmd.work ⟨node, h'⟩).1,
      (exec Node.close (exec cmd.work ⟨node, h'⟩).2).2.host) := by
    unfold Command.node at hnode
    unfold onNode
    split at hnode
    · rw [if_pos ‹_›]
      exact (exec_bind_of_ok hnode).trans (exec_liftExcept _ _)
    · rw [if_neg ‹_›]
      exact (exec_bind_of_ok hnode).trans (exec_liftExcept _ _)
  rw [hworked, hwork]

/-- A command is carried out on a node unless its arguments are refused. -/
theorem run_eq (cmd : Command) (c : Config) (h : Host) :
    cmd.run c h =
      match cmd.usageFault? with
      | some fault => (⟨"", .misused fault⟩, h)
      | none => (outcome (exec (cmd.onNode c) h).1, (exec (cmd.onNode c) h).2) := rfl

theorem run_of_onNode {r : Except Failure Reply} (hfault : cmd.usageFault? = none)
    (hrun : exec (cmd.onNode c) h = (r, h')) : cmd.run c h = (outcome r, h') := by
  rw [run_eq, hfault, hrun]

/-- Whatever opening, work and closing keep is kept by a command. -/
theorem keeps_onNode (hI : KeptByOpening c R I) (hnode : Node.Opens c I (cmd.node c))
    (hwork : Keeps (Node.Of c I) cmd.work) : Keeps I (cmd.onNode c) := by
  intro h hh
  rcases hnode h hh with ⟨hopened, hof⟩
  rcases hopen : exec (cmd.node c) h with ⟨r, h₁⟩
  rw [hopen] at hopened
  cases r with
  | error e =>
    rw [exec_onNode_of_error hopen]
    exact hopened
  | ok node =>
    have hs := hwork _ (hof node h₁ hopen)
    rcases hdone : exec cmd.work ⟨node, h₁⟩ with ⟨r, s⟩
    rw [hdone] at hs
    rw [exec_onNode_of_ok hopen hdone]
    exact (Node.keeps_close hI s hs).host

theorem keeps_run (hkeeps : Keeps I (cmd.onNode c)) (hh : I h) : I (cmd.run c h).2 := by
  rw [run_eq]
  cases cmd.usageFault? with
  | some fault => exact hh
  | none => exact hkeeps h hh

theorem opens_node (hI : Kept c R I) (hR : AllowsSaves R) (cmd : Command) :
    Node.Opens c I (cmd.node c) := by
  unfold node
  split
  · exact Node.opens_start hI hR
  · exact Node.opens_open hI.toKeptByOpening

/-! ## Work -/

theorem keeps_saveSettingWork (hI : Kept c R I) (hR : AllowsSaves R) (key value : String)
    (publishes : Bool) : Keeps (Node.Of c I) (work (.saveSetting key value publishes)) := by
  unfold work
  refine keeps_bind (Node.keeps_saveSetting hI.toKeptByStore hR key (some value)) fun _ => ?_
  cases publishes with
  | false => exact keeps_pure _
  | true => exact keeps_bind (keeps_map (Node.keeps_sync hI)) fun _ => keeps_pure _

end Command

end NodeStore.Cli
