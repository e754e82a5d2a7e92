import FuseOverlay.Whiteout

namespace FuseOverlay

/-!
# The state of a mount

The cached nodes and the inode table stand beside the state of the system
calls.  An action made of system calls runs inside an action of the daemon and
leaves nodes, table and handles alone.
-/

/-- One entry of a directory handle. -/
structure HandleEntry where
  name : Name
  ino : UInt64
  mode : Mode
  attr : Option Stat
  nodeId : Option NodeId

/-- The changing state of a mount. -/
structure Sys where
  os : Os
  nodes : NodeArena
  inodes : InodeTable
  openFiles : FMap Nat Fd
  nextFh : Nat
  openDirs : FMap Nat (List HandleEntry)
  nextDh : Nat

/-- Actions of the daemon. -/
abbrev Daemon := Act Errno Sys

/-- The FUSE inode number of the root. -/
def rootIno : UInt64 := 1

/-- System calls inside an action of the daemon. -/
def Syscall.lift
    {α : Type}
    (act : Syscall α) :
    Daemon α :=
  fun sys => ((act sys.os).1, { sys with os := (act sys.os).2 })

instance : MonadLift Syscall Daemon where
  monadLift := Syscall.lift

theorem liftM_eq
    {α : Type}
    (act : Syscall α) :
    (liftM act : Daemon α) = act.lift :=
  rfl

namespace Daemon

open Syscall

variable (env : Env)

/-! ## The node arena -/

/-- `inner.nodes.get` -/
def getNode
    (id : NodeId) :
    Daemon (Option OvlNode) :=
  Act.gets fun sys => sys.nodes.get? id

/-- `inner.nodes.get_mut` and a change, nothing when the node is missing -/
def modifyNode
    (id : NodeId)
    (change : OvlNode → OvlNode) :
    Daemon Unit :=
  Act.modify fun sys => { sys with nodes := sys.nodes.modify id change }

/-- `inner.nodes.insert` -/
def insertNode
    (node : OvlNode) :
    Daemon NodeId :=
  fun sys =>
    (.ok sys.nodes.nextId,
      { sys with nodes := (sys.nodes.insert node).2 })

/-- `OvlNode::drop`: a hidden file leaves the work directory. -/
def dropNode
    (node : OvlNode) :
    Daemon Unit :=
  match node.hiddenPath with
  | none => pure ()
  | some name => do
      Act.runIf node.doUnlink do
        let _ ← (unlinkat ⟨.workdir, []⟩ name false).attempt
      Act.runIf node.doRmdir do
        let _ ← (unlinkat ⟨.workdir, []⟩ name true).attempt

/-- `inner.nodes.remove`, with the drop of the removed node -/
def removeNode
    (id : NodeId) :
    Daemon Unit := do
  match ← getNode id with
  | none => pure ()
  | some node => do
      Act.modify fun sys => { sys with nodes := sys.nodes.remove id }
      dropNode node

/-- `node_path` -/
def nodePath
    (id : NodeId) :
    Daemon Path :=
  Act.gets fun sys => nodeParts sys.nodes id

/-- `inodes.register`; without a number to give nothing changes. -/
def register
    (id : NodeId)
    (ino dev : UInt64)
    (mode : Mode) :
    Daemon (Option UInt64) :=
  fun sys =>
    match sys.inodes.register env.order sys.nodes id ino dev mode with
    | none => (.ok none, sys)
    | some (fuseIno, inodes) =>
        (.ok (some fuseIno), { sys with inodes := inodes })

/-- `inodes.inc_lookup` -/
def incLookup
    (key : InodeKey) :
    Daemon Unit :=
  Act.modify fun sys => { sys with inodes := sys.inodes.incLookup key }

end Daemon

end FuseOverlay
