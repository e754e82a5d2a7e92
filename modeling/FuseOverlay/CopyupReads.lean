import FuseOverlay.CopyupNodes
import FuseOverlay.ConfinedRuns

namespace FuseOverlay

/-!
# What a copied file reads

A file of a lower layer that is opened for writing is copied first, and the new
handle is on the copy.  Until it is written to, it reads what the lower layer
has.
-/

open Syscall Disk

/-- A state in which the node at a path can be copied: no system call fails by
itself, the work directory has room, and nothing but directories is on the way
on the upper layer. -/
structure Sys.Copyable
    (sys : Sys)
    (path : Path) : Prop where
  tree : Daemon.TreeOk sys
  faults : sys.os.faults = []
  apart : sys.os.disk.DirsApart
  vacant : WorkVacant sys.os.disk sys.os.wdCounter
  straight : sys.os.disk.Straight (.layer 0) path.dropLast
  proper : Proper path

namespace Daemon

variable {env : Env} {sys later : Sys} {path : Path} {id : NodeId}
  {layerIdx : Nat}

theorem ascending_start
    (copyable : sys.Copyable path) :
    Ascending sys.os.disk path sys.nodes sys :=
  ⟨⟨copyable.faults, .refl copyable.apart, copyable.vacant,
    copyable.straight⟩, .refl _⟩

/-- `get_node_up` on a node of a lower layer. -/
theorem getNodeUp_returns
    (copyable : sys.Copyable path)
    (walk : sys.nodes.Walk path id)
    (layer : sys.nodes.layerAt id = some layerIdx)
    (isLow : layerIdx ≠ 0)
    (returned : getNodeUp env id sys = (.ok (), later)) :
    Ascending sys.os.disk path sys.nodes later ∧
      later.nodes.layerAt id = some 0 ∧
      CopiedUp env sys.os.disk later.os.disk layerIdx path := by
  unfold getNodeUp at returned
  obtain ⟨_, checked, ran, rest⟩ :=
    Act.bind_returns (congrArg Prod.fst returned)
  obtain ⟨-, still⟩ := Act.check_returns ran
  rw [rest, still] at returned
  obtain ⟨found, looked, ran, rest⟩ :=
    Act.bind_returns (congrArg Prod.fst returned)
  obtain ⟨stored, still⟩ := node_returns ran
  have isLayer : found.layerIdx = layerIdx := by
    unfold NodeArena.layerAt at layer
    rw [stored] at layer
    exact Option.some.inj layer
  rw [rest, still, isLayer, if_neg isLow] at returned
  exact copyup_returns copyable.tree.tree copyable.proper walk
    (ascending_start copyable) layer isLow returned

end Daemon

theorem Disk.OneName.dirsApart
    {disk : Disk}
    (oneName : disk.OneName) :
    disk.DirsApart := by
  intro low high id obj isLow isHigh lowNamed highNamed
  rw [oneName low high id lowNamed highNamed] at isLow
  exact absurd isLow isHigh

namespace Sample

/-- A file in a directory of the lower layer, both looked up. -/
def foundLow : Sys :=
  .run (env 1)
    (.mount (env 1) (disk 1 [(⟨.layer 1, [ascii "d"]⟩, obj .dir [] 12),
      (⟨.layer 1, [ascii "d", ascii "f"]⟩, obj .reg (ascii "text") 13)]))
    [call (.lookup 1 (ascii "d")), call (.lookup 12 (ascii "f"))]

/-- The path of the file. -/
def lowPath : Path :=
  [ascii "d", ascii "f"]

theorem walk_foundLow :
    foundLow.nodes.Walk lowPath 3 := by
  have entry (parent child : NodeId) (name : Name)
      (found : (foundLow.nodes.get? parent).bind
        (OvlNode.getChild · name) = some child) :
      foundLow.nodes.Entry parent name child := by
    obtain ⟨node, stored, isChild⟩ := Option.bind_eq_some_iff.mp found
    exact ⟨node, stored, isChild⟩
  exact .step (.step .root (entry 1 2 (ascii "d") (by decide +kernel)))
    (entry 2 3 (ascii "f") (by decide +kernel))

theorem treeOk_foundLow :
    Daemon.TreeOk foundLow :=
  Daemon.treeOk_run (Daemon.treeOk_mount _ _) _

theorem copyable_foundLow :
    foundLow.Copyable lowPath := by
  have checked :
      ∀ entry ∈ foundLow.os.disk.names.toList,
        (entry.1.root = .workdir → entry.1.path = []) ∧
          ∀ other ∈ foundLow.os.disk.names.toList,
            entry.2 = other.2 → entry.1 = other.1 := by
    decide +kernel
  have oneName : foundLow.os.disk.OneName := by
    intro one other id named otherNamed
    exact (checked (one, id) (FMap.mem_toList_iff.mpr named)).2 (other, id)
      (FMap.mem_toList_iff.mpr otherNamed) rfl
  have free : foundLow.os.disk.kindAt ⟨.layer 0, [ascii "d"]⟩ = none := by
    decide +kernel
  have noFaults : foundLow.os.faults = [] := by
    decide +kernel
  refine ⟨treeOk_foundLow, noFaults, oneName.dirsApart, ?_, ?_, ?_⟩
  · intro later _ loc temp
    cases named : foundLow.os.disk.names.get? loc with
    | none =>
        rfl
    | some id =>
        obtain ⟨root, starts⟩ := Loc.isUnder_iff.mp temp
        have empty := (checked (loc, id) (FMap.mem_toList_iff.mpr named)).1 root
        rw [empty] at starts
        simp [workRoot, Loc.child] at starts
  · intro parents name isPrefix kind found
    have same : parents ++ [name] = [ascii "d"] :=
      isPrefix.eq_of_length_le (by simp [lowPath])
    rw [same, free] at found
    cases found
  · unfold Proper
    decide

/-- The file was copied. -/
def copiedLow : Sys :=
  (Daemon.getNodeUp (env 1) 3 foundLow).2

theorem getNodeUp_foundLow :
    Daemon.getNodeUp (env 1) 3 foundLow = (.ok (), copiedLow) := by
  have succeeds : (Daemon.getNodeUp (env 1) 3 foundLow).1 = .ok () := by
    decide +kernel
  unfold copiedLow
  rw [← succeeds]

theorem layerAt_foundLow :
    foundLow.nodes.layerAt 3 = some 1 := by
  decide +kernel

end Sample

namespace Daemon

variable {env : Env} {sys later : Sys} {path : Path} {id : NodeId}
  {layerIdx : Nat}

/-! ## Opening the copy -/

theorem plain_adjustFlags
    {flags : OpenFlags}
    (plain : PlainFlags flags) :
    PlainFlags (adjustFlags env flags) ∧
      (adjustFlags env flags).noFollow = true := by
  unfold adjustFlags
  split
  · exact ⟨⟨plain.creat, plain.trunc, plain.pathOnly⟩, rfl⟩
  · exact ⟨⟨plain.creat, plain.trunc, plain.pathOnly⟩, rfl⟩

/-- A node that came to the upper layer is opened there. -/
theorem openNode_upper
    {shape : NodeArena}
    {start : Disk}
    (tree : shape.Tree)
    (proper : Proper path)
    (walk : shape.Walk path id)
    (ascending : Ascending start path shape sys)
    (layer : sys.nodes.layerAt id = some 0)
    {objId : ObjId}
    {copy : Obj}
    (owns : sys.os.disk.Owns ⟨.layer 0, path⟩ objId copy)
    (reached : Reached sys.os.disk path)
    {flags : OpenFlags}
    (plain : PlainFlags flags)
    {fh : Nat}
    (returned : openNode env id flags sys = (.ok (.opened fh), later)) :
    ∃ fd, later.openFiles.get? fh = some fd ∧ fd.obj = objId ∧
      later.os.disk = sys.os.disk ∧ later.os.faults = sys.os.faults := by
  unfold openNode nodePath at returned
  rw [Act.bind_ok (Act.gets_apply _ sys), ascending.nodeParts_eq tree walk]
    at returned
  obtain ⟨found, looked, ran, rest⟩ :=
    Act.bind_returns (congrArg Prod.fst returned)
  obtain ⟨stored, still⟩ := node_returns ran
  have isLayer : found.layerIdx = 0 := by
    unfold NodeArena.layerAt at layer
    rw [stored] at layer
    exact Option.some.inj layer
  rw [rest, still, isLayer] at returned
  obtain ⟨_, layered, ran, rest⟩ :=
    Act.bind_returns (congrArg Prod.fst returned)
  obtain ⟨-, still⟩ := layer_returns ran
  rw [rest, still] at returned
  obtain ⟨fd, opened, ran, rest⟩ :=
    Act.bind_returns (congrArg Prod.fst returned)
  obtain ⟨ran, still⟩ := lift_returns ran
  rw [rest] at returned
  cases returned
  obtain ⟨plain, noFollow⟩ := @plain_adjustFlags env flags plain
  obtain ⟨sameDisk, reaches⟩ := safeOpenat_plain plain ran
  obtain ⟨loc, located, named, -⟩ := reaches fd rfl
  obtain ⟨inos, stillOs⟩ := @safeOpenat_still env path ⟨.layer 0, []⟩
    (adjustFlags env flags) sys.os ascending.climbing.faults plain 0o700
  rw [ran] at stillOs
  have sameFaults : opened.os.faults = sys.os.faults := by
    rw [show opened.os = _ from stillOs]
  have leads := (leadsTo_copy proper owns reached).1
  simp only [noFollow, ↓reduceIte] at located leads
  cases leads.symm.trans located
  refine ⟨fd, ?_, Option.some.inj (named.symm.trans owns.name), sameDisk,
    sameFaults⟩
  change (opened.openFiles.set opened.nextFh fd).get? opened.nextFh = some fd
  rw [FMap.get?_set, if_pos rfl]

/-- `open` for writing on a file of a lower layer. -/
theorem open_returns
    (copyable : sys.Copyable path)
    (walk : sys.nodes.Walk path id)
    {ino : UInt64}
    (resolves : lookupNodeId sys.nodes sys.inodes ino = some id)
    (layer : sys.nodes.layerAt id = some layerIdx)
    (isLow : layerIdx ≠ 0)
    (low : env.layers[layerIdx]?.map (·.low) = some true)
    {flags : OpenFlags}
    (writes : needsWrite flags = true)
    (plain : PlainFlags flags)
    {fh : Nat}
    (returned : «open» env ino flags sys = (.ok (.opened fh), later)) :
    ∃ loc src fd copy, LeadsTo sys.os.disk layerIdx path true loc src ∧
      CopyOf env src copy ∧ later.openFiles.get? fh = some fd ∧
      later.os.disk.objs.get? fd.obj = some copy ∧ later.os.faults = [] := by
  unfold «open» at returned
  obtain ⟨resolved, looked, ran, rest⟩ :=
    Act.bind_returns (congrArg Prod.fst returned)
  obtain ⟨named, -, still⟩ := resolveNode_returns ran
  cases resolves.symm.trans named
  rw [rest, still] at returned
  obtain ⟨found, again, ran, rest⟩ :=
    Act.bind_returns (congrArg Prod.fst returned)
  obtain ⟨stored, still⟩ := node_returns ran
  have isLayer : found.layerIdx = layerIdx := by
    unfold NodeArena.layerAt at layer
    rw [stored] at layer
    exact Option.some.inj layer
  rw [rest, still, isLayer] at returned
  simp only [low, writes, Option.getD_some, Bool.and_self] at returned
  obtain ⟨_, copied, ran, rest⟩ :=
    Act.bind_returns (congrArg Prod.fst returned)
  obtain ⟨ascending, isUpper, loc, src, objId, copy, leads, isCopy, owns,
    reached⟩ := getNodeUp_returns copyable walk layer isLow ran
  rw [rest] at returned
  obtain ⟨fd, opened, rfl, sameDisk, sameFaults⟩ :=
    openNode_upper copyable.tree.tree copyable.proper walk ascending isUpper
      owns reached plain returned
  refine ⟨loc, src, fd, copy, leads, isCopy, opened, ?_,
    sameFaults.trans ascending.climbing.faults⟩
  rw [sameDisk]
  exact owns.stored

end Daemon

namespace Sample

/-- The file is opened for reading and writing. -/
def openWriting : OpenFlags :=
  { OpenFlags.rdonly with write := true }

/-- The state after the file was opened. -/
def openedLow : Sys :=
  (Daemon.«open» (env 1) 13 openWriting foundLow).2

theorem open_foundLow :
    Daemon.«open» (env 1) 13 openWriting foundLow =
      (.ok (.opened 1), openedLow) := by
  have succeeds :
      (Daemon.«open» (env 1) 13 openWriting foundLow).1 = .ok (.opened 1) := by
    decide +kernel
  unfold openedLow
  rw [← succeeds]

theorem read_openedLow :
    Daemon.read 1 1 2 openedLow =
      (.ok (.data (ascii "ex")), (Daemon.read 1 1 2 openedLow).2) := by
  have succeeds :
      (Daemon.read 1 1 2 openedLow).1 = .ok (.data (ascii "ex")) := by
    decide +kernel
  rw [← succeeds]

end Sample

end FuseOverlay
