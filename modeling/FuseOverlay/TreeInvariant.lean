import FuseOverlay.TreeRename

namespace FuseOverlay

/-!
# The tree invariant

Every request leaves a tree in which children and parent pointers agree,
whatever its system calls answer.  The remaining handlers only look at the
tree; with them a run of requests of any length keeps the tree right, and the
paths of its nodes are what `compute_path` says.
-/

open Act (Keeps Holds)

namespace Daemon

open Syscall Whiteout

variable {env : Env}

/-! ## Files and extended attributes -/

theorem calm_getFile
    (fh : Nat) :
    Calm (getFile fh) :=
  .bind (.gets _) fun found => .orFail found _

theorem calm_openNode
    (nodeId : NodeId)
    (flags : OpenFlags) :
    Calm (openNode env nodeId flags) := by
  refine .bind (.nodePath nodeId) fun path => ?_
  refine .bind (.node nodeId) fun found => ?_
  refine .bind (.lift _) fun _ => ?_
  exact .bind (.lift _) fun fd => .map (calm_allocFh fd)

theorem calm_open
    (ino : UInt64)
    (flags : OpenFlags) :
    Calm («open» env ino flags) := by
  refine .bind (calm_resolveNode ino) fun nodeId => ?_
  refine .bind (.node nodeId) fun found => ?_
  exact .bind (.runIf (calm_getNodeUp nodeId)) fun _ =>
    calm_openNode nodeId flags

theorem calm_read
    (fh offset size : Nat) :
    Calm (read fh offset size) :=
  .bind (calm_getFile fh) fun _ => .map (.lift _)

theorem calm_write
    (fh offset : Nat)
    (bytes : List UInt8)
    (writeCache : Bool) :
    Calm (write fh offset bytes writeCache) :=
  .bind (calm_getFile fh) fun _ => .bind (.lift _) fun _ => .pure _

theorem calm_release
    (fh : Nat) :
    Calm (release fh) :=
  .bind (.apart (fun _ => rfl) (fun _ => rfl) fun _ _ _ holds => holds)
    fun _ => .pure _

theorem calm_fsync
    (fh : Nat) :
    Calm (fsync env fh) := by
  refine .bind (.check _ _) fun _ => ?_
  refine .bind (calm_getFile fh) fun fd => ?_
  exact .bind (.lift _) fun _ => .pure _

theorem calm_fallocateFile
    (fh : Nat)
    (mode : UInt32)
    (offset length : Nat) :
    Calm (fallocateFile env fh mode offset length) :=
  .bind (calm_getFile fh) fun _ => .bind (.lift _) fun _ => .pure _

theorem calm_copyFileRange
    (fhIn offsetIn fhOut offsetOut len : Nat) :
    Calm (copyFileRange fhIn offsetIn fhOut offsetOut len) :=
  .bind (calm_getFile fhIn) fun _ =>
    .bind (calm_getFile fhOut) fun _ => .map (.lift _)

theorem calm_setxattr
    (ino : UInt64)
    (attr : Name)
    (value : List UInt8)
    (create replace : Bool) :
    Calm (setxattr env ino attr value create replace) := by
  refine .bind (.check _ _) fun _ => ?_
  refine .bind (.check _ _) fun _ => ?_
  refine .bind (.gets _) fun resolved => ?_
  refine .bind (.orFail _ _) fun nodeId => ?_
  refine .bind (calm_getNodeUp nodeId) fun _ => ?_
  refine .bind (.nodePath nodeId) fun path => ?_
  refine .bind (.node nodeId) fun found => ?_
  refine .bind (.lift _) fun layer => ?_
  refine .bind (.orFail _ _) fun encoded => ?_
  exact .bind (.lift _) fun _ => .pure _

theorem calm_removexattr
    (ino : UInt64)
    (attr : Name) :
    Calm (removexattr env ino attr) := by
  refine .bind (.check _ _) fun _ => ?_
  refine .bind (.check _ _) fun _ => ?_
  refine .bind (.gets _) fun resolved => ?_
  refine .bind (.orFail _ _) fun nodeId => ?_
  refine .bind (calm_getNodeUp nodeId) fun _ => ?_
  refine .bind (.nodePath nodeId) fun path => ?_
  refine .bind (.node nodeId) fun found => ?_
  refine .bind (.lift _) fun layer => ?_
  refine .bind (.orFail _ _) fun encoded => ?_
  exact .bind (.lift _) fun _ => .pure _

theorem calm_getxattrOf
    (ino : UInt64)
    (attr : Name)
    (size : Nat) :
    Calm (getxattrOf env ino attr size) := by
  refine .bind (.check _ _) fun _ => ?_
  refine .bind (.check _ _) fun _ => ?_
  refine .bind (calm_resolveNode ino) fun nodeId => ?_
  refine .bind (.nodePath nodeId) fun path => ?_
  refine .bind (.node nodeId) fun found => ?_
  refine .bind (.lift _) fun layer => ?_
  refine .bind (.orFail _ _) fun encoded => ?_
  exact .bind (.lift _) fun value => .pure _

theorem calm_listxattrOf
    (ino : UInt64)
    (size : Nat) :
    Calm (listxattrOf env ino size) := by
  refine .bind (.check _ _) fun _ => ?_
  refine .bind (calm_resolveNode ino) fun nodeId => ?_
  refine .bind (.nodePath nodeId) fun path => ?_
  refine .bind (.node nodeId) fun found => ?_
  refine .bind (.lift _) fun layer => ?_
  refine .bind (.lift _) fun names => ?_
  simp only
  split
  · exact .pure _
  · exact .bind (.check _ _) fun _ => .pure _

/-! ## Directories -/

theorem calm_selfEntry
    (label : Name)
    (nodeId : NodeId)
    (node : OvlNode)
    (path : Path) :
    Calm (selfEntry env label nodeId node path) := by
  refine .bind (.lift _) fun ino => ?_
  exact .bind (.attempt (.rplStatWithPath nodeId path)) fun _ => .pure _

theorem calm_childEntry
    (dirPath : Path)
    (entry : Name × NodeId) :
    Calm (childEntry env dirPath entry) := by
  refine .bind (.gets _) fun found => ?_
  cases found with
  | none =>
      exact .pure none
  | some child =>
      simp only
      split
      · exact .pure none
      · refine .bind (.lift _) fun ino => ?_
        exact .bind (.attempt (.rplStatWithPath _ _)) fun _ => .pure _

theorem calm_childEntries
    (dirPath : Path)
    (children : List (Name × NodeId)) :
    Calm (childEntries env dirPath children) := by
  induction children with
  | nil =>
      exact .pure []
  | cons entry rest inductionHypothesis =>
      refine .bind (calm_childEntry dirPath entry) fun first => ?_
      exact .bind inductionHypothesis fun others => .pure _

theorem calm_parentEntry
    (node : OvlNode)
    (self : HandleEntry) :
    Calm (parentEntry env node self) := by
  unfold parentEntry
  cases node.parent with
  | none =>
      exact .pure _
  | some parentId =>
      refine .bind (.gets _) fun found => ?_
      cases found with
      | none =>
          exact .pure _
      | some parent =>
          exact .bind (.nodePath parentId) fun path =>
            calm_selfEntry _ parentId parent path

theorem calm_loadedEntries
    (nodeId : NodeId)
    (found : Option OvlNode) :
    Calm (match found with
      | none => pure []
      | some node => do
          let dirPath ← nodePath nodeId
          let self ← selfEntry env dotName nodeId node dirPath
          let parent ← parentEntry env node self
          let children := (node.children.map FMap.toList).getD []
          let sorted := children.insertionSort fun first second =>
            nameLe first.1 second.1
          let rest ← childEntries env dirPath sorted
          pure (self :: parent :: rest) : Daemon (List HandleEntry)) := by
  cases found with
  | none =>
      exact .pure []
  | some node =>
      refine .bind (.nodePath nodeId) fun dirPath => ?_
      refine .bind (calm_selfEntry _ nodeId node dirPath) fun self => ?_
      refine .bind (calm_parentEntry node self) fun parent => ?_
      exact .bind (calm_childEntries dirPath _) fun rest => .pure _

/-- The name that a request for a new object looks up. -/
def asksFor : Request → Option (UInt64 × Name)
  | .mknod _ parent name _ _ | .mkdir _ parent name _
  | .symlink _ parent name _ | .create _ parent name _ _
  | .link _ parent name => some (parent, name)
  | _ => none

theorem calm_handleEntries
    (fh offset : Nat) :
    Calm (handleEntries fh offset) := by
  refine .bind (.gets _) fun found => ?_
  exact .bind (.orFail _ _) fun entries => .pure _

theorem calm_ioctlFlags
    (nodeId : NodeId)
    (isSet : Bool)
    (fh : Nat) :
    Calm (ioctlFlags env nodeId isSet fh) := by
  refine .bind (.runIf (calm_getNodeUp nodeId)) fun _ => ?_
  refine .bind (.nodePath nodeId) fun path => ?_
  refine .bind (.node nodeId) fun found => ?_
  refine .bind (.gets _) fun handle => ?_
  split
  · exact .bind (.lift _) fun _ => .pure _
  · refine .bind (.lift _) fun layer => ?_
    refine .bind (.lift _) fun fd => ?_
    exact .bind (.lift _) fun _ => .pure _

/-! ## Runs -/

/-- The requests that leave tree and table alone. -/
def leavesTree : Request → Bool
  | .setattr .. | .readlink .. | .open .. | .read .. | .write .. | .release ..
  | .fsync .. | .fallocate .. | .copyFileRange .. | .setxattr ..
  | .removexattr .. | .getxattr .. | .listxattr .. | .readdir ..
  | .releasedir .. => true
  | _ => false

/-- The requests that take nodes or entries away. -/
def removesNode : Request → Bool
  | .forget .. | .unlink .. | .rmdir .. | .rename .. => true
  | _ => false

theorem calm_handle
    {request : Request}
    (leaves : leavesTree request = true)
    (releases : ∀ fh, request ≠ .releasedir fh) :
    Calm (handle env request) := by
  cases request with
  | setattr ino change =>
      exact calm_setattr ino change
  | readlink ino =>
      exact calm_readlink ino
  | «open» ino flags =>
      exact calm_open ino flags
  | read fh offset size =>
      exact calm_read fh offset size
  | write fh offset bytes writeCache =>
      exact calm_write fh offset bytes writeCache
  | release fh =>
      exact calm_release fh
  | fsync fh =>
      exact calm_fsync fh
  | fallocate fh mode offset length =>
      exact calm_fallocateFile fh mode offset length
  | copyFileRange fhIn offsetIn fhOut offsetOut len =>
      exact calm_copyFileRange fhIn offsetIn fhOut offsetOut len
  | setxattr ino attr value create replace =>
      exact calm_setxattr ino attr value create replace
  | removexattr ino attr =>
      exact calm_removexattr ino attr
  | getxattr ino attr size =>
      exact calm_getxattrOf ino attr size
  | listxattr ino size =>
      exact calm_listxattrOf ino size
  | readdir fh offset fits =>
      exact .bind (calm_handleEntries fh offset) fun _ => .pure _
  | releasedir fh =>
      exact absurd rfl (releases fh)
  | _ =>
      cases leaves

/-- A new handle takes no other one's place. -/
theorem calm_storeDir
    (entries : List HandleEntry) :
    Calm fun sys =>
      (.ok (Reply.opened sys.nextDh),
        { sys with
          openDirs := sys.openDirs.set sys.nextDh entries
          nextDh := sys.nextDh + 1 }) := by
  refine .apart (fun _ => rfl) (fun _ => rfl) ?_
  rintro fh held sys ⟨given, stored⟩
  refine ⟨Nat.lt_succ_of_lt given, ?_⟩
  change (sys.openDirs.set sys.nextDh entries).get? fh = some held
  rw [FMap.get?_set_of_ne _ (Nat.ne_of_lt given)]
  exact stored

namespace FillRule

variable {kept : Sys → Prop} (rule : FillRule env kept)

include rule

theorem buildDirEntries
    (nodeId : NodeId) :
    Keeps kept (Daemon.buildDirEntries env nodeId) := by
  refine Keeps.bind (rule.reloadDir nodeId) fun _ => ?_
  exact Keeps.bind (Keeps.gets _) fun found =>
    rule.calm (calm_loadedEntries nodeId found)

theorem opendirOf
    (ino : UInt64) :
    Keeps kept (Daemon.opendirOf env ino) := by
  refine Keeps.bind (Keeps.runIf rule.ensureRootLoaded) fun _ => ?_
  refine Keeps.bind (Keeps.gets _) fun resolved => ?_
  refine Keeps.bind (Keeps.orFail _ _) fun nodeId => ?_
  refine Keeps.bind (Keeps.gets _) fun found => ?_
  refine Keeps.bind (Keeps.check _ _) fun _ => ?_
  refine Keeps.bind (rule.reloadDir nodeId) fun _ => ?_
  refine Keeps.bind (rule.buildDirEntries nodeId) fun entries => ?_
  exact rule.calm (calm_storeDir entries)

theorem plusIno
    (entry : HandleEntry) :
    Keeps kept (Daemon.plusIno env entry) := by
  unfold Daemon.plusIno
  cases entry.nodeId with
  | none =>
      exact Keeps.pure _
  | some nodeId =>
      refine Holds.getsBind fun found => ?_
      cases found with
      | none =>
          exact Holds.pure fun _ holds => holds.1
      | some node =>
          refine Holds.imp
            (?_ : Keeps (fun sys => kept sys ∧ sys.nodes.Live nodeId) _)
            (fun sys holds => ⟨holds.1, node, holds.2⟩)
            fun _ _ holds => holds.1
          refine Keeps.bind (rule.registers nodeId _ _ _) fun answer => ?_
          cases answer with
          | none =>
              exact Keeps.pure _
          | some fuseIno =>
              exact Keeps.bind (rule.countsWith _ nodeId) fun _ =>
                Keeps.pure _

theorem plusEntries
    (fits : Nat)
    (entries : List (HandleEntry × Nat)) :
    Keeps kept (Daemon.plusEntries env fits entries) := by
  induction entries generalizing fits with
  | nil =>
      cases fits <;> exact Keeps.pure []
  | cons entry rest inductionHypothesis =>
      cases fits with
      | zero =>
          exact Keeps.bind (rule.plusIno entry.1) fun _ => Keeps.pure []
      | succ fits =>
          refine Keeps.bind (rule.plusIno entry.1) fun fuseIno => ?_
          exact Keeps.bind (inductionHypothesis fits) fun others =>
            Keeps.pure _

theorem readdirplus
    (fh offset fits : Nat) :
    Keeps kept (Daemon.readdirplus env fh offset fits) :=
  Keeps.bind (rule.calm (calm_handleEntries fh offset)) fun entries =>
    Keeps.map (rule.plusEntries fits entries)

/-- `REFRESH_DIR` drops the children of a node and loads them again. -/
theorem refreshDir
    (nodeId : NodeId) :
    Keeps kept (Daemon.refreshDir env nodeId) := by
  refine Keeps.bind (rule.calm (.node nodeId)) fun found => ?_
  refine Keeps.bind (Keeps.check _ _) fun _ => ?_
  refine Keeps.bind (Keeps.gets _) fun path => ?_
  refine Keeps.bind (rule.clears nodeId) fun _ => ?_
  exact Keeps.bind (rule.loads nodeId path _) fun _ => Keeps.pure _

theorem ioctl
    (ino : UInt64)
    (fh : Nat)
    (compat : Bool)
    (command : IoctlCommand) :
    Keeps kept (Daemon.ioctl env ino fh compat command) := by
  refine Keeps.bind (Keeps.check _ _) fun _ => ?_
  refine Keeps.bind (rule.calm (calm_resolveNode ino)) fun nodeId => ?_
  cases command with
  | refreshDir =>
      exact rule.refreshDir nodeId
  | set =>
      exact rule.calm (calm_ioctlFlags nodeId true fh)
  | get =>
      exact rule.calm (calm_ioctlFlags nodeId false fh)
  | other =>
      exact Keeps.fail _

/-- One request that takes no node away. -/
theorem handle
    {ready : Sys → Prop}
    {request : Request}
    (grows : removesNode request = false)
    (looksUp :
      ∀ parent name, hasWhPrefix name = false →
        Keeps kept (doLookupFile env parent name))
    (asks :
      ∀ parent name, asksFor request = some (parent, name) →
        AskRule env kept ready parent name)
    (weaken : ∀ sys, ready sys → kept sys)
    (releases :
      ∀ fh, request = .releasedir fh → Keeps kept (releasedir fh)) :
    Holds ready (Daemon.handle env request) fun _ => kept := by
  have keeps :
      ∀ {act : Daemon Reply}, Keeps kept act →
        Holds ready act fun _ => kept :=
    fun keeps sys holds => keeps sys (weaken sys holds)
  by_cases released : ∃ fh, request = .releasedir fh
  · obtain ⟨fh, rfl⟩ := released
    exact keeps (releases fh rfl)
  by_cases leaves : leavesTree request = true
  · exact keeps (rule.calm (calm_handle leaves (not_exists.mp released)))
  cases request with
  | lookup parent name =>
      exact keeps (rule.lookup (looksUp parent name))
  | getattr ino =>
      exact keeps (rule.getattr ino)
  | mknod caller parent name mode rdev =>
      exact rule.mknod (asks parent name rfl) caller mode rdev
  | mkdir caller parent name mode =>
      exact rule.mkdir (asks parent name rfl) caller mode
  | symlink caller parent name target =>
      exact rule.symlink (asks parent name rfl) caller target
  | link ino newparent newname =>
      exact rule.link (asks newparent newname rfl) ino
  | create caller parent name mode flags =>
      exact rule.create (asks parent name rfl) caller mode flags
  | opendir ino =>
      exact keeps (rule.opendirOf ino)
  | readdirplus fh offset fits =>
      exact keeps (rule.readdirplus fh offset fits)
  | ioctl ino fh compat command =>
      exact keeps (rule.ioctl ino fh compat command)
  | forget ino nlookup =>
      cases grows
  | unlink parent name =>
      cases grows
  | rmdir parent name =>
      cases grows
  | rename parent name newparent newname flags =>
      cases grows
  | _ =>
      exact (leaves rfl).elim

end FillRule

theorem GrowthRule.handle
    {kept : Sys → Prop}
    (rule : GrowthRule env kept)
    {request : Request}
    (grows : removesNode request = false)
    (releases :
      ∀ fh, request = .releasedir fh → Keeps kept (releasedir fh)) :
    Keeps kept (Daemon.handle env request) :=
  rule.toFillRule.handle grows (fun parent name _ => rule.looksUp parent name)
    (fun parent name _ => rule.asks parent name) (fun _ holds => holds)
    releases

/-- One request keeps the tree right, with any reply. -/
theorem treeOk_handle
    (request : Request) :
    Keeps TreeOk (handle env request) := by
  cases grows : removesNode request with
  | false =>
      exact treeOk_growthRule.handle grows fun _ _ _ ok => ok
  | true =>
      cases request with
      | forget ino nlookup =>
          exact treeOk_forget ino nlookup
      | unlink parent name =>
          exact treeOk_doRm parent name false
      | rmdir parent name =>
          exact treeOk_doRm parent name true
      | rename parent name newparent newname flags =>
          exact treeOk_rename parent name newparent newname flags
      | _ =>
          cases grows

/-- A mount starts with its root node alone. -/
theorem mount_stored
    {env : Env}
    {disk : Disk}
    {id : NodeId}
    {node : OvlNode}
    (found : (Sys.mount env disk).nodes.get? id = some node) :
    id = rootId ∧ node = OvlNode.new [] 0 0 0 true := by
  change (NodeArena.new.insert (OvlNode.new [] 0 0 0 true)).2.get? id =
    some node at found
  rw [NodeArena.get?_insert] at found
  split at found
  · next same => exact ⟨same, (Option.some.inj found).symm⟩
  · cases found

theorem treeOk_mount
    (env : Env)
    (disk : Disk) :
    TreeOk (Sys.mount env disk) := by
  have noEntry :
      ∀ {parent name child},
        ¬ (Sys.mount env disk).nodes.Entry parent name child := by
    rintro parent name child ⟨node, found, isChild⟩
    obtain ⟨-, rfl⟩ := mount_stored found
    cases isChild
  refine ⟨⟨?_, ?_, ?_, ?_, ?_⟩, ?_⟩
  · exact ⟨OvlNode.new [] 0 0 0 true, rfl, rfl, rfl⟩
  · exact fun entry => (noEntry entry).elim
  · exact fun entry => (noEntry entry).elim
  · rintro id ⟨node, found⟩
    rw [(@mount_stored env disk _ _ found).1]
    exact Nat.lt_succ_self _
  · exact fun entry => (noEntry entry).elim
  · intro key entry id found
    cases found

theorem treeOk_run
    {sys : Sys}
    (ok : TreeOk sys)
    (calls : List Call) :
    TreeOk (sys.run env calls) := by
  induction calls generalizing sys with
  | nil =>
      exact ok
  | cons call rest inductionHypothesis =>
      apply inductionHypothesis
      exact treeOk_handle call.request (sys.begin call) ok

end Daemon

namespace NodeArena

/-- The tree that every node reached from the root belongs to. -/
structure TreeInvariant (arena : NodeArena) : Prop where
  linked :
    ∀ {path parent name child},
      arena.Walk path parent → arena.Entry parent name child →
      ∃ node, arena.get? child = some node ∧ node.parent = some parent ∧
        node.name = name
  single :
    ∀ {path path' parent parent' name name' child},
      arena.Walk path parent → arena.Entry parent name child →
      arena.Walk path' parent' → arena.Entry parent' name' child →
      parent = parent' ∧ name = name'
  chains :
    ∀ {path id}, arena.Walk path id → arena.ParentChain id path.length
  paths :
    ∀ {path id}, arena.Walk path id →
      computePath arena id = renderPath path

theorem Tree.treeInvariant
    {arena : NodeArena}
    (tree : arena.Tree) :
    arena.TreeInvariant where
  linked := by
    intro path parent name child walk entry
    obtain ⟨node, stored⟩ := walk.live_child tree entry
    exact ⟨node, stored, tree.linked entry stored (by simp)⟩
  single := by
    intro path path' parent parent' name name' child walk entry _ entry'
    have live := walk.live_child tree entry
    exact tree.entry_inj entry entry' live (by simp)
  chains := fun walk => walk.parentChain tree
  paths := fun walk => walk.computePath_eq tree.linkedTree

end NodeArena

/--
After any run of requests, failed ones included, the nodes reached from the
root form a tree whose paths are the paths of `compute_path`.
-/
theorem Sys.tree_invariant
    (env : Env)
    (disk : Disk)
    (calls : List Call) :
    ((Sys.mount env disk).run env calls).nodes.TreeInvariant := by
  have ok : Daemon.TreeOk ((Sys.mount env disk).run env calls) :=
    Daemon.treeOk_run (Daemon.treeOk_mount env disk) calls
  exact ok.tree.treeInvariant

end FuseOverlay
