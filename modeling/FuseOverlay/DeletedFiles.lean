import FuseOverlay.Sample
import FuseOverlay.TreeInvariant

namespace FuseOverlay

/-!
# Files without a name

A number stands for the live nodes that its entry lists.  `unlink`, and a
rename over a file, end with the node of the lost name out of the arena, so the
hidden branches of the stat code are never reached: once the last node of a
number is gone, every request on the number fails at `lookup_node_id`.
-/

open Act (Keeps Holds)

namespace Daemon

open Syscall Whiteout

variable {env : Env}

/-! ## The node under a name -/

/-- The number of the directory and the name lead to the live node. -/
structure Hung
    (parent : UInt64)
    (above : NodeId)
    (name : Name)
    (id : NodeId)
    (sys : Sys) : Prop where
  ok : TreeOk sys
  resolved : sys.forest.resolve parent = some above
  entry : sys.nodes.Entry above name id
  live : sys.nodes.Live id

section Hung

variable {parent : UInt64} {above id : NodeId} {name : Name}

theorem Hung.grow
    {sys now : Sys}
    (hung : Hung parent above name id sys)
    (sound : Forest.Sound sys.forest now.forest) :
    Hung parent above name id now where
  ok := sound.ok
  resolved := sound.grown.steady hung.resolved hung.entry.dirNode
  entry := sound.grown.entries hung.entry
  live := sound.grown.live hung.live

theorem Still.hung
    {α : Type}
    {act : Daemon α}
    (still : Still act) :
    Keeps (Hung parent above name id) act :=
  fun sys hung => hung.grow (still sys.forest sys (.refl hung.ok)).1

theorem Calm.hung
    {α : Type}
    {act : Daemon α}
    (calm : Calm act) :
    Keeps (Hung parent above name id) act :=
  (Still.of_calm calm).hung

theorem hung_doLookupFile
    (ino : UInt64)
    (label : Name) :
    Keeps (Hung parent above name id) (doLookupFile env ino label) := by
  intro sys hung
  have looked := @lookedUp_doLookupFile env sys.forest hung.ok ino label sys rfl
  exact hung.grow (looked.sound hung.ok)

/-- The lookup of a cached name answers from the cache. -/
theorem doLookupFile_hung
    {sys : Sys}
    (hung : Hung parent above name id sys) :
    doLookupFile env parent name sys = (.ok (some id), sys) :=
  doLookupFile_cached hung.resolved hung.entry

/-- A sequence that starts with the lookup of the cached name. -/
theorem lookup_bind
    {α : Type}
    {post : Except Errno α → Sys → Prop}
    {next : Option NodeId → Daemon α}
    (found : Holds (Hung parent above name id) (next (some id)) post) :
    Holds (Hung parent above name id) (doLookupFile env parent name >>= next)
      post := by
  intro sys hung
  rw [Act.bind_ok (doLookupFile_hung hung)]
  exact found sys hung

theorem present_hung
    {α : Type}
    {post : Except Errno α → Sys → Prop}
    {next : Bool → Daemon α}
    (present : Holds (Hung parent above name id) (next true) post) :
    Holds (Hung parent above name id) (isPresent (some id) >>= next) post := by
  intro sys hung
  rw [Act.bind_ok (isPresent_live hung.live)]
  exact present sys hung

theorem resolve_hung
    {α : Type}
    {post : Except Errno α → Sys → Prop}
    {errno : Errno}
    {next : NodeId → Daemon α}
    (found : Holds (Hung parent above name id) (next above) post) :
    Holds (Hung parent above name id) (do
      let resolved ← resolveIno parent
      let id ← Act.orFail resolved errno
      next id) post := by
  intro sys hung
  rw [Act.bind_ok (show resolveIno parent sys = (.ok (some above), sys) by
    rw [← hung.resolved]; rfl)]
  exact found sys hung

end Hung

/-! ## Removal -/

/-- If the action succeeds, the node has left the arena. -/
def Gone
    {α : Type}
    (id : NodeId)
    (outcome : Except Errno α)
    (sys : Sys) : Prop :=
  ∀ value, outcome = .ok value → ¬ sys.nodes.Live id

theorem gone_error
    {α : Type}
    {id : NodeId}
    {pre : Sys → Prop}
    (errno : Errno)
    (sys : Sys)
    (_ : pre sys) :
    Gone id (Except.error errno : Except Errno α) sys := by
  intro value same
  cases same

theorem Calm.dead
    {α : Type}
    {act : Daemon α}
    {id : NodeId}
    (calm : Calm act) :
    Keeps (fun sys => ¬ sys.nodes.Live id) act := by
  intro sys dead live
  obtain ⟨same, -⟩ := calm sys.forest sys ⟨.refl _, rfl⟩
  exact dead (same.symm.live live)

theorem dead_modifyNode
    {id : NodeId}
    (changed : NodeId)
    (change : OvlNode → OvlNode) :
    Keeps (fun sys => ¬ sys.nodes.Live id) (modifyNode changed change) :=
  fun _ dead live => dead (NodeArena.live_modify.mp live)

theorem dead_removeNode
    {id : NodeId} :
    Holds (fun _ => True) (removeNode id)
      fun _ sys => ¬ sys.nodes.Live id := by
  refine Holds.getsBind fun found => ?_
  cases found with
  | none =>
      rintro sys ⟨-, missing⟩ ⟨node, stored⟩
      change sys.nodes.get? id = some node at stored
      rw [missing] at stored
      cases stored
  | some node =>
      refine Holds.modifyBind _ ?_ (calm_dropNode node).dead
      exact fun _ _ live => (NodeArena.live_remove.mp live).1 rfl

theorem entry_hideNode
    {above id : NodeId}
    {name : Name}
    (hiddenId : NodeId)
    (unlinkSrc : Bool) :
    Keeps (fun sys => sys.nodes.Entry above name id)
      (hideNode env hiddenId unlinkSrc) := by
  have calm :
      ∀ {α : Type} {act : Daemon α}, Calm act →
        Keeps (fun sys => sys.nodes.Entry above name id) act := by
    intro α act calm sys entry
    obtain ⟨same, -⟩ := calm sys.forest sys ⟨.refl _, rfl⟩
    exact same.entry entry
  refine Keeps.bind (calm (.check _ _)) fun _ => ?_
  refine Keeps.bind (calm (.lift _)) fun wd => ?_
  refine Keeps.bind (calm (.runIf ?_)) fun _ => ?_
  · refine .bind (.nodePath hiddenId) fun path => ?_
    refine .bind (.node hiddenId) fun found => ?_
    refine .bind (.gets _) fun whited => ?_
    exact .bind (.gets _) fun parentPath => .lift _
  · refine Keeps.bind (calm (.node hiddenId)) fun found => ?_
    refine Keeps.bind ?_ fun _ => ?_
    · intro sys entry
      have kept :
          (sys.nodes.modify hiddenId (hiddenAs wd)).Entry above name id ↔
            sys.nodes.Entry above name id :=
        NodeArena.entry_modify_of_children fun _ _ => rfl
      exact kept.mpr entry
    · cases found.parent with
      | none =>
          exact Keeps.pure ()
      | some parentId =>
          exact calm (.modifyNode parentId (by simp) (by simp))

theorem dead_removeFromTree
    {above id : NodeId}
    {name : Name} :
    Holds (fun sys => sys.nodes.Entry above name id)
      (removeFromTree above name)
      fun _ sys => ¬ sys.nodes.Live id := by
  refine Holds.getsBind fun parent => ?_
  rintro sys ⟨⟨node, stored, isChild⟩, read⟩
  rw [stored] at read
  subst read
  simp only [Option.bind_some, isChild]
  refine (?_ : Holds (fun _ => True) _ fun _ now => ¬ now.nodes.Live id)
    sys trivial
  refine Holds.modifyBind (fun _ => True) (fun _ _ => trivial) ?_
  refine Holds.getsBind fun found => ?_
  cases found with
  | none =>
      rintro now ⟨-, missing⟩ ⟨node, stored⟩
      change now.nodes.get? id = some node at stored
      rw [missing] at stored
      cases stored
  | some removed =>
      exact Holds.modifyBind (fun _ => True) (fun _ _ => trivial)
        dead_removeNode

/-- `unlink` takes the node of the name out of the arena. -/
theorem gone_unlink
    {parent : UInt64}
    {above id : NodeId}
    {name : Name} :
    Holds (Hung parent above name id) (unlink env parent name) (Gone id) := by
  refine lookup_bind ?_
  refine presentOr_bind (fun nodeId isFound => ?_) (gone_error _)
  cases isFound
  refine Holds.imp ?_ (fun _ holds => holds.1) fun _ _ gone => gone
  refine Holds.bind (still_checkEmpty id).runIf.hung (fun _ => ?_) gone_error
  refine Holds.bind (calm_getNodeUp id).hung (fun _ => ?_) gone_error
  refine resolve_hung ?_
  refine Holds.bind (calm_getNodeUp above).hung (fun _ => ?_) gone_error
  refine Holds.bind (Holds.imp (entry_hideNode id true)
    (fun _ hung => hung.entry) fun _ _ entry => entry) (fun _ => ?_) gone_error
  refine Holds.bind dead_removeFromTree (fun _ => ?_) gone_error
  exact Holds.pure fun _ dead _ _ => dead

theorem dead_dropReplaced
    {newparent : UInt64}
    {above id : NodeId}
    {newname : Name} :
    Holds (Hung newparent above newname id)
      (dropReplaced env newparent above newname) (Gone id) := by
  refine lookup_bind ?_
  refine present_hung ?_
  refine node_bind (fun dst => ?_) (gone_error _)
  refine Holds.modifyBind (fun _ => True) (fun _ _ => trivial) ?_
  refine Holds.modifyBind (fun _ => True) (fun _ _ => trivial) ?_
  exact Holds.imp dead_removeNode (fun _ _ => trivial) fun _ _ dead _ _ => dead

theorem dead_moveNode
    {id : NodeId}
    (sparentId dparentId : NodeId)
    (name newname : Name) :
    Keeps (fun sys => ¬ sys.nodes.Live id)
      (moveNode sparentId dparentId name newname) := by
  refine Keeps.bind ?_ fun taken => ?_
  · refine Keeps.bind (Keeps.gets _) fun parent => ?_
    exact Keeps.bind (dead_modifyNode _ _) fun _ => Keeps.pure _
  · cases taken with
    | none =>
        exact Keeps.pure ()
    | some childId =>
        exact Keeps.bind (dead_modifyNode _ _) fun _ => dead_modifyNode _ _

theorem gone_renameInTree
    {newparent : UInt64}
    {above id : NodeId}
    {newname : Name}
    (sparent : NodeId)
    (name : Name)
    {flags : UInt32}
    (plain : flags &&& 2 = 0) :
    Holds (Hung newparent above newname id)
      (renameInTree env newparent sparent above name newname flags)
      (Gone id) := by
  unfold renameInTree
  simp only [plain, ne_eq, not_true_eq_false, if_false]
  refine Holds.bind (Calm.modifyNode sparent (by simp) (by simp)).hung (fun _ => ?_)
    gone_error
  refine Holds.bind (Calm.modifyNode above (by simp) (by simp)).hung (fun _ => ?_)
    gone_error
  refine Holds.bind dead_dropReplaced (fun _ => ?_) fun _ _ _ _ same =>
    (nomatch same)
  have moved :
      Keeps (fun sys => ¬ sys.nodes.Live id)
        (moveNode sparent above name newname) :=
    dead_moveNode sparent above name newname
  exact fun sys gone _ _ => moved sys (gone () rfl)

theorem hung_prepareDestination
    {newparent : UInt64}
    {above id : NodeId}
    {newname : Name}
    (flags : UInt32) :
    Keeps (Hung newparent above newname id)
      (prepareDestination env newparent newname flags) := by
  refine Keeps.bind (hung_doLookupFile _ _) fun found => ?_
  refine Keeps.bind (calm_isPresent found).hung fun present => ?_
  cases found with
  | none =>
      exact Keeps.pure ()
  | some dstId =>
      cases present with
      | false =>
          exact Keeps.pure ()
      | true =>
          refine Keeps.bind (Keeps.check _ _) fun _ => ?_
          exact (still_clearDestination dstId).runIf.hung

/-- A rename takes the node it replaces out of the arena. -/
theorem gone_rename
    {newparent : UInt64}
    {above id : NodeId}
    {newname : Name}
    (parent : UInt64)
    (name : Name)
    {flags : UInt32}
    (plain : flags &&& 2 = 0) :
    Holds (Hung newparent above newname id)
      (rename env parent name newparent newname flags) (Gone id) := by
  refine Holds.bind (Calm.lift _).hung (fun _ => ?_) gone_error
  refine Holds.bind (hung_doLookupFile _ _) (fun found => ?_) gone_error
  refine presentOr_bind (fun srcId _ => ?_) (gone_error _)
  refine Holds.imp ?_ (fun _ holds => holds.1) fun _ _ gone => gone
  refine Holds.bind (still_checkMovable srcId).hung (fun _ => ?_) gone_error
  refine Holds.bind (calm_getNodeUp srcId).hung (fun _ => ?_) gone_error
  refine Holds.bind (Calm.gets _).hung (fun resolved => ?_) gone_error
  refine Holds.orFailBind (fun sparent _ => ?_) (gone_error _)
  refine Holds.bind (calm_getNodeUp sparent).hung (fun _ => ?_) gone_error
  refine resolve_hung ?_
  refine Holds.bind (calm_getNodeUp above).hung (fun _ => ?_) gone_error
  refine Holds.bind (Calm.nodePath srcId).hung (fun srcPath => ?_) gone_error
  refine Holds.bind (Calm.nodePath above).hung (fun path => ?_) gone_error
  refine Holds.bind (hung_prepareDestination flags) (fun _ => ?_) gone_error
  refine Holds.bind (Calm.gets _).hung (fun src => ?_) gone_error
  refine Holds.bind (Calm.hung (.runIf ?_)) (fun _ => ?_) gone_error
  · exact .bind (.lift _) fun _ => .pure ()
  refine Holds.bind (Calm.lift _).hung (fun _ => ?_) gone_error
  refine Holds.bind (Calm.gets _).hung (fun moved => ?_) gone_error
  refine Holds.bind (gone_renameInTree sparent name plain) (fun _ => ?_)
    fun _ _ _ _ same => (nomatch same)
  refine Holds.imp ?_ (fun _ gone => gone () rfl) fun _ _ gone => gone
  refine Holds.bind (Calm.dead (.runIf ?_)) (fun _ => ?_) gone_error
  · refine .bind (.nodePath sparent) fun sparentPath => ?_
    exact .bind (.lift _) fun _ => .pure ()
  · exact Holds.pure fun _ dead _ _ => dead

/-! ## Requests on the number -/

theorem resolveNode_error
    {ino : UInt64}
    {sys : Sys}
    (unresolved : sys.forest.resolve ino = none) :
    resolveNode ino sys = (.error .ENOENT, sys) := by
  unfold resolveNode
  rw [Act.bind_ok (show resolveIno ino sys = (.ok none, sys) by
    rw [← unresolved]; rfl)]
  rfl

end Daemon

/-- The request asks for the file of the number, and nothing refuses it. -/
def Request.Uses
    (env : Env)
    (ino : UInt64) :
    Request → Prop
  | .getattr number => number = ino
  | .setattr number _ => number = ino
  | .open number _ => number = ino
  | .getxattr number attr _ =>
      number = ino ∧ Override.isUtf8 attr = true ∧
        env.config.disableXattrs = false
  | _ => False

namespace Daemon

variable {env : Env}

/-- A number without live node has no file. -/
theorem handle_unresolved
    {ino : UInt64}
    {sys : Sys}
    {request : Request}
    (notRoot : ino ≠ rootIno)
    (unresolved : sys.forest.resolve ino = none)
    (uses : request.Uses env ino) :
    (handle env request sys).1 = .error .ENOENT := by
  have failed := resolveNode_error unresolved
  cases request with
  | getattr number =>
      cases uses
      change (getattr env ino sys).1 = _
      unfold getattr
      rw [if_neg notRoot, Act.bind_error failed]
  | setattr number change =>
      cases uses
      change (setattr env ino change sys).1 = _
      unfold setattr
      rw [Act.bind_error failed]
  | «open» number flags =>
      cases uses
      change («open» env ino flags sys).1 = _
      unfold «open»
      rw [Act.bind_error failed]
  | getxattr number attr size =>
      obtain ⟨rfl, utf8, enabled⟩ := uses
      change (getxattrOf env number attr size sys).1 = _
      unfold getxattrOf
      rw [Act.bind_ok (Act.check_true utf8 _ sys),
        Act.bind_ok (Act.check_true (by rw [enabled]; rfl) _ sys),
        Act.bind_error failed]
  | _ =>
      exact uses.elim

end Daemon

/-! ## The last name -/

/-- The request takes the name of the node away. -/
inductive Forest.Takes
    (forest : Forest)
    (id : NodeId) :
    Request → Prop where
  | unlinked
      {parent : UInt64}
      {above : NodeId}
      {name : Name} :
      forest.resolve parent = some above →
      forest.nodes.Entry above name id →
      Takes forest id (.unlink parent name)
  | replaced
      {parent newparent : UInt64}
      {above : NodeId}
      {name newname : Name}
      {flags : UInt32} :
      flags &&& 2 = 0 →
      (∀ source, forest.resolve parent = some source →
        ¬ forest.nodes.Entry source name id) →
      forest.resolve newparent = some above →
      forest.nodes.Entry above newname id →
      Takes forest id (.rename parent name newparent newname flags)

/-- The request removes the last name of the number, a file. -/
structure Sys.RemovesLast
    (env : Env)
    (sys : Sys)
    (call : Call)
    (ino : UInt64)
    (id : NodeId) : Prop where
  named : sys.forest.resolve ino = some id
  isFile : ¬ sys.nodes.DirNode id
  taken : sys.forest.Takes id call.request
  replied : (sys.step env call).1 = .ok .ok
  last :
    ∀ entry other, (sys.step env call).2.inodes.fuseToIno ino = some entry →
      other ∈ entry.nodes → (sys.step env call).2.nodes.Live other →
      other = id

namespace Sys

variable {env : Env}

/-- The node of the removed name is not live afterwards. -/
theorem RemovesLast.dead
    {sys : Sys}
    {call : Call}
    {ino : UInt64}
    {id : NodeId}
    (ok : Daemon.TreeOk sys)
    (removes : RemovesLast env sys call ino id) :
    ¬ (sys.step env call).2.nodes.Live id := by
  have live : sys.nodes.Live id := Forest.live_of_resolve ok removes.named
  have replied := removes.replied
  have taken := removes.taken
  unfold Sys.step at replied ⊢
  generalize call.request = request at taken replied ⊢
  cases taken with
  | unlinked resolved entry =>
      exact Daemon.gone_unlink (sys.begin call) ⟨ok, resolved, entry, live⟩
        .ok replied
  | @replaced parent newparent above name newname flags plain _ resolved
      entry =>
      exact Daemon.gone_rename parent name plain (sys.begin call)
        ⟨ok, resolved, entry, live⟩ .ok replied

/--
Whatever the kernel still holds of a file whose last name is removed, every
`getattr`, `setattr`, `open` and `getxattr` of it replies `ENOENT`.
-/
theorem removed_file_unusable
    {env : Env}
    {disk : Disk}
    {calls : List Call}
    {sys : Sys}
    {call : Call}
    {ino : UInt64}
    {id : NodeId}
    (reached : sys = (mount env disk).run env calls)
    (removes : RemovesLast env sys call ino id)
    (later : Call)
    (uses : later.request.Uses env ino) :
    ((sys.step env call).2.step env later).1 = .error .ENOENT := by
  have ok : Daemon.TreeOk sys := by
    rw [reached]
    exact Daemon.treeOk_run (Daemon.treeOk_mount env disk) calls
  have notRoot : ino ≠ rootIno := by
    rintro rfl
    obtain ⟨node, stored, -, isDir⟩ := ok.tree.root
    have isRoot : some rootId = some id := removes.named
    cases isRoot
    exact removes.isFile ⟨node, stored, isDir⟩
  have unresolved : (sys.step env call).2.forest.resolve ino = none := by
    cases resolved : (sys.step env call).2.forest.resolve ino with
    | none =>
        rfl
    | some other =>
        rcases Forest.resolve_eq_some.mp resolved with
          ⟨isRoot, -⟩ | ⟨-, key, entry, number, stored, found⟩
        · exact (notRoot isRoot).elim
        · have listed :
              (sys.step env call).2.inodes.fuseToIno ino = some entry :=
            Option.bind_eq_some_iff.mpr ⟨key, number, stored⟩
          have live : (sys.step env call).2.nodes.Live other :=
            NodeArena.containsKey_iff.mp (List.find?_some found)
          have same := removes.last entry other listed
            (List.mem_of_find?_eq_some found) live
          rw [same] at live
          exact (removes.dead ok live).elim
  exact @Daemon.handle_unresolved env ino
    ((sys.step env call).2.begin later) later.request notRoot unresolved uses

end Sys

namespace Sample

/-- A file on the upper layer. -/
def oneFile : Disk :=
  disk 0 [(⟨.layer 0, [ascii "f"]⟩, obj .reg [1, 2, 3] 11)]

/-- The file is looked up and opened. -/
def useFile : List Call :=
  [call (.lookup 1 (ascii "f")), call (.open 11 { OpenFlags.rdonly with write := true })]

/-- The kernel holds a lookup and a handle of the file. -/
def usedFile : Sys :=
  (Sys.mount (env 0) oneFile).run (env 0) useFile

def unlinkFile : Call :=
  call (.unlink 1 (ascii "f"))

def truncateFile : Call :=
  call (.setattr 11 ⟨none, none, none, some 0, none, none, some 1⟩)

end Sample

namespace Sys

open Sample

theorem removesLast_unlinkFile :
    RemovesLast (env 0) usedFile unlinkFile 11 2 where
  named := by decide +kernel
  isFile := by
    have kind : (usedFile.nodes.get? 2).map (·.isDir) = some false := by
      decide +kernel
    rintro ⟨node, stored, isDir⟩
    rw [stored, Option.map_some, isDir] at kind
    cases kind
  taken := by
    have child :
        (usedFile.nodes.get? 1).bind (·.getChild (ascii "f")) = some 2 := by
      decide +kernel
    obtain ⟨node, stored, isChild⟩ := Option.bind_eq_some_iff.mp child
    exact .unlinked (by decide +kernel) ⟨node, stored, isChild⟩
  replied := by decide +kernel
  last := by
    have listed :
        ((usedFile.step (env 0) unlinkFile).2.inodes.fuseToIno 11).map
          (·.nodes) = some [] := by
      decide +kernel
    intro entry other found member
    rw [found, Option.map_some, Option.some.injEq] at listed
    rw [listed] at member
    cases member

theorem removed_file_unusable_truncate :
    ((usedFile.step (env 0) unlinkFile).2.step (env 0) truncateFile).1 =
      .error .ENOENT :=
  removed_file_unusable rfl removesLast_unlinkFile truncateFile rfl

/-- The kernel holds a lookup and a handle, and the file is gone. -/
theorem removed_file_lost :
    (usedFile.step (env 0) truncateFile).1.toOption.isSome = true ∧
      (usedFile.step (env 0) unlinkFile).1 = .ok .ok ∧
      ((usedFile.step (env 0) unlinkFile).2.inodes.fuseToIno 11).map
        (·.lookups) = some 1 ∧
      ((usedFile.step (env 0) unlinkFile).2.openFiles.get? 1).isSome = true ∧
      ((usedFile.step (env 0) unlinkFile).2.step (env 0) truncateFile).1 =
        .error .ENOENT ∧
      ((usedFile.step (env 0) unlinkFile).2.step (env 0)
        (call (.getattr 11))).1 = .error .ENOENT ∧
      ((usedFile.step (env 0) unlinkFile).2.step (env 0)
        (call (.open 11 .rdonly))).1 = .error .ENOENT := by
  decide +kernel

end Sys

end FuseOverlay
