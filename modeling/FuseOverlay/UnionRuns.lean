import FuseOverlay.DirectoryStreams
import FuseOverlay.NumberAgreement
import FuseOverlay.UnionLoads

namespace FuseOverlay

/-!
# What a mount shows that is only looked at

Names are looked up, directories opened and listed and numbers forgotten, in
any order.  As long as the layers fail no call, and lookups ask for names in
directories that were read before, every directory that was read shows the
union of the layers.
-/

open Act (Agrees Keeps Holds Never)

open Syscall Whiteout Ledger

namespace Daemon

variable {env : Env} {disk : Disk} {sys : Sys}

/-! ## Actions that leave the nodes alone -/

/-- The action keeps whatever holds of the nodes. -/
def Idle
    {α : Type}
    (act : Daemon α) : Prop :=
  ∀ kept : NodeArena → Prop, Keeps (fun sys => kept sys.nodes) act

namespace Idle

variable {α β : Type}

theorem pure
    (value : α) :
    Idle (Pure.pure value : Daemon α) :=
  fun _ => Keeps.pure value

theorem gets
    (read : Sys → α) :
    Idle (Act.gets read : Daemon α) :=
  fun _ => Keeps.gets read

theorem orFail
    (value : Option α)
    (errno : Errno) :
    Idle (Act.orFail value errno : Daemon α) :=
  fun _ => Keeps.orFail value errno

theorem check
    (test : Bool)
    (errno : Errno) :
    Idle (Act.check test errno) :=
  fun _ => Keeps.check test errno

theorem bind
    {first : Daemon α}
    {next : α → Daemon β}
    (firstIdle : Idle first)
    (nextIdle : ∀ value, Idle (next value)) :
    Idle (first >>= next) :=
  fun kept => Keeps.bind (firstIdle kept) fun value => nextIdle value kept

theorem map
    {act : Daemon α}
    {transform : α → β}
    (idle : Idle act) :
    Idle (transform <$> act) :=
  fun kept => Keeps.map (idle kept)

theorem attempt
    {act : Daemon α}
    (idle : Idle act) :
    Idle act.attempt :=
  fun kept => Keeps.attempt (idle kept)

theorem lift
    (act : Syscall α) :
    Idle (liftM act : Daemon α) :=
  fun _ _ holds => holds

theorem register
    (id : NodeId)
    (ino dev : UInt64)
    (mode : Mode) :
    Idle (Daemon.register env id ino dev mode) := by
  intro kept sys holds
  unfold Daemon.register
  split <;> exact holds

theorem incLookup
    (key : InodeKey) :
    Idle (Daemon.incLookup key) :=
  fun _ _ holds => holds

theorem rplStatWithPath
    (nodeId : NodeId)
    (path : Path) :
    Idle (Daemon.rplStatWithPath env nodeId path) :=
  fun kept => keeps_rplStatWithPath (fun forest => kept forest.nodes) nodeId
    path

theorem node
    (id : NodeId) :
    Idle (Daemon.node id) :=
  .bind (.gets _) fun _ => .orFail _ _

theorem rplStat
    (nodeId : NodeId) :
    Idle (Daemon.rplStat env nodeId) := by
  apply Idle.bind (.node nodeId)
  intro found
  split
  · exact .rplStatWithPath nodeId _
  · exact .bind (.gets _) fun path => .rplStatWithPath nodeId path

theorem lookupFast
    (parent : UInt64)
    (name : Name) :
    Idle (Daemon.lookupFast env parent name) := by
  apply Idle.bind (.gets _)
  intro resolved
  cases resolved with
  | none =>
      exact .pure none
  | some parentId =>
      apply Idle.bind (.gets _)
      intro found
      cases found with
      | none =>
          exact .pure none
      | some pnode =>
          apply Idle.bind (.check _ _)
          intro _
          cases pnode.getChild name with
          | none =>
              exact .pure none
          | some childId =>
              apply Idle.bind (.node childId)
              intro child
              apply Idle.bind (.check _ _)
              intro _
              apply Idle.bind (.gets _)
              intro entry
              cases entry with
              | none =>
                  exact .pure none
              | some entry =>
                  simp only
                  split
                  · apply Idle.bind (.gets _)
                    intro path
                    apply Idle.bind (.attempt (.rplStatWithPath childId path))
                    intro outcome
                    cases outcome with
                    | error errno =>
                        exact .pure none
                    | ok st =>
                        exact .bind (.incLookup _) fun _ => .pure _
                  · exact .pure none

theorem lookupIno
    (nodeId : NodeId)
    (found : OvlNode)
    (mode : Mode) :
    Idle (Daemon.lookupIno env nodeId found mode) := by
  unfold Daemon.lookupIno
  split
  · apply Idle.bind (.register nodeId _ _ mode)
    intro answer
    apply Idle.bind (.orFail answer _)
    intro fuseIno
    exact .bind (.incLookup _) fun _ => .pure fuseIno
  · exact .pure rootIno

theorem selfEntry
    (label : Name)
    (nodeId : NodeId)
    (node : OvlNode)
    (path : Path) :
    Idle (Daemon.selfEntry env label nodeId node path) := by
  apply Idle.bind (.lift _)
  intro ino
  exact .bind (.attempt (.rplStatWithPath nodeId path)) fun _ => .pure _

theorem childEntry
    (dirPath : Path)
    (entry : Name × NodeId) :
    Idle (Daemon.childEntry env dirPath entry) := by
  apply Idle.bind (.gets _)
  intro found
  split
  · exact .pure none
  · split
    · exact .pure none
    · apply Idle.bind (.lift _)
      intro ino
      exact .bind (.attempt (.rplStatWithPath entry.2 _)) fun _ => .pure _

theorem childEntries
    (dirPath : Path)
    (entries : List (Name × NodeId)) :
    Idle (Daemon.childEntries env dirPath entries) := by
  induction entries with
  | nil =>
      exact .pure []
  | cons entry rest inductionHypothesis =>
      apply Idle.bind (.childEntry dirPath entry)
      intro first
      exact .bind inductionHypothesis fun others => .pure _

theorem parentEntry
    (node : OvlNode)
    (self : HandleEntry) :
    Idle (Daemon.parentEntry env node self) := by
  unfold Daemon.parentEntry
  simp only
  split
  · exact .pure _
  · apply Idle.bind (.gets _)
    intro found
    split
    · exact .pure _
    · exact .bind (.gets _) fun path => .selfEntry _ _ _ path

theorem plusIno
    (entry : HandleEntry) :
    Idle (Daemon.plusIno env entry) := by
  unfold Daemon.plusIno
  split
  · exact .pure _
  · apply Idle.bind (.gets _)
    intro found
    split
    · exact .pure _
    · apply Idle.bind (.register _ _ _ _)
      intro answer
      split
      · exact .pure _
      · exact .bind (.incLookup _) fun _ => .pure _

theorem plusEntries
    (fits : Nat)
    (entries : List (HandleEntry × Nat)) :
    Idle (Daemon.plusEntries env fits entries) := by
  induction entries generalizing fits with
  | nil =>
      cases fits <;> exact .pure []
  | cons entry rest inductionHypothesis =>
      cases fits with
      | zero =>
          exact .bind (.plusIno entry.1) fun _ => .pure []
      | succ fits =>
          apply Idle.bind (.plusIno entry.1)
          intro fuseIno
          exact .bind (inductionHypothesis fits) fun others => .pure _

theorem handleEntries
    (fh offset : Nat) :
    Idle (Daemon.handleEntries fh offset) :=
  .bind (.gets _) fun _ => .bind (.orFail _ _) fun _ => .pure _

theorem readlink
    (ino : UInt64) :
    Idle (Daemon.readlink env ino) := by
  apply Idle.bind (.gets _)
  intro resolved
  apply Idle.bind (.orFail _ _)
  intro nodeId
  apply Idle.bind (.gets _)
  intro path
  apply Idle.bind (.node nodeId)
  intro found
  exact .bind (.lift _) fun _ => .map (.lift _)

end Idle

/-! ## Trees that show the union -/

theorem loadLayer_unbounded
    (parentId : NodeId)
    (path : Path)
    (layerIdx : Nat) :
    loadLayer env parentId path (some 0) layerIdx =
      loadLayer env parentId path none layerIdx := by
  have noStop :
      (decide (some 0 = some layerIdx) && decide (0 < layerIdx)) =
        (decide (none = some layerIdx) && decide (0 < layerIdx)) := by
    cases layerIdx <;> simp
  unfold loadLayer
  rw [noStop]

/-- The last layer of the root, which is the first one, is no bound. -/
theorem loadDirImpl_unbounded
    (parentId : NodeId)
    (path : Path) :
    loadDirImpl env parentId path (some 0) =
      loadDirImpl env parentId path none := by
  have sameLayers :
      ∀ layers,
        loadLayers env parentId path (some 0) layers =
          loadLayers env parentId path none layers := by
    intro layers
    induction layers with
    | nil =>
        rfl
    | cons layerIdx rest inductionHypothesis =>
        unfold loadLayers
        rw [loadLayer_unbounded, inductionHypothesis]
  unfold loadDirImpl
  rw [sameLayers]

/-- The tree is whole and shows the union of the layers, which are as they
were. -/
structure United
    (env : Env)
    (disk : Disk)
    (sys : Sys) : Prop where
  whole : TreeWhole sys
  noFaults : sys.os.faults = []
  same : disk.Reordered sys.os.disk
  unites : sys.nodes.Unites env disk

/-- Without a fault the action does not touch the layers. -/
def Unmoved
    {α : Type}
    (act : Daemon α) : Prop :=
  ∀ os : Os, os.faults = [] →
    Agrees (fun first second => first = second ∧ first.os = os) act

/-- An action on the table alone. -/
theorem United.idle
    {α : Type}
    {act : Daemon α}
    (united : United env disk sys)
    (idle : Idle act)
    (unmoved : Unmoved act)
    (whole : TreeWhole (act sys).2) :
    United env disk (act sys).2 := by
  have sameOs : (act sys).2.os = sys.os :=
    (unmoved sys.os united.noFaults sys sys ⟨rfl, rfl⟩).2.2
  refine ⟨whole, ?_, ?_, idle (·.Unites env disk) sys united.unites⟩
  · rw [sameOs]
    exact united.noFaults
  · rw [sameOs]
    exact united.same

theorem united_of_calm
    {α : Type}
    {act : Daemon α}
    (idle : Idle act)
    (unmoved : Unmoved act)
    (calm : Calm act) :
    Keeps (United env disk) act :=
  fun sys united => united.idle idle unmoved (calm.treeWhole sys united.whole)

theorem united_rplStat
    (nodeId : NodeId) :
    Keeps (United env disk) (rplStat env nodeId) :=
  united_of_calm (.rplStat nodeId)
    (fun _ noFaults => (looking_noFaults noFaults).rplStat nodeId)
    (.rplStat nodeId)

/-- The tree shows the union, and the directory was read. -/
structure ReadAt
    (env : Env)
    (disk : Disk)
    (dirId : NodeId)
    (sys : Sys) : Prop where
  united : United env disk sys
  loaded :
    ∃ node, sys.nodes.get? dirId = some node ∧ node.isDir = true ∧
      node.isLoaded = true

theorem readAt_of_calm
    {α : Type}
    {act : Daemon α}
    {dirId : NodeId}
    (idle : Idle act)
    (unmoved : Unmoved act)
    (calm : Calm act) :
    Keeps (ReadAt env disk dirId) act := by
  intro sys read
  refine ⟨united_of_calm idle unmoved calm sys read.united, ?_⟩
  rw [idle (· = sys.nodes) sys rfl]
  exact read.loaded

/-- Loading a directory that was not read before. -/
theorem readAt_loadDirImpl
    {dirId : NodeId}
    {node : OvlNode}
    {path : Path}
    (tidy : TidyStack env disk)
    (united : United env disk sys)
    (walk : sys.nodes.Walk path dirId)
    (stored : sys.nodes.get? dirId = some node)
    (isDir : node.isDir = true)
    (unloaded : node.isLoaded = false) :
    ReadAt env disk dirId
      (loadDirImpl env dirId path (readStop dirId node) sys).2 := by
  obtain ⟨loads, sameOs, unites⟩ := unites_loadDirImpl tidy united.whole.ok
    united.noFaults united.same united.unites walk stored isDir unloaded
  obtain ⟨whole, later, laterStored, laterDir⟩ :=
    whole_loadDirImpl dirId path _ sys ⟨united.whole, node, stored, isDir⟩
  refine ⟨⟨whole, ?_, ?_, unites⟩, later, laterStored, laterDir,
    isLoaded_loadDirImpl loads laterStored laterDir⟩
  · rw [sameOs]
    exact united.noFaults
  · rw [sameOs]
    exact united.same

theorem readAt_reloadDir
    {dirId : NodeId}
    {node : OvlNode}
    (tidy : TidyStack env disk)
    (united : United env disk sys)
    (stored : sys.nodes.get? dirId = some node)
    (isDir : node.isDir = true) :
    ReadAt env disk dirId (reloadDir env dirId sys).2 := by
  have asked : getNode dirId sys = (.ok (some node), sys) := by
    rw [← stored]
    rfl
  unfold reloadDir
  rw [Act.bind_ok asked]
  cases loaded : node.isLoaded with
  | true =>
      simp only [loaded, ↓reduceIte]
      exact ⟨united, node, stored, isDir, loaded⟩
  | false =>
      obtain ⟨path, walk⟩ := united.whole.rooted dirId ⟨node, stored⟩
      have parts : nodePath dirId sys = (.ok path, sys) := by
        rw [← walk.nodeParts_eq united.whole.ok.tree.linkedTree]
        rfl
      have sameLoad :
          loadDirImpl env dirId path (some node.lastLayerIdx) =
            loadDirImpl env dirId path (readStop dirId node) := by
        unfold readStop
        split
        · next isRoot =>
            subst isRoot
            rw [united.unites.top stored]
            exact loadDirImpl_unbounded rootId path
        · rfl
      have loads :
          Holds (· = sys) (loadDirImpl env dirId path (readStop dirId node))
            fun _ => ReadAt env disk dirId := by
        rintro _ rfl
        exact readAt_loadDirImpl tidy united walk stored isDir loaded
      simp only [loaded, Bool.false_eq_true, ↓reduceIte]
      rw [Act.bind_ok parts, sameLoad]
      exact Holds.bind loads (fun _ => Keeps.pure true)
        (fun _ _ read => read) sys rfl

theorem united_ensureRootLoaded
    (tidy : TidyStack env disk) :
    Keeps (United env disk) (ensureRootLoaded env) := by
  intro sys united
  obtain ⟨node, stored, -, isDir⟩ := united.whole.ok.tree.root
  have asked : getNode rootId sys = (.ok (some node), sys) := by
    rw [← stored]
    rfl
  unfold ensureRootLoaded
  rw [Act.bind_ok asked]
  cases loaded : node.isLoaded with
  | true =>
      simp only [Option.map_some, loaded, Option.getD_some, ↓reduceIte]
      exact united
  | false =>
      simp only [Option.map_some, loaded, Option.getD_some,
        Bool.false_eq_true, ↓reduceIte]
      exact (readAt_loadDirImpl tidy united .root stored isDir loaded).united

/-! ## Requests -/

theorem doLookupFile_loaded
    {parent : UInt64}
    {name : Name}
    {parentId : NodeId}
    {pnode : OvlNode}
    (resolved : sys.forest.resolve parent = some parentId)
    (stored : sys.nodes.get? parentId = some pnode)
    (loaded : pnode.isLoaded = true) :
    doLookupFile env parent name sys = (.ok (pnode.getChild name), sys) := by
  have asked : resolveIno parent sys = (.ok (some parentId), sys) := by
    rw [← resolved]
    rfl
  have found : getNode parentId sys = (.ok (some pnode), sys) := by
    rw [← stored]
    rfl
  unfold doLookupFile
  rw [Act.bind_ok asked]
  simp only
  rw [Act.bind_ok found]
  simp only [loaded, Bool.or_true, ↓reduceIte]
  cases pnode.getChild name <;> rfl

/-- The number stands for a directory that was read, if for anything. -/
def AsksLoaded
    (parent : UInt64)
    (sys : Sys) : Prop :=
  ∀ dir node, sys.forest.resolve parent = some dir →
    sys.nodes.get? dir = some node → node.isLoaded = true

/-- A number keeps its node while names are looked up in the table alone. -/
theorem resolve_lookupFast
    (parent : UInt64)
    (name : Name) :
    (lookupFast env parent name sys).2.forest.resolve parent =
      sys.forest.resolve parent := by
  have keeps :
      Keeps
        (fun later =>
          later.forest.resolve parent = sys.forest.resolve parent)
        (lookupFast env parent name) := by
    refine keeps_lookupFast (fun calm later same => ?_)
      (fun key later same => ?_) parent name
    · have kept : CalmFrom later.forest _ :=
        calm later.forest later ⟨.refl _, rfl⟩
      exact (kept.resolve_eq parent).trans same
    · exact (Forest.resolve_incLookup ..).trans same
  exact keeps sys rfl

theorem united_lookupSlow
    (tidy : TidyStack env disk)
    (parent : UInt64)
    (name : Name) :
    Holds (fun sys => United env disk sys ∧ AsksLoaded parent sys)
      (lookupSlow env parent name) fun _ => United env disk := by
  refine Holds.bind (?_ : Holds _ _ fun _ => United env disk)
    (fun found => ?_) fun _ _ united => united
  · rintro sys ⟨united, asks⟩
    cases resolved : sys.forest.resolve parent with
    | none =>
        have asked : resolveIno parent sys = (.ok none, sys) := by
          rw [← resolved]
          rfl
        unfold doLookupFile
        rw [Act.bind_ok asked]
        exact united
    | some dir =>
        obtain ⟨node, stored⟩ := Forest.live_of_resolve
          united.whole.ok resolved
        rw [doLookupFile_loaded resolved stored
          (asks dir node resolved stored)]
        exact united
  · refine presentOr_bind (fun nodeId _ => ?_) fun _ united => united
    refine node_bind (fun before => ?_) fun _ holds => holds.1
    refine Holds.bind (?_ : Holds _ _ fun _ => United env disk)
      (fun _ => ?_) fun _ _ united => united
    · unfold Act.runIf
      split
      · next wanted =>
          have isDir : before.isDir = true := by
            simp only [Bool.and_eq_true] at wanted
            exact wanted.2
          refine Holds.bind (?_ : Holds _ _ fun _ => United env disk)
            (fun loaded => Keeps.check _ _) fun _ _ united => united
          rintro sys ⟨⟨united, -⟩, stored⟩
          exact (readAt_reloadDir tidy united stored isDir).united
      · exact Holds.pure fun _ holds => holds.1.1
    · refine Holds.bind (united_rplStat nodeId) (fun st => ?_)
        fun _ _ united => united
      refine node_bind (fun found => ?_) fun _ united => united
      refine Holds.bind (?_ : Holds _ _ fun _ => United env disk)
        (fun _ => Keeps.pure _) fun _ _ united => united
      rintro sys ⟨united, stored⟩
      exact united.idle (.lookupIno nodeId found st.mode)
        (fun _ noFaults =>
          (looking_noFaults noFaults).lookupIno nodeId found st.mode)
        (treeWhole_lookupIno nodeId found st.mode sys
          ⟨united.whole, found, stored, rfl⟩)

theorem united_lookup
    (tidy : TidyStack env disk)
    (parent : UInt64)
    (name : Name) :
    Holds (fun sys => United env disk sys ∧ AsksLoaded parent sys)
      (lookup env parent name) fun _ => United env disk := by
  refine Holds.bind (Keeps.check _ _) (fun _ => ?_) fun _ _ holds => holds.1
  have fast :
      Keeps (fun sys => United env disk sys ∧ AsksLoaded parent sys)
        (lookupFast env parent name) := by
    rintro sys ⟨united, asks⟩
    refine ⟨united.idle (.lookupFast parent name)
      (fun _ noFaults => (looking_noFaults noFaults).lookupFast parent name)
      (keeps_lookupFast Calm.treeWhole treeWhole_incLookup parent name sys
        united.whole), ?_⟩
    intro dir node resolved stored
    rw [resolve_lookupFast] at resolved
    rw [Idle.lookupFast parent name (· = sys.nodes) sys rfl] at stored
    exact asks dir node resolved stored
  refine Holds.bind fast (fun found => ?_) fun _ _ holds => holds.1
  cases found with
  | some reply =>
      exact Holds.pure fun _ holds => holds.1
  | none =>
      exact united_lookupSlow tidy parent name

theorem united_getattr
    (tidy : TidyStack env disk)
    (ino : UInt64) :
    Keeps (United env disk) (getattr env ino) := by
  unfold getattr
  split
  · exact Keeps.bind (united_ensureRootLoaded tidy) fun _ =>
      Keeps.map (united_rplStat rootId)
  · refine Keeps.bind ?_ fun nodeId => Keeps.map (united_rplStat nodeId)
    refine united_of_calm ?_
      (fun os noFaults =>
        (@looking_noFaults env os noFaults).resolveNode ino)
      (calm_resolveNode ino)
    exact .bind (.gets _) fun found => .bind (.orFail _ _) fun id =>
      .bind (.gets _) fun live => .bind (.check _ _) fun _ => .pure id

theorem readAt_buildDirEntries
    (tidy : TidyStack env disk)
    (dirId : NodeId) :
    Keeps (ReadAt env disk dirId) (buildDirEntries env dirId) := by
  have reads : Keeps (ReadAt env disk dirId) (reloadDir env dirId) := by
    rintro sys ⟨united, node, stored, isDir, -⟩
    exact readAt_reloadDir tidy united stored isDir
  refine Keeps.bind reads fun _ => ?_
  refine Keeps.bind (Keeps.gets _) fun found => ?_
  cases found with
  | none =>
      exact Keeps.pure []
  | some node =>
      refine Keeps.bind (Keeps.gets _) fun path => ?_
      refine Keeps.bind (readAt_of_calm (.selfEntry _ dirId node path)
        (fun _ noFaults => (looking_noFaults noFaults).selfEntry _ _ _ _)
        (calm_selfEntry _ dirId node path)) fun self => ?_
      refine Keeps.bind (readAt_of_calm (.parentEntry node self)
        (fun _ noFaults => (looking_noFaults noFaults).parentEntry _ _)
        (calm_parentEntry node self)) fun parent => ?_
      exact Keeps.bind (readAt_of_calm (.childEntries path _)
        (fun _ noFaults => (looking_noFaults noFaults).childEntries _ _)
        (calm_childEntries path _)) fun rest => Keeps.pure _

theorem resolved_buildDirEntries
    {ino : UInt64}
    (dirId : NodeId) :
    Keeps (Resolved ino dirId) (buildDirEntries env dirId) := by
  refine Keeps.bind (still_reloadDir dirId).resolved fun _ => ?_
  exact Keeps.bind (Keeps.gets _) fun found =>
    (Still.of_calm (calm_loadedEntries dirId found)).resolved

/-- What `opendir` was opened on has been read. -/
theorem united_opendirOf
    (tidy : TidyStack env disk)
    (ino : UInt64) :
    Holds (United env disk) (opendirOf env ino) fun outcome sys =>
      United env disk sys ∧
        ∀ reply, outcome = .ok reply → AsksLoaded ino sys := by
  have failed :
      ∀ (errno : Errno) sys, United env disk sys →
        United env disk sys ∧
          ∀ reply : Reply, Except.error errno = .ok reply →
            AsksLoaded ino sys :=
    fun _ _ united => ⟨united, nofun⟩
  refine Holds.bind (Keeps.runIf (united_ensureRootLoaded tidy)) (fun _ => ?_)
    failed
  refine Holds.getsBind fun resolved => ?_
  refine Holds.orFailBind (fun dir isDir => ?_)
    fun sys holds => failed _ sys holds.1
  subst isDir
  refine Holds.getsBind fun found => ?_
  rintro sys ⟨⟨united, resolved⟩, rfl⟩
  cases stored : sys.nodes.get? dir with
  | none =>
      exact failed _ sys united
  | some node =>
      cases isDir : node.isDir with
      | false =>
          simp only [Option.map_some, isDir, Option.getD_some]
          exact failed _ sys united
      | true =>
          simp only [Option.map_some, isDir, Option.getD_some]
          have rest :
              Holds
                (fun now =>
                  ReadAt env disk dir now ∧ Resolved ino dir now)
                (do
                  let entries ← buildDirEntries env dir
                  fun sys =>
                    (.ok (.opened sys.nextDh),
                      { sys with
                        openDirs := sys.openDirs.set sys.nextDh entries
                        nextDh := sys.nextDh + 1 }) : Daemon Reply)
                fun outcome now =>
                  United env disk now ∧
                    ∀ reply, outcome = .ok reply → AsksLoaded ino now := by
            have built :
                Keeps
                  (fun now => ReadAt env disk dir now ∧ Resolved ino dir now)
                  (buildDirEntries env dir) :=
              fun now holds =>
                ⟨readAt_buildDirEntries tidy dir now holds.1,
                  resolved_buildDirEntries dir now holds.2⟩
            refine Holds.bind built (fun entries now holds => ?_)
              fun errno now holds => failed errno now holds.1.united
            obtain ⟨⟨united, node, stored, -, loaded⟩, -, resolved, -⟩ := holds
            refine ⟨⟨united.whole, united.noFaults, united.same,
              united.unites⟩, fun _ _ other found isResolved present => ?_⟩
            cases resolved.symm.trans isResolved
            cases stored.symm.trans present
            exact loaded
          have read :
              Holds (· = sys) (reloadDir env dir) fun _ now =>
                ReadAt env disk dir now ∧ Resolved ino dir now := by
            rintro _ rfl
            exact ⟨readAt_reloadDir tidy united stored isDir,
              (still_reloadDir dir).resolved _
                ⟨united.whole.ok, resolved, node, stored⟩⟩
          exact Holds.bind read (fun _ => rest)
            (fun errno now holds => failed errno now holds.1.united) sys rfl

/-! ## Runs -/

/-- The request looks, and a lookup asks in a directory that was read. -/
def Looks
    (sys : Sys) :
    Request → Prop
  | .lookup parent _ => AsksLoaded parent sys
  | request => request.Observes

theorem united_handle
    {request : Request}
    (tidy : TidyStack env disk)
    (united : United env disk sys)
    (looks : Looks sys request) :
    United env disk (handle env request sys).2 := by
  have idles :
      request.Observes → Idle (handle env request) →
        Sys.Careful env sys request →
        United env disk (handle env request sys).2 :=
    fun observes idle careful => united.idle idle
      (fun _ noFaults => (looking_noFaults noFaults).observes observes)
      (Sys.treeWhole_handle united.whole careful)
  cases request with
  | lookup parent name =>
      exact united_lookup tidy parent name sys ⟨united, looks⟩
  | forget ino nlookup =>
      exact idles trivial (fun _ _ holds => holds) trivial
  | getattr ino =>
      exact united_getattr tidy ino sys united
  | readlink ino =>
      exact idles trivial (.readlink ino) trivial
  | opendir ino =>
      exact (united_opendirOf tidy ino sys united).1
  | readdir fh offset fits =>
      exact idles trivial
        (.bind (.handleEntries fh offset) fun _ => .pure _) trivial
  | readdirplus fh offset fits =>
      exact idles trivial
        (.bind (.handleEntries fh offset) fun entries =>
          .map (.plusEntries fits entries)) trivial
  | releasedir fh =>
      exact idles trivial (fun _ _ holds => holds) trivial
  | _ =>
      exact looks.elim

end Daemon

namespace Sys

open Daemon

variable {env : Env} {disk : Disk}

/-- Every request of the run looks, and no call on a layer fails. -/
def LooksRun
    (env : Env) :
    Sys → List Call → Prop
  | _, [] => True
  | sys, call :: rest =>
      call.faults = [] ∧ Looks (sys.begin call) call.request ∧
        LooksRun env (sys.step env call).2 rest

theorem united_mount
    (env : Env)
    (disk : Disk) :
    United env disk (mount env disk) := by
  refine ⟨treeWhole_mount env disk, rfl, ⟨.refl _, rfl, rfl⟩, ?_⟩
  constructor
  · intro node stored
    rw [(mount_stored stored).2]
    rfl
  · intro id node stored _
    rw [(mount_stored stored).2]
    exact @OvlNode.Blank.of_dirState _ true rfl
  · intro path name id node walk stored
    generalize shape : path ++ [name] = query at walk
    cases walk with
    | root =>
        simp at shape
    | step above entry =>
        obtain ⟨parent, parentStored, isChild⟩ := entry
        rw [(mount_stored parentStored).2] at isChild
        cases isChild
  · intro path id node walk stored loaded
    rw [(mount_stored stored).2] at loaded
    cases loaded

theorem united_begin
    {sys : Sys}
    (united : United env disk sys)
    {call : Call}
    (noFaults : call.faults = []) :
    United env disk (sys.begin call) :=
  ⟨united.whole, noFaults, ⟨united.same.names, united.same.objs,
    united.same.dev⟩, united.unites⟩

theorem united_run
    {sys : Sys}
    {calls : List Call}
    (tidy : TidyStack env disk)
    (united : United env disk sys)
    (looks : LooksRun env sys calls) :
    United env disk (run env sys calls) := by
  induction calls generalizing sys with
  | nil =>
      exact united
  | cons call rest inductionHypothesis =>
      obtain ⟨noFaults, first, others⟩ := looks
      exact inductionHypothesis
        (united_handle tidy (united_begin united noFaults) first) others

theorem visible_iff
    {sys : Sys}
    (united : United env disk sys)
    {path : Path}
    {dir : NodeId}
    {node : OvlNode}
    (walk : sys.nodes.Walk path dir)
    (stored : sys.nodes.get? dir = some node)
    (loaded : node.isLoaded = true)
    (name : Name) :
    sys.nodes.Visible dir name ↔
      Plain name ∧ ((stack env disk).shown path name).isSome := by
  constructor
  · rintro ⟨child, below, entry, belowStored, -⟩
    obtain ⟨plain, isShown, -⟩ := united.unites.placed (walk.step entry)
      belowStored
    rw [isShown]
    exact ⟨plain, rfl⟩
  · rintro ⟨plain, isShown⟩
    rw [← united.unites.read walk stored loaded name plain] at isShown
    obtain ⟨found, isListed⟩ := Option.isSome_iff_exists.mp isShown
    obtain ⟨child, isChild, found⟩ := Option.bind_eq_some_iff.mp isListed
    obtain ⟨parent, parentStored, isChild⟩ := Option.bind_eq_some_iff.mp isChild
    obtain ⟨below, belowStored, -⟩ := Option.map_eq_some_iff.mp found
    exact ⟨child, below, ⟨parent, parentStored, isChild⟩, belowStored,
      united.whole.shown child below belowStored⟩

end Sys

namespace Sample

/-- A directory `d` on both layers, with a file of its own on each. -/
def mergedDir : Disk :=
  disk 1
    [(⟨.layer 0, [ascii "d"]⟩, obj .dir [] 11),
      (⟨.layer 1, [ascii "d"]⟩, obj .dir [] 12),
      (⟨.layer 0, [ascii "d", ascii "a"]⟩, obj .reg [] 13),
      (⟨.layer 1, [ascii "d", ascii "b"]⟩, obj .reg [] 14)]

/-- What is stored in the sample, by its place. -/
theorem mergedDir_names
    {loc : Loc}
    {found : Obj}
    (stored : mergedDir.find? loc = some found) :
    (loc.path = [] ∨ loc.path.getLast? ∈
        [some (ascii "d"), some (ascii "a"), some (ascii "b")]) ∧
      (found.kind = .dir → loc.path = [] ∨ loc.path = [ascii "d"]) := by
  have tests :
      ∀ entry ∈ mergedDir.names.toList,
        (entry.1.path = [] ∨ entry.1.path.getLast? ∈
            [some (ascii "d"), some (ascii "a"), some (ascii "b")]) ∧
          (mergedDir.kindAt entry.1 = some .dir →
            entry.1.path = [] ∨ entry.1.path = [ascii "d"]) := by
    decide +kernel
  obtain ⟨id, named, -⟩ := Option.bind_eq_some_iff.mp stored
  obtain ⟨last, isDir⟩ := tests (loc, id) (FMap.mem_toList_iff.mpr named)
  refine ⟨last, fun kind => isDir ?_⟩
  unfold Disk.kindAt
  rw [stored, Option.map_some, kind]

theorem openDir_of_dirAt
    {root : Root}
    {path : Path}
    {dir : Loc}
    (reached : mergedDir.dirAt root path = some dir) :
    mergedDir.openDir ⟨root, []⟩ path = .ok dir := by
  unfold Disk.dirAt at reached
  cases outcome : mergedDir.openDir ⟨root, []⟩ path with
  | error errno =>
      rw [outcome] at reached
      cases reached
  | ok other =>
      rw [outcome] at reached
      cases reached
      rfl

theorem mergedDir_objAt
    {layerIdx : Nat}
    {path : Path}
    {name : Name}
    {found : Obj}
    (holds : mergedDir.objAt layerIdx path name = some found) :
    (name = ascii "d" ∨ name = ascii "a" ∨ name = ascii "b") ∧
      (found.kind = .dir →
        name = ascii "d" ∧
          mergedDir.dirAt (.layer layerIdx) path =
            some ⟨.layer layerIdx, []⟩) := by
  obtain ⟨dir, reached, stored⟩ := Option.bind_eq_some_iff.mp holds
  obtain ⟨last, isDir⟩ := mergedDir_names stored
  constructor
  · simpa [Loc.child] using last
  · intro kind
    have parts : dir.path ++ [name] = [] ∨ dir.path ++ [name] = [ascii "d"] :=
      isDir kind
    have isD : dir.path = [] ∧ name = ascii "d" := by
      rcases parts with none | one
      · simp at none
      · exact (List.append_eq_singleton_iff.mp one).elim
          (fun both => by simpa using both) (fun both => by simp at both)
    obtain ⟨isTop, rfl⟩ := isD
    have opened := openDir_of_dirAt reached
    have proper : Disk.isSpecial (ascii "d") = false := by decide
    have sameRoot : dir.root = .layer layerIdx :=
      (Disk.openDir_append_name opened proper).1
    refine ⟨rfl, ?_⟩
    rw [reached, ← sameRoot, ← isTop]

/-- The marked directories are those at the roots of the layers. -/
theorem mergedDir_marked
    {layerIdx : Nat}
    {path : Path}
    {name : Name}
    {isOpaque : Bool}
    (marked :
      Daemon.markAt (env 1) mergedDir path name layerIdx =
        some (.dir isOpaque)) :
    ∃ found, mergedDir.objAt layerIdx path name = some found ∧
      found.kind = .dir := by
  unfold Daemon.markAt verdictAt at marked
  split at marked
  · cases marked
  · cases marked
  · cases marked
  · next verdict =>
      split at verdict
      · cases verdict
      · split at verdict
        · cases verdict
        · next found holds =>
            split at verdict
            · cases verdict
            · simp only [Verdict.object.injEq, decide_eq_true_eq] at verdict
              exact ⟨found, holds, verdict⟩

/-- A directory that is made of layers with a directory in them is the root. -/
theorem mergedDir_top
    {layerIdx : Nat}
    {path : Path}
    (member : layerIdx ∈ (Daemon.stack (env 1) mergedDir).dirs path)
    (top :
      mergedDir.dirAt (.layer layerIdx) path = some ⟨.layer layerIdx, []⟩) :
    path = [] := by
  rcases List.eq_nil_or_concat path with rfl | ⟨parents, last, rfl⟩
  · rfl
  · rw [List.concat_eq_append] at member top
    rw [Layered.dirs_append] at member
    obtain ⟨isOpaque, marked⟩ := Mark.mark_of_mem_dirs member
    obtain ⟨found, holds, kind⟩ := mergedDir_marked marked
    obtain ⟨rfl, isRoot⟩ := (mergedDir_objAt holds).2 kind
    obtain ⟨dir, reached, stored⟩ := Option.bind_eq_some_iff.mp holds
    rw [isRoot] at reached
    cases reached
    have proper : Disk.isSpecial (ascii "d") = false := by decide
    have opened := openDir_of_dirAt isRoot
    have below := ((Disk.openDir_append_name opened proper).2.2 found stored).1
      kind
    rw [Disk.dirAt, below] at top
    cases top

theorem mergedDir_tidy :
    Daemon.TidyStack (env 1) mergedDir where
  rooted := by
    intro layerIdx isLayer
    refine ⟨⟨.layer layerIdx, []⟩, ?_⟩
    have both : layerIdx = 0 ∨ layerIdx = 1 := by
      simp [env] at isLayer
      omega
    rcases both with rfl | rfl <;> decide +kernel
  typed := by
    intro layerIdx _
    rfl
  named := by
    intro layerIdx path
    rw [Option.eq_none_iff_forall_ne_some]
    intro found holds
    obtain ⟨name | name | name, -⟩ := mergedDir_objAt holds <;> cases name
  simple := by
    intro layerIdx path name
    rw [Option.eq_none_iff_forall_ne_some]
    intro found holds
    obtain ⟨name | name | name, -⟩ := mergedDir_objAt holds <;>
      simp [whName, whPrefix, ascii] at name
  hidden := by
    intro path name upper layerIdx lower _ _ _ _ _ _ _ whited
    obtain ⟨found, holds⟩ := Option.ne_none_iff_exists'.mp whited
    obtain ⟨name | name | name, -⟩ := mergedDir_objAt holds <;>
      simp [whName, whPrefix, ascii] at name
  alone := by
    intro path name _ isShown others
    obtain ⟨before, rest, layers, -, -, isDir⟩ := Mark.split_of_top isShown
    obtain ⟨isOpaque, marked⟩ := isDir rfl
    obtain ⟨found, holds, kind⟩ := mergedDir_marked marked
    obtain ⟨rfl, isRoot⟩ := (mergedDir_objAt holds).2 kind
    have member : 0 ∈ (Daemon.stack (env 1) mergedDir).dirs path := by
      rw [layers]
      simp
    obtain rfl := mergedDir_top member isRoot
    have absent := others 1 (by decide +kernel) (by decide)
    exact absurd absent (by decide +kernel)

/-- The root is read, `d` is looked up, and it is read by that. -/
def readMerged : List Call :=
  [call (.opendir 1), call (.lookup 1 (ascii "d"))]

def merged : Sys :=
  .run (env 1) (.mount (env 1) mergedDir) readMerged

end Sample

namespace Sys

open Daemon Sample

/-- A number that stands for a directory that was read, as a test. -/
theorem asksLoaded_of_test
    {sys : Sys}
    {parent : UInt64}
    (tests :
      ((sys.forest.resolve parent).bind sys.nodes.get?).all (·.isLoaded) =
        true) :
    AsksLoaded parent sys := by
  intro dir node resolved stored
  rw [resolved, Option.bind_some, stored] at tests
  exact tests

theorem looks_readMerged :
    LooksRun (env 1) (mount (env 1) mergedDir) readMerged := by
  refine ⟨rfl, trivial, rfl, asksLoaded_of_test ?_, trivial⟩
  decide +kernel

end Sys

end FuseOverlay
