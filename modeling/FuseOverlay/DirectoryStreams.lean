import FuseOverlay.Sample
import FuseOverlay.TableSteps

namespace FuseOverlay

/-!
# Directory streams

`opendir` takes a snapshot of a directory: `.`, `..` and the live children that
are not hidden, in the order of their names.  No other request but `releasedir`
touches the snapshot, and `readdir` and `readdirplus` cut it at offsets that
are positions in it, so a reader that goes on at the last offset it was given
gets each entry once.
-/

open Act (Keeps Holds Gives)

/-! ## The snapshot -/

/-- A name of the directory that a listing shows. -/
def NodeArena.Visible
    (nodes : NodeArena)
    (dir : NodeId)
    (name : Name) : Prop :=
  ∃ child node, nodes.Entry dir name child ∧ nodes.get? child = some node ∧
    node.hidden = false

/-- The names of the visible children, each once, in increasing order. -/
structure NodeArena.Shows
    (nodes : NodeArena)
    (dir : NodeId)
    (names : List Name) : Prop where
  increasing : names.Pairwise (· < ·)
  visible : ∀ name, name ∈ names ↔ nodes.Visible dir name

namespace Daemon

open Syscall Whiteout

variable {env : Env}

/-- Whether a child of a directory gets an entry. -/
def isShown
    (nodes : NodeArena)
    (entry : Name × NodeId) : Bool :=
  (nodes.get? entry.2).any fun child => !child.hidden

/-- The children of a node in the order of `build_dir_entries`. -/
def sortedChildren (node : OvlNode) : List (Name × NodeId) :=
  ((node.children.map FMap.toList).getD []).insertionSort
    fun first second => nameLe first.1 second.1

theorem nameLe_iff
    {first second : Name} :
    nameLe first second = true ↔ first ≤ second := by
  unfold nameLe
  simp [List.not_lt]

theorem pairwise_sortedChildren
    (node : OvlNode) :
    (sortedChildren node).Pairwise fun first second =>
      first.1 < second.1 := by
  unfold sortedChildren
  generalize listed : (node.children.map FMap.toList).getD [] = children
  have nodup : (children.map Prod.fst).Nodup := by
    subst listed
    cases node.children with
    | none =>
        exact List.nodup_nil
    | some map =>
        have keys : map.toList.map Prod.fst = AList.keys map := by
          unfold FMap.toList AList.keys
          rw [List.map_map]
          rfl
        simp only [Option.map_some, Option.getD_some]
        rw [keys]
        exact map.keys_nodup
  let order : Name × NodeId → Name × NodeId → Prop := fun first second =>
    nameLe first.1 second.1 = true
  have total : Std.Total order := ⟨fun first second => by
    change nameLe _ _ = true ∨ nameLe _ _ = true
    rw [nameLe_iff, nameLe_iff]
    exact List.le_total first.1 second.1⟩
  have trans : IsTrans _ order := ⟨fun first second third before after => by
    change nameLe _ _ = true
    rw [nameLe_iff]
    exact List.le_trans (nameLe_iff.mp before) (nameLe_iff.mp after)⟩
  have sorted := List.pairwise_insertionSort order children
  have perm := List.perm_insertionSort order children
  have apart :
      (children.insertionSort order).Pairwise fun first second =>
        first.1 ≠ second.1 := by
    have nodupSorted := (perm.map Prod.fst).nodup_iff.mpr nodup
    exact List.pairwise_map.mp nodupSorted
  refine (sorted.and apart).imp fun {first second} both => ?_
  rcases List.le_iff_lt_or_eq.mp (nameLe_iff.mp both.1) with less | same
  · exact less
  · exact absurd same both.2

/-! ## The entries of a snapshot -/

section Entries

variable {forest : Forest}

/-- The nodes and the table stay the given ones. -/
def At
    (forest : Forest)
    (sys : Sys) : Prop :=
  sys.forest = forest

theorem at_lift
    {α : Type}
    (act : Syscall α) :
    Keeps (At forest) (liftM act : Daemon α) :=
  keeps_lift (· = forest) act

/-- What is read of the nodes is what the given ones hold. -/
theorem at_getNode
    {α : Type}
    {id : NodeId}
    {next : Option OvlNode → Daemon α}
    {post : α → Sys → Prop}
    (nextGives : Gives (At forest) (next (forest.nodes.get? id)) post) :
    Gives (At forest) (getNode id >>= next) post := by
  refine .getsBind fun found => ?_
  rintro sys value later ⟨holds, read⟩ returned
  have same : forest.nodes.get? id = found := by
    rw [← holds]
    exact read
  rw [same] at nextGives
  exact nextGives sys value later holds returned

theorem at_rplStatWithPath
    (id : NodeId)
    (path : Path) :
    Keeps (At forest) (rplStatWithPath env id path) := by
  refine Keeps.bind (keeps_node id) fun found => ?_
  refine Keeps.bind (at_lift _) fun st => ?_
  refine Keeps.bind (at_lift _) fun layer => ?_
  refine Keeps.bind (at_lift _) fun overridden => ?_
  exact Keeps.bind (at_lift _) fun ino => Keeps.gets _

theorem gives_selfEntry
    (label : Name)
    (nodeId : NodeId)
    (node : OvlNode)
    (path : Path) :
    Gives (At forest) (selfEntry env label nodeId node path)
      fun entry sys => At forest sys ∧ entry.name = label := by
  refine .bind (.ofKeeps (at_lift _)) fun ino => ?_
  refine .bind (.attempt (at_rplStatWithPath nodeId path)) fun attr => ?_
  exact .pure fun sys holds => ⟨holds, rfl⟩

theorem gives_parentEntry
    (node : OvlNode)
    (self : HandleEntry) :
    Gives (At forest) (parentEntry env node self)
      fun entry sys => At forest sys ∧ entry.name = dotDotName := by
  unfold parentEntry
  cases node.parent with
  | none =>
      exact .pure fun sys holds => ⟨holds, rfl⟩
  | some parentId =>
      refine .bind (.ofKeeps (Keeps.gets _)) fun found => ?_
      cases found with
      | none =>
          exact .pure fun sys holds => ⟨holds, rfl⟩
      | some parent =>
          exact .bind (.ofKeeps (Keeps.gets _)) fun path =>
            gives_selfEntry dotDotName parentId parent path

/-- A child gets an entry under its name if it is live and not hidden. -/
theorem gives_childEntry
    (dirPath : Path)
    (entry : Name × NodeId) :
    Gives (At forest) (childEntry env dirPath entry)
      fun result sys => At forest sys ∧
        result.map HandleEntry.name =
          if isShown forest.nodes entry then some entry.1 else none := by
  refine at_getNode ?_
  unfold isShown
  cases forest.nodes.get? entry.2 with
  | none =>
      exact .pure fun sys holds => ⟨holds, rfl⟩
  | some child =>
      simp only
      split
      · rename_i hidden
        refine .pure fun sys holds => ⟨holds, ?_⟩
        rw [if_neg (by simp [hidden])]
        rfl
      · rename_i visible
        refine .bind (.ofKeeps (at_lift _)) fun ino => ?_
        refine .bind (.attempt (at_rplStatWithPath _ _)) fun attr => ?_
        refine .pure fun sys holds => ⟨holds, ?_⟩
        rw [if_pos (by simpa using visible)]
        rfl

/-- The entries of the children are those of the shown ones, in order. -/
theorem gives_childEntries
    (dirPath : Path)
    (children : List (Name × NodeId)) :
    Gives (At forest) (childEntries env dirPath children)
      fun entries sys => At forest sys ∧
        entries.map HandleEntry.name =
          (children.filter (isShown forest.nodes)).map Prod.fst := by
  induction children with
  | nil =>
      exact .pure fun sys holds => ⟨holds, rfl⟩
  | cons entry rest inductionHypothesis =>
      refine .bind (gives_childEntry dirPath entry) fun first => ?_
      refine .imp (.given fun named => ?_) (fun _ holds => holds.symm)
        fun _ _ holds => holds
      refine .bind inductionHypothesis fun others => ?_
      refine .pure fun sys holds => ⟨holds.1, ?_⟩
      rw [List.map_append, holds.2, List.filter_cons]
      split at named
      · rename_i shown
        rw [if_pos shown, List.map_cons]
        cases first with
        | none =>
            cases named
        | some made =>
            rw [← Option.some.inj named]
            rfl
      · rename_i notShown
        rw [if_neg notShown]
        cases first with
        | none =>
            rfl
        | some made =>
            cases named

end Entries

/-- The names of the shown children are the visible names. -/
theorem shows_sortedChildren
    {nodes : NodeArena}
    {dir : NodeId}
    {node : OvlNode}
    (stored : nodes.get? dir = some node) :
    nodes.Shows dir
      (((sortedChildren node).filter (isShown nodes)).map Prod.fst) where
  increasing :=
    List.pairwise_map.mpr ((pairwise_sortedChildren node).filter _)
  visible := by
    intro name
    have listed (child : NodeId) :
        (name, child) ∈ sortedChildren node ↔
          node.getChild name = some child := by
      unfold sortedChildren
      rw [List.mem_insertionSort, OvlNode.getChild_eq]
      cases node.children with
      | none =>
          simp
      | some map =>
          exact FMap.mem_toList_iff
    constructor
    · intro member
      obtain ⟨⟨_, child⟩, inList, rfl⟩ := List.mem_map.mp member
      obtain ⟨isChild, shown⟩ := List.mem_filter.mp inList
      obtain ⟨childNode, childStored, notHidden⟩ :=
        (Option.any_eq_true ..).mp shown
      exact ⟨child, childNode, ⟨node, stored, (listed child).mp isChild⟩,
        childStored, by simpa using notHidden⟩
    · rintro ⟨child, childNode, ⟨parent, parentStored, isChild⟩,
        childStored, notHidden⟩
      rw [stored] at parentStored
      cases parentStored
      refine List.mem_map.mpr ⟨(name, child), List.mem_filter.mpr
        ⟨(listed child).mpr isChild, ?_⟩, rfl⟩
      simp [isShown, childStored, notHidden]

/-! ## Opening -/

section Opening

variable {ino : UInt64} {dir : NodeId}

/-- The number leads to the live directory. -/
def Resolved
    (ino : UInt64)
    (dir : NodeId)
    (sys : Sys) : Prop :=
  TreeOk sys ∧ sys.forest.resolve ino = some dir ∧ sys.nodes.Live dir

theorem Still.resolved
    {α : Type}
    {act : Daemon α}
    (still : Still act) :
    Keeps (Resolved ino dir) act := by
  rintro sys ⟨ok, resolved, live⟩
  obtain ⟨sound, sameNumbers⟩ := still sys.forest sys (.refl ok)
  exact ⟨sound.ok, (sameNumbers ino).trans resolved, sound.grown.live live⟩

/-- The entries of an open directory. -/
structure Snapshot
    (ino : UInt64)
    (names : List Name)
    (entries : List HandleEntry)
    (sys : Sys) : Prop where
  named : entries.map HandleEntry.name = dotName :: dotDotName :: names
  shown : ∃ dir, sys.forest.resolve ino = some dir ∧ sys.nodes.Shows dir names

/-- `build_dir_entries` of a live directory -/
theorem gives_buildDirEntries :
    Gives (Resolved ino dir) (buildDirEntries env dir)
      fun entries sys => ∃ names, Snapshot ino names entries sys := by
  refine .bind (.ofKeeps (still_reloadDir dir).resolved) fun _ => ?_
  intro sys entries later resolved returned
  have atNow : At sys.forest sys := rfl
  refine (?_ : Gives (At sys.forest) (getNode dir >>= _) fun entries now =>
    ∃ names, Snapshot ino names entries now) sys entries later atNow returned
  refine at_getNode ?_
  obtain ⟨-, number, node, stored⟩ := resolved
  have stored : sys.forest.nodes.get? dir = some node := stored
  rw [stored]
  simp only
  refine .bind (.ofKeeps (Keeps.gets _)) fun dirPath => ?_
  refine .bind (gives_selfEntry _ dir node dirPath) fun self => ?_
  refine .imp (.given fun selfNamed => ?_) (fun _ holds => holds.symm)
    fun _ _ holds => holds
  refine .bind (gives_parentEntry node self) fun parent => ?_
  refine .imp (.given fun parentNamed => ?_) (fun _ holds => holds.symm)
    fun _ _ holds => holds
  refine .bind (gives_childEntries dirPath (sortedChildren node)) fun rest => ?_
  refine .pure fun now holds => ?_
  refine ⟨((sortedChildren node).filter (isShown sys.forest.nodes)).map
    Prod.fst, ?_, dir, ?_, ?_⟩
  · rw [List.map_cons, List.map_cons, selfNamed, parentNamed, holds.2]
  · rw [holds.1]
    exact number
  · change now.forest.nodes.Shows dir _
    rw [holds.1]
    exact shows_sortedChildren stored

/-- `opendir` stores a snapshot of the directory under a new handle. -/
theorem gives_opendirOf
    (ino : UInt64) :
    Gives TreeOk (opendirOf env ino)
      fun reply sys => ∃ fh names entries,
        reply = .opened fh ∧ Snapshot ino names entries sys ∧
          HoldsDir fh entries sys := by
  refine .bind (.ofKeeps (Keeps.runIf treeOk_growthRule.ensureRootLoaded))
    fun _ => ?_
  refine .getsBind fun resolved => ?_
  refine .orFailBind fun dir isDir => ?_
  subst isDir
  refine .getsBind fun found => ?_
  refine .checkBind fun checked => ?_
  refine .imp (?_ : Gives (Resolved ino dir) _ _) ?_ fun _ _ holds => holds
  · refine .bind (.ofKeeps (still_reloadDir dir).resolved) fun _ => ?_
    refine .bind gives_buildDirEntries fun entries => ?_
    rintro sys reply later ⟨names, snapshot⟩ returned
    cases returned
    exact ⟨sys.nextDh, names, entries, rfl, ⟨snapshot.named, snapshot.shown⟩,
      Nat.lt_succ_self _, FMap.get?_set_self ..⟩
  · rintro sys ⟨⟨ok, resolves⟩, stored⟩
    refine ⟨ok, resolves, ?_⟩
    cases found with
    | none =>
        cases checked
    | some node =>
        exact ⟨node, stored⟩

end Opening

/-! ## Handles over requests -/

section Handles

variable {fh : Nat} {entries : List HandleEntry}

/-- Nothing that the requests do to nodes and table touches a handle. -/
theorem linkRule_holdsDir :
    LinkRule env (HoldsDir fh entries) where
  calm := fun calm => calm.handles fh entries
  nodes := fun _ holds => holds
  registers := by
    intro id ino dev mode sys holds
    unfold Daemon.register
    split <;> exact holds
  unlinks := fun _ _ holds => holds

theorem holdsDir_releasedir
    {other : Nat}
    (different : fh ≠ other) :
    Keeps (HoldsDir fh entries) (releasedir other) := by
  rintro sys ⟨given, stored⟩
  refine ⟨given, ?_⟩
  change (sys.openDirs.remove other).get? fh = some entries
  rw [FMap.get?_remove, if_neg different]
  exact stored

/-- Only its own `releasedir` takes a handle away. -/
theorem holdsDir_handle
    {request : Request}
    (stays : request ≠ .releasedir fh) :
    Keeps (HoldsDir fh entries) (handle env request) := by
  have rule := @linkRule_holdsDir env fh entries
  have releases :
      ∀ other, request = .releasedir other →
        Keeps (HoldsDir fh entries) (releasedir other) := by
    rintro other rfl
    exact holdsDir_releasedir fun same => stays (congrArg _ same.symm)
  cases grows : removesNode request with
  | false =>
      exact (rule.growth fun _ _ holds => holds).handle grows releases
  | true =>
      cases request with
      | forget ino nlookup =>
          exact fun _ holds => holds
      | unlink parent name =>
          exact rule.doRm parent name false
      | rmdir parent name =>
          exact rule.doRm parent name true
      | rename parent name newparent newname flags =>
          exact rule.rename parent name newparent newname flags
      | _ =>
          cases grows

/-! ## Reads -/

/-- The entries of a reply with their offsets. -/
def accepted : Except Errno Reply → Option (List (Nat × Name))
  | .ok (.directory entries) =>
      some (entries.map fun entry => (entry.2.1, entry.2.2))
  | .ok (.directoryPlus entries) =>
      some (entries.map fun entry => (entry.2.1, entry.2.2.1))
  | _ => none

/-- A part of a snapshot as a reply delivers it. -/
def slice
    (entries : List HandleEntry)
    (offset fits : Nat) :
    List (Nat × Name) :=
  ((entries.zipIdx.drop offset).take fits).map fun entry =>
    (entry.2 + 1, entry.1.name)

theorem handleEntries_eq
    {sys : Sys}
    (holds : HoldsDir fh entries sys)
    (offset : Nat) :
    handleEntries fh offset sys =
      (.ok (entries.zipIdx.drop offset), sys) := by
  have asked :
      (Act.gets fun sys : Sys => sys.openDirs.get? fh : Daemon _) sys =
        (.ok (some entries), sys) := by
    rw [← holds.2]
    rfl
  unfold handleEntries
  rw [Act.bind_ok asked]
  rfl

theorem accepted_readdir
    {sys : Sys}
    (holds : HoldsDir fh entries sys)
    (offset fits : Nat) :
    accepted (readdir fh offset fits sys).1 =
      some (slice entries offset fits) := by
  unfold readdir
  rw [Act.bind_ok (handleEntries_eq holds offset), Act.pure_apply]
  simp only [accepted, slice, List.map_map]
  rfl

/-- Registering an entry gives a number, whatever became of its node. -/
theorem plusIno_returns
    (entry : HandleEntry)
    (sys : Sys) :
    ∃ ino later, plusIno env entry sys = (.ok ino, later) := by
  unfold plusIno
  cases entry.nodeId with
  | none =>
      exact ⟨entry.ino, sys, rfl⟩
  | some nodeId =>
      simp only
      rw [Act.bind_ok (show getNode nodeId sys =
        (.ok (sys.nodes.get? nodeId), sys) from rfl)]
      cases sys.nodes.get? nodeId with
      | none =>
          exact ⟨entry.ino, sys, rfl⟩
      | some node =>
          simp only
          cases registered : Daemon.register env nodeId node.tmpIno
              node.tmpDev node.mode sys with
          | mk outcome later =>
              have returned : ∃ answer, outcome = .ok answer := by
                have first := congrArg Prod.fst registered
                unfold Daemon.register at first
                split at first <;> exact ⟨_, first.symm⟩
              obtain ⟨answer, rfl⟩ := returned
              rw [Act.bind_ok registered]
              cases answer with
              | none =>
                  exact ⟨entry.ino, later, rfl⟩
              | some fuseIno =>
                  exact ⟨fuseIno, _, rfl⟩

/-- The loop accepts the entries that fit, each at its own offset. -/
theorem plusEntries_returns
    (fits : Nat)
    (rest : List (HandleEntry × Nat))
    (sys : Sys) :
    ∃ listed later, plusEntries env fits rest sys = (.ok listed, later) ∧
      listed.map (fun entry => (entry.2.1, entry.2.2.1)) =
        (rest.take fits).map fun entry => (entry.2 + 1, entry.1.name) := by
  induction rest generalizing fits sys with
  | nil =>
      cases fits <;> exact ⟨[], sys, rfl, by simp⟩
  | cons entry rest inductionHypothesis =>
      obtain ⟨fuseIno, between, registered⟩ :=
        @plusIno_returns env entry.1 sys
      cases fits with
      | zero =>
          refine ⟨[], between, ?_, rfl⟩
          rw [plusEntries, Act.bind_ok registered]
          rfl
      | succ fits =>
          obtain ⟨others, later, ran, offsets⟩ :=
            inductionHypothesis fits between
          let attr := entry.1.attr.map fun st => { st with ino := fuseIno }
          refine ⟨(fuseIno, entry.2 + 1, entry.1.name, attr) :: others, later,
            ?_, ?_⟩
          · rw [plusEntries, Act.bind_ok registered, Act.bind_ok ran]
            rfl
          · rw [List.map_cons, offsets]
            rfl

theorem accepted_readdirplus
    {sys : Sys}
    (holds : HoldsDir fh entries sys)
    (offset fits : Nat) :
    accepted (readdirplus env fh offset fits sys).1 =
      some (slice entries offset fits) := by
  obtain ⟨listed, later, ran, offsets⟩ :=
    @plusEntries_returns env fits (entries.zipIdx.drop offset) sys
  unfold readdirplus
  rw [Act.bind_ok (handleEntries_eq holds offset), Act.map_ok ran]
  exact congrArg some offsets

end Handles

end Daemon

/-! ## Streams -/

open Daemon

/-- Who reads a handle: the last offset, the accepted names, the end. -/
structure Reader where
  sys : Sys
  offset : Nat
  names : List Name
  ended : Bool

namespace Reader

/-- A read goes on at the last offset, with room for an entry at least. -/
def Reads
    (fh : Nat)
    (reader : Reader)
    (request : Request) : Prop :=
  ∃ fits, 0 < fits ∧
    (request = .readdir fh reader.offset fits ∨
      request = .readdirplus fh reader.offset fits)

/-- The reader takes the entries of a reply; none at all is the end. -/
def accept
    (reader : Reader)
    (sys : Sys)
    (entries : List (Nat × Name)) :
    Reader where
  sys := sys
  offset := (entries.getLast?.map Prod.fst).getD reader.offset
  names := reader.names ++ entries.map Prod.snd
  ended := reader.ended || entries.isEmpty

end Reader

/--
The ways to read a handle from the state after `opendir` on: reads of both
kinds in any order, and any other request but its `releasedir` in between.
-/
inductive Reading
    (env : Env)
    (fh : Nat)
    (opened : Sys) : Reader → Prop where
  | opened : Reading env fh opened ⟨opened, 0, [], false⟩
  | other
      {reader : Reader}
      {call : Call} :
      Reading env fh opened reader →
      call.request ≠ .releasedir fh →
      Reading env fh opened
        { reader with sys := (reader.sys.step env call).2 }
  | read
      {reader : Reader}
      {call : Call}
      {entries : List (Nat × Name)} :
      Reading env fh opened reader →
      reader.Reads fh call.request →
      accepted (reader.sys.step env call).1 = some entries →
      Reading env fh opened
        (reader.accept (reader.sys.step env call).2 entries)

/-- The handle is there, and the reader has got what lies before its offset. -/
structure Reader.InStep
    (fh : Nat)
    (entries : List HandleEntry)
    (reader : Reader) : Prop where
  holds : HoldsDir fh entries reader.sys
  within : reader.offset ≤ entries.length
  got : reader.names = (entries.map HandleEntry.name).take reader.offset
  complete : reader.ended = true → reader.offset = entries.length

section Stream

variable
  {env : Env}
  {fh : Nat}
  {entries : List HandleEntry}

/-- A read at the reader's offset gets the next part of the snapshot. -/
theorem Reader.InStep.accepted_read
    {reader : Reader}
    (inStep : reader.InStep fh entries)
    {call : Call}
    (reads : reader.Reads fh call.request) :
    ∃ fits, 0 < fits ∧
      accepted (reader.sys.step env call).1 =
        some (slice entries reader.offset fits) := by
  obtain ⟨fits, room, request | request⟩ := reads
  · refine ⟨fits, room, ?_⟩
    unfold Sys.step
    rw [request]
    exact @accepted_readdir _ _ (reader.sys.begin call) inStep.holds _ _
  · refine ⟨fits, room, ?_⟩
    unfold Sys.step
    rw [request]
    exact @accepted_readdirplus _ _ _ (reader.sys.begin call) inStep.holds _ _

theorem slice_eq
    (entries : List HandleEntry)
    (offset fits : Nat) :
    slice entries offset fits =
      (((entries.drop offset).take fits).zipIdx offset).map fun entry =>
        (entry.2 + 1, entry.1.name) := by
  have same :
      (entries.zipIdx.drop offset).take fits =
        ((entries.drop offset).take fits).zipIdx offset := by
    apply List.ext_getElem
    · simp
    · intro place _ _
      simp
  unfold slice
  rw [same]

/-- The names of a part of the snapshot. -/
theorem slice_names
    (entries : List HandleEntry)
    (offset fits : Nat) :
    (slice entries offset fits).map Prod.snd =
      ((entries.map HandleEntry.name).drop offset).take fits := by
  rw [slice_eq, List.map_map, ← List.map_drop, ← List.map_take]
  have firsts := List.zipIdx_map_fst offset ((entries.drop offset).take fits)
  calc
    _ = ((((entries.drop offset).take fits).zipIdx offset).map
          Prod.fst).map HandleEntry.name := by
      rw [List.map_map]
      rfl
    _ = _ := by
      rw [firsts]

/-- The last offset of a part is the place after it. -/
theorem slice_offset
    (entries : List HandleEntry)
    (offset fits : Nat) :
    ((slice entries offset fits).getLast?.map Prod.fst).getD offset =
      offset + ((entries.drop offset).take fits).length := by
  rw [slice_eq]
  generalize (entries.drop offset).take fits = part
  rw [List.getLast?_map, List.getLast?_zipIdx]
  cases part using List.reverseRecOn with
  | nil =>
      rfl
  | append_singleton before last =>
      simp
      omega

theorem slice_isEmpty
    (entries : List HandleEntry)
    {offset fits : Nat}
    (room : 0 < fits) :
    slice entries offset fits = [] ↔ entries.length ≤ offset := by
  rw [slice_eq, List.map_eq_nil_iff, List.zipIdx_eq_nil_iff,
    List.take_eq_nil_iff, List.drop_eq_nil_iff]
  omega

/-- Taking in a part of the snapshot keeps the reader in step. -/
theorem Reader.InStep.accept
    {reader : Reader}
    (inStep : reader.InStep fh entries)
    {sys : Sys}
    (holds : HoldsDir fh entries sys)
    {fits : Nat}
    (room : 0 < fits) :
    (reader.accept sys (slice entries reader.offset fits)).InStep
      fh entries := by
  obtain ⟨-, within, got, complete⟩ := inStep
  have offset :
      (reader.accept sys (slice entries reader.offset fits)).offset =
        reader.offset + ((entries.drop reader.offset).take fits).length :=
    slice_offset entries reader.offset fits
  refine ⟨holds, ?_, ?_, ?_⟩
  · rw [offset, List.length_take, List.length_drop]
    omega
  · rw [offset]
    change reader.names ++ (slice entries reader.offset fits).map Prod.snd = _
    rw [got, slice_names, List.take_add]
    congr 1
    rw [List.length_take, List.length_drop]
    simp [List.take_eq_take_iff]
  · intro ended
    rw [offset, List.length_take, List.length_drop]
    change (reader.ended ||
      (slice entries reader.offset fits).isEmpty) = true at ended
    rw [Bool.or_eq_true, List.isEmpty_iff, slice_isEmpty entries room] at ended
    rcases ended with before | passed
    · rw [complete before]
      omega
    · omega

/-- Every way of reading stays in step with the snapshot. -/
theorem Reading.inStep
    {opened : Sys}
    (holds : HoldsDir fh entries opened)
    {reader : Reader}
    (reading : Reading env fh opened reader) :
    reader.InStep fh entries := by
  induction reading with
  | opened =>
      exact ⟨holds, Nat.zero_le _, rfl, fun ended => nomatch ended⟩
  | @other reader call _ stays inductionHypothesis =>
      obtain ⟨before, within, got, complete⟩ := inductionHypothesis
      exact ⟨holdsDir_handle stays (reader.sys.begin call) before, within, got,
        complete⟩
  | @read reader call accepts _ reads replied inductionHypothesis =>
      have stays : call.request ≠ .releasedir fh := by
        obtain ⟨fits, -, request | request⟩ := reads <;>
        · rw [request]
          simp
      obtain ⟨fits, room, answered⟩ := inductionHypothesis.accepted_read reads
      rw [answered] at replied
      cases replied
      exact inductionHypothesis.accept
        (holdsDir_handle stays (reader.sys.begin call)
          inductionHypothesis.holds) room

end Stream

/--
However a handle is read, with other requests in between: the accepted names
are the first of `.`, `..` and the names that the directory showed when it was
opened, each once and in order; every read is answered, with no entry exactly
when all have been accepted; so a reader that came to the end has got them all.
-/
theorem Sys.directory_stream
    {env : Env}
    {disk : Disk}
    {sys : Sys}
    {call : Call}
    {ino : UInt64}
    {fh : Nat}
    (reachable : Reachable env disk sys)
    (opens : call.request = .opendir ino)
    (replied : (sys.step env call).1 = .ok (.opened fh)) :
    ∃ dir names,
      (sys.step env call).2.forest.resolve ino = some dir ∧
      (sys.step env call).2.nodes.Shows dir names ∧
      ∀ reader, Reading env fh (sys.step env call).2 reader →
        reader.names = (dotName :: dotDotName :: names).take reader.offset ∧
        (reader.ended = true →
          reader.names = dotName :: dotDotName :: names) ∧
        ∀ next, reader.Reads fh next.request →
          ∃ entries,
            accepted (reader.sys.step env next).1 = some entries ∧
            (entries = [] ↔
              reader.names = dotName :: dotDotName :: names) := by
  obtain ⟨calls, rfl⟩ := reachable
  generalize before : (mount env disk).run env calls = sys at replied ⊢
  have ok : TreeOk (sys.begin call) := by
    rw [← before]
    exact treeOk_run (treeOk_mount env disk) calls
  rcases ran : opendirOf env ino (sys.begin call) with ⟨outcome, opened⟩
  have stepped : sys.step env call = (outcome, opened) := by
    unfold step
    rw [opens]
    exact ran
  rw [stepped] at replied ⊢
  simp only at replied
  subst replied
  obtain ⟨_, names, entries, ⟨⟩, ⟨named, dir, resolved, shows⟩, holds⟩ :=
    gives_opendirOf ino (sys.begin call) _ opened ok ran
  refine ⟨dir, names, resolved, shows, fun reader reading => ?_⟩
  have inStep := reading.inStep holds
  have whole :
      reader.offset = entries.length →
        reader.names = dotName :: dotDotName :: names := by
    intro atEnd
    rw [inStep.got, atEnd, List.take_of_length_le (by simp), named]
  refine ⟨named ▸ inStep.got, fun ended => whole (inStep.complete ended),
    fun next reads => ?_⟩
  obtain ⟨fits, room, answered⟩ := inStep.accepted_read reads
  refine ⟨_, answered, (slice_isEmpty entries room).trans ?_⟩
  constructor
  · intro passed
    exact whole (Nat.le_antisymm inStep.within passed)
  · intro all
    have lengths := congrArg List.length all
    rw [inStep.got, named, List.length_take, ← named, List.length_map] at lengths
    omega

namespace Sample

/-- The root of the upper layer with one file, opened and read at once. -/
theorem directory_stream_upperFile :
    ∃ dir names,
      ((foundUpper.step (env 0) (call (.opendir 1))).2).forest.resolve 1 =
        some dir ∧
      (foundUpper.step (env 0) (call (.opendir 1))).2.nodes.Shows dir names ∧
      ∀ reader,
        Reading (env 0) 1 (foundUpper.step (env 0) (call (.opendir 1))).2
          reader →
        reader.names = (dotName :: dotDotName :: names).take reader.offset ∧
        (reader.ended = true →
          reader.names = dotName :: dotDotName :: names) ∧
        ∀ next, reader.Reads 1 next.request →
          ∃ entries,
            accepted (reader.sys.step (env 0) next).1 = some entries ∧
            (entries = [] ↔
              reader.names = dotName :: dotDotName :: names) :=
  Sys.directory_stream ⟨[lookupFile], rfl⟩ rfl (by decide +kernel)

end Sample

end FuseOverlay
