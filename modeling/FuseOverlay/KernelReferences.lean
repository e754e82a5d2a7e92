import FuseOverlay.Sample
import FuseOverlay.TableSteps

namespace FuseOverlay

/-!
# Lookup counts over runs of requests

The kernel counts the entry replies that carry a number and the lookups it
forgot.  Every handler that answers with an entry registers the node and counts
one lookup of the number it answers with; `readdirplus` does so for every entry
it comes to, also for those that the kernel does not count.
-/

open Act (Keeps Holds)

/-- One more lookup for every occurrence of a number. -/
def gain
    (held : UInt64 → Nat)
    (numbers : List UInt64) :
    UInt64 → Nat :=
  fun number => held number + numbers.count number

@[simp] theorem gain_nil
    (held : UInt64 → Nat) :
    gain held [] = held :=
  rfl

theorem gain_single
    (held : UInt64 → Nat)
    (number : UInt64) :
    gain held [number] = Function.update held number (held number + 1) := by
  funext query
  unfold gain
  by_cases same : query = number
  · simp [same]
  · have others : number ≠ query := fun back => same back.symm
    simp [Function.update_of_ne same, others]

theorem gain_cons
    (held : UInt64 → Nat)
    (number : UInt64)
    (rest : List UInt64) :
    gain (gain held [number]) rest = gain held (number :: rest) := by
  funext query
  simp only [gain, List.count_cons, List.count_nil]
  omega

namespace InodeTable

/-- Only the numbers that the table can give out matter. -/
theorem Counted.congr
    {held held' : UInt64 → Nat}
    {inodes : InodeTable}
    (counted : Counted held inodes)
    (same : ∀ number, 2 ≤ number → held' number = held number) :
    Counted held' inodes where
  consistent := counted.consistent
  current := by
    intro key entry stored
    rw [same _ (counted.consistent.numbered key entry stored).1]
    exact counted.current stored
  dropped := by
    intro number inRange absent
    rw [same number inRange]
    exact counted.dropped inRange absent

end InodeTable

namespace Daemon

open Syscall Whiteout InodeTable

variable
  {env : Env}
  {held : UInt64 → Nat}

/-- The counts are right. -/
def Holding
    (held : UInt64 → Nat)
    (sys : Sys) : Prop :=
  Counted held sys.inodes

/-- An action that answers with a number counts one lookup of it. -/
def CountsNumber
    (held : UInt64 → Nat) :
    Except Errno UInt64 → Sys → Prop
  | .ok number, sys => Holding (gain held [number]) sys
  | .error _, sys => Holding held sys

/-- The same for an entry reply. -/
def CountsEntry
    (held : UInt64 → Nat) :
    Except Errno Reply → Sys → Prop
  | .ok (.entry st), sys => Holding (gain held [st.ino]) sys
  | .ok _, _ => False
  | .error _, sys => Holding held sys

/-- The same for the reply of `create`. -/
def CountsCreated
    (held : UInt64 → Nat) :
    Except Errno Reply → Sys → Prop
  | .ok (.created st _), sys => Holding (gain held [st.ino]) sys
  | .ok _, _ => False
  | .error _, sys => Holding held sys

theorem Calm.holding
    {α : Type}
    {act : Daemon α}
    (calm : Calm act) :
    Keeps (Holding held) act :=
  (beside_table (Counted held)).calm calm

/-! ## Counting one lookup -/

/-- The number that `register` answers with is the number of the key. -/
theorem holding_register
    (id : NodeId)
    (ino dev : UInt64)
    (mode : Mode) :
    Holds (Holding held) (register env id ino dev mode)
      fun outcome sys => Holding held sys ∧
        ∀ number, outcome = .ok (some number) →
          ∃ entry, sys.inodes.table.get? ⟨ino, dev⟩ = some entry ∧
            entry.fuseIno = number := by
  intro sys holding
  unfold register
  cases registered : sys.inodes.register env.order sys.nodes id ino dev
      mode with
  | none =>
      exact ⟨holding, fun number same => by cases same⟩
  | some answer =>
      obtain ⟨fuseIno, inodes⟩ := answer
      refine ⟨(Counted.register holding registered).1, ?_⟩
      intro number same
      cases same
      have answered :=
        (holding.consistent.register registered).2.1
      unfold keyToFuseIno at answered
      exact Option.map_eq_some_iff.mp answered

theorem holding_incLookup
    {key : InodeKey}
    {number : UInt64} :
    Holds
      (fun sys => Holding held sys ∧
        ∃ entry, sys.inodes.table.get? key = some entry ∧
          entry.fuseIno = number)
      (incLookup key)
      fun _ sys => Holding (gain held [number]) sys := by
  rintro sys ⟨holding, entry, stored, rfl⟩
  change Counted _ _
  rw [gain_single]
  exact Counted.incLookup holding stored

theorem counts_lookupIno
    (nodeId : NodeId)
    (found : OvlNode)
    (mode : Mode) :
    Holds (Holding held) (lookupIno env nodeId found mode)
      (CountsNumber held) := by
  unfold lookupIno
  split
  · refine Holds.bind (holding_register nodeId _ _ mode) (fun answer => ?_)
      (fun _ _ holds => holds.1)
    cases answer with
    | none =>
        exact fun sys holds => holds.1
    | some number =>
        intro sys holds
        have counted := @holding_incLookup held _ number sys
          ⟨holds.1, holds.2 number rfl⟩
        exact counted
  · -- The root is not in the table.
    intro sys holding
    refine Counted.congr holding fun number inRange => ?_
    have other : rootIno ≠ number := by
      rintro rfl
      exact absurd inRange (by decide)
    simp [gain, other]

/-! ## Looking up -/

/-- The end of the fast path: the entry is the one that was read. -/
theorem counts_fastReply
    (childId : NodeId)
    (key : InodeKey)
    (entry : OvlIno) :
    Holds
      (fun sys => Holding held sys ∧ sys.inodes.getByKey key = some entry)
      (do
        let path ← nodePath childId
        match ← (rplStatWithPath env childId path).attempt with
        | .error _ => pure none
        | .ok st => do
            incLookup key
            pure (some (.entry { st with ino := entry.fuseIno })) :
        Daemon (Option Reply))
      fun outcome sys =>
        match outcome with
        | .ok (some reply) => CountsEntry held (.ok reply) sys
        | _ => Holding held sys := by
  refine Holds.bind (Keeps.gets _) (fun path => ?_)
    (fun _ _ holds => holds.1)
  have asked : Keeps
      (fun sys => Holding held sys ∧ sys.inodes.getByKey key = some entry)
      (rplStatWithPath env childId path).attempt :=
    (beside_table fun inodes =>
      Counted held inodes ∧ inodes.getByKey key = some entry).calm
        (.attempt (.rplStatWithPath childId path))
  refine Holds.bind asked (fun outcome => ?_) (fun _ _ holds => holds.1)
  cases outcome with
  | error errno =>
      exact fun _ holds => holds.1
  | ok st =>
      rintro sys ⟨holding, stored⟩
      have counted := @holding_incLookup held key entry.fuseIno sys
        ⟨holding, entry, stored, rfl⟩
      exact counted

theorem counts_lookupFast
    (parent : UInt64)
    (name : Name) :
    Holds (Holding held) (lookupFast env parent name)
      fun outcome sys =>
        match outcome with
        | .ok (some reply) => CountsEntry held (.ok reply) sys
        | _ => Holding held sys := by
  refine Holds.bind (Keeps.gets _) (fun resolved => ?_) (fun _ _ holds => holds)
  cases resolved with
  | none =>
      exact fun _ holds => holds
  | some parentId =>
      refine Holds.bind (Keeps.gets _) (fun found => ?_)
        (fun _ _ holds => holds)
      cases found with
      | none =>
          exact fun _ holds => holds
      | some pnode =>
          refine Holds.bind (Keeps.check _ _) (fun _ => ?_)
            (fun _ _ holds => holds)
          cases pnode.getChild name with
          | none =>
              exact fun _ holds => holds
          | some childId =>
              refine Holds.bind (Calm.node childId).holding
                (fun child => ?_) (fun _ _ holds => holds)
              refine Holds.bind (Keeps.check _ _) (fun _ => ?_)
                (fun _ _ holds => holds)
              refine Holds.getsBind fun stored => ?_
              cases stored with
              | none =>
                  exact fun _ holds => holds.1
              | some entry =>
                  simp only
                  split
                  · exact counts_fastReply childId _ entry
                  · exact fun _ holds => holds.1

theorem counts_lookupSlow
    (parent : UInt64)
    (name : Name) :
    Holds (Holding held) (lookupSlow env parent name) (CountsEntry held) := by
  have rule := @linkRule_of_tableRule env _ (Counted.rule held)
  refine Holds.bind (rule.doLookupFile parent name : Keeps (Holding held) _)
    (fun looked => ?_) (fun _ _ holds => holds)
  refine Holds.bind (rule.presentOr looked _ : Keeps (Holding held) _)
    (fun nodeId => ?_) (fun _ _ holds => holds)
  refine Holds.bind (Calm.node nodeId).holding (fun before => ?_)
    (fun _ _ holds => holds)
  refine Holds.bind (Keeps.runIf (Keeps.bind (rule.reloadDir nodeId)
    fun loaded => Keeps.check _ _)) (fun _ => ?_) (fun _ _ holds => holds)
  refine Holds.bind (Calm.rplStat nodeId).holding (fun st => ?_)
    (fun _ _ holds => holds)
  refine Holds.bind (Calm.node nodeId).holding (fun found => ?_)
    (fun _ _ holds => holds)
  exact Holds.bind (counts_lookupIno nodeId found st.mode)
    (fun number _ counted => counted) (fun _ _ holds => holds)

theorem counts_lookup
    (parent : UInt64)
    (name : Name) :
    Holds (Holding held) (lookup env parent name) (CountsEntry held) := by
  refine Holds.bind (Keeps.check _ _) (fun _ => ?_) (fun _ _ holds => holds)
  refine Holds.bind (counts_lookupFast parent name) (fun fast => ?_)
    (fun _ _ holds => holds)
  cases fast with
  | some reply =>
      exact fun _ counted => counted
  | none =>
      exact counts_lookupSlow parent name

/-! ## Creating -/

/-- The counts are right and the parent of a new object is there. -/
def HoldingWith
    (held : UInt64 → Nat)
    (id : NodeId)
    (sys : Sys) : Prop :=
  Holding held sys ∧ sys.nodes.Live id

theorem Calm.holdingWith
    {α : Type}
    {act : Daemon α}
    (calm : Calm act)
    (id : NodeId) :
    Keeps (HoldingWith held id) act := by
  rintro sys ⟨holding, live⟩
  obtain ⟨same, -⟩ := calm sys.forest sys ⟨NodeArena.SameShape.refl _, rfl⟩
  exact ⟨Calm.holding calm sys holding, same.live_iff.mpr live⟩

theorem holdingWith_insertNode
    (parentId : NodeId)
    (child : OvlNode) :
    Keeps (HoldingWith held parentId) (insertNode child) := by
  rintro sys ⟨holding, node, stored⟩
  refine ⟨holding, ?_⟩
  change ∃ node, (sys.nodes.insert child).2.get? parentId = some node
  rw [NodeArena.get?_insert]
  split
  · exact ⟨child, rfl⟩
  · exact ⟨node, stored⟩

theorem holdingWith_register
    (parentId id : NodeId)
    (ino dev : UInt64)
    (mode : Mode) :
    Holds (HoldingWith held parentId) (register env id ino dev mode)
      fun outcome sys => HoldingWith held parentId sys ∧
        ∀ number, outcome = .ok (some number) →
          ∃ entry, sys.inodes.table.get? ⟨ino, dev⟩ = some entry ∧
            entry.fuseIno = number := by
  rintro sys ⟨holding, live⟩
  have registered := @holding_register env held id ino dev mode sys holding
  refine ⟨⟨registered.1, ?_⟩, registered.2⟩
  unfold register
  split <;> exact live

/-- The end of `create_and_register_child`: the parent is there. -/
theorem counts_attach
    {parentId childId : NodeId}
    {name : Name}
    {number : UInt64} :
    Holds (HoldingWith (gain held [number]) parentId)
      (do
        let parent ← getNode parentId
        Act.check parent.isSome .ENOMEM
        modifyNode parentId fun parent => parent.insertChild name childId
        pure number : Daemon UInt64)
      (CountsNumber held) := by
  refine Holds.getsBind fun found => ?_
  rintro sys ⟨⟨holding, node, stored⟩, same⟩
  rw [stored] at same
  subst same
  exact holding

theorem counts_createAndRegisterChild
    (parentId : NodeId)
    (name : Name)
    (st : Stat)
    (isDir : Bool) :
    Holds (HoldingWith held parentId)
      (createAndRegisterChild env parentId name st isDir)
      (CountsNumber held) := by
  refine Holds.bind (holdingWith_insertNode parentId _) (fun childId => ?_)
    (fun _ _ holds => holds.1)
  refine Holds.bind (holdingWith_register parentId childId _ _ _)
    (fun answer => ?_) (fun _ _ holds => holds.1.1)
  cases answer with
  | none =>
      exact fun sys holds => holds.1.1
  | some number =>
      rintro sys ⟨⟨holding, live⟩, named⟩
      have counted := @holding_incLookup held ⟨st.ino, st.dev⟩ number sys
        ⟨holding, named number rfl⟩
      exact counts_attach _ ⟨counted, live⟩

theorem counts_statAndRegisterChild
    (parentId : NodeId)
    (name : Name)
    (path : Path) :
    Holds (HoldingWith held parentId)
      (statAndRegisterChild env parentId name path) (CountsEntry held) := by
  refine Holds.bind ((Calm.lift _).holdingWith parentId) (fun st => ?_)
    (fun _ _ holds => holds.1)
  exact Holds.bind (counts_createAndRegisterChild parentId name st _)
    (fun number _ counted => counted) (fun _ _ holds => holds)

theorem counts_installNew
    (wd : Name)
    (pnodeId : NodeId)
    (pnodePath : Path)
    (name : Name) :
    Holds (HoldingWith held pnodeId)
      (installNew env wd pnodeId pnodePath name) (CountsEntry held) := by
  refine Holds.bind ((Calm.lift _).holdingWith pnodeId) (fun place => ?_)
    (fun _ _ holds => holds.1)
  refine Holds.bind ((Calm.lift _).holdingWith pnodeId) (fun _ => ?_)
    (fun _ _ holds => holds.1)
  refine Holds.bind ((Calm.lift _).holdingWith pnodeId) (fun _ => ?_)
    (fun _ _ holds => holds.1)
  exact counts_statAndRegisterChild pnodeId name _

/-- The tree and the counts are right. -/
def Settled
    (held : UInt64 → Nat)
    (sys : Sys) : Prop :=
  TreeOk sys ∧ Holding held sys

theorem Settled.of_both
    {α : Type}
    {act : Daemon α}
    (tree : Keeps TreeOk act)
    (counts : Keeps (Holding held) act) :
    Keeps (Settled held) act :=
  fun sys settled => ⟨tree sys settled.1, counts sys settled.2⟩

theorem Calm.settled
    {α : Type}
    {act : Daemon α}
    (calm : Calm act) :
    Keeps (Settled held) act :=
  .of_both calm.treeOk calm.holding

theorem settled_checkFree
    (parent : UInt64)
    (name : Name) :
    Keeps (Settled held) (checkFree env parent name) :=
  .of_both (treeOk_growthRule.checkFree
    (treeOk_growthRule.asks parent name))
    ((linkRule_of_tableRule (Counted.rule held)).checkFree parent name)

/-- A number that resolves leads to a node that is there. -/
theorem resolve_bind
    {α : Type}
    {post : Except Errno α → Sys → Prop}
    {ino : UInt64}
    {errno : Errno}
    {next : NodeId → Daemon α}
    (found :
      ∀ id, Holds (fun sys => Settled held sys ∧ sys.nodes.Live id) (next id)
        post)
    (missing : ∀ sys, Settled held sys → post (.error errno) sys) :
    Holds (Settled held)
      (resolveIno ino >>= fun resolved => Act.orFail resolved errno >>= next)
      post := by
  refine Holds.getsBind fun resolved => ?_
  cases resolved with
  | none =>
      exact fun sys holds => missing sys holds.1
  | some id =>
      rintro sys ⟨settled, same⟩
      exact found id sys ⟨settled, Forest.live_of_resolve settled.1 same⟩

theorem holdingWith_prepareCreateParent
    (parent : UInt64) :
    Holds (Settled held) (prepareCreateParent env parent)
      fun outcome sys =>
        match outcome with
        | .ok found => HoldingWith held found.1 sys
        | .error _ => Holding held sys := by
  refine resolve_bind (fun id => ?_) (fun _ settled => settled.2)
  refine Holds.imp
    (?_ : Holds (HoldingWith held id) _ _) (fun _ holds => ⟨holds.1.2, holds.2⟩)
    (fun _ _ holds => holds)
  refine Holds.bind ((calm_getNodeUp id).holdingWith id) (fun _ => ?_)
    (fun _ _ holds => holds.1)
  exact Holds.bind (Keeps.gets _) (fun path _ holds => holds)
    (fun _ _ holds => holds.1)

theorem counts_mknod
    (caller : Caller)
    (parent : UInt64)
    (name : Name)
    (mode : Mode)
    (rdev : UInt32) :
    Holds (Settled held) (mknod env caller parent name mode rdev)
      (CountsEntry held) := by
  refine Holds.bind (Calm.lift _).settled (fun _ => ?_)
    (fun _ _ holds => holds.2)
  refine Holds.bind (settled_checkFree parent name) (fun _ => ?_)
    (fun _ _ holds => holds.2)
  refine Holds.bind (holdingWith_prepareCreateParent parent) (fun found => ?_)
    (fun _ _ holds => holds)
  refine Holds.bind ((Calm.lift _).holdingWith found.1) (fun wd => ?_)
    (fun _ _ holds => holds.1)
  refine Holds.bind ((Calm.lift _).holdingWith found.1) (fun _ => ?_)
    (fun _ _ holds => holds.1)
  refine Holds.bind ((Calm.lift _).holdingWith found.1) (fun _ => ?_)
    (fun _ _ holds => holds.1)
  refine Holds.bind ((calm_inheritNewAcl found.1 wd _).holdingWith found.1)
    (fun _ => ?_) (fun _ _ holds => holds.1)
  exact counts_installNew wd found.1 found.2 name

theorem counts_mkdir
    (caller : Caller)
    (parent : UInt64)
    (name : Name)
    (mode : Mode) :
    Holds (Settled held) (mkdir env caller parent name mode)
      (CountsEntry held) := by
  refine Holds.bind (Calm.lift _).settled (fun _ => ?_)
    (fun _ _ holds => holds.2)
  refine Holds.bind (settled_checkFree parent name) (fun _ => ?_)
    (fun _ _ holds => holds.2)
  refine Holds.bind (holdingWith_prepareCreateParent parent) (fun found => ?_)
    (fun _ _ holds => holds)
  refine Holds.bind ((Calm.node found.1).holdingWith found.1) (fun pnode => ?_)
    (fun _ _ holds => holds.1)
  refine Holds.bind ((Calm.lift _).holdingWith found.1) (fun wd => ?_)
    (fun _ _ holds => holds.1)
  refine Holds.bind ((Calm.lift _).holdingWith found.1) (fun _ => ?_)
    (fun _ _ holds => holds.1)
  refine Holds.bind ((Calm.lift _).holdingWith found.1) (fun _ => ?_)
    (fun _ _ holds => holds.1)
  refine Holds.bind ((Calm.lift _).holdingWith found.1) (fun _ => ?_)
    (fun _ _ holds => holds.1)
  refine Holds.bind ((calm_inheritNewAcl found.1 wd _).holdingWith found.1)
    (fun _ => ?_) (fun _ _ holds => holds.1)
  refine Holds.bind ((Calm.lift _).holdingWith found.1) (fun place => ?_)
    (fun _ _ holds => holds.1)
  refine Holds.bind ((Calm.lift _).holdingWith found.1) (fun _ => ?_)
    (fun _ _ holds => holds.1)
  refine Holds.bind ((Calm.lift _).holdingWith found.1) (fun _ => ?_)
    (fun _ _ holds => holds.1)
  exact counts_statAndRegisterChild found.1 name _

theorem counts_symlink
    (caller : Caller)
    (parent : UInt64)
    (name : Name)
    (target : List UInt8) :
    Holds (Settled held) (symlink env caller parent name target)
      (CountsEntry held) := by
  refine Holds.bind (Calm.lift _).settled (fun _ => ?_)
    (fun _ _ holds => holds.2)
  refine Holds.bind (settled_checkFree parent name) (fun _ => ?_)
    (fun _ _ holds => holds.2)
  refine Holds.bind (holdingWith_prepareCreateParent parent) (fun found => ?_)
    (fun _ _ holds => holds)
  refine Holds.bind ((Calm.lift _).holdingWith found.1) (fun wd => ?_)
    (fun _ _ holds => holds.1)
  refine Holds.bind ((Calm.lift _).holdingWith found.1) (fun _ => ?_)
    (fun _ _ holds => holds.1)
  refine Holds.bind ((Calm.lift _).holdingWith found.1) (fun _ => ?_)
    (fun _ _ holds => holds.1)
  exact counts_installNew wd found.1 found.2 name

/-- A lookup does not remove the parent of a new name. -/
theorem holdingWith_checkFree
    (id : NodeId)
    (parent : UInt64)
    (name : Name) :
    Holds (fun sys => Settled held sys ∧ sys.nodes.Live id)
      (checkFree env parent name) fun _ => HoldingWith held id := by
  rintro sys ⟨settled, live⟩
  have looked := (@lookedUp_doLookupFile env _ settled.1 parent name sys
    rfl).sound settled.1
  have kept := @settled_checkFree env held parent name sys settled
  refine ⟨kept.2, ?_⟩
  unfold checkFree
  rw [Act.bind_apply]
  have grown := looked.grown.live live
  rcases ran : doLookupFile env parent name sys with ⟨outcome, later⟩
  rw [ran] at grown
  cases outcome with
  | error errno =>
      exact grown
  | ok found =>
      have rest : Calm (do
          let present ← isPresent found
          Act.check (!present) .EEXIST : Daemon Unit) :=
        .bind (calm_isPresent found) fun present => .check _ _
      obtain ⟨same, -⟩ :=
        rest later.forest later ⟨NodeArena.SameShape.refl _, rfl⟩
      exact same.live_iff.mpr grown

theorem counts_link
    (ino newparent : UInt64)
    (newname : Name) :
    Holds (Settled held) (link env ino newparent newname)
      (CountsEntry held) := by
  refine Holds.bind (Calm.lift _).settled (fun _ => ?_)
    (fun _ _ holds => holds.2)
  refine resolve_bind (fun srcId => ?_) (fun _ settled => settled.2)
  refine Holds.imp (?_ : Holds (Settled held) _ _) (fun _ holds => holds.1)
    (fun _ _ holds => holds)
  refine Holds.bind (calm_getNodeUp srcId).settled (fun _ => ?_)
    (fun _ _ holds => holds.2)
  refine resolve_bind (fun dparentId => ?_) (fun _ settled => settled.2)
  refine Holds.bind (holdingWith_checkFree dparentId newparent newname)
    (fun _ => ?_) (fun _ _ holds => holds.1)
  have calm := fun {α : Type} {act : Daemon α} (calm : Calm act) =>
    @Calm.holdingWith held α act calm dparentId
  refine Holds.bind (calm (calm_getNodeUp dparentId)) (fun _ => ?_)
    (fun _ _ holds => holds.1)
  refine Holds.bind (Keeps.gets _) (fun srcPath => ?_)
    (fun _ _ holds => holds.1)
  refine Holds.bind (Keeps.gets _) (fun dparentPath => ?_)
    (fun _ _ holds => holds.1)
  refine Holds.bind (calm (.lift _)) (fun _ => ?_) (fun _ _ holds => holds.1)
  refine Holds.bind (calm (.lift _)) (fun src => ?_) (fun _ _ holds => holds.1)
  refine Holds.bind (calm (.lift _)) (fun dst => ?_) (fun _ _ holds => holds.1)
  refine Holds.bind (calm (.lift _)) (fun _ => ?_) (fun _ _ holds => holds.1)
  refine Holds.bind (calm (.lift _)) (fun st => ?_) (fun _ _ holds => holds.1)
  exact Holds.bind (counts_createAndRegisterChild dparentId newname st false)
    (fun number _ counted => counted) (fun _ _ holds => holds)

theorem counts_create
    (caller : Caller)
    (parent : UInt64)
    (name : Name)
    (mode : Mode)
    (flags : OpenFlags) :
    Holds (Settled held) (create env caller parent name mode flags)
      (CountsCreated held) := by
  refine Holds.bind (Calm.lift _).settled (fun _ => ?_)
    (fun _ _ holds => holds.2)
  refine Holds.bind (Settled.of_both
    (treeOk_growthRule.createsOverWhiteout
      (treeOk_growthRule.asks parent name))
    ((linkRule_of_tableRule (Counted.rule held)).createsOverWhiteout
      parent name))
    (fun whited => ?_) (fun _ _ holds => holds.2)
  refine Holds.bind (holdingWith_prepareCreateParent parent) (fun found => ?_)
    (fun _ _ holds => holds)
  refine Holds.bind ((Calm.lift _).holdingWith found.1) (fun fd => ?_)
    (fun _ _ holds => holds.1)
  refine Holds.bind ((Calm.lift _).holdingWith found.1) (fun _ => ?_)
    (fun _ _ holds => holds.1)
  refine Holds.bind ((calm_inheritAcl found.1 fd).holdingWith found.1)
    (fun _ => ?_) (fun _ _ holds => holds.1)
  refine Holds.bind ((Calm.lift _).holdingWith found.1) (fun st => ?_)
    (fun _ _ holds => holds.1)
  exact Holds.bind (counts_createAndRegisterChild found.1 name st false)
    (fun number _ counted => counted) (fun _ _ holds => holds)

/-! ## Listing with attributes -/

/-- The kernel does not count `.` and `..`. -/
def isDotEntry (name : Name) : Bool :=
  name = dotName || name = dotDotName

/-- The numbers of the entries that the kernel counts. -/
def countedNumbers
    (entries : List (UInt64 × Nat × Name × Option Stat)) :
    List UInt64 :=
  (entries.filter fun entry => !isDotEntry entry.2.2.1).map (·.1)

/--
The entries that `readdirplus` counts are those that the kernel counts: the
node of an entry that is sent is there, unless it is `.` or `..`, and the nodes
of those and of the entry without room are gone.
-/
def CountsExactly
    (nodes : NodeArena) :
    Nat → List (HandleEntry × Nat) → Prop
  | _, [] => True
  | 0, entry :: _ => (entry.1.nodeId.bind nodes.get?).isSome = false
  | fits + 1, entry :: rest =>
      (entry.1.nodeId.bind nodes.get?).isSome = !isDotEntry entry.1.name ∧
        CountsExactly nodes fits rest

instance CountsExactly.decidable
    (nodes : NodeArena) :
    (fits : Nat) → (entries : List (HandleEntry × Nat)) →
      Decidable (CountsExactly nodes fits entries)
  | 0, [] => .isTrue trivial
  | _ + 1, [] => .isTrue trivial
  | 0, entry :: _ =>
      inferInstanceAs
        (Decidable ((entry.1.nodeId.bind nodes.get?).isSome = false))
  | fits + 1, _ :: rest =>
      have := CountsExactly.decidable nodes fits rest
      inferInstanceAs (Decidable (_ ∧ _))

end Daemon

namespace InodeTable

/-- `register` takes at most one more number. -/
theorem register_size
    {inodes inodes' : InodeTable}
    {order : HashOrder}
    {arena : NodeArena}
    {nodeId : NodeId}
    {ino dev : UInt64}
    {mode : Mode}
    {fuseIno : UInt64}
    (registered :
      inodes.register order arena nodeId ino dev mode =
        some (fuseIno, inodes')) :
    inodes'.fuseMap.size ≤ inodes.fuseMap.size + 1 := by
  rcases register_cases registered with
    ⟨-, added⟩ | ⟨existing, -, -, added⟩ |
    ⟨existing, changed, -, -, -, -, -, rfl⟩
  · obtain ⟨-, unused, numbers, -⟩ := registerNew_shape added
    rw [numbers, FMap.size_set_of_absent unused]
  · obtain ⟨-, unused, numbers, -⟩ := registerNew_shape added
    rw [numbers, FMap.size_set_of_absent unused]
  · exact Nat.le_succ _

end InodeTable

namespace Daemon

open Syscall Whiteout InodeTable

variable
  {env : Env}
  {held : UInt64 → Nat}

/-- The counts are right, the nodes are these, and numbers are left. -/
structure ListingState
    (held : UInt64 → Nat)
    (nodes : NodeArena)
    (room : Nat)
    (sys : Sys) : Prop where
  holding : Holding held sys
  sameNodes : sys.nodes = nodes
  fits : sys.inodes.fuseMap.size + room < 2 ^ 64 - 2

/-- An entry whose node is gone is not counted. -/
theorem plusIno_gone
    {entry : HandleEntry}
    {sys : Sys}
    (gone : entry.nodeId.bind sys.nodes.get? = none) :
    plusIno env entry sys = (.ok entry.ino, sys) := by
  unfold plusIno
  cases named : entry.nodeId with
  | none =>
      rfl
  | some nodeId =>
      rw [named, Option.bind_some] at gone
      simp only
      rw [Act.bind_ok (show getNode nodeId sys = (.ok none, sys) from by
        rw [← gone]; rfl)]
      rfl

/-- An entry whose node is there is counted under its number. -/
theorem plusIno_live
    {entry : HandleEntry}
    {nodes : NodeArena}
    {room : Nat}
    (live : (entry.nodeId.bind nodes.get?).isSome = true) :
    Holds (ListingState held nodes (room + 1)) (plusIno env entry)
      fun outcome sys => ∃ number, outcome = .ok number ∧
        ListingState (gain held [number]) nodes room sys := by
  rintro sys ⟨holding, rfl, fits⟩
  obtain ⟨node, found⟩ := Option.isSome_iff_exists.mp live
  obtain ⟨nodeId, named, stored⟩ := Option.bind_eq_some_iff.mp found
  obtain ⟨number, inodes, registered⟩ := holding.consistent.register_total
    (by omega) env.order sys.nodes nodeId node.tmpIno node.tmpDev node.mode
  have asked : getNode nodeId sys = (.ok (some node), sys) := by
    rw [← stored]
    rfl
  have answer : register env nodeId node.tmpIno node.tmpDev node.mode sys =
      (.ok (some number), { sys with inodes := inodes }) := by
    unfold register
    rw [registered]
  have named' := @holding_register env held nodeId node.tmpIno node.tmpDev
    node.mode sys holding
  rw [answer] at named'
  unfold plusIno
  simp only [named]
  rw [Act.bind_ok asked]
  simp only
  rw [Act.bind_ok answer]
  refine ⟨number, rfl, ?_, rfl, ?_⟩
  · exact @holding_incLookup held _ number _ ⟨named'.1, named'.2 number rfl⟩
  · have grown := register_size registered
    change inodes.fuseMap.size + room < 2 ^ 64 - 2
    omega

theorem ListingState.weaken
    {nodes : NodeArena}
    {room : Nat}
    {sys : Sys}
    (listing : ListingState held nodes (room + 1) sys) :
    ListingState held nodes room sys :=
  ⟨listing.holding, listing.sameNodes, by have := listing.fits; omega⟩

theorem countedNumbers_cons
    (number : UInt64)
    (offset : Nat)
    (name : Name)
    (attr : Option Stat)
    (rest : List (UInt64 × Nat × Name × Option Stat)) :
    countedNumbers ((number, offset, name, attr) :: rest) =
      if isDotEntry name then countedNumbers rest
      else number :: countedNumbers rest := by
  unfold countedNumbers
  rw [List.filter_cons]
  cases isDotEntry name <;> simp

/-- The entry loop, when it counts what the kernel counts. -/
theorem counts_plusEntries
    {nodes : NodeArena}
    (fits : Nat)
    (entries : List (HandleEntry × Nat))
    (exactly : CountsExactly nodes fits entries) :
    Holds (ListingState held nodes entries.length)
      (plusEntries env fits entries)
      fun outcome sys => ∃ sent, outcome = .ok sent ∧
        Holding (gain held (countedNumbers sent)) sys := by
  induction entries generalizing fits held with
  | nil =>
      intro sys listing
      cases fits <;> exact ⟨[], rfl, listing.holding⟩
  | cons entry rest inductionHypothesis =>
      cases fits with
      | zero =>
          intro sys listing
          have gone : entry.1.nodeId.bind sys.nodes.get? = none := by
            rw [listing.sameNodes]
            exact Option.isNone_iff_eq_none.mp
              (Option.isSome_eq_false_iff.mp exactly)
          unfold plusEntries
          rw [Act.bind_ok (plusIno_gone gone)]
          exact ⟨[], rfl, listing.holding⟩
      | succ fits =>
          obtain ⟨first, others⟩ := exactly
          unfold plusEntries
          intro sys listing
          cases isDot : isDotEntry entry.1.name with
          | true =>
              have gone : entry.1.nodeId.bind sys.nodes.get? = none := by
                rw [listing.sameNodes]
                simpa [isDot] using first
              have loop := inductionHypothesis fits others sys listing.weaken
              rcases ran : plusEntries env fits rest sys with ⟨outcome, later⟩
              rw [ran] at loop
              obtain ⟨sent, rfl, holding⟩ := loop
              rw [Act.bind_ok (plusIno_gone gone), Act.bind_ok ran]
              refine ⟨_, rfl, ?_⟩
              rw [countedNumbers_cons, isDot, if_pos rfl]
              exact holding
          | false =>
              rw [isDot, Bool.not_false] at first
              have counted := @plusIno_live env held entry.1 nodes rest.length
                first sys listing
              rcases ranFirst : plusIno env entry.1 sys with
                ⟨outcome, middle⟩
              rw [ranFirst] at counted
              obtain ⟨number, rfl, listingNow⟩ := counted
              have loop := inductionHypothesis fits others middle listingNow
              rcases ran : plusEntries env fits rest middle with
                ⟨outcome, later⟩
              rw [ran] at loop
              obtain ⟨sent, rfl, holding⟩ := loop
              rw [Act.bind_ok ranFirst, Act.bind_ok ran]
              refine ⟨_, rfl, ?_⟩
              rw [countedNumbers_cons, isDot, if_neg (by simp), ← gain_cons]
              exact holding

end Daemon

/-! ## Runs -/

/-- The numbers that a reply gives the kernel a lookup of. -/
def carried : Request → Reply → List UInt64
  | .lookup .., .entry st => [st.ino]
  | .mknod .., .entry st => [st.ino]
  | .mkdir .., .entry st => [st.ino]
  | .symlink .., .entry st => [st.ino]
  | .link .., .entry st => [st.ino]
  | .create .., .created st _ => [st.ino]
  | .readdirplus .., .directoryPlus entries => Daemon.countedNumbers entries
  | _, _ => []

/-- The same for an outcome. -/
def answered
    (request : Request) :
    Except Errno Reply → List UInt64
  | .ok reply => carried request reply
  | .error _ => []

/-- How many lookups of a number a request forgets. -/
def forgets
    (request : Request)
    (number : UInt64) : Nat :=
  match request with
  | .forget ino nlookup => if ino = number then nlookup.toNat else 0
  | _ => 0

/-- A mount and what the kernel has seen of its numbers. -/
structure Observed where
  sys : Sys
  given : UInt64 → Nat
  forgotten : UInt64 → Nat

namespace Observed

/-- The lookups of a number that the kernel still holds. -/
def held
    (observed : Observed)
    (number : UInt64) : Nat :=
  observed.given number - observed.forgotten number

def mount
    (env : Env)
    (disk : Disk) :
    Observed :=
  ⟨Sys.mount env disk, fun _ => 0, fun _ => 0⟩

/-- One request: its reply is given, its lookups are forgotten. -/
def step
    (env : Env)
    (observed : Observed)
    (call : Call) :
    Observed where
  sys := (observed.sys.step env call).2
  given := gain observed.given
    (answered call.request (observed.sys.step env call).1)
  forgotten number :=
    observed.forgotten number + forgets call.request number

def run
    (env : Env) :
    Observed → List Call → Observed
  | observed, [] => observed
  | observed, call :: rest => run env (observed.step env call) rest

/-- The kernel forgets no more than it was given. -/
def Protocol
    (observed : Observed) :
    Request → Prop
  | .forget ino nlookup =>
      ino ≠ rootIno → nlookup.toNat ≤ observed.held ino
  | _ => True

/--
The request counts exactly what the kernel counts: a stale number is forgotten
all at once (and what is left of a number fits the counter), and `readdirplus`
counts exactly the entries that the kernel counts.
-/
def Exact
    (observed : Observed) :
    Request → Prop
  | .forget ino nlookup =>
      (InodeTable.Stale observed.sys.inodes ino →
        nlookup.toNat = observed.held ino) ∧
      observed.held ino - nlookup.toNat < 2 ^ 63
  | .readdirplus fh offset fits =>
      ∀ entries, observed.sys.openDirs.get? fh = some entries →
        Daemon.CountsExactly observed.sys.nodes fits
            (entries.zipIdx.drop offset) ∧
          observed.sys.inodes.fuseMap.size + entries.length < 2 ^ 64 - 2
  | _ => True

/-- Every request of a run is allowed and exact. -/
def ExactRun
    (env : Env) :
    Observed → List Call → Prop
  | _, [] => True
  | observed, call :: rest =>
      (observed.Protocol call.request ∧ observed.Exact call.request) ∧
        ExactRun env (observed.step env call) rest

end Observed

namespace Daemon

open InodeTable

variable
  {env : Env}
  {held : UInt64 → Nat}

/-- What the kernel holds after a request. -/
def heldAfter
    (held : UInt64 → Nat)
    (request : Request)
    (outcome : Except Errno Reply) :
    UInt64 → Nat :=
  fun number =>
    gain held (answered request outcome) number - forgets request number

/-- A request that neither answers with entries nor forgets. -/
theorem heldAfter_plain
    {request : Request}
    (plain : countsNothing request = true)
    (outcome : Except Errno Reply) :
    heldAfter held request outcome = held := by
  have noEntry : answered request outcome = [] := by
    cases outcome with
    | error errno =>
        rfl
    | ok reply =>
        cases request <;> first | rfl | cases plain
  have noForget : ∀ number, forgets request number = 0 := by
    intro number
    cases request <;> first | rfl | cases plain
  funext number
  simp [heldAfter, noEntry, noForget]

/-- A request that answers with an entry. -/
theorem heldAfter_entry
    {request : Request}
    (noForget : ∀ number, forgets request number = 0)
    (carries : ∀ st, carried request (.entry st) = [st.ino])
    {outcome : Except Errno Reply}
    {sys : Sys}
    (counts : CountsEntry held outcome sys) :
    Holding (heldAfter held request outcome) sys := by
  have sum : heldAfter held request outcome =
      gain held (answered request outcome) := by
    funext number
    simp [heldAfter, noForget]
  rw [sum]
  cases outcome with
  | error errno =>
      exact counts
  | ok reply =>
      cases reply with
      | entry st =>
          rw [answered, carries]
          exact counts
      | _ =>
          exact counts.elim

theorem holding_readdirplus
    {sys : Sys}
    (holding : Holding held sys)
    {fh offset fits : Nat}
    (exactly :
      ∀ entries, sys.openDirs.get? fh = some entries →
        CountsExactly sys.nodes fits (entries.zipIdx.drop offset) ∧
          sys.inodes.fuseMap.size + entries.length < 2 ^ 64 - 2) :
    Holding
      (heldAfter held (.readdirplus fh offset fits)
        (readdirplus env fh offset fits sys).1)
      (readdirplus env fh offset fits sys).2 := by
  cases found : sys.openDirs.get? fh with
  | none =>
      have failed : handleEntries fh offset sys = (.error .EBADF, sys) := by
        unfold handleEntries
        rw [Act.bind_ok (show Act.gets (fun sys => sys.openDirs.get? fh) sys =
          (.ok none, sys) from by rw [← found]; rfl)]
        rfl
      unfold readdirplus
      rw [Act.bind_error failed]
      exact holding
  | some entries =>
      obtain ⟨counts, room⟩ := exactly entries found
      have listed : handleEntries fh offset sys =
          (.ok (entries.zipIdx.drop offset), sys) := by
        unfold handleEntries
        rw [Act.bind_ok (show Act.gets (fun sys => sys.openDirs.get? fh) sys =
          (.ok (some entries), sys) from by rw [← found]; rfl)]
        rfl
      have loop := @counts_plusEntries env held sys.nodes fits _ counts sys
        ⟨holding, rfl, by
          rw [List.length_drop, List.length_zipIdx]
          omega⟩
      rcases ran : plusEntries env fits (entries.zipIdx.drop offset) sys with
        ⟨outcome, later⟩
      rw [ran] at loop
      obtain ⟨sent, rfl, after⟩ := loop
      unfold readdirplus
      rw [Act.bind_ok listed, Act.map_ok ran]
      exact after

theorem holding_forget
    {sys : Sys}
    (holding : Holding held sys)
    {ino nlookup : UInt64}
    (atMost : ino ≠ rootIno → nlookup.toNat ≤ held ino)
    (whole : Stale sys.inodes ino → nlookup.toNat = held ino)
    (small : held ino - nlookup.toNat < 2 ^ 63) :
    Holding (heldAfter held (.forget ino nlookup) (forget ino nlookup sys).1)
      (forget ino nlookup sys).2 := by
  have after :
      ∀ number, heldAfter held (.forget ino nlookup) (.ok .ok) number =
        Function.update held ino (held ino - nlookup.toNat) number := by
    intro number
    by_cases same : number = ino
    · simp [heldAfter, same, answered, carried, forgets]
    · have other : ino ≠ number := fun back => same back.symm
      simp [heldAfter, same, other, answered, carried, forgets]
  by_cases isRoot : ino = rootIno
  · subst isRoot
    have unchanged : (sys.inodes.forget rootIno nlookup).2 = sys.inodes := by
      simp [InodeTable.forget, rootIno]
    change Counted _ (sys.inodes.forget rootIno nlookup).2
    rw [unchanged]
    refine Counted.congr holding fun number inRange => ?_
    have other : number ≠ rootIno := by
      rintro rfl
      exact absurd inRange (by decide)
    exact (after number).trans (Function.update_of_ne other ..)
  · exact Counted.congr (Counted.forget holding (atMost isRoot) whole small)
      fun number _ => after number

theorem heldAfter_created
    {caller : Caller}
    {parent : UInt64}
    {name : Name}
    {mode : Mode}
    {flags : OpenFlags}
    {outcome : Except Errno Reply}
    {sys : Sys}
    (counts : CountsCreated held outcome sys) :
    Holding
      (heldAfter held (.create caller parent name mode flags) outcome)
      sys := by
  cases outcome with
  | error errno =>
      exact counts
  | ok reply =>
      cases reply with
      | created st fh =>
          exact counts
      | _ =>
          exact counts.elim

/-- One request, with the exactness it needs. -/
theorem holding_handle
    {observed : Observed}
    {call : Call}
    (tree : TreeOk observed.sys)
    (holding : Holding observed.held observed.sys)
    (protocol : observed.Protocol call.request)
    (exactly : observed.Exact call.request) :
    Holding
      (heldAfter observed.held call.request (observed.sys.step env call).1)
      (observed.sys.step env call).2 := by
  have settled : Settled observed.held (observed.sys.begin call) :=
    ⟨tree, holding⟩
  cases plain : countsNothing call.request with
  | true =>
      rw [heldAfter_plain plain]
      exact (linkRule_of_tableRule (Counted.rule observed.held)).handle plain
        (fun _ _ _ holds => holds) (observed.sys.begin call) holding
  | false =>
      unfold Sys.step
      cases request : call.request with
      | lookup parent name =>
          exact heldAfter_entry (fun _ => rfl) (fun _ => rfl)
            (counts_lookup parent name _ settled.2)
      | mknod caller parent name mode rdev =>
          exact heldAfter_entry (fun _ => rfl) (fun _ => rfl)
            (counts_mknod caller parent name mode rdev _ settled)
      | mkdir caller parent name mode =>
          exact heldAfter_entry (fun _ => rfl) (fun _ => rfl)
            (counts_mkdir caller parent name mode _ settled)
      | symlink caller parent name target =>
          exact heldAfter_entry (fun _ => rfl) (fun _ => rfl)
            (counts_symlink caller parent name target _ settled)
      | link ino newparent newname =>
          exact heldAfter_entry (fun _ => rfl) (fun _ => rfl)
            (counts_link ino newparent newname _ settled)
      | create caller parent name mode flags =>
          exact heldAfter_created
            (counts_create caller parent name mode flags _ settled)
      | readdirplus fh offset fits =>
          rw [request] at exactly
          exact holding_readdirplus settled.2 exactly
      | forget ino nlookup =>
          rw [request] at protocol exactly
          exact holding_forget settled.2 protocol exactly.1 exactly.2
      | _ =>
          rw [request] at plain
          cases plain

end Daemon

namespace Observed

open InodeTable

variable {env : Env}

/-- Tree and counts are right, and no more was forgotten than given. -/
structure Balanced (observed : Observed) : Prop where
  tree : Daemon.TreeOk observed.sys
  counted : Counted observed.held observed.sys.inodes
  bounded :
    ∀ number, number ≠ rootIno →
      observed.forgotten number ≤ observed.given number

theorem balanced_mount
    (env : Env)
    (disk : Disk) :
    Balanced (mount env disk) where
  tree := Daemon.treeOk_mount env disk
  counted := new_counted env.sameDevice
  bounded _ _ := le_rfl

theorem forgets_le
    {observed : Observed}
    {request : Request}
    (protocol : observed.Protocol request)
    {number : UInt64}
    (notRoot : number ≠ rootIno) :
    forgets request number ≤ observed.held number := by
  cases request with
  | forget ino nlookup =>
      change (if ino = number then nlookup.toNat else 0) ≤ _
      split
      · next same =>
          subst same
          exact protocol notRoot
      · exact Nat.zero_le _
  | _ =>
      exact Nat.zero_le _

/-- One request keeps the balance. -/
theorem Balanced.step
    {observed : Observed}
    (balanced : Balanced observed)
    {call : Call}
    (protocol : observed.Protocol call.request)
    (exactly : observed.Exact call.request) :
    Balanced (observed.step env call) where
  tree := Daemon.treeOk_handle call.request (observed.sys.begin call)
    balanced.tree
  counted := by
    refine Counted.congr
      (Daemon.holding_handle balanced.tree balanced.counted protocol exactly)
      fun number inRange => ?_
    have notRoot : number ≠ rootIno := by
      rintro rfl
      exact absurd inRange (by decide)
    have bounded := balanced.bounded number notRoot
    simp only [held, Observed.step, Daemon.heldAfter, gain]
    omega
  bounded := by
    intro number notRoot
    have bounded := balanced.bounded number notRoot
    have atMost := forgets_le protocol notRoot
    simp only [held] at atMost
    simp only [Observed.step, gain]
    omega

theorem Balanced.run
    {observed : Observed}
    (balanced : Balanced observed)
    {calls : List Call}
    (exactly : ExactRun env observed calls) :
    Balanced (observed.run env calls) := by
  induction calls generalizing observed with
  | nil =>
      exact balanced
  | cons call rest inductionHypothesis =>
      obtain ⟨⟨protocol, exact⟩, later⟩ := exactly
      exact inductionHypothesis (balanced.step protocol exact) later

/--
Along every exact run the counter of a number's entry is the number of replies
that carried it less what was forgotten, the kernel holds nothing of a number
that the table does not know, and `forget` drops an entry exactly with the last
lookup.
-/
theorem lookups_conserved
    {env : Env}
    {disk : Disk}
    {calls : List Call}
    {observed : Observed}
    (reached : observed = (mount env disk).run env calls)
    (exactly : ExactRun env (mount env disk) calls) :
    (∀ key entry, observed.sys.inodes.table.get? key = some entry →
      entry.lookups = Int64.ofNat
        (observed.given entry.fuseIno - observed.forgotten entry.fuseIno)) ∧
    (∀ number, 2 ≤ number →
      observed.forgotten number < observed.given number →
      (∃ key entry, observed.sys.inodes.table.get? key = some entry ∧
        entry.fuseIno = number) ∨
      Stale observed.sys.inodes number) ∧
    (∀ key entry nlookup,
      observed.sys.inodes.table.get? key = some entry →
      nlookup.toNat ≤ observed.held entry.fuseIno →
      observed.held entry.fuseIno - nlookup.toNat < 2 ^ 63 →
      ((observed.sys.inodes.forget entry.fuseIno nlookup).2.table.get? key =
          none ↔
        nlookup.toNat = observed.held entry.fuseIno)) := by
  have balanced : Balanced observed := by
    rw [reached]
    exact (balanced_mount env disk).run exactly
  refine ⟨?_, ?_, ?_⟩
  · intro key entry stored
    exact balanced.counted.current stored
  · intro number inRange referenced
    by_cases isCurrent :
        ∃ key entry, observed.sys.inodes.table.get? key = some entry ∧
          entry.fuseIno = number
    · exact .inl isCurrent
    · cases known : observed.sys.inodes.fuseMap.get? number with
      | none =>
          have nothing := balanced.counted.dropped inRange known
          simp only [held] at nothing
          omega
      | some key =>
          refine .inr ⟨key, known, fun entry stored same => ?_⟩
          exact isCurrent ⟨key, entry, stored, same⟩
  · intro key entry nlookup stored atMost small
    exact balanced.counted.forget_drops_iff stored atMost small

end Observed

namespace Sample

/-- Two files on the upper layer. -/
def twoFiles : Disk :=
  disk 0
    [(⟨.layer 0, [ascii "f"]⟩, obj .reg [] 11),
      (⟨.layer 0, [ascii "g"]⟩, obj .reg [] 12)]

/-- One file is looked up and the directory is opened. -/
def openListing : List Call :=
  [call (.lookup 1 (ascii "g")), call (.opendir 1)]

/-- The files are listed in a reply that has room for `fits` of them. -/
def listFiles (fits : Nat) : Observed :=
  ((Observed.mount (env 0) twoFiles).run (env 0) openListing).run (env 0)
    [call (.readdirplus 1 2 fits)]

end Sample

namespace Observed

open Sample

theorem run_append
    (env : Env)
    (observed : Observed)
    (first second : List Call) :
    observed.run env (first ++ second) =
      (observed.run env first).run env second := by
  induction first generalizing observed with
  | nil =>
      rfl
  | cons call rest inductionHypothesis =>
      exact inductionHypothesis (observed.step env call)

theorem exactRun_append
    {env : Env}
    {observed : Observed}
    {first second : List Call}
    (firstExact : ExactRun env observed first)
    (secondExact : ExactRun env (observed.run env first) second) :
    ExactRun env observed (first ++ second) := by
  induction first generalizing observed with
  | nil =>
      exact secondExact
  | cons call rest inductionHypothesis =>
      exact ⟨firstExact.1, inductionHypothesis firstExact.2 secondExact⟩

/-- The listing that has room for both files. -/
theorem exact_listFiles :
    Exact ((mount (env 0) twoFiles).run (env 0) openListing)
      (.readdirplus 1 2 2) := by
  generalize reached : (mount (env 0) twoFiles).run (env 0) openListing =
    observed
  have listed :
      (observed.sys.openDirs.get? 1).all (fun entries =>
        decide (Daemon.CountsExactly observed.sys.nodes 2
          (entries.zipIdx.drop 2)) &&
        decide (observed.sys.inodes.fuseMap.size + entries.length <
          2 ^ 64 - 2)) = true := by
    rw [← reached]
    decide +kernel
  intro entries found
  rw [found] at listed
  simpa using listed

theorem lookups_conserved_listed :
    ∃ entry, (listFiles 2).sys.inodes.table.get? ⟨12, 0⟩ = some entry ∧
      entry.lookups = Int64.ofNat
        ((listFiles 2).given entry.fuseIno -
          (listFiles 2).forgotten entry.fuseIno) := by
  have known :
      ((listFiles 2).sys.inodes.table.get? ⟨12, 0⟩).isSome = true := by
    decide +kernel
  have opened :
      ExactRun (env 0) (mount (env 0) twoFiles) openListing :=
    ⟨⟨trivial, trivial⟩, ⟨trivial, trivial⟩, trivial⟩
  have listed :
      ExactRun (env 0) ((mount (env 0) twoFiles).run (env 0) openListing)
        [call (.readdirplus 1 2 2)] :=
    ⟨⟨trivial, exact_listFiles⟩, trivial⟩
  have reached :
      listFiles 2 = (mount (env 0) twoFiles).run (env 0)
        (openListing ++ [call (.readdirplus 1 2 2)]) :=
    (run_append ..).symm
  obtain ⟨entry, stored⟩ := Option.isSome_iff_exists.mp known
  exact ⟨entry, stored,
    (lookups_conserved reached (exactRun_append opened listed)).1 _ entry
      stored⟩

/-- The entry without room is counted, but the kernel does not get it. -/
theorem lookups_not_conserved_full :
    ((listFiles 1).sys.inodes.fuseToIno 12).map (·.lookups) = some 2 ∧
      (listFiles 1).given 12 = 1 ∧ (listFiles 1).forgotten 12 = 0 := by
  decide +kernel

end Observed

end FuseOverlay
