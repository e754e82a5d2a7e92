import FuseOverlay.DeletedFiles
import FuseOverlay.KernelReferences
import FuseOverlay.NumberAgreement

namespace FuseOverlay

/-!
# What the inode table retains

An entry of the table is there for a live node or for a reference that the
kernel holds, and a number that is not the current one of its key is there for
such a reference alone.  Requests that take no node away keep it so.  A removal
keeps it if the entry of the node that goes has another live node or a
reference left; `REFRESH_DIR` and a plain rename can leave behind what nothing
refers to.
-/

open Act (Keeps Holds Gives)

namespace InodeTable

/-- Every entry and every number has something that refers to it. -/
structure Retained
    (live : NodeId → Prop)
    (held : UInt64 → Nat)
    (inodes : InodeTable) : Prop where
  used :
    ∀ {key entry}, inodes.table.get? key = some entry →
      (∃ id ∈ entry.nodes, live id) ∨ 0 < held entry.fuseIno
  known :
    ∀ {number key}, inodes.fuseMap.get? number = some key →
      2 ≤ number ∧
        ((∃ entry, inodes.table.get? key = some entry ∧
          entry.fuseIno = number) ∨ 0 < held number)

namespace Retained

variable
  {live : NodeId → Prop}
  {held : UInt64 → Nat}
  {inodes : InodeTable}

theorem mono
    (retained : Retained live held inodes)
    {live' : NodeId → Prop}
    {held' : UInt64 → Nat}
    (lives : ∀ id, live id → live' id)
    (holds : ∀ number, held number ≤ held' number) :
    Retained live' held' inodes where
  used := by
    intro key entry stored
    rcases retained.used stored with ⟨id, member, isLive⟩ | referenced
    · exact .inl ⟨id, member, lives id isLive⟩
    · exact .inr (Nat.lt_of_lt_of_le referenced (holds _))
  known := by
    intro number key pointed
    obtain ⟨large, current | referenced⟩ := retained.known pointed
    · exact ⟨large, .inl current⟩
    · exact ⟨large, .inr (Nat.lt_of_lt_of_le referenced (holds _))⟩

/-- An entry that changes, but not its number. -/
theorem changeEntry
    (retained : Retained live held inodes)
    {key : InodeKey}
    {entry changed : OvlIno}
    (stored : inodes.table.get? key = some entry)
    (sameNumber : changed.fuseIno = entry.fuseIno)
    (used :
      (∃ id ∈ changed.nodes, live id) ∨ 0 < held changed.fuseIno) :
    Retained live held
      { inodes with table := inodes.table.set key changed } where
  used := by
    intro query found queried
    rw [FMap.get?_set] at queried
    split at queried
    · cases queried
      exact used
    · exact retained.used queried
  known := by
    intro number query pointed
    obtain ⟨large, ⟨found, foundStored, isNumber⟩ | referenced⟩ :=
      retained.known pointed
    · refine ⟨large, .inl ?_⟩
      simp only [FMap.get?_set]
      split
      · next same =>
          subst same
          rw [stored] at foundStored
          cases foundStored
          exact ⟨changed, rfl, sameNumber.trans isNumber⟩
      · exact ⟨found, foundStored, isNumber⟩
    · exact ⟨large, .inr referenced⟩

/-- An entry without live node leaves the table; its number stays. -/
theorem dropDead
    (retained : Retained live held inodes)
    {key : InodeKey}
    {entry : OvlIno}
    (stored : inodes.table.get? key = some entry)
    (allDead : ∀ id ∈ entry.nodes, ¬ live id)
    (statInodes : Int) :
    Retained live held
      { inodes with
        table := inodes.table.remove key
        statInodes := statInodes } where
  used := by
    intro query found queried
    rw [FMap.get?_remove] at queried
    split at queried
    · cases queried
    · exact retained.used queried
  known := by
    intro number query pointed
    obtain ⟨large, ⟨found, foundStored, isNumber⟩ | referenced⟩ :=
      retained.known pointed
    · refine ⟨large, ?_⟩
      simp only [FMap.get?_remove]
      split
      · next same =>
          subst same
          rcases retained.used foundStored with ⟨id, member, isLive⟩ | left
          · rw [stored] at foundStored
            cases foundStored
            exact (allDead id member isLive).elim
          · rw [isNumber] at left
            exact .inr left
      · exact .inl ⟨found, foundStored, isNumber⟩
    · exact ⟨large, .inr referenced⟩

/-- A new entry has the node it is made for. -/
theorem registerNew
    (retained : Retained live held inodes)
    {nodeId : NodeId}
    (isLive : live nodeId)
    {key : InodeKey}
    (absent : inodes.table.get? key = none)
    {mode : Mode}
    {fuseIno : UInt64}
    {inodes' : InodeTable}
    (added : inodes.registerNew nodeId key mode = some (fuseIno, inodes')) :
    Retained live held inodes' := by
  unfold InodeTable.registerNew at added
  split at added
  · cases added
  · next picked counter found =>
      simp only [Option.some.injEq, Prod.mk.injEq] at added
      obtain ⟨rfl, rfl⟩ := added
      obtain ⟨-, large⟩ := probe_sound found
      refine ⟨?_, ?_⟩
      · intro query entry queried
        rw [FMap.get?_set] at queried
        split at queried
        · cases queried
          exact .inl ⟨nodeId, List.mem_singleton_self _, isLive⟩
        · exact retained.used queried
      · intro number query pointed
        simp only [FMap.get?_set] at pointed ⊢
        split at pointed
        · next same =>
            cases pointed
            rw [if_pos rfl, same]
            exact ⟨large, .inl ⟨_, rfl, rfl⟩⟩
        · obtain ⟨isLarge, ⟨entry, stored, isNumber⟩ | referenced⟩ :=
            retained.known pointed
          · have apart : query ≠ key := by
              rintro rfl
              rw [absent] at stored
              cases stored
            rw [if_neg apart]
            exact ⟨isLarge, .inl ⟨entry, stored, isNumber⟩⟩
          · exact ⟨isLarge, .inr referenced⟩

/-- Registering a node that counts. -/
theorem register
    (retained : Retained live held inodes)
    {arena : NodeArena}
    (within : ∀ id, live id → arena.Live id)
    {nodeId : NodeId}
    (isLive : live nodeId)
    {order : HashOrder}
    {ino dev : UInt64}
    {mode : Mode}
    {fuseIno : UInt64}
    {inodes' : InodeTable}
    (registered :
      inodes.register order arena nodeId ino dev mode =
        some (fuseIno, inodes')) :
    Retained live held inodes' := by
  rcases register_cases registered with
    ⟨absent, added⟩ | ⟨existing, stored, allDead, added⟩ |
    ⟨existing, changed, stored, -, ⟨sameNumber, -⟩, members, -, rfl⟩
  · exact retained.registerNew isLive absent added
  · have dead : ∀ id ∈ existing.nodes, ¬ live id := by
      intro id member counts
      have gone := allDead id member
      rw [NodeArena.containsKey_iff.mpr (within id counts)] at gone
      cases gone
    refine (retained.dropDead stored dead _).registerNew isLive ?_ added
    exact FMap.get?_remove_self ..
  · refine retained.changeEntry stored sameNumber ?_
    rcases retained.used stored with ⟨id, member, counts⟩ | referenced
    · have kept : id ∈ existing.nodes.filter arena.containsKey :=
        List.mem_filter.mpr
          ⟨member, NodeArena.containsKey_iff.mpr (within id counts)⟩
      refine .inl ⟨id, ?_, counts⟩
      rcases members with same | ⟨more, -⟩
      · rw [same]
        exact kept
      · rw [more, HashOrder.mem_insert]
        exact .inr kept
    · rw [sameNumber]
      exact .inr referenced

/-- A change of an entry that keeps its number and its live nodes. -/
theorem modifyEntry
    (retained : Retained live held inodes)
    (key : InodeKey)
    {change : OvlIno → OvlIno}
    (sameNumber : ∀ entry, (change entry).fuseIno = entry.fuseIno)
    (keeps :
      ∀ entry id, id ∈ entry.nodes → live id → id ∈ (change entry).nodes) :
    Retained live held
      { inodes with table := inodes.table.modify key change } := by
  unfold FMap.modify
  cases stored : inodes.table.get? key with
  | none =>
      exact retained
  | some entry =>
      refine retained.changeEntry stored (sameNumber entry) ?_
      rcases retained.used stored with ⟨id, member, isLive⟩ | referenced
      · exact .inl ⟨id, keeps entry id member isLive, isLive⟩
      · rw [sameNumber]
        exact .inr referenced

theorem incLookup
    (retained : Retained live held inodes)
    (key : InodeKey) :
    Retained live held (inodes.incLookup key) :=
  retained.modifyEntry key (fun _ => rfl) fun _ _ member _ => member

/-- A node that is not counted as live leaves its entry. -/
theorem removeNodeId
    (retained : Retained live held inodes)
    (key : InodeKey)
    {nodeId : NodeId}
    (dead : ¬ live nodeId) :
    Retained live held (inodes.removeNodeId key nodeId) := by
  refine retained.modifyEntry key (fun _ => rfl) fun entry id member isLive => ?_
  refine List.mem_filter.mpr ⟨member, bne_iff_ne.mpr ?_⟩
  intro same
  rw [same] at isLive
  exact dead isLive

section Forget

variable
  {held' : UInt64 → Nat}
  {fuseIno : UInt64}
  (others : ∀ number, number ≠ fuseIno → held' number = held number)

include others

/-- A number that the table does not have is forgotten. -/
theorem forgetUnknown
    (retained : Retained live held inodes)
    (entries :
      ∀ {key entry}, inodes.table.get? key = some entry →
        entry.fuseIno ≠ fuseIno)
    (numbers :
      ∀ {number key}, inodes.fuseMap.get? number = some key →
        number ≠ fuseIno) :
    Retained live held' inodes where
  used := by
    intro key entry stored
    rw [others _ (entries stored)]
    exact retained.used stored
  known := by
    intro number key pointed
    rw [others _ (numbers pointed)]
    exact retained.known pointed

/-- A number leaves the table, with its entry if it has one. -/
theorem forgetNumber
    (retained : Retained live held inodes)
    {table : FMap InodeKey OvlIno}
    (kept :
      ∀ {key entry}, table.get? key = some entry ↔
        inodes.table.get? key = some entry ∧ entry.fuseIno ≠ fuseIno)
    (statInodes : Int) :
    Retained live held'
      { inodes with
        table := table
        fuseMap := inodes.fuseMap.remove fuseIno
        statInodes := statInodes } where
  used := by
    intro key entry stored
    obtain ⟨older, apart⟩ := kept.mp stored
    rw [others _ apart]
    exact retained.used older
  known := by
    intro number key pointed
    rw [FMap.get?_remove] at pointed
    split at pointed
    · cases pointed
    · next apart =>
        obtain ⟨large, ⟨entry, stored, isNumber⟩ | referenced⟩ :=
          retained.known pointed
        · rw [← isNumber] at apart
          exact ⟨large, .inl ⟨entry, kept.mpr ⟨stored, apart⟩, isNumber⟩⟩
        · rw [others _ apart]
          exact ⟨large, .inr referenced⟩

/-- An entry with lookups left keeps its number. -/
theorem forgetSome
    (retained : Retained live held inodes)
    (consistent : inodes.Consistent)
    {key : InodeKey}
    {entry changed : OvlIno}
    (stored : inodes.table.get? key = some entry)
    (isNumber : entry.fuseIno = fuseIno)
    (sameNumber : changed.fuseIno = fuseIno)
    (left : 0 < held' fuseIno) :
    Retained live held'
      { inodes with table := inodes.table.set key changed } where
  used := by
    intro query found queried
    rw [FMap.get?_set] at queried
    split at queried
    · cases queried
      rw [sameNumber]
      exact .inr left
    · next apart =>
        have differs : found.fuseIno ≠ fuseIno := by
          intro same
          exact apart (consistent.key_unique queried stored
            (same.trans isNumber.symm))
        rw [others _ differs]
        exact retained.used queried
  known := by
    intro number query pointed
    by_cases same : number = fuseIno
    · subst same
      exact ⟨(retained.known pointed).1, .inr left⟩
    · rw [others _ same]
      obtain ⟨large, ⟨found, foundStored, isFound⟩ | referenced⟩ :=
        retained.known pointed
      · have apart : query ≠ key := by
          rintro rfl
          rw [stored] at foundStored
          cases foundStored
          exact same (isFound.symm.trans isNumber)
        simp only [FMap.get?_set, if_neg apart]
        exact ⟨large, .inl ⟨found, foundStored, isFound⟩⟩
      · exact ⟨large, .inr referenced⟩

/-- A `forget` after which the counts are those of the kernel. -/
theorem forget
    (retained : Retained live held inodes)
    (consistent : inodes.Consistent)
    {nlookup : UInt64}
    (counted : Counted held' (inodes.forget fuseIno nlookup).2) :
    Retained live held' (inodes.forget fuseIno nlookup).2 := by
  by_cases reserved : fuseIno = 1 ∨ fuseIno = 0
  · have apart : ∀ number, 2 ≤ number → number ≠ fuseIno := by
      rintro number large rfl
      rcases reserved with rfl | rfl <;> exact absurd large (by decide)
    rw [show (inodes.forget fuseIno nlookup).2 = inodes by
      simp [InodeTable.forget, reserved]]
    exact retained.forgetUnknown others
      (fun stored => apart _ (consistent.numbered _ _ stored).1)
      fun pointed => apart _ (retained.known pointed).1
  cases pointed : inodes.fuseMap.get? fuseIno with
  | none =>
      rw [show (inodes.forget fuseIno nlookup).2 = inodes by
        simp [InodeTable.forget, reserved, pointed]]
      refine retained.forgetUnknown others ?_ ?_
      · rintro key entry stored rfl
        rw [(consistent.numbered _ _ stored).2] at pointed
        cases pointed
      · rintro number key known rfl
        rw [known] at pointed
        cases pointed
  | some key =>
      -- Only the entry of `key` can carry the number.
      have only :
          ∀ {query entry}, inodes.table.get? query = some entry →
            entry.fuseIno = fuseIno → query = key := by
        intro query entry stored same
        have back := (consistent.numbered _ _ stored).2
        rw [same, pointed] at back
        exact (Option.some.inj back).symm
      cases stored : inodes.table.get? key with
      | none =>
          rw [show (inodes.forget fuseIno nlookup).2 =
              { inodes with fuseMap := inodes.fuseMap.remove fuseIno } by
            simp [InodeTable.forget, reserved, pointed, stored]]
          refine retained.forgetNumber others ?_ _
          refine ⟨fun found => ⟨found, fun same => ?_⟩, fun both => both.1⟩
          rw [only found same, stored] at found
          cases found
      | some entry =>
          by_cases current : entry.fuseIno = fuseIno
          · by_cases last : entry.lookups - nlookup.toInt64 ≤ 0
            · rw [show (inodes.forget fuseIno nlookup).2 =
                  { inodes with
                    table := inodes.table.remove key
                    fuseMap := inodes.fuseMap.remove fuseIno
                    statInodes := inodes.statInodes - 1 } by
                simp [InodeTable.forget, reserved, pointed, stored, current,
                  last]]
              refine retained.forgetNumber others ?_ _
              intro query found
              rw [FMap.get?_remove]
              split
              · next same =>
                  subst same
                  constructor
                  · intro found
                    cases found
                  · rintro ⟨found, apart⟩
                    rw [stored] at found
                    cases found
                    exact (apart current).elim
              · next apart =>
                  exact ⟨fun found => ⟨found, fun same =>
                    apart (only found same)⟩, fun both => both.1⟩
            · have result : (inodes.forget fuseIno nlookup).2 =
                  { inodes with
                    table := inodes.table.set key
                      { entry with
                        lookups := entry.lookups - nlookup.toInt64 } } := by
                simp [InodeTable.forget, reserved, pointed, stored, current,
                  last]
              rw [result] at counted ⊢
              refine retained.forgetSome others consistent stored current
                current ?_
              have count := counted.current (FMap.get?_set_self ..)
              simp only [current] at count
              refine Nat.pos_of_ne_zero fun nothing => last ?_
              rw [count, nothing]
              decide
          · rw [show (inodes.forget fuseIno nlookup).2 =
                { inodes with fuseMap := inodes.fuseMap.remove fuseIno } by
              simp [InodeTable.forget, reserved, pointed, stored, current]]
            refine retained.forgetNumber others ?_ _
            refine ⟨fun found => ⟨found, fun same => ?_⟩, fun both => both.1⟩
            rw [only found same, stored] at found
            cases found
            exact current same

end Forget

end Retained

end InodeTable

namespace Daemon

open Syscall Whiteout

variable
  {env : Env}
  {held : UInt64 → Nat}
  {counts : NodeId → Prop}

/-- The entries and numbers have live nodes that count, or references. -/
def Retains
    (held : UInt64 → Nat)
    (counts : NodeId → Prop)
    (sys : Sys) : Prop :=
  InodeTable.Retained (fun id => counts id ∧ sys.nodes.Live id) held sys.inodes

theorem Retains.grow
    {sys now : Sys}
    (retains : Retains held counts sys)
    (lives : ∀ id, sys.nodes.Live id → now.nodes.Live id)
    (sameTable : now.inodes = sys.inodes) :
    Retains held counts now := by
  unfold Retains
  rw [sameTable]
  exact InodeTable.Retained.mono retains
    (fun id live => ⟨live.1, lives id live.2⟩) fun _ => le_rfl

theorem Calm.retains
    {α : Type}
    {act : Daemon α}
    (calm : Calm act) :
    Keeps (Retains held counts) act := by
  intro sys retains
  obtain ⟨same, sameTable⟩ := calm sys.forest sys ⟨.refl _, rfl⟩
  exact retains.grow (fun _ live => same.live live) sameTable

theorem retains_modifyNode
    (id : NodeId)
    (change : OvlNode → OvlNode) :
    Keeps (Retains held counts) (modifyNode id change) :=
  fun _ retains =>
    retains.grow (fun _ live => NodeArena.live_modify.mpr live) rfl

theorem retains_incLookup
    (key : InodeKey) :
    Keeps (Retains held counts) (incLookup key) :=
  fun _ retains => InodeTable.Retained.incLookup retains key

theorem retains_register
    {id : NodeId}
    (counted : counts id)
    (ino dev : UInt64)
    (mode : Mode) :
    Keeps (fun sys => Retains held counts sys ∧ sys.nodes.Live id)
      (register env id ino dev mode) := by
  rintro sys ⟨retains, live⟩
  unfold register
  split
  · exact ⟨retains, live⟩
  · next number inodes registered =>
      exact ⟨InodeTable.Retained.register retains (fun _ both => both.2)
        ⟨counted, live⟩ registered, live⟩

/-- A new node is live. -/
theorem retains_insertNode
    (child : OvlNode) :
    Holds (Retains held counts) (insertNode child) fun outcome sys =>
      ∃ id, outcome = .ok id ∧ Retains held counts sys ∧
        sys.nodes.Live id := by
  intro sys retains
  refine ⟨sys.nodes.nextId, rfl, ?_, NodeArena.live_insert.mpr (.inl rfl)⟩
  exact Retains.grow retains
    (fun _ live => NodeArena.live_insert.mpr (.inr live)) rfl

/-- Loading adds nodes and leaves the table. -/
theorem Still.retains
    {α : Type}
    {act : Daemon α}
    (still : Still act)
    (tabled : ∀ kept, Tabled kept act) :
    Holds (fun sys => TreeOk sys ∧ Retains held counts sys) act
      fun _ => Retains held counts := by
  rintro sys ⟨ok, retains⟩
  have sound := (still sys.forest sys (.refl ok)).1
  exact retains.grow (fun _ live => sound.grown.live live)
    (tabled (· = sys.inodes) sys rfl)

/-! ## Requests that remove nothing -/

/-- The tree is right, and every live node counts. -/
def Tidy
    (held : UInt64 → Nat)
    (sys : Sys) : Prop :=
  TreeOk sys ∧ Retains held (fun _ => True) sys

theorem retains_adoptChild
    (parentId : NodeId)
    (child : OvlNode) :
    Keeps (Retains held fun _ => True) (adoptChild env parentId child) := by
  refine Holds.bind (retains_insertNode child) (fun childId => ?_) ?_
  · have rest :
        Keeps (fun sys => Retains held (fun _ => True) sys ∧
          sys.nodes.Live childId) (do
            Act.runIf (child.tmpIno ≠ 0) do
              let _ ← register env childId child.tmpIno child.tmpDev child.mode
            modifyNode parentId fun parent =>
              parent.insertChild child.name childId
            pure (some childId) : Daemon (Option NodeId)) := by
      refine Keeps.bind (Keeps.runIf ?_) fun _ => ?_
      · exact Keeps.bind (retains_register trivial _ _ _) fun _ => Keeps.pure _
      · refine Keeps.bind ?_ fun _ => Keeps.pure _
        exact fun sys holds => ⟨retains_modifyNode _ _ sys holds.1,
          NodeArena.live_modify.mpr holds.2⟩
    rintro sys ⟨id, same, holds⟩
    cases same
    exact (rest sys holds).1
  · rintro errno sys ⟨id, same, -⟩
    cases same

theorem retains_doLookupFile
    (ino : UInt64)
    (name : Name) :
    Keeps (Retains held fun _ => True) (doLookupFile env ino name) := by
  refine Keeps.bind (Keeps.gets _) fun resolved => ?_
  cases resolved with
  | none =>
      exact Keeps.pure none
  | some parentId =>
      refine Keeps.bind (Keeps.gets _) fun found => ?_
      cases found with
      | none =>
          exact Keeps.pure none
      | some parent =>
          simp only
          split
          · exact Keeps.pure _
          · split
            · exact Keeps.pure none
            · refine Keeps.bind (Keeps.gets _) fun found => ?_
              cases found with
              | none =>
                  exact Keeps.pure none
              | some parent =>
                  refine Keeps.bind (Keeps.gets _) fun parentPath => ?_
                  refine Keeps.bind ?_ fun child => ?_
                  · intro sys retains
                    obtain ⟨⟨same, sameTable⟩, -⟩ :=
                      @lazy_lazyLayers env sys.forest parentId parentPath name
                        parent.lastLayerIdx (layerIndices env) none
                        (fun _ same => by cases same) sys ⟨.refl _, rfl⟩
                    exact retains.grow (fun _ live => same.live live)
                      sameTable
                  · cases child with
                    | none =>
                        exact Keeps.pure none
                    | some child =>
                        exact retains_adoptChild parentId child

theorem retains_createAndRegisterChild
    (parentId : NodeId)
    (name : Name)
    (st : Stat)
    (isDir : Bool) :
    Keeps (Retains held fun _ => True)
      (createAndRegisterChild env parentId name st isDir) := by
  refine Holds.bind (retains_insertNode _) (fun childId => ?_) ?_
  · have rest :
        Keeps (fun sys => Retains held (fun _ => True) sys ∧
          sys.nodes.Live childId) (do
            let fuseIno ← Act.orFail
              (← register env childId st.ino st.dev st.mode) .ENOMEM
            incLookup ⟨st.ino, st.dev⟩
            let parent ← getNode parentId
            Act.check parent.isSome .ENOMEM
            modifyNode parentId fun parent => parent.insertChild name childId
            pure fuseIno : Daemon UInt64) := by
      refine Keeps.bind (retains_register trivial _ _ _) fun answer => ?_
      refine Keeps.bind (Keeps.orFail _ _) fun fuseIno => ?_
      refine Keeps.bind (fun sys holds =>
        ⟨retains_incLookup _ sys holds.1, holds.2⟩) fun _ => ?_
      refine Keeps.bind (Keeps.gets _) fun parent => ?_
      refine Keeps.bind (Keeps.check _ _) fun _ => ?_
      refine Keeps.bind ?_ fun _ => Keeps.pure _
      exact fun sys holds => ⟨retains_modifyNode _ _ sys holds.1,
        NodeArena.live_modify.mpr holds.2⟩
    rintro sys ⟨id, same, holds⟩
    cases same
    exact (rest sys holds).1
  · rintro errno sys ⟨id, same, -⟩
    cases same

/-- What removes nothing leaves nothing unreferenced. -/
theorem tidy_growthRule : GrowthRule env (Tidy held) where
  calm := fun calm sys tidy =>
    ⟨calm.treeOk sys tidy.1, calm.retains sys tidy.2⟩
  loads := fun nodeId path stop sys tidy =>
    ⟨treeOk_growthRule.loads nodeId path stop sys tidy.1,
      (still_loadDirImpl nodeId path stop).retains
        (fun kept => (beside_table kept).loadDirImpl nodeId path stop) sys tidy⟩
  clears := fun nodeId sys tidy =>
    ⟨(@treeOk_growthRule env).clears nodeId sys tidy.1,
      retains_modifyNode nodeId _ sys tidy.2⟩
  looksUp := fun ino name sys tidy =>
    ⟨treeOk_doLookupFile ino name sys tidy.1,
      retains_doLookupFile ino name sys tidy.2⟩
  registers := fun id ino dev mode sys holds =>
    ⟨⟨(treeOkWith_register id ino dev mode sys ⟨holds.1.1, holds.2⟩).1,
      (retains_register trivial ino dev mode sys ⟨holds.1.2, holds.2⟩).1⟩,
      (treeOkWith_register id ino dev mode sys ⟨holds.1.1, holds.2⟩).2⟩
  counts := fun key sys tidy =>
    ⟨treeOk_incLookup key sys tidy.1, retains_incLookup key sys tidy.2⟩
  creates := fun parentId name st isDir sys tidy =>
    ⟨treeOk_createAndRegisterChild parentId name st isDir sys tidy.1,
      retains_createAndRegisterChild parentId name st isDir sys tidy.2⟩

/-! ## Removals -/

/-- Every entry of the node has another live node or a reference. -/
def Spared
    (held : UInt64 → Nat)
    (id : NodeId)
    (sys : Sys) : Prop :=
  ∀ key entry, sys.inodes.table.get? key = some entry → id ∈ entry.nodes →
    (∃ other ∈ entry.nodes, other ≠ id ∧ sys.nodes.Live other) ∨
      0 < held entry.fuseIno

theorem Retains.spare
    {sys : Sys}
    {id : NodeId}
    (retains : Retains held (fun _ => True) sys)
    (spared : Spared held id sys) :
    Retains held (· ≠ id) sys where
  used := by
    intro key entry stored
    rcases InodeTable.Retained.used retains stored with
      ⟨other, member, -, live⟩ | referenced
    · by_cases same : other = id
      · subst same
        exact spared key entry stored member
      · exact .inl ⟨other, member, same, live⟩
    · exact .inr referenced
  known := InodeTable.Retained.known retains

theorem Retains.all
    {sys : Sys}
    (retains : Retains held counts sys) :
    Retains held (fun _ => True) sys :=
  InodeTable.Retained.mono retains (fun _ both => ⟨trivial, both.2⟩)
    fun _ => le_rfl

/-- A node that does not count may leave the arena. -/
theorem retains_removeNode
    {id : NodeId}
    (apart : ¬ counts id) :
    Keeps (Retains held counts) (removeNode id) := by
  refine Keeps.bind (Keeps.gets _) fun found => ?_
  cases found with
  | none =>
      exact Keeps.pure ()
  | some node =>
      refine Keeps.bind (Keeps.modify fun sys retains => ?_) fun _ =>
        (calm_dropNode node).retains
      refine InodeTable.Retained.mono retains (fun other both => ?_)
        fun _ => le_rfl
      refine ⟨both.1, NodeArena.live_remove.mpr ⟨?_, both.2⟩⟩
      rintro rfl
      exact apart both.1

theorem retains_hideNode
    (nodeId : NodeId)
    (unlinkSrc : Bool) :
    Keeps (Retains held counts) (hideNode env nodeId unlinkSrc) := by
  refine Keeps.bind (Keeps.check _ _) fun _ => ?_
  refine Keeps.bind (Calm.lift _).retains fun wd => ?_
  refine Keeps.bind (Calm.runIf ?_).retains fun _ => ?_
  · refine .bind (.nodePath nodeId) fun path => ?_
    refine .bind (.node nodeId) fun found => ?_
    refine .bind (.gets _) fun whited => ?_
    exact .bind (.gets _) fun parentPath => .lift _
  · refine Keeps.bind (Calm.node nodeId).retains fun found => ?_
    refine Keeps.bind (retains_modifyNode nodeId _) fun _ => ?_
    cases found.parent with
    | none =>
        exact Keeps.pure ()
    | some parentId =>
        exact retains_modifyNode parentId _

theorem retains_removeFromTree
    {above id : NodeId}
    {name : Name} :
    Holds
      (fun sys => Retains held (· ≠ id) sys ∧ sys.nodes.Entry above name id)
      (removeFromTree above name) fun _ => Retains held (· ≠ id) := by
  refine Holds.getsBind fun parent => ?_
  rintro sys ⟨⟨retains, node, stored, isChild⟩, read⟩
  rw [stored] at read
  subst read
  simp only [Option.bind_some, isChild]
  refine (?_ : Keeps (Retains held (· ≠ id)) _) sys retains
  refine Keeps.bind (retains_modifyNode above _) fun _ => ?_
  refine Keeps.bind (Keeps.gets _) fun found => ?_
  cases found with
  | none =>
      exact Keeps.pure ()
  | some removed =>
      refine Keeps.bind (Keeps.modify fun sys retains => ?_) fun _ => ?_
      · exact InodeTable.Retained.removeNodeId retains _
          fun both => both.1 rfl
      · exact retains_removeNode fun apart => apart rfl

section Doomed

variable {parent : UInt64} {above id : NodeId} {name : Name}

/-- The name leads to a node that nothing depends on. -/
structure Dispensable
    (held : UInt64 → Nat)
    (parent : UInt64)
    (above : NodeId)
    (name : Name)
    (id : NodeId)
    (sys : Sys) : Prop where
  hung : Hung parent above name id sys
  retains : Retains held (· ≠ id) sys

theorem Calm.dispensable
    {α : Type}
    {act : Daemon α}
    (calm : Calm act) :
    Keeps (Dispensable held parent above name id) act :=
  fun sys holds => ⟨calm.hung sys holds.hung, calm.retains sys holds.retains⟩

theorem dispensable_checkEmpty :
    Keeps (Dispensable held parent above name id) (checkEmpty env id) := by
  refine Keeps.bind ?_ fun _ => (Calm.bind (.gets _) fun _ =>
    .check _ _).dispensable
  exact fun sys holds => ⟨(still_reloadDir id).hung sys holds.hung,
    (still_reloadDir id).retains (fun kept => (beside_table kept).reloadDir id) sys
      ⟨holds.hung.ok, holds.retains⟩⟩

/-- From the node that is found to the end of the request. -/
theorem retains_removeFound
    (isDir : Bool) :
    Holds (Dispensable held parent above name id) (do
      Act.runIf isDir (checkEmpty env id)
      getNodeUp env id
      let pnodeId ← Act.orFail (← resolveIno parent) .ENOENT
      getNodeUp env pnodeId
      hideNode env id true
      removeFromTree pnodeId name
      pure .ok : Daemon Reply)
      fun _ => Retains held fun _ => True := by
  have early :
      ∀ (errno : Errno) sys, Dispensable held parent above name id sys →
        Retains held (fun _ => True) sys :=
    fun _ _ holds => holds.retains.all
  refine Holds.bind (Keeps.runIf dispensable_checkEmpty) (fun _ => ?_) early
  refine Holds.bind (calm_getNodeUp id).dispensable (fun _ => ?_) early
  refine Holds.getsBind fun resolved => ?_
  rintro sys ⟨holds, same⟩
  have isParent : resolved = some above := same.symm.trans holds.hung.resolved
  subst isParent
  have rest :
      Holds (Dispensable held parent above name id) (do
        getNodeUp env above
        hideNode env id true
        removeFromTree above name
        pure .ok : Daemon Reply)
        fun _ => Retains held fun _ => True := by
    refine Holds.bind (calm_getNodeUp above).dispensable (fun _ => ?_) early
    have hides :
        Holds (Dispensable held parent above name id) (hideNode env id true)
          fun _ sys => Retains held (· ≠ id) sys ∧
            sys.nodes.Entry above name id :=
      fun sys holds => ⟨retains_hideNode id true sys holds.retains,
        entry_hideNode id true sys holds.hung.entry⟩
    refine Holds.bind hides (fun _ => ?_) fun _ _ holds => holds.1.all
    exact Holds.bind retains_removeFromTree
      (fun _ => Holds.pure fun _ retains => retains.all)
      fun _ _ retains => retains.all
  exact rest sys holds

/-- A removal of a node that is spared. -/
theorem retains_doRm
    {isDir : Bool}
    {sys : Sys}
    (heads : Heads parent sys)
    (retains : Retains held (fun _ => True) sys)
    (spares :
      ∀ id later, doLookupFile env parent name sys = (.ok (some id), later) →
        Spared held id later) :
    Retains held (fun _ => True) (doRm env parent name isDir sys).2 := by
  have looked := @placed_doLookupFile env parent name sys heads
  have kept := @retains_doLookupFile env held parent name sys retains
  unfold doRm
  rcases run : doLookupFile env parent name sys with ⟨outcome, later⟩
  rw [run] at looked kept
  obtain ⟨whole, places⟩ := looked
  cases outcome with
  | error errno =>
      rw [Act.bind_error run]
      exact kept
  | ok found =>
      rw [Act.bind_ok run]
      cases found with
      | none =>
          exact kept
      | some id =>
          obtain ⟨pnode, placed⟩ := places id rfl
          have live : later.nodes.Live id := whole.live_child placed.entry
          have found := presentOr_apply id .ENOENT later
          rw [if_pos (NodeArena.containsKey_iff.mpr live)] at found
          rw [Act.bind_ok found]
          exact retains_removeFound isDir later
            ⟨⟨whole.ok, placed.within.resolved, placed.entry, live⟩,
              kept.spare (spares id later run)⟩

end Doomed

/-! ## Renames -/

/-- `rename` up to the lookup of the destination after the rename on disk. -/
def renameOnUpper
    (env : Env)
    (parent : UInt64)
    (name : Name)
    (newparent : UInt64)
    (newname : Name)
    (flags : UInt32) :
    Daemon (NodeId × NodeId × Nat) := do
  checkNamemax env newname
  let srcId ← presentOr (← doLookupFile env parent name) .ENOENT
  checkMovable env srcId
  getNodeUp env srcId
  let sparentId ← Act.orFail (← resolveIno parent) .ENOENT
  getNodeUp env sparentId
  let dparentId ← Act.orFail (← resolveIno newparent) .ENOENT
  getNodeUp env dparentId
  let srcPath ← nodePath srcId
  let dparentPath ← nodePath dparentId
  prepareDestination env newparent newname flags
  let src ← getNode srcId
  Act.runIf ((src.map OvlNode.isDir).getD false) do
    let _ ← (deleteWhiteout upperRoot none dparentPath newname).attempt
  renameOnDisk env srcPath dparentPath newname flags
  let src ← getNode srcId
  modifyNode sparentId OvlNode.markUnloaded
  modifyNode dparentId OvlNode.markUnloaded
  pure (sparentId, dparentId, (src.map (·.lastLayerIdx)).getD 0)

/-- The rest of `rename`. -/
def renameTree
    (env : Env)
    (newparent : UInt64)
    (name newname : Name)
    (flags : UInt32)
    (nodes : NodeId × NodeId × Nat) :
    Daemon Reply := do
  (if flags &&& 2 ≠ 0 then
    exchangeNodes nodes.1 nodes.2.1 name newname
  else do
    dropReplaced env newparent nodes.2.1 newname
    moveNode nodes.1 nodes.2.1 name newname : Daemon Unit)
  Act.runIf (flags &&& 2 = 0 && 0 < nodes.2.2) do
    let sparentPath ← nodePath nodes.1
    let _ ← (createWhiteout env upperRoot sparentPath name
      env.canMknod).attempt
  pure .ok

/-- The parts of `rename`. -/
theorem rename_eq
    (parent : UInt64)
    (name : Name)
    (newparent : UInt64)
    (newname : Name)
    (flags : UInt32) :
    rename env parent name newparent newname flags =
      renameOnUpper env parent name newparent newname flags >>=
        renameTree env newparent name newname flags := by
  unfold rename renameOnUpper renameTree renameInTree
  simp only [Act.bind_assoc, Act.pure_bind]

theorem GrowthRule.checkMovable
    {kept : Sys → Prop}
    (rule : GrowthRule env kept)
    (srcId : NodeId) :
    Keeps kept (Daemon.checkMovable env srcId) := by
  refine Keeps.bind (rule.calm (.node srcId)) fun src => Keeps.runIf ?_
  refine Keeps.bind (rule.reloadDir srcId) fun _ => ?_
  exact rule.calm (.bind (.node srcId) fun src => .check _ _)

theorem GrowthRule.prepareDestination
    {kept : Sys → Prop}
    (rule : GrowthRule env kept)
    (newparent : UInt64)
    (newname : Name)
    (flags : UInt32) :
    Keeps kept (Daemon.prepareDestination env newparent newname flags) := by
  refine Keeps.bind (rule.looksUp newparent newname) fun found => ?_
  refine Keeps.bind (rule.calm (calm_isPresent found)) fun present => ?_
  split
  · next dstId =>
      refine Keeps.bind (Keeps.check _ _) fun _ => Keeps.runIf ?_
      refine Keeps.bind (rule.calm (.node dstId)) fun dst => Keeps.runIf ?_
      refine Keeps.bind (rule.reloadDir dstId) fun _ => ?_
      refine rule.calm (.bind (.gets _) fun visible => ?_)
      refine .bind (.check _ _) fun _ => ?_
      refine .bind (.nodePath dstId) fun dstPath => ?_
      exact .bind (.lift _) fun _ => .pure ()
  · exact Keeps.pure ()

theorem GrowthRule.renameOnUpper
    {kept : Sys → Prop}
    (rule : GrowthRule env kept)
    (parent : UInt64)
    (name : Name)
    (newparent : UInt64)
    (newname : Name)
    (flags : UInt32) :
    Keeps kept
      (Daemon.renameOnUpper env parent name newparent newname flags) := by
  refine Keeps.bind (rule.calm (.lift _)) fun _ => ?_
  refine Keeps.bind (rule.looksUp parent name) fun looked => ?_
  refine presentOr_bind (fun srcId _ => ?_) fun _ holds => holds
  refine Holds.imp ?_ (fun _ holds => holds.1) fun _ _ holds => holds
  refine Keeps.bind (rule.checkMovable srcId) fun _ => ?_
  refine Keeps.bind (rule.calm (calm_getNodeUp srcId)) fun _ => ?_
  refine Keeps.bind (Keeps.gets _) fun resolved => ?_
  refine Keeps.bind (Keeps.orFail _ _) fun sparentId => ?_
  refine Keeps.bind (rule.calm (calm_getNodeUp sparentId)) fun _ => ?_
  refine Keeps.bind (Keeps.gets _) fun resolvedDest => ?_
  refine Keeps.bind (Keeps.orFail _ _) fun dparentId => ?_
  refine Keeps.bind (rule.calm (calm_getNodeUp dparentId)) fun _ => ?_
  refine Keeps.bind (Keeps.gets _) fun srcPath => ?_
  refine Keeps.bind (Keeps.gets _) fun dparentPath => ?_
  refine Keeps.bind (rule.prepareDestination newparent newname flags)
    fun _ => ?_
  refine rule.calm (.bind (.gets _) fun src => ?_)
  refine .bind (.runIf (.bind (.lift _) fun _ => .pure ())) fun _ => ?_
  refine .bind (.lift _) fun _ => ?_
  refine .bind (.gets _) fun moved => ?_
  refine .bind (.modifyNode sparentId (by simp) (by simp)) fun _ => ?_
  exact .bind (.modifyNode dparentId (by simp) (by simp)) fun _ => .pure _

theorem retains_takeChild
    (parentId : NodeId)
    (name : Name) :
    Keeps (Retains held counts) (takeChild parentId name) := by
  refine Keeps.bind (Keeps.gets _) fun parent => ?_
  exact Keeps.bind (retains_modifyNode parentId _) fun _ => Keeps.pure _

theorem retains_exchangeNodes
    (sparentId dparentId : NodeId)
    (name newname : Name) :
    Keeps (Retains held counts)
      (exchangeNodes sparentId dparentId name newname) := by
  refine Keeps.bind (retains_takeChild sparentId name) fun srcChild => ?_
  refine Keeps.bind (retains_takeChild dparentId newname) fun dstChild => ?_
  refine Keeps.bind (Keeps.orFail _ _) fun sid => ?_
  refine Keeps.bind (Keeps.orFail _ _) fun did => ?_
  refine Keeps.bind (Keeps.gets _) fun foundSrc => ?_
  refine Keeps.bind (Keeps.orFail _ _) fun snode => ?_
  refine Keeps.bind (Keeps.gets _) fun foundDst => ?_
  refine Keeps.bind (Keeps.orFail _ _) fun dnode => ?_
  refine Keeps.bind (retains_modifyNode sid _) fun _ => ?_
  refine Keeps.bind (retains_modifyNode did _) fun _ => ?_
  refine Keeps.bind (retains_modifyNode dparentId _) fun _ => ?_
  exact retains_modifyNode sparentId _

theorem retains_moveNode
    (sparentId dparentId : NodeId)
    (name newname : Name) :
    Keeps (Retains held counts)
      (moveNode sparentId dparentId name newname) := by
  refine Keeps.bind (retains_takeChild sparentId name) fun child => ?_
  cases child with
  | none =>
      exact Keeps.pure ()
  | some childId =>
      exact Keeps.bind (retains_modifyNode childId _) fun _ =>
        retains_modifyNode dparentId _

/-- The destination that is found may go. -/
theorem retains_dropReplaced
    {newparent : UInt64}
    {newname : Name}
    (dparentId : NodeId)
    {sys : Sys}
    (retains : Retains held (fun _ => True) sys)
    (spares :
      ∀ id later,
        doLookupFile env newparent newname sys = (.ok (some id), later) →
          Spared held id later) :
    Retains held (fun _ => True)
      (dropReplaced env newparent dparentId newname sys).2 := by
  have kept := @retains_doLookupFile env held newparent newname sys retains
  unfold dropReplaced
  rcases run : doLookupFile env newparent newname sys with ⟨outcome, later⟩
  rw [run] at kept
  cases outcome with
  | error errno =>
      rw [Act.bind_error run]
      exact kept
  | ok found =>
      rw [Act.bind_ok run]
      cases found with
      | none =>
          exact kept
      | some id =>
          refine Retains.all ((?_ : Keeps (Retains held (· ≠ id)) _) later
            (kept.spare (spares id later run)))
          refine Keeps.bind (calm_isPresent _).retains fun present => ?_
          cases present with
          | false =>
              exact Keeps.pure ()
          | true =>
              refine Keeps.bind (Calm.node id).retains fun dst => ?_
              refine Keeps.bind (Keeps.modify fun sys retains => ?_)
                fun _ => ?_
              · exact InodeTable.Retained.removeNodeId retains _
                  fun both => both.1 rfl
              · refine Keeps.bind (retains_modifyNode dparentId _)
                  fun _ => ?_
                exact retains_removeNode fun apart => apart rfl

/-- A rename whose destination, if it is dropped, is spared. -/
theorem retains_rename
    {parent : UInt64}
    {name : Name}
    {newparent : UInt64}
    {newname : Name}
    {flags : UInt32}
    {sys : Sys}
    (tidy : Tidy held sys)
    (spares :
      flags &&& 2 = 0 → ∀ nodes ready id later,
        renameOnUpper env parent name newparent newname flags sys =
          (.ok nodes, ready) →
        doLookupFile env newparent newname ready = (.ok (some id), later) →
        Spared held id later) :
    Retains held (fun _ => True)
      (rename env parent name newparent newname flags sys).2 := by
  have kept := (@tidy_growthRule env held).renameOnUpper parent name
    newparent newname flags sys tidy
  rw [rename_eq]
  rcases run : renameOnUpper env parent name newparent newname flags sys with
    ⟨outcome, ready⟩
  rw [run] at kept
  cases outcome with
  | error errno =>
      rw [Act.bind_error run]
      exact kept.2
  | ok nodes =>
      rw [Act.bind_ok run]
      have changes :
          Holds (fun sys => sys = ready)
            (if flags &&& 2 ≠ 0 then
              exchangeNodes nodes.1 nodes.2.1 name newname
            else do
              dropReplaced env newparent nodes.2.1 newname
              moveNode nodes.1 nodes.2.1 name newname : Daemon Unit)
            fun _ => Retains held fun _ => True := by
        by_cases plain : flags &&& 2 = 0
        · rw [if_neg (not_not.mpr plain)]
          have drops :
              Holds (fun sys => sys = ready)
                (dropReplaced env newparent nodes.2.1 newname)
                fun _ => Retains held fun _ => True := by
            intro sys same
            rw [same]
            exact retains_dropReplaced nodes.2.1 kept.2
              fun id later => spares plain nodes ready id later run
          exact Holds.bind drops (fun _ => retains_moveNode _ _ _ _)
            fun _ _ holds => holds
        · rw [if_pos plain]
          intro sys same
          rw [same]
          exact retains_exchangeNodes _ _ _ _ ready kept.2
      have rest :
          Holds (fun sys => sys = ready)
            (renameTree env newparent name newname flags nodes)
            fun _ => Retains held fun _ => True := by
        refine Holds.bind changes (fun _ => ?_) fun _ _ holds => holds
        refine Keeps.bind (Calm.runIf ?_).retains fun _ => Keeps.pure _
        exact .bind (.nodePath nodes.1) fun path => .bind (.lift _) fun _ =>
          .pure ()
      exact rest ready rfl

end Daemon

/-! ## Runs -/

namespace Observed

open Daemon

variable {env : Env}

/-- Nothing is kept that neither the tree nor the kernel refers to. -/
structure NoLeak (observed : Observed) : Prop where
  entries :
    ∀ key entry, observed.sys.inodes.table.get? key = some entry →
      0 < entry.lookups ∨
        ∃ id ∈ entry.nodes, observed.sys.nodes.Live id ∧
          observed.sys.nodes.Attached id
  numbers :
    ∀ number key, observed.sys.inodes.fuseMap.get? number = some key →
      (∃ entry, observed.sys.inodes.table.get? key = some entry ∧
        entry.fuseIno = number) ∨ 0 < observed.held number
  nodes :
    ∀ id, observed.sys.nodes.Live id → observed.sys.nodes.Attached id

/--
A node that the request drops is not the last thing that refers to its entry.
For a plain rename that is the node which the lookup of the destination finds
after the rename on disk.
-/
def Spares
    (env : Env)
    (observed : Observed)
    (call : Call) : Prop :=
  match call.request with
  | .unlink parent name | .rmdir parent name =>
      ∀ id later,
        doLookupFile env parent name (observed.sys.begin call) =
          (.ok (some id), later) →
        Spared observed.held id later
  | .rename parent name newparent newname flags =>
      flags &&& 2 = 0 → ∀ nodes ready id later,
        renameOnUpper env parent name newparent newname flags
          (observed.sys.begin call) = (.ok nodes, ready) →
        doLookupFile env newparent newname ready = (.ok (some id), later) →
        Spared observed.held id later
  | _ => True

/-- Every request is careful, is counted exactly and spares what it drops. -/
def SparingRun
    (env : Env) :
    Observed → List Call → Prop
  | _, [] => True
  | observed, call :: rest =>
      (Sys.Careful env (observed.sys.begin call) call.request ∧
        observed.Protocol call.request ∧ observed.Exact call.request ∧
        observed.Spares env call) ∧
      SparingRun env (observed.step env call) rest

/-- What a sparing run keeps. -/
structure Bounded (observed : Observed) : Prop where
  balanced : Balanced observed
  whole : TreeWhole observed.sys
  retains : Retains observed.held (fun _ => True) observed.sys

theorem bounded_mount
    (env : Env)
    (disk : Disk) :
    Bounded (mount env disk) := by
  refine ⟨balanced_mount env disk, Sys.treeWhole_mount env disk, ?_, ?_⟩
  · intro key entry stored
    cases stored
  · intro number key pointed
    cases pointed

/-- A request that forgets nothing leaves the kernel all it holds. -/
theorem held_le_step
    (observed : Observed)
    {call : Call}
    (noForget : ∀ number, forgets call.request number = 0)
    (number : UInt64) :
    observed.held number ≤ (observed.step env call).held number := by
  simp only [held, step, gain, noForget]
  omega

theorem held_forget
    (observed : Observed)
    {call : Call}
    {ino nlookup : UInt64}
    (request : call.request = .forget ino nlookup)
    {number : UInt64}
    (other : number ≠ ino) :
    (observed.step env call).held number = observed.held number := by
  have none : answered call.request (observed.sys.step env call).1 = [] := by
    rw [request]
    cases (observed.sys.step env call).1 <;> rfl
  have nothing : forgets call.request number = 0 := by
    rw [request]
    exact if_neg fun same => other same.symm
  simp only [held, step, gain, none, nothing]
  simp

/-- A `forget` that is counted exactly. -/
theorem Bounded.retains_forget
    {observed : Observed}
    (bounded : Bounded observed)
    {call : Call}
    {ino nlookup : UInt64}
    (request : call.request = .forget ino nlookup)
    (protocol : observed.Protocol call.request)
    (exactly : observed.Exact call.request) :
    Retains (observed.step env call).held (fun _ => True)
      (observed.step env call).sys := by
  have counted := (@Balanced.step env observed bounded.balanced call protocol
    exactly).counted
  have left :
      (observed.step env call).sys.forest =
        ⟨observed.sys.nodes, (observed.sys.inodes.forget ino nlookup).2⟩ := by
    change (observed.sys.step env call).2.forest = _
    unfold Sys.step
    rw [request]
    rfl
  have nodes : (observed.step env call).sys.nodes = observed.sys.nodes :=
    congrArg Forest.nodes left
  have table : (observed.step env call).sys.inodes =
      (observed.sys.inodes.forget ino nlookup).2 :=
    congrArg Forest.inodes left
  unfold Retains
  rw [table] at counted
  rw [nodes, table]
  exact InodeTable.Retained.forget
    (fun number other => observed.held_forget request other) bounded.retains
    bounded.whole.table counted

/-- What is dropped by a sparing request is not missed. -/
theorem Bounded.retains_step
    {observed : Observed}
    (bounded : Bounded observed)
    {call : Call}
    (careful : Sys.Careful env (observed.sys.begin call) call.request)
    (protocol : observed.Protocol call.request)
    (exactly : observed.Exact call.request)
    (spares : observed.Spares env call) :
    Retains (observed.step env call).held (fun _ => True)
      (observed.step env call).sys := by
  have more :
      (∀ number, forgets call.request number = 0) →
      Retains observed.held (fun _ => True)
        (observed.sys.step env call).2 →
      Retains (observed.step env call).held (fun _ => True)
        (observed.step env call).sys :=
    fun noForget retains => InodeTable.Retained.mono retains
      (fun _ both => both) (observed.held_le_step noForget)
  have tidy : Tidy observed.held (observed.sys.begin call) :=
    ⟨bounded.whole.ok, bounded.retains⟩
  cases grows : removesNode call.request with
  | false =>
      refine more (fun number => ?_)
        (tidy_growthRule.handle grows (fun _ _ _ tidy => tidy)
          (observed.sys.begin call) tidy).2
      cases request : call.request <;> first
        | rfl
        | (rw [request] at grows; cases grows)
  | true =>
      cases request : call.request with
      | forget ino nlookup =>
          exact bounded.retains_forget request protocol exactly
      | unlink parent name =>
          refine more (fun number => by rw [request]; rfl) ?_
          rw [request] at careful
          simp only [Spares, request] at spares
          unfold Sys.step
          rw [request]
          exact retains_doRm ⟨bounded.whole, careful.1⟩ bounded.retains spares
      | rmdir parent name =>
          refine more (fun number => by rw [request]; rfl) ?_
          rw [request] at careful
          simp only [Spares, request] at spares
          unfold Sys.step
          rw [request]
          exact retains_doRm ⟨bounded.whole, careful.1⟩ bounded.retains spares
      | rename parent name newparent newname flags =>
          refine more (fun number => by rw [request]; rfl) ?_
          simp only [Spares, request] at spares
          unfold Sys.step
          rw [request]
          exact retains_rename tidy spares
      | _ =>
          rw [request] at grows
          cases grows

theorem SparingRun.bounded
    {observed : Observed}
    {calls : List Call}
    (sparing : SparingRun env observed calls)
    (bounded : Bounded observed) :
    Bounded (observed.run env calls) := by
  induction calls generalizing observed with
  | nil =>
      exact bounded
  | cons call rest inductionHypothesis =>
      obtain ⟨⟨careful, protocol, exactly, spares⟩, later⟩ := sparing
      refine inductionHypothesis later ⟨?_, ?_, ?_⟩
      · exact bounded.balanced.step protocol exactly
      · exact Sys.treeWhole_handle bounded.whole careful
      · exact bounded.retains_step careful protocol exactly spares

end Observed

namespace Sample

def renameFile : Call :=
  call (.rename 1 (ascii "a") 1 (ascii "b") 0)

/-- A file is looked up and renamed. -/
def renamed
    (lowers : Nat)
    (trees : Disk) : Observed :=
  (Observed.mount (env lowers) trees).run (env lowers)
    [lookupFile, renameFile]

/-- A directory is looked up, and then the root is refreshed. -/
def refreshed : Observed :=
  (Observed.mount (env 0) oneDir).run (env 0)
    [lookupDir, call (.ioctl 1 0 false .refreshDir)]

end Sample

namespace Observed

open Daemon Sample

/-- The node is spared, by what can be computed of the state. -/
theorem spared_of_test
    {held : UInt64 → Nat}
    {id : NodeId}
    {sys : Sys}
    (test :
      sys.inodes.table.toList.all (fun entry => entry.2.nodes.any fun other =>
        other != id && sys.nodes.containsKey other) = true) :
    Spared held id sys := by
  intro key entry stored _
  have passed := List.all_eq_true.mp test (key, entry)
    (FMap.mem_toList_iff.mpr stored)
  obtain ⟨other, member, both⟩ := List.any_eq_true.mp passed
  rw [Bool.and_eq_true] at both
  exact .inl ⟨other, member, bne_iff_ne.mp both.1,
    NodeArena.containsKey_iff.mp both.2⟩

/-- The rename of the upper file finds the file under its own key. -/
theorem spares_renameFile :
    Spares (env 0) ((mount (env 0) upperFile).run (env 0) [lookupFile])
      renameFile := by
  generalize begun : ((mount (env 0) upperFile).run (env 0)
    [lookupFile]).sys.begin renameFile = sys
  generalize moved : renameOnUpper (env 0) 1 (ascii "a") 1 (ascii "b") 0 sys =
    result
  generalize looked : doLookupFile (env 0) 1 (ascii "b") result.2 = answer
  have isThree : answer.1 = .ok (some 3) := by
    rw [← looked, ← moved, ← begun]
    decide +kernel
  have spared :
      answer.2.inodes.table.toList.all (fun entry =>
        entry.2.nodes.any fun other =>
          other != 3 && answer.2.nodes.containsKey other) = true := by
    rw [← looked, ← moved, ← begun]
    decide +kernel
  intro _ nodes ready id later ran found
  rw [begun, moved] at ran
  rw [ran] at looked
  have same : answer = (.ok (some id), later) := looked.symm.trans found
  rw [same] at spared isThree
  cases isThree
  exact spared_of_test spared

/-- A rename within the root moves nothing below itself. -/
theorem movesPast_root
    {sys : Sys}
    (ok : TreeOk sys)
    (name : Name) :
    sys.MovesPast 1 name 1 := by
  have heads := Sys.headsDir_root ok
  refine ⟨heads, rootId, rfl, heads rootId rfl, ?_⟩
  intro sparent src _ entry
  refine .root fun isRoot => ?_
  subst isRoot
  have tight : (none : Option NodeId) ≠ some rootId := nofun
  exact ok.tree.orphan_root tight sparent name entry

end Observed

end FuseOverlay
