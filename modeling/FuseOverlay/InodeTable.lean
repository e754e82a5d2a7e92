import FuseOverlay.Node

namespace FuseOverlay

/-!
# The inode table

`(ino, dev)` pairs of the underlying file systems are mapped to FUSE inode
numbers.  `fuseMap` is the reverse map; it may also hold tombstones, numbers
whose key has no entry any more or has one under another number.

The node set of an entry is kept as the list in which the hash set would be
iterated.  Removing elements keeps that order; inserting may move everything,
so insertion takes the resulting order from a `HashOrder`.

`STAT_INODES` is a global counter that only this table writes; it is the field
`statInodes`, an integer so that an underflow would show as a negative value.
-/

/-- Key of the inode table. -/
structure InodeKey where
  ino : UInt64
  dev : UInt64
  deriving Repr, DecidableEq

/-- A unique inode in the overlay; hard links share one entry. -/
structure OvlIno where
  nodes : List NodeId
  lookups : Int64
  mode : Mode
  fuseIno : UInt64

/-- Where a hash set puts a new element in its iteration order. -/
structure HashOrder where
  place : NodeId → List NodeId → List NodeId
  placePerm : ∀ id ids, (place id ids).Perm (id :: ids)

namespace HashOrder

/-- `HashSet::insert` on the iteration order. -/
def insert
    (order : HashOrder)
    (id : NodeId)
    (ids : List NodeId) :
    List NodeId :=
  if id ∈ ids then ids else order.place id ids

/-- Insertion adds exactly the inserted element. -/
theorem mem_insert
    (order : HashOrder)
    {id query : NodeId}
    {ids : List NodeId} :
    query ∈ order.insert id ids ↔ query = id ∨ query ∈ ids := by
  unfold insert
  split
  · next present =>
      constructor
      · exact Or.inr
      · rintro (same | member)
        · exact same ▸ present
        · exact member
  · rw [(order.placePerm id ids).mem_iff, List.mem_cons]

/-- The order that puts every new element first. -/
def front : HashOrder where
  place := List.cons
  placePerm := fun _ _ => List.Perm.refl _

end HashOrder

/--
`compute_fuse_ino`: the raw number on one device, a hash of the pair on
several; the reserved values 0 and 1 are moved up by two.
-/
def computeFuseIno
    (ino dev : UInt64)
    (sameDevice : Bool) :
    UInt64 :=
  if sameDevice then
    if ino ≤ 1 then ino + 2 else ino
  else
    let mixed := (ino ^^^ (dev * 0x9e3779b97f4a7c15)) * 0x517cc1b727220a95
    let hash := mixed ^^^ (mixed >>> 32)
    if hash ≤ 1 then hash + 2 else hash

/-- The inode table. -/
structure InodeTable where
  table : FMap InodeKey OvlIno
  fuseMap : FMap UInt64 InodeKey
  sameDevice : Bool
  nextFallback : UInt64
  statInodes : Int

namespace InodeTable

def new : InodeTable where
  table := ∅
  fuseMap := ∅
  sameDevice := true
  nextFallback := 0x8000000000000000
  statInodes := 0

def setSameDevice
    (inodes : InodeTable)
    (same : Bool) :
    InodeTable :=
  { inodes with sameDevice := same }

/-- Look up an entry by its FUSE inode number. -/
def fuseToIno
    (inodes : InodeTable)
    (fuseIno : UInt64) :
    Option OvlIno :=
  (inodes.fuseMap.get? fuseIno).bind inodes.table.get?

/-- Look up by key. -/
def getByKey
    (inodes : InodeTable)
    (key : InodeKey) :
    Option OvlIno :=
  inodes.table.get? key

/-- The FUSE inode number of a key, if registered. -/
def keyToFuseIno
    (inodes : InodeTable)
    (key : InodeKey) :
    Option UInt64 :=
  (inodes.table.get? key).map (·.fuseIno)

/--
The collision loop of `register`.  It yields the number picked and the new
fallback counter.  The fuel runs out only when every number from 2 on is taken,
where the loop of the source does not end.
-/
def probe
    (taken : FMap UInt64 InodeKey) :
    Nat → UInt64 → UInt64 → Option (UInt64 × UInt64)
  | 0, _, _ => none
  | fuel + 1, fuseIno, nextFallback =>
      if taken.contains fuseIno || fuseIno ≤ 1 then
        let next := nextFallback + 1
        probe taken fuel nextFallback (if next ≤ 1 then 2 else next)
      else
        some (fuseIno, nextFallback)

/-- The last part of `register`: a new entry under a number not in use. -/
def registerNew
    (inodes : InodeTable)
    (nodeId : NodeId)
    (key : InodeKey)
    (mode : Mode) :
    Option (UInt64 × InodeTable) :=
  match probe inodes.fuseMap (inodes.fuseMap.size + 2)
      (computeFuseIno key.ino key.dev inodes.sameDevice)
      inodes.nextFallback with
  | none => none
  | some (fuseIno, nextFallback) =>
      some (fuseIno,
        { inodes with
          table := inodes.table.set key
            { nodes := [nodeId], lookups := 0, mode := mode,
              fuseIno := fuseIno }
          fuseMap := inodes.fuseMap.set fuseIno key
          nextFallback := nextFallback
          statInodes := inodes.statInodes + 1 })

/--
`register`: link a node to the entry of `(ino, dev)`, or make a new entry.
An entry whose nodes are all dead is dropped first, and its number stays in
`fuseMap` as a tombstone.  `none` stands for a collision loop without end.
-/
def register
    (inodes : InodeTable)
    (order : HashOrder)
    (arena : NodeArena)
    (nodeId : NodeId)
    (ino dev : UInt64)
    (mode : Mode) :
    Option (UInt64 × InodeTable) :=
  let key : InodeKey := ⟨ino, dev⟩
  match inodes.table.get? key with
  | none => inodes.registerNew nodeId key mode
  | some existing =>
      let live := existing.nodes.filter arena.containsKey
      if live.isEmpty then
        { inodes with
          table := inodes.table.remove key
          statInodes := inodes.statInodes - 1 }.registerNew nodeId key mode
      else
        let newPath := computePath arena nodeId
        let duplicate := live.any fun existingId =>
          match arena.get? existingId with
          | some node =>
              node.isDir || computePath arena existingId == newPath
          | none => false
        if duplicate then
          some (existing.fuseIno,
            { inodes with
              table := inodes.table.set key { existing with nodes := live } })
        else
          some (existing.fuseIno,
            { inodes with
              table := inodes.table.set key
                { existing with
                  nodes := order.insert nodeId live, mode := mode } })

/-- Remove a node from an entry's node set. -/
def removeNodeId
    (inodes : InodeTable)
    (key : InodeKey)
    (nodeId : NodeId) :
    InodeTable :=
  { inodes with
    table := inodes.table.modify key fun entry =>
      { entry with nodes := entry.nodes.filter (· != nodeId) } }

/-- Increment the lookup count of a key. -/
def incLookup
    (inodes : InodeTable)
    (key : InodeKey) :
    InodeTable :=
  { inodes with
    table := inodes.table.modify key fun entry =>
      { entry with lookups := entry.lookups + 1 } }

/--
`forget`: drop `nlookup` references of a number.  A number that is not its
key's current one is a tombstone and only leaves the reverse map.
-/
def forget
    (inodes : InodeTable)
    (fuseIno nlookup : UInt64) :
    Bool × InodeTable :=
  if fuseIno = 1 ∨ fuseIno = 0 then
    (false, inodes)
  else
    match inodes.fuseMap.get? fuseIno with
    | none => (false, inodes)
    | some key =>
        match inodes.table.get? key with
        | none =>
            (true, { inodes with fuseMap := inodes.fuseMap.remove fuseIno })
        | some entry =>
            if entry.fuseIno ≠ fuseIno then
              (true, { inodes with fuseMap := inodes.fuseMap.remove fuseIno })
            else
              let left := entry.lookups - nlookup.toInt64
              if left ≤ 0 then
                (true,
                  { inodes with
                    table := inodes.table.remove key
                    fuseMap := inodes.fuseMap.remove fuseIno
                    statInodes := inodes.statInodes - 1 })
              else
                (true,
                  { inodes with
                    table := inodes.table.set key
                      { entry with lookups := left } })

end InodeTable

end FuseOverlay
