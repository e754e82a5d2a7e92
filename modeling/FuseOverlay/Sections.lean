import FuseOverlay.DaemonSteps
import FuseOverlay.FileRequests
import FuseOverlay.Lib.Interleaving

namespace FuseOverlay

/-!
# Handlers on several threads

The threads of a mount share the tree under one lock and every table of handles
under a lock of its own; the descriptor of an open file is used under none.  A
handler is a sequence of sections, and the other threads may run wherever it
holds no lock.  A section under the lock of the tree is one step here, so what
other threads do meanwhile with open files and handles comes before or after
it.
-/

namespace Daemon

open Syscall

/-- The section of a handler that runs next, with what the thread holds. -/
inductive Section where
  /-- Nothing has run yet. -/
  | start (request : Request)
  /-- `lookup` after the read lock, about to take the write lock. -/
  | lookupSlow (parent : UInt64) (name : Name)
  /-- `open` after the read lock, about to copy up. -/
  | openSlow (ino : UInt64) (flags : OpenFlags)
  /-- `alloc_fh`, about to take a number. -/
  | takeFh (fd : Fd)
  /-- `alloc_fh`, about to store the descriptor. -/
  | storeFh (fd : Fd) (fh : Nat)
  /-- `read` with its descriptor. -/
  | reading (fd : Fd) (offset size : Nat)
  /-- `write` with its descriptor, about to look at the mode. -/
  | writing (fd : Fd) (offset : Nat) (bytes : List UInt8) (writeCache : Bool)
  /-- `write`, about to write. -/
  | storing (fd : Fd) (offset : Nat) (bytes : List UInt8)
      (mode : Option UInt32)
  /-- `write`, about to restore the mode. -/
  | restoring (fd : Fd) (mode : UInt32) (size : Nat)
  /-- `fsync` with its descriptor. -/
  | syncing (fd : Fd)
  /-- `fallocate` with its descriptor. -/
  | allocating (fd : Fd) (mode : UInt32) (offset length : Nat)
  /-- `copy_file_range`, about to fetch its second descriptor. -/
  | copyFrom (fdIn : Fd) (offsetIn fhOut offsetOut len : Nat)
  /-- `copy_file_range` with its descriptors. -/
  | copying (fdIn : Fd) (offsetIn : Nat) (fdOut : Fd) (offsetOut len : Nat)
  /-- `readdirplus` with the entries of its handle. -/
  | listing (fits : Nat) (entries : List (HandleEntry × Nat))

variable (env : Env)

/-- Open the file of a node on its layer. -/
def openFd
    (nodeId : NodeId)
    (flags : OpenFlags) :
    Daemon Fd := do
  let path ← nodePath nodeId
  let found ← node nodeId
  let _ ← layer env found.layerIdx
  safeOpenat env ⟨.layer found.layerIdx, []⟩ path (adjustFlags env flags)
    0o700

/-- `open` under the read lock; a file that needs a copy-up is left alone. -/
def openFast
    (ino : UInt64)
    (flags : OpenFlags) :
    Daemon (Option Fd) := do
  let nodeId ← resolveNode ino
  let found ← node nodeId
  let isLow := (env.layers[found.layerIdx]?.map (·.low)).getD false
  if needsWrite flags && isLow then
    pure none
  else
    some <$> openFd env nodeId flags

/-- `open` under the write lock -/
def openSlow
    (ino : UInt64)
    (flags : OpenFlags) :
    Daemon Fd := do
  let nodeId ← resolveNode ino
  getNodeUp env nodeId
  openFd env nodeId flags

/-- `next_fh.fetch_add` -/
def takeFh : Daemon Nat :=
  fun sys => (.ok sys.nextFh, { sys with nextFh := sys.nextFh + 1 })

/-- `open_files.write().insert` -/
def storeFh
    (fd : Fd)
    (fh : Nat) :
    Daemon Unit :=
  Act.modify fun sys => { sys with openFiles := sys.openFiles.set fh fd }

namespace Section

/-- The first section of a handler. -/
def runStart :
    Request → Daemon (Section ⊕ Reply)
  | .lookup parent name => do
      Act.check (!hasWhPrefix name) .ENOENT
      match ← lookupFast env parent name with
      | some reply => pure (.inr reply)
      | none => pure (.inl (.lookupSlow parent name))
  | .open ino flags => do
      match ← openFast env ino flags with
      | some fd => pure (.inl (.takeFh fd))
      | none => pure (.inl (.openSlow ino flags))
  | .read fh offset size => do
      let fd ← getFile fh
      pure (.inl (.reading fd offset size))
  | .write fh offset bytes writeCache => do
      let fd ← getFile fh
      pure (.inl (.writing fd offset bytes writeCache))
  | .fsync fh => do
      Act.check env.config.fsync .ENOSYS
      let fd ← getFile fh
      pure (.inl (.syncing fd))
  | .fallocate fh mode offset length => do
      let fd ← getFile fh
      pure (.inl (.allocating fd mode offset length))
  | .copyFileRange fhIn offsetIn fhOut offsetOut len => do
      let fdIn ← getFile fhIn
      pure (.inl (.copyFrom fdIn offsetIn fhOut offsetOut len))
  | .readdirplus fh offset fits => do
      let entries ← handleEntries fh offset
      pure (.inl (.listing fits entries))
  | request => .inr <$> handle env request

/-- One section; the handler ends or goes on to its next one. -/
def run :
    Section → Daemon (Section ⊕ Reply)
  | start request => runStart env request
  | lookupSlow parent name => .inr <$> Daemon.lookupSlow env parent name
  | openSlow ino flags => do
      let fd ← Daemon.openSlow env ino flags
      pure (.inl (.takeFh fd))
  | takeFh fd => do
      let fh ← Daemon.takeFh
      pure (.inl (.storeFh fd fh))
  | storeFh fd fh => do
      Daemon.storeFh fd fh
      pure (.inr (.opened fh))
  | reading fd offset size =>
      (fun bytes => .inr (.data bytes)) <$>
        readFile fd offset (min size (2 ^ 21))
  | writing fd offset bytes writeCache => do
      let mode ← restoreMode fd writeCache
      pure (.inl (.storing fd offset bytes mode))
  | storing fd offset bytes mode => do
      pwrite fd bytes offset
      match mode with
      | none => pure (.inr (.written bytes.length))
      | some mode => pure (.inl (.restoring fd mode bytes.length))
  | restoring fd mode size => do
      let _ ← (fchmod fd mode).attempt
      pure (.inr (.written size))
  | syncing fd => do
      let _ ← fdObj fd
      pure (.inr .ok)
  | allocating fd mode offset length => do
      fallocate env fd mode offset length
      pure (.inr .ok)
  | copyFrom fdIn offsetIn fhOut offsetOut len => do
      let fdOut ← getFile fhOut
      pure (.inl (.copying fdIn offsetIn fdOut offsetOut len))
  | copying fdIn offsetIn fdOut offsetOut len =>
      (fun copied => .inr (.written copied)) <$>
        copyRange fdIn offsetIn fdOut offsetOut (min len (2 ^ 32 - 1))
  | listing fits entries =>
      (fun listed => .inr (.directoryPlus listed)) <$>
        plusEntries env fits entries

end Section

end Daemon

/-- The time, and what the system calls of a section meet. -/
structure Inputs where
  faults : List (Option Errno)
  inos : List UInt64
  now : Timespec

/-- The state a section starts from. -/
def Sys.meet
    (sys : Sys)
    (inputs : Inputs) :
    Sys :=
  { sys with
    os := { sys.os with
      disk := { sys.os.disk with now := inputs.now }
      faults := inputs.faults
      inos := inputs.inos } }

/-- The handlers, as threads run them. -/
def handlers
    (env : Env) :
    Program Errno Sys Request Inputs Daemon.Section Reply where
  first := .start
  act inputs point := fun sys => point.run env (sys.meet inputs)

/-! ## Sections in a row -/

namespace Daemon

open Syscall

variable {env : Env}

/-- What follows a section. -/
def goOn
    (rest : Section → Daemon Reply) :
    Section ⊕ Reply → Daemon Reply
  | .inl next => rest next
  | .inr reply => pure reply

/-- The next sections of a handler, with no other thread between them. -/
def Section.finish
    (env : Env) :
    Nat → Section → Daemon Reply
  | 0, _ => Act.fail Errno.EIO
  | sections + 1, point => do goOn (finish env sections) (← point.run env)

theorem lift_bind
    {α β : Type}
    (first : Syscall α)
    (next : α → Syscall β) :
    (first >>= next).lift =
      first.lift >>= fun value => (next value).lift := by
  funext sys
  simp only [Act.bind_apply, Syscall.lift]
  rcases first sys.os with ⟨outcome, later⟩
  cases outcome <;> rfl

theorem bind_pure
    {α : Type}
    (act : Daemon α) :
    (act >>= fun value => pure value) = act := by
  funext sys
  rw [Act.bind_apply]
  rcases act sys with ⟨outcome, later⟩
  cases outcome <;> rfl

/-- A section that starts like the rest of the handler. -/
theorem goOn_bind
    {α : Type}
    {act : Daemon α}
    {next : α → Daemon (Section ⊕ Reply)}
    {rest : Section → Daemon Reply}
    {last : α → Daemon Reply}
    (same : ∀ value, (next value >>= goOn rest) = last value) :
    ((act >>= next) >>= goOn rest) = act >>= last := by
  rw [Act.bind_assoc]
  exact congrArg (act >>= ·) (funext same)

/-- A sequence whose first action only looks. -/
theorem bind_still
    {α β : Type}
    {act : Daemon α}
    {next last : α → Daemon β}
    {sys : Sys}
    (still : ∀ value later, act sys = (.ok value, later) → later = sys)
    (same : ∀ value, act sys = (.ok value, sys) →
      next value sys = last value sys) :
    (act >>= next) sys = (act >>= last) sys := by
  simp only [Act.bind_apply]
  rcases ran : act sys with ⟨outcome, later⟩
  cases outcome with
  | error error =>
      rfl
  | ok value =>
      obtain rfl := still value later ran
      exact same value ran

theorem openNode_eq
    (nodeId : NodeId)
    (flags : OpenFlags) :
    openNode env nodeId flags =
      openFd env nodeId flags >>= fun fd => .opened <$> allocFh fd := by
  unfold openNode openFd
  simp only [Act.bind_assoc]

namespace Section

theorem finish_openSlow
    (ino : UInt64)
    (flags : OpenFlags) :
    (openSlow ino flags).finish env 3 =
      Daemon.openSlow env ino flags >>= fun fd => .opened <$> allocFh fd :=
  goOn_bind fun _ => rfl

theorem finish_writing
    (fd : Fd)
    (offset : Nat)
    (bytes : List UInt8)
    (writeCache : Bool) :
    (writing fd offset bytes writeCache).finish env 3 =
      (writeFile fd offset bytes writeCache).lift >>= fun _ =>
        pure (.written bytes.length) := by
  unfold writeFile
  rw [lift_bind, Act.bind_assoc]
  apply goOn_bind
  intro mode
  rw [lift_bind, Act.bind_assoc]
  apply goOn_bind
  intro stored
  cases mode with
  | none => rfl
  | some mode => rfl

theorem finish_open
    (ino : UInt64)
    (flags : OpenFlags) :
    (start (.open ino flags)).finish env 4 = «open» env ino flags := by
  funext sys
  change ((openFast env ino flags >>= _) >>= goOn _) sys = _
  unfold openFast «open»
  rw [Act.bind_assoc, Act.bind_assoc]
  apply bind_still fun _ _ returned => (resolveNode_returns returned).2.2
  intro nodeId resolved
  rw [Act.bind_assoc]
  apply bind_still fun _ _ returned => (node_returns returned).2
  intro found stored
  rw [openNode_eq]
  dsimp only
  cases copies :
      (needsWrite flags &&
        (env.layers[found.layerIdx]?.map (·.low)).getD false) with
  | true =>
      -- under the write lock the number is resolved once more
      change (openSlow ino flags).finish env 3 sys = _
      rw [finish_openSlow]
      unfold Daemon.openSlow
      rw [Act.bind_assoc, Act.bind_ok resolved, Act.bind_assoc]
      rfl
  | false =>
      exact congrFun (Act.bind_assoc (openFd env nodeId flags)
        (fun fd => pure (some fd)) _) sys

end Section

end Daemon

end FuseOverlay
