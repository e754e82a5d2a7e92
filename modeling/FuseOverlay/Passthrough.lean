import FuseOverlay.Lib.FMap

namespace FuseOverlay

/-!
# Passthrough opens

`open`, `create` and `release` share three tables that have a lock each: the
backings of the inode numbers with their counts, the open files, and the
numbers of the passthrough handles.  A thread holds one of the locks at a time,
except that `release` keeps the lock of `fh_to_ino` while it updates the
backings, so a step of the model is what a thread does under one lock.  Beside
the tables the state has the file behind every number, which copy-up changes,
and the handles that the kernel has been given and has not released.
-/

namespace Passthrough

/-- An underlying file and whether it is on a lower layer. -/
structure File where
  id : Nat
  low : Bool
  deriving Repr, DecidableEq

/-- `BackingId`: its identity and the file it was registered with. -/
structure BackingId where
  id : Nat
  file : File
  deriving Repr, DecidableEq

/-- An `open` or a `create` with its descriptor. -/
structure Job where
  ino : UInt64
  file : File
  needsWrite : Bool
  creates : Bool
  deriving Repr, DecidableEq

/-- Where a thread is in its handler. -/
inductive Phase where
  /-- About to read `passthrough_enabled`. -/
  | opened (job : Job)
  /-- About to look for a backing of the number. -/
  | check (job : Job)
  /-- About to call `open_backing`. -/
  | backing (job : Job)
  /-- With a backing of its own, about to look again or, in `create`, to
  insert it. -/
  | recheck (job : Job) (fh : Nat) (backingId : BackingId)
  /-- Counted, about to store the descriptor. -/
  | counted (job : Job) (fh : Nat) (backingId : BackingId)
  /-- About to record the number of the handle. -/
  | stored (job : Job) (fh : Nat) (backingId : BackingId)
  /-- About to reply with the backing. -/
  | recorded (job : Job) (fh : Nat) (backingId : BackingId)
  /-- `open_backing` failed; about to clear `passthrough_enabled`. -/
  | disable (job : Job)
  /-- About to call `alloc_fh`. -/
  | plain (job : Job)
  /-- About to reply without a backing. -/
  | allocated (job : Job) (fh : Nat)
  /-- `release`, about to give the backing back. -/
  | releasing (fh : Nat)
  /-- `release`, about to drop the descriptor. -/
  | closing (fh : Nat)
  deriving Repr, DecidableEq

namespace Phase

/-- The handler the thread runs, when it is `open` or `create`. -/
def job? : Phase → Option Job
  | opened job | check job | backing job | disable job | plain job => some job
  | recheck job _ _ | counted job _ _ | stored job _ _ | recorded job _ _ =>
      some job
  | allocated job _ => some job
  | releasing _ | closing _ => none

/-- The handle the thread works on. -/
def fh? : Phase → Option Nat
  | opened _ | check _ | backing _ | disable _ | plain _ => none
  | recheck _ fh _ | counted _ fh _ | stored _ fh _ | recorded _ fh _ =>
      some fh
  | allocated _ fh | releasing fh | closing fh => some fh

/-- `create` keeps the lock of `inner` until it has replied. -/
def locksInner (phase : Phase) : Bool :=
  (phase.job?.map (·.creates)).getD false

/-- The open is in the count of the number and not yet among its handles. -/
def pendsOn
    (ino : UInt64) :
    Phase → Bool
  | counted job _ _ | stored job _ _ => job.ino = ino
  | _ => false

end Phase

/-- What the kernel was told about a handle. -/
structure Answer where
  job : Job
  backing : Option BackingId
  deriving Repr, DecidableEq

/-- The tables, the threads and what the kernel holds. -/
structure State where
  openFiles : FMap Nat File
  nextFh : Nat
  inodeBackings : FMap UInt64 (BackingId × Nat)
  fhToIno : FMap Nat UInt64
  passthroughEnabled : Bool
  current : UInt64 → File
  nextBacking : Nat
  threads : FMap Nat Phase
  held : FMap Nat Answer

/-- One step of a thread, or a request that begins. -/
inductive Action where
  /-- `open` up to its descriptor; `copy` is the file a copy-up makes. -/
  | openFile (thread : Nat) (ino : UInt64) (needsWrite : Bool) (copy : Nat)
  /-- A copy-up in another handler. -/
  | copyUp (ino : UInt64) (copy : Nat)
  /-- `create` up to its descriptor. -/
  | create (thread : Nat) (ino : UInt64) (file : Nat) (needsWrite : Bool)
  /-- The kernel releases a handle. -/
  | release (thread : Nat) (fh : Nat)
  /-- The next step of a thread; `backs` is the answer of `open_backing`. -/
  | advance (thread : Nat) (backs : Bool)
  deriving Repr, DecidableEq

namespace State

/-- A mount without open files. -/
def init
    (enabled : Bool)
    (current : UInt64 → File) :
    State where
  openFiles := ∅
  nextFh := 1
  inodeBackings := ∅
  fhToIno := ∅
  passthroughEnabled := enabled
  current := current
  nextBacking := 0
  threads := ∅
  held := ∅

/-- The lock of `inner` can be taken. -/
def innerFree (state : State) : Bool :=
  state.threads.count Phase.locksInner = 0

def setPhase
    (state : State)
    (thread : Nat)
    (phase : Phase) :
    State :=
  { state with threads := state.threads.set thread phase }

/-- The thread has replied. -/
def finish
    (state : State)
    (thread : Nat) :
    State :=
  { state with threads := state.threads.remove thread }

def setCurrent
    (state : State)
    (ino : UInt64)
    (file : File) :
    State :=
  { state with
    current := fun query => if query = ino then file else state.current query }

/-- The count of a number's backing, as `open` finds it, and the handle. -/
def reuse
    (state : State)
    (ino : UInt64)
    (backingId : BackingId)
    (count : Nat) :
    State :=
  { state with
    inodeBackings := state.inodeBackings.set ino (backingId, count + 1) }

/-- `release` gives a backing back; the last one drops it. -/
def giveBack
    (state : State)
    (ino : UInt64) :
    State :=
  match state.inodeBackings.get? ino with
  | none => state
  | some (backingId, count) =>
      if count - 1 = 0 then
        { state with inodeBackings := state.inodeBackings.remove ino }
      else
        { state with
          inodeBackings := state.inodeBackings.set ino (backingId, count - 1) }

/-- The next step of a thread. -/
def advance
    (state : State)
    (thread : Nat)
    (backs : Bool) :
    Phase → State
  | .opened job =>
      state.setPhase thread
        (if !state.passthroughEnabled then .plain job
          else if job.creates then .backing job
          else .check job)
  | .check job =>
      match state.inodeBackings.get? job.ino with
      | some (backingId, count) =>
          ({ state.reuse job.ino backingId count with
              nextFh := state.nextFh + 1 }).setPhase thread
            (.counted job state.nextFh backingId)
      | none => state.setPhase thread (.backing job)
  | .backing job =>
      if backs then
        ({ state with
            nextFh := state.nextFh + 1
            nextBacking := state.nextBacking + 1 }).setPhase thread
          (.recheck job state.nextFh ⟨state.nextBacking, job.file⟩)
      else
        state.setPhase thread (.disable job)
  | .recheck job fh backingId =>
      match job.creates, state.inodeBackings.get? job.ino with
      | false, some (existing, count) =>
          (state.reuse job.ino existing count).setPhase thread
            (.counted job fh existing)
      | _, _ =>
          ({ state with
              inodeBackings :=
                state.inodeBackings.set job.ino (backingId, 1) }).setPhase
            thread (.counted job fh backingId)
  | .counted job fh backingId =>
      ({ state with openFiles := state.openFiles.set fh job.file }).setPhase
        thread (.stored job fh backingId)
  | .stored job fh backingId =>
      ({ state with fhToIno := state.fhToIno.set fh job.ino }).setPhase
        thread (.recorded job fh backingId)
  | .recorded job fh backingId =>
      ({ state with
          held := state.held.set fh ⟨job, some backingId⟩ }).finish thread
  | .disable job =>
      ({ state with passthroughEnabled := false }).setPhase thread
        (.plain job)
  | .plain job =>
      ({ state with
          openFiles := state.openFiles.set state.nextFh job.file
          nextFh := state.nextFh + 1 }).setPhase thread
        (.allocated job state.nextFh)
  | .allocated job fh =>
      ({ state with held := state.held.set fh ⟨job, none⟩ }).finish thread
  | .releasing fh =>
      match state.fhToIno.get? fh with
      | some ino =>
          ({ state with fhToIno := state.fhToIno.remove fh }.giveBack
            ino).setPhase thread (.closing fh)
      | none => state.setPhase thread (.closing fh)
  | .closing fh =>
      ({ state with openFiles := state.openFiles.remove fh }).finish thread

/-- One action, when it is possible. -/
def step
    (state : State) :
    Action → Option State
  | .openFile thread ino needsWrite copy =>
      if !state.innerFree || (state.threads.get? thread).isSome then
        none
      else if needsWrite && (state.current ino).low then
        some ((state.setCurrent ino ⟨copy, false⟩).setPhase thread
          (.opened ⟨ino, ⟨copy, false⟩, needsWrite, false⟩))
      else
        some (state.setPhase thread
          (.opened ⟨ino, state.current ino, needsWrite, false⟩))
  | .copyUp ino copy =>
      if !state.innerFree || !(state.current ino).low then none
      else some (state.setCurrent ino ⟨copy, false⟩)
  | .create thread ino file needsWrite =>
      if !state.innerFree || (state.threads.get? thread).isSome then
        none
      else
        some ((state.setCurrent ino ⟨file, false⟩).setPhase thread
          (.opened ⟨ino, ⟨file, false⟩, needsWrite, true⟩))
  | .release thread fh =>
      if (state.threads.get? thread).isSome || (state.held.get? fh).isNone then
        none
      else
        some (({ state with held := state.held.remove fh }).setPhase thread
          (.releasing fh))
  | .advance thread backs =>
      (state.threads.get? thread).map (state.advance thread backs)

/-- The state after a list of actions, all of them possible. -/
def run :
    State → List Action → Option State
  | state, [] => some state
  | state, action :: rest => (state.step action).bind (run · rest)

/-- The number of handles recorded for an inode number. -/
def mapped
    (state : State)
    (ino : UInt64) : Nat :=
  state.fhToIno.count (· = ino)

/-- The number of opens that are counted and not yet recorded. -/
def pending
    (state : State)
    (ino : UInt64) : Nat :=
  state.threads.count (·.pendsOn ino)

/-- The count in the entry of a number. -/
def count
    (state : State)
    (ino : UInt64) : Nat :=
  ((state.inodeBackings.get? ino).map (·.2)).getD 0

end State

end Passthrough

end FuseOverlay
