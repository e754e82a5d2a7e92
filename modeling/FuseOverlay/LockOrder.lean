import FuseOverlay.HandleNumbers
import FuseOverlay.Lib.Locks

namespace FuseOverlay

/-!
# The locks of the handlers

`OverlayFs` has five reader-writer locks, and several handlers take one while
they hold another: `create` stores its descriptor, and with passthrough its
backing, under the lock of the tree; `setattr` and `ioctl` fetch a descriptor
there; `release` looks for the backing under the lock of the map it comes from.
All of them agree on one order.  The system calls between two lock operations
hold no lock of the daemon and are left out.
-/

/-- The locks of `OverlayFs`. -/
inductive Lock where
  | inner
  | openFiles
  | openDirs
  | inodeBackings
  | fhToIno
  deriving DecidableEq

/-- The order in which the handlers take them. -/
def Lock.rank : Lock → Nat
  | .inner => 0
  | .fhToIno => 1
  | .inodeBackings => 2
  | .openFiles => 3
  | .openDirs => 4

namespace Locking

/-- `alloc_fh` -/
def allocFh (next : Locking Lock) : Locking Lock :=
  .within .openFiles .exclusive next

/-- `alloc_dh` -/
def allocDh (next : Locking Lock) : Locking Lock :=
  .within .openDirs .exclusive next

/-- `get_file` -/
def getFile (next : Locking Lock) : Locking Lock :=
  .within .openFiles .shared next

/-- The stores of a passthrough open. -/
def storePassthrough (next : Locking Lock) : Locking Lock :=
  .within .openFiles .exclusive (.within .fhToIno .exclusive next)

/-- `reply_open_maybe_passthrough` -/
def replyOpenMaybePassthrough : Locking Lock :=
  .branch
    (.take .inodeBackings .exclusive
      (.branch
        (.drop .inodeBackings (storePassthrough .done))
        (.drop .inodeBackings
          (.branch
            (.within .inodeBackings .exclusive (storePassthrough .done))
            (allocFh .done)))))
    (allocFh .done)

/-- A handler with one section under the lock of the tree. -/
def locked (mode : LockMode) : Locking Lock :=
  .within .inner mode .done

/-- A handler that may reply before it takes the lock of the tree. -/
def checked (mode : LockMode) : Locking Lock :=
  .branch .done (locked mode)

/-- `lookup` after the read lock -/
def lookupSlow : Locking Lock :=
  locked .exclusive

/-- `lookup` -/
def lookup : Locking Lock :=
  .branch .done (.within .inner .shared (.branch .done lookupSlow))

/-- `getattr`; for the root the read lock gives way to the write lock. -/
def getattr : Locking Lock :=
  .take .inner .shared
    (.branch
      (.drop .inner (locked .exclusive))
      (.drop .inner .done))

/-- `setattr`; the descriptor is fetched under the lock of the tree. -/
def setattr : Locking Lock :=
  .take .inner .exclusive
    (.branch
      (.drop .inner .done)
      (getFile (.drop .inner .done)))

/-- `open` after the read lock -/
def openSlow : Locking Lock :=
  .take .inner .exclusive
    (.branch
      (.drop .inner .done)
      (.drop .inner replyOpenMaybePassthrough))

/-- `open` -/
def «open» : Locking Lock :=
  .take .inner .shared
    (.branch
      (.drop .inner .done)
      (.branch
        (.drop .inner replyOpenMaybePassthrough)
        (.drop .inner openSlow)))

/-- `create`; the handle is stored under the lock of the tree. -/
def create : Locking Lock :=
  .take .inner .exclusive
    (.branch
      (.drop .inner .done)
      (.branch
        (.within .inodeBackings .exclusive
          (storePassthrough (.drop .inner .done)))
        (allocFh (.drop .inner .done))))

/-- `release`; the guard of `fh_to_ino` lives to the end of the `if let`. -/
def release : Locking Lock :=
  .take .fhToIno .exclusive
    (.branch
      (.within .inodeBackings .exclusive
        (.drop .fhToIno (.within .openFiles .exclusive .done)))
      (.drop .fhToIno (.within .openFiles .exclusive .done)))

/-- `opendir` -/
def opendir : Locking Lock :=
  .take .inner .exclusive
    (.branch
      (.drop .inner .done)
      (allocDh (.drop .inner .done)))

/-- `readdir` -/
def readdir : Locking Lock :=
  .within .openDirs .shared .done

/-- `readdirplus`; the entries are copied so that one lock is dropped before
the other is taken. -/
def readdirplus : Locking Lock :=
  .take .openDirs .shared
    (.branch
      (.drop .openDirs .done)
      (.drop .openDirs (locked .exclusive)))

/-- `releasedir` -/
def releasedir : Locking Lock :=
  .within .openDirs .exclusive .done

/-- `fsync` -/
def fsync : Locking Lock :=
  .branch .done (getFile .done)

/-- `copy_file_range` -/
def copyFileRange : Locking Lock :=
  getFile (.branch .done (getFile .done))

/-- `ioctl`; a get may fetch its descriptor under the lock of the tree. -/
def ioctl : Locking Lock :=
  .branch .done
    (.take .inner .exclusive
      (.branch
        (.drop .inner .done)
        (getFile (.drop .inner .done))))

end Locking

/-- What a handler does with the locks. -/
def Request.locking : Request → Locking Lock
  | .lookup .. => .lookup
  | .forget .. => .locked .exclusive
  | .getattr .. => .getattr
  | .setattr .. => .setattr
  | .readlink .. => .locked .shared
  | .mknod .. => .locked .exclusive
  | .mkdir .. => .locked .exclusive
  | .unlink .. => .locked .exclusive
  | .rmdir .. => .locked .exclusive
  | .symlink .. => .locked .exclusive
  | .rename .. => .locked .exclusive
  | .link .. => .locked .exclusive
  | .open .. => .open
  | .read .. => .getFile .done
  | .write .. => .getFile .done
  | .release .. => .release
  | .fsync .. => .fsync
  | .fallocate .. => .getFile .done
  | .copyFileRange .. => .copyFileRange
  | .create .. => .create
  | .setxattr .. => .checked .exclusive
  | .removexattr .. => .checked .exclusive
  | .getxattr .. => .checked .shared
  | .listxattr .. => .checked .shared
  | .opendir .. => .opendir
  | .readdir .. => .readdir
  | .readdirplus .. => .readdirplus
  | .releasedir .. => .releasedir
  | .ioctl .. => .ioctl

/-- The callbacks of the kernel; those beside the requests only use the locks
here. -/
inductive Callback where
  | request (request : Request)
  | init
  | destroy
  | statfs
  | access
  | fsyncdir
  | lseek

/-- What a callback does with the locks. -/
def Callback.locking : Callback → Locking Lock
  | .request query => query.locking
  | .init => .locked .shared
  | .destroy => .done
  | .statfs => .locked .shared
  | .access => .done
  | .fsyncdir => .checked .shared
  | .lseek => .getFile .done

/-! ## The order -/

theorem Request.locking_ordered
    (request : Request) :
    request.locking.Ordered Lock.rank [] := by
  cases request <;> simp only [locking] <;> decide

theorem Callback.locking_ordered
    (callback : Callback) :
    callback.locking.Ordered Lock.rank [] := by
  cases callback with
  | request query => exact query.locking_ordered
  | _ => decide

/-! ## The locks of the sections -/

namespace Daemon

open Act (Yields)

/-- What is left of a handler at a section. -/
def Section.locking : Section → Locking Lock
  | start request => request.locking
  | lookupSlow .. => .lookupSlow
  | openSlow .. => .openSlow
  | takeFh .. => .replyOpenMaybePassthrough
  | storeFh .. => .allocFh .done
  | copyFrom .. => .branch .done (.getFile .done)
  | listing .. => .locked .exclusive
  | _ => .done

variable {env : Env}

theorem Section.locking_ordered
    (point : Section) :
    point.locking.Ordered Lock.rank [] := by
  cases point with
  | start request => exact request.locking_ordered
  | _ =>
      simp only [locking]
      decide

/-- What a section leads to is left of its own lock operations. -/
theorem yields_locking
    (point : Section) :
    Yields (fun _ => True) (point.run env)
      (Threads.Leads fun next =>
        Locking.Leads [] point.locking [] next.locking) := by
  cases point with
  | start request =>
      cases request with
      | lookup parent name =>
          refine Yields.after keeps_true fun _ => ?_
          refine Yields.after keeps_true fun found => ?_
          cases found with
          | some reply => exact Yields.pure trivial
          | none => exact Yields.pure (.other (.take (.drop (.other .here))))
      | «open» ino flags =>
          refine Yields.after keeps_true fun opened => ?_
          cases opened with
          | some fd =>
              exact Yields.pure (.take (.other (.one (.drop .here))))
          | none =>
              exact Yields.pure (.take (.other (.other (.drop .here))))
      | fsync fh =>
          exact Yields.after keeps_true fun _ =>
            Yields.after keeps_true fun fd =>
              Yields.pure (.other (.take (.drop .here)))
      | copyFileRange fhIn offsetIn fhOut offsetOut len =>
          exact Yields.after keeps_true fun _ =>
            Yields.pure (.take (.drop .here))
      | readdirplus fh offset fits =>
          exact Yields.after keeps_true fun _ =>
            Yields.pure (.take (.other (.drop .here)))
      | read fh offset size =>
          exact Yields.after keeps_true fun _ =>
            Yields.pure (.take (.drop .here))
      | write fh offset bytes writeCache =>
          exact Yields.after keeps_true fun _ =>
            Yields.pure (.take (.drop .here))
      | fallocate fh mode offset length =>
          exact Yields.after keeps_true fun _ =>
            Yields.pure (.take (.drop .here))
      | _ =>
          exact Yields.map (Yields.ofKeeps keeps_true fun _ => trivial)
  | storing fd offset bytes mode =>
      refine Yields.after keeps_true fun _ => ?_
      cases mode with
      | none => exact Yields.pure trivial
      | some mode => exact Yields.pure .here
  | openSlow ino flags =>
      exact Yields.after keeps_true fun _ =>
        Yields.pure (.take (.other (.drop .here)))
  | takeFh fd =>
      exact Yields.after keeps_true fun _ => Yields.pure (.other .here)
  | writing fd offset bytes writeCache =>
      exact Yields.after keeps_true fun _ => Yields.pure .here
  | copyFrom fdIn offsetIn fhOut offsetOut len =>
      exact Yields.after keeps_true fun _ =>
        Yields.pure (.other (.take (.drop .here)))
  | storeFh fd fh =>
      exact Yields.after keeps_true fun _ => Yields.pure trivial
  | restoring fd mode size =>
      exact Yields.after keeps_true fun _ => Yields.pure trivial
  | syncing fd =>
      exact Yields.after keeps_true fun _ => Yields.pure trivial
  | allocating fd mode offset length =>
      exact Yields.after keeps_true fun _ => Yields.pure trivial
  | _ =>
      exact Yields.map (Yields.ofKeeps keeps_true fun _ => trivial)

/-- Wherever a section leads, the lock operations of its handler lead there
too, and no lock is held in between. -/
theorem Section.locking_run
    (point : Section)
    (sys : Sys) :
    (∀ next later, point.run env sys = (.ok (.inl next), later) →
      Locking.Leads [] point.locking [] next.locking) ∧
    Locking.Leads [] point.locking [] .done := by
  refine ⟨?_, Locking.leads_done point.locking_ordered⟩
  intro next later ran
  have leads := (@yields_locking env point sys trivial).2
  rw [ran] at leads
  exact leads (.inl next) rfl

end Daemon

/-! ## No deadlock -/

/-- The threads of a mount and their locks after some turns. -/
def Lock.holders (turns : List (LockTurn Callback)) : Holders Lock :=
  Holders.run Callback.locking ∅ turns

/-- In every interleaving the locks exclude one another, busy threads never all
wait, and without new queries they all come to an end, however they are
scheduled. -/
theorem Lock.handlers_end
    (turns : List (LockTurn Callback)) :
    (holders turns).Excluding ∧
      ∀ moves later, (holders turns).moves moves = some later →
        moves.length ≤ (holders turns).work ∧
        (later ≠ ∅ →
          ∃ thread way next, later.advance thread way = some next) := by
  refine ⟨Holders.excluding_run Callback.locking turns, ?_⟩
  intro moves later moved
  have inOrder : (holders turns).InOrder Lock.rank :=
    Holders.inOrder_run Callback.locking_ordered turns
  refine ⟨Holders.length_moves moved, fun busy => ?_⟩
  exact Holders.some_advances (Holders.inOrder_moves inOrder moved) busy

end FuseOverlay
