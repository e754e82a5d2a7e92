import Mathlib.Data.UInt
import FuseOverlay.ConfinedRuns
import FuseOverlay.DaemonSteps
import FuseOverlay.Lib.ByteFile

namespace FuseOverlay

/-!
# Reading what was written

Beside the objects of the trees stands a family of files.  An answered write
puts its bytes into the file behind the handle, and nothing else changes one.
As long as no request changes files in another way, a read answers what the
family holds.
-/

open Act (Keeps Holds)

/-- The file of every object that there is. -/
abbrev Files : Type := ObjId → Option (ByteFile UInt8)

namespace Files

/-- The files after a write through a descriptor that ended in an outcome. -/
def write
    {α : Type}
    (files : Files)
    (fd : Fd)
    (offset : Nat)
    (bytes : List UInt8) :
    Except Errno α → Files
  | .ok _ =>
      Function.update files fd.obj <| (files fd.obj).map fun file =>
        file.write (if fd.append then file.size else offset) bytes
  | .error _ => files

/-- The files after a request with its outcome. -/
def serve
    (files : Files)
    (opened : FMap Nat Fd)
    (outcome : Except Errno Reply) :
    Request → Files
  | .write fh offset bytes _ =>
      match opened.get? fh with
      | none => files
      | some fd => files.write fd offset bytes outcome
  | _ => files

/-- What a read through a descriptor returns. -/
def pread
    (files : Files)
    (fd : Fd)
    (offset size : Nat) :
    Except Errno (List UInt8) :=
  match fd.read && !fd.pathOnly, files fd.obj with
  | true, some file => .ok (file.read offset size)
  | _, _ => .error .EBADF

/-- What a read through a handle answers. -/
def read
    (files : Files)
    (opened : FMap Nat Fd)
    (fh offset size : Nat) :
    Except Errno Reply :=
  match opened.get? fh with
  | none => .error .EBADF
  | some fd => (files.pread fd offset size).map .data

end Files

namespace Disk

/-- The files as the objects have them. -/
def files (disk : Disk) : Files :=
  fun id => (disk.objs.get? id).map fun obj => .ofList obj.data

/-- Every object has the bytes of its file. -/
def Stores
    (files : Files)
    (disk : Disk) : Prop :=
  ∀ id, Option.Rel (fun file obj => file.Stored obj.data)
    (files id) (disk.objs.get? id)

theorem stores_files
    (disk : Disk) :
    disk.Stores disk.files := by
  intro id
  unfold files
  cases disk.objs.get? id with
  | none =>
      exact .none
  | some obj =>
      exact .some (ByteFile.stored_ofList obj.data)

theorem rel_map
    {file : Option (ByteFile UInt8)}
    {obj : Option Obj}
    {rewrite : ByteFile UInt8 → ByteFile UInt8}
    {change : Obj → Obj}
    (changed :
      ∀ file obj, file.Stored obj.data →
        (rewrite file).Stored (change obj).data)
    (stored : Option.Rel (fun file obj => file.Stored obj.data) file obj) :
    Option.Rel (fun file obj => file.Stored obj.data)
      (file.map rewrite) (obj.map change) := by
  cases stored with
  | none =>
      exact .none
  | some stored =>
      exact .some (changed _ _ stored)

/-- An object and its file change together. -/
theorem Stores.modify
    {files : Files}
    {disk : Disk}
    (stores : disk.Stores files)
    (id : ObjId)
    {change : Obj → Obj}
    {rewrite : ByteFile UInt8 → ByteFile UInt8}
    (changed :
      ∀ file obj, file.Stored obj.data →
        (rewrite file).Stored (change obj).data) :
    (disk.modifyObj id change).Stores
      (Function.update files id ((files id).map rewrite)) := by
  intro query
  rw [objs_modifyObj]
  by_cases same : query = id
  · subst same
    rw [if_pos rfl, Function.update_self]
    exact rel_map changed (stores query)
  · rw [if_neg same, Function.update_of_ne same]
    exact stores query

theorem Stores.keep
    {files : Files}
    {disk : Disk}
    (stores : disk.Stores files)
    (id : ObjId)
    {change : Obj → Obj}
    (same : ∀ obj, (change obj).data = obj.data) :
    (disk.modifyObj id change).Stores files := by
  have kept := @modify files disk stores id change (fun file => file)
    fun file obj stored => by rwa [same]
  rwa [Option.map_id', Function.update_eq_self] at kept

end Disk

namespace Syscall

variable {files : Files} {fd : Fd}

theorem stores_fchmod
    (perm : UInt32) :
    Keeps (fun os => os.disk.Stores files) (fchmod fd perm) := by
  apply keeps_change
  intro disk later stores ran
  split at ran
  · cases ran
  · cases ran
    exact stores.keep fd.obj fun _ => rfl

theorem stores_pwrite
    {bytes : List UInt8}
    (filled : bytes ≠ [])
    (offset : Nat) :
    Holds (fun os => os.disk.Stores files) (pwrite fd bytes offset)
      fun outcome os =>
        os.disk.Stores (files.write fd offset bytes outcome) := by
  intro os stores
  unfold pwrite changeContent
  rw [change_eq]
  cases os.nextFault with
  | some errno =>
      exact stores
  | none =>
      cases permits : fd.write && !fd.pathOnly with
      | false =>
          exact stores
      | true =>
          refine stores.modify fd.obj fun file obj stored => ?_
          change (file.write (if fd.append then file.size else offset)
            bytes).Stored (Disk.spliceData obj.data bytes
              (if fd.append then obj.data.length else offset))
          rw [stored.length]
          exact stored.write filled

/-- The mode that is put back afterwards decides nothing. -/
theorem stores_writeFile
    {bytes : List UInt8}
    (filled : bytes ≠ [])
    (offset : Nat)
    (writeCache : Bool) :
    Holds (fun os => os.disk.Stores files)
      (writeFile fd offset bytes writeCache)
      fun outcome os =>
        os.disk.Stores (files.write fd offset bytes outcome) := by
  refine Holds.bind (reads_restoreMode fd writeCache fun disk =>
    disk.Stores files) (fun mode => ?_) fun _ _ stores => stores
  refine Holds.bind (stores_pwrite filled offset) (fun _ => ?_)
    fun _ _ stores => stores
  cases mode with
  | none =>
      exact Holds.pure fun _ stores => stores
  | some mode =>
      exact Keeps.bind (Keeps.attempt (stores_fchmod mode)) fun _ =>
        Keeps.pure ()

theorem readFile_eq
    {os : Os}
    (stores : os.disk.Stores files)
    (noFaults : os.faults = [])
    (offset size : Nat) :
    (readFile fd offset size os).1 = files.pread fd offset size := by
  have present := stores fd.obj
  unfold readFile Files.pread
  cases permits : fd.read && !fd.pathOnly with
  | false =>
      rfl
  | true =>
      rw [Act.bind_ok (Act.check_true rfl _ os)]
      cases stored : os.disk.objs.get? fd.obj with
      | none =>
          have missing : fdObj fd os = (.error .EBADF, os) := by
            unfold fdObj
            rw [query_noFaults noFaults, stored]
          rw [stored] at present
          rw [Act.bind_error missing]
          cases found : files fd.obj with
          | none =>
              rfl
          | some file =>
              rw [found] at present
              cases present
      | some obj =>
          have fetched : fdObj fd os = (.ok obj, os) := by
            unfold fdObj
            rw [query_noFaults noFaults, stored]
          rw [stored] at present
          rw [Act.bind_ok fetched]
          cases found : files fd.obj with
          | none =>
              rw [found] at present
              cases present
          | some file =>
              rw [found] at present
              cases present with
              | some bytes =>
                  exact congrArg Except.ok (bytes.read offset size)

end Syscall

/-! ## Requests -/

/-- The requests that use open files or look: a write has bytes to write. -/
def Request.UsesFiles : Request → Prop
  | .write _ _ bytes _ => bytes ≠ []
  | .release _ => True
  | request => request.Looks

namespace Daemon

open Syscall

variable {env : Env} {files : Files}

theorem getFile_found
    {sys : Sys}
    {fh : Nat}
    {fd : Fd}
    (opened : sys.openFiles.get? fh = some fd) :
    getFile fh sys = (.ok fd, sys) := by
  unfold getFile
  rw [Act.bind_apply, Act.gets_apply, opened]
  rfl

theorem getFile_missing
    {sys : Sys}
    {fh : Nat}
    (closed : sys.openFiles.get? fh = none) :
    getFile fh sys = (.error .EBADF, sys) := by
  unfold getFile
  rw [Act.bind_apply, Act.gets_apply, closed]
  rfl

theorem stores_write
    {bytes : List UInt8}
    (filled : bytes ≠ [])
    (fh offset : Nat)
    (writeCache : Bool)
    {sys : Sys}
    (stores : sys.os.disk.Stores files) :
    (write fh offset bytes writeCache sys).2.os.disk.Stores
      (files.serve sys.openFiles (write fh offset bytes writeCache sys).1
        (.write fh offset bytes writeCache)) := by
  simp only [Files.serve]
  cases opened : sys.openFiles.get? fh with
  | none =>
      have failed :
          write fh offset bytes writeCache sys = (.error .EBADF, sys) :=
        Act.bind_error (getFile_missing opened) _
      rw [failed]
      exact stores
  | some fd =>
      have found :
          write fh offset bytes writeCache sys =
            (do
              liftM (writeFile fd offset bytes writeCache)
              pure (.written bytes.length) : Daemon Reply) sys :=
        Act.bind_ok (getFile_found opened) _
      have written :=
        @stores_writeFile files fd bytes filled offset writeCache sys.os stores
      rw [found]
      cases ran : writeFile fd offset bytes writeCache sys.os with
      | mk outcome later =>
          rw [ran] at written
          have lifted := lift_apply ran
          cases outcome with
          | ok _ =>
              rw [Act.bind_ok lifted]
              exact written
          | error errno =>
              rw [Act.bind_error lifted]
              exact written

/-- One request changes objects and files alike. -/
theorem stores_handle
    {request : Request}
    (uses : request.UsesFiles)
    {sys : Sys}
    (stores : sys.os.disk.Stores files) :
    (handle env request sys).2.os.disk.Stores
      (files.serve sys.openFiles (handle env request sys).1 request) := by
  have looking
      (looks : request.Looks) :
      (handle env request sys).2.os.disk.Stores files :=
    quiet_handle looks (fun disk _ _ => disk.Stores files) sys stores
  cases request with
  | write fh offset bytes writeCache =>
      exact stores_write uses fh offset writeCache stores
  | release fh => exact stores
  | _ => exact looking uses

/-- A read that meets no fault answers what the file holds. -/
theorem read_eq
    {sys : Sys}
    (stores : sys.os.disk.Stores files)
    (noFaults : sys.os.faults = [])
    (fh offset size : Nat) :
    (read fh offset size sys).1 =
      files.read sys.openFiles fh offset (min size (2 ^ 21)) := by
  unfold Files.read
  cases opened : sys.openFiles.get? fh with
  | none =>
      have failed : read fh offset size sys = (.error .EBADF, sys) :=
        Act.bind_error (getFile_missing opened) _
      rw [failed]
  | some fd =>
      have found :
          read fh offset size sys =
            (Reply.data <$>
              (liftM (readFile fd offset (min size (2 ^ 21))) :
                Daemon (List UInt8))) sys :=
        Act.bind_ok (getFile_found opened) _
      have answers := @readFile_eq files fd sys.os stores noFaults offset
        (min size (2 ^ 21))
      rw [found]
      simp only
      rw [← answers]
      cases ran : readFile fd offset (min size (2 ^ 21)) sys.os with
      | mk outcome later =>
          have lifted := lift_apply ran
          cases outcome with
          | ok bytes =>
              rw [Act.map_ok lifted]
              rfl
          | error errno =>
              exact congrArg Prod.fst (Act.bind_error lifted _)

end Daemon

/-! ## Runs -/

namespace Sys

variable {env : Env}

/-- The files after a run. -/
def filesAfter
    (env : Env) :
    Sys → List Call → Files → Files
  | _, [], files => files
  | sys, call :: rest, files =>
      filesAfter env (sys.step env call).2 rest
        (files.serve sys.openFiles (sys.step env call).1 call.request)

theorem stores_run
    {sys : Sys}
    {calls : List Call}
    (uses : ∀ call ∈ calls, call.request.UsesFiles)
    {files : Files}
    (stores : sys.os.disk.Stores files) :
    (sys.run env calls).os.disk.Stores (sys.filesAfter env calls files) := by
  induction calls generalizing sys files with
  | nil =>
      exact stores
  | cons call rest inductionHypothesis =>
      apply inductionHypothesis
      · exact fun query member => uses query (List.mem_cons_of_mem call member)
      · have begun : (sys.begin call).os.disk.Stores files := stores
        exact Daemon.stores_handle (uses call List.mem_cons_self) begun

theorem reply_read
    {sys : Sys}
    {files : Files}
    (stores : sys.os.disk.Stores files)
    {call : Call}
    (noFaults : call.faults = [])
    {fh offset size : Nat}
    (asks : call.request = .read fh offset size) :
    (sys.step env call).1 =
      files.read sys.openFiles fh offset (min size (2 ^ 21)) := by
  unfold step
  rw [asks]
  exact @Daemon.read_eq files (sys.begin call) stores noFaults fh offset size

end Sys

namespace Sample

/-- The file of the upper layer is open for reading and writing. -/
def openedUpper : Sys :=
  (foundUpper.step (env 0)
    (call (.open 11 { OpenFlags.rdonly with write := true }))).2

/-- Two writes, the first of them past the end of the file. -/
def writes : List Call :=
  [call (.write 1 2 (ascii "cd") false), call (.write 1 0 (ascii "x") true)]

theorem uses_writes :
    ∀ call ∈ writes, call.request.UsesFiles := by
  intro call member
  simp only [writes, List.mem_cons, List.not_mem_nil, or_false] at member
  rcases member with rfl | rfl
  · exact (by decide : ascii "cd" ≠ [])
  · exact (by decide : ascii "x" ≠ [])

example :
    ((openedUpper.run (env 0) writes).step (env 0) (call (.read 1 0 9))).1 =
      .ok (.data (ascii "x" ++ [0] ++ ascii "cd")) := by
  decide +kernel

example :
    (openedUpper.filesAfter (env 0) writes openedUpper.os.disk.files).read
        (openedUpper.run (env 0) writes).openFiles 1 0 9 =
      .ok (.data (ascii "x" ++ [0] ++ ascii "cd")) := by
  decide +kernel

end Sample

/-! ## Until it is overwritten -/

/-- The request writes nothing into a range of an object: an append never
does when the range is there. -/
def Request.Avoids
    (id : ObjId)
    (offset length : Nat)
    (sys : Sys) :
    Request → Prop
  | .write fh place bytes _ =>
      bytes ≠ [] ∧ ∀ fd, sys.openFiles.get? fh = some fd → fd.obj = id →
        fd.append = true ∨ place + bytes.length ≤ offset ∨
          offset + length ≤ place
  | .release _ => True
  | request => request.Looks

theorem Request.Avoids.usesFiles
    {id : ObjId}
    {offset length : Nat}
    {sys : Sys}
    {request : Request}
    (avoids : request.Avoids id offset length sys) :
    request.UsesFiles := by
  cases request with
  | write fh place bytes writeCache => exact avoids.1
  | _ => exact avoids

namespace Files

/-- The object has these bytes at an offset. -/
def Has
    (files : Files)
    (id : ObjId)
    (offset : Nat)
    (bytes : List UInt8) : Prop :=
  ∃ file, files id = some file ∧ file.Has offset bytes

theorem has_serve_write
    {files : Files}
    {opened : FMap Nat Fd}
    {fh : Nat}
    {fd : Fd}
    (isOpen : opened.get? fh = some fd)
    (places : fd.append = false)
    {file : ByteFile UInt8}
    (stored : files fd.obj = some file)
    (offset : Nat)
    (bytes : List UInt8)
    (writeCache : Bool)
    (reply : Reply) :
    (files.serve opened (.ok reply)
      (.write fh offset bytes writeCache)).Has fd.obj offset bytes := by
  simp only [serve, isOpen, write, places]
  refine ⟨_, ?_, ByteFile.has_write file offset bytes⟩
  rw [Function.update_self, stored]
  rfl

theorem Has.read
    {files : Files}
    {id : ObjId}
    {offset : Nat}
    {bytes : List UInt8}
    (has : files.Has id offset bytes)
    {opened : FMap Nat Fd}
    {fh : Nat}
    {reader : Fd}
    (isOpen : opened.get? fh = some reader)
    (same : reader.obj = id)
    (readable : reader.read = true ∧ reader.pathOnly = false) :
    files.read opened fh offset bytes.length = .ok (.data bytes) := by
  obtain ⟨file, stored, bytesThere⟩ := has
  rw [← same] at stored
  unfold Files.read pread
  simp only [isOpen, readable, stored]
  exact congrArg (fun read => Except.ok (Reply.data read)) bytesThere.read

theorem Has.serve
    {files : Files}
    {id : ObjId}
    {offset : Nat}
    {bytes : List UInt8}
    (has : files.Has id offset bytes)
    {sys : Sys}
    {request : Request}
    (avoids : request.Avoids id offset bytes.length sys)
    (outcome : Except Errno Reply) :
    (files.serve sys.openFiles outcome request).Has id offset bytes := by
  cases request with
  | write fh place other writeCache =>
      simp only [Files.serve]
      cases opened : sys.openFiles.get? fh with
      | none => exact has
      | some fd =>
          cases outcome with
          | error errno => exact has
          | ok reply =>
              obtain ⟨file, stored, bytesThere⟩ := has
              by_cases same : fd.obj = id
              · subst same
                simp only [Files.write, stored, Option.map_some]
                refine ⟨_, Function.update_self .., bytesThere.write ?_⟩
                have within := bytesThere.within
                rcases avoids.2 fd opened rfl with appends | apart
                · rw [if_pos appends]
                  exact .inr within
                · cases appends : fd.append with
                  | true => exact .inr within
                  | false => exact apart
              · refine ⟨file, ?_, bytesThere⟩
                simp only [Files.write]
                rw [Function.update_of_ne (Ne.symm same)]
                exact stored
  | _ => exact has

end Files

namespace Sys

variable {env : Env} {id : ObjId} {offset : Nat} {bytes : List UInt8}

theorem has_run
    {sys : Sys}
    {calls : List Call}
    (avoids :
      sys.RunMeets env
        (fun sys request => request.Avoids id offset bytes.length sys) calls)
    {files : Files}
    (has : files.Has id offset bytes) :
    (sys.filesAfter env calls files).Has id offset bytes := by
  induction calls generalizing sys files with
  | nil =>
      exact has
  | cons call rest inductionHypothesis =>
      exact inductionHypothesis avoids.2 (has.serve avoids.1 _)

theorem uses_of_avoids
    {sys : Sys}
    {calls : List Call}
    (avoids :
      sys.RunMeets env
        (fun sys request => request.Avoids id offset bytes.length sys)
        calls) :
    ∀ call ∈ calls, call.request.UsesFiles := by
  induction calls generalizing sys with
  | nil =>
      intro query member
      cases member
  | cons call rest inductionHypothesis =>
      intro query member
      rcases List.mem_cons.mp member with rfl | member
      · exact avoids.1.usesFiles
      · exact inductionHypothesis avoids.2 query member

end Sys

namespace Sample

/-- The handle of the file of the upper layer. -/
def upperFd : Fd :=
  ⟨2, .layer 0, true, true, false, false⟩

end Sample

end FuseOverlay
