import FuseOverlay.DiskPaths
import FuseOverlay.Ledger

namespace FuseOverlay

/-!
# System calls that only look

Without faults the calls that read the trees answer from the trees alone and
change nothing.  The lemmas below give the answers of the questions that
loading and lookup ask about a directory of a layer.
-/

namespace Syscall

open Disk

/-- The call gives the result and leaves everything as it is. -/
def Answers
    {α : Type}
    (act : Syscall α)
    (os : Os)
    (result : Except Errno α) : Prop :=
  act os = (result, os)

namespace Answers

variable {α β : Type} {os : Os}

theorem query
    (noFaults : os.faults = [])
    (read : Disk → Except Errno α) :
    Answers (Syscall.query read) os (read os.disk) := by
  change Act.bind takeFault (fun _ => fun os => (read os.disk, os)) os = _
  unfold Act.bind takeFault
  simp [noFaults]

theorem pure
    (value : α) :
    Answers (Pure.pure value) os (.ok value) :=
  rfl

theorem attempt
    {act : Syscall α}
    {result : Except Errno α}
    (answers : Answers act os result) :
    Answers act.attempt os (.ok result) := by
  unfold Answers at answers ⊢
  rw [Act.attempt_apply, answers]

theorem bind
    {first : Syscall α}
    {next : α → Syscall β}
    {value : α}
    {result : Except Errno β}
    (firstAnswers : Answers first os (.ok value))
    (nextAnswers : Answers (next value) os result) :
    Answers (first >>= next) os result := by
  unfold Answers at firstAnswers nextAnswers ⊢
  rw [Act.bind_ok firstAnswers, nextAnswers]

/-- The daemon sees the answer and keeps its state. -/
theorem lift
    {act : Syscall α}
    {sys : Sys}
    {result : Except Errno α}
    (answers : Answers act sys.os result) :
    (liftM act : Daemon α) sys = (result, sys) := by
  rw [liftM_eq]
  unfold Answers at answers
  simp [Syscall.lift, answers]

end Answers

end Syscall

/-! ## Questions about a directory -/

namespace Disk

/-- The object under a name in the directory at a path of a layer. -/
def objAt
    (disk : Disk)
    (layerIdx : Nat)
    (path : Path)
    (name : Name) :
    Option Obj :=
  (disk.dirAt (.layer layerIdx) path).bind fun dir =>
    disk.find? (dir.child name)

theorem whName_ne_dotName
    (name : Name) :
    whName name ≠ dotName := by
  simp [whName, whPrefix, dotName]

theorem toOption_fileExists
    (disk : Disk)
    (layerIdx : Nat)
    (path : Path)
    {name : Name}
    (notDot : name ≠ dotName) :
    (disk.fileExists (.layer layerIdx) (path ++ [name])).toOption.getD false =
      (disk.objAt layerIdx path name).isSome := by
  rw [fileExists_append]
  unfold objAt dirAt
  cases disk.openDir ⟨.layer layerIdx, []⟩ path with
  | error errno =>
      rfl
  | ok dir =>
      simp only [entry_of_ne notDot]
      rfl

/-- `statat` answers from the object under the name. -/
theorem statat_of_objAt
    {disk : Disk}
    {layerIdx : Nat}
    {path : Path}
    {name : Name}
    (notDot : name ≠ dotName) :
    (∀ obj, disk.objAt layerIdx path name = some obj →
      ∃ st, disk.statat (.layer layerIdx) (path ++ [name]) = .ok st ∧
        st.mode = ⟨some obj.kind, obj.perm⟩ ∧ st.rdev = obj.rdev ∧
        st.ino = obj.stIno) ∧
    (disk.objAt layerIdx path name = none →
      ∃ errno, disk.statat (.layer layerIdx) (path ++ [name]) =
        .error errno ∧
        (disk.openDir ⟨.layer layerIdx, []⟩ path = .error errno ∨
          errno = .ENOENT)) := by
  rw [statat_append]
  unfold objAt dirAt
  cases disk.openDir ⟨.layer layerIdx, []⟩ path with
  | error errno =>
      refine ⟨fun obj found => ?_, fun _ => ⟨errno, rfl, .inl rfl⟩⟩
      cases found
  | ok dir =>
      simp only [Except.toOption, Option.bind_some, entry_of_ne notDot]
      unfold statLoc find?
      cases stored : disk.names.get? (dir.child name) with
      | none =>
          refine ⟨fun obj found => ?_, fun _ => ⟨.ENOENT, rfl, .inr rfl⟩⟩
          cases found
      | some id =>
          obtain ⟨obj, objStored⟩ :=
            Option.isSome_iff_exists.mp (disk.named stored)
          simp only [Option.bind_some, objStored]
          refine ⟨fun found same => ?_, fun missing => ?_⟩
          · cases same
            exact ⟨_, rfl, rfl, rfl, rfl⟩
          · cases missing

end Disk

namespace Syscall

open Disk

variable {env : Env} {os : Os} {layerIdx : Nat} {path : Path}

theorem answers_statat
    (noFaults : os.faults = [])
    (root : Root)
    (path : Path) :
    Answers (statat root path) os (os.disk.statat root path) :=
  .query noFaults _

theorem answers_opendir
    (noFaults : os.faults = [])
    (layerIdx : Nat)
    (path : Path) :
    Answers (opendir env layerIdx path) os
      (os.disk.opendir (reportsType env layerIdx) (.layer layerIdx) path) :=
  .query noFaults _

theorem answers_isWhFile
    (noFaults : os.faults = [])
    (name : Name) :
    Answers (isWhFile layerIdx path name) os
      (.ok (os.disk.objAt layerIdx path (whName name)).isSome) := by
  refine .bind (.attempt (.query noFaults _)) ?_
  rw [toOption_fileExists os.disk layerIdx path (whName_ne_dotName name)]
  exact .pure _

/-- The attribute test of `is_directory_opaque`, on the trees alone. -/
def opaqueXattrAt
    (env : Env)
    (disk : Disk)
    (layerIdx : Nat)
    (path : Path)
    (attr : Name) : Bool :=
  match (do
    readableXattr env attr
    fitting 16 (← disk.getxattr (.layer layerIdx) path attr) :
      Except Errno (List UInt8)) with
  | .ok (first :: _) => first = 121
  | _ => false

/-- `is_directory_opaque` on the trees alone; an error counts as no. -/
def opaqueAt
    (env : Env)
    (disk : Disk)
    (layerIdx : Nat)
    (path : Path) : Bool :=
  Whiteout.opaqueXattrs.any (opaqueXattrAt env disk layerIdx path)
    || (disk.objAt layerIdx path opaqueWhiteout).isSome

theorem answers_hasOpaqueXattr
    (noFaults : os.faults = [])
    (attrs : List Name) :
    Answers (Whiteout.hasOpaqueXattr env (.layer layerIdx) path attrs) os
      (.ok (attrs.any (opaqueXattrAt env os.disk layerIdx path))) := by
  induction attrs with
  | nil =>
      exact .pure false
  | cons attr rest inductionHypothesis =>
      have reads :
          ∀ value : Except Errno (List UInt8),
            Answers
              (match value with
                | .ok (first :: _) =>
                    if first = 121 then pure true
                    else Whiteout.hasOpaqueXattr env (.layer layerIdx) path
                      rest
                | _ => Whiteout.hasOpaqueXattr env (.layer layerIdx) path rest)
              os
              (.ok ((match value with
                | .ok (first :: _) => decide (first = 121)
                | _ => false) ||
                  rest.any (opaqueXattrAt env os.disk layerIdx path))) := by
        intro value
        cases value with
        | error errno =>
            exact inductionHypothesis
        | ok bytes =>
            cases bytes with
            | nil =>
                exact inductionHypothesis
            | cons first tail =>
                by_cases marked : first = 121
                · simp only [marked, ↓reduceIte, decide_true, Bool.true_or]
                  exact .pure true
                · simp only [marked, ↓reduceIte, decide_false, Bool.false_or]
                  exact inductionHypothesis
      exact .bind (.attempt (.query noFaults _)) (reads _)

/-- `let cut = is_directory_opaque(..)`, with an error taken as no. -/
theorem answers_isDirectoryOpaque
    (noFaults : os.faults = []) :
    ∃ outcome, Answers
        (Whiteout.isDirectoryOpaque env (.layer layerIdx) path).attempt os
        (.ok outcome) ∧
      outcome.toOption.getD false = opaqueAt env os.disk layerIdx path := by
  have marks := @answers_hasOpaqueXattr env os layerIdx path noFaults
    Whiteout.opaqueXattrs
  have notDot : opaqueWhiteout ≠ dotName := by decide
  have sentinel := toOption_fileExists os.disk layerIdx path notDot
  have asked := Answers.attempt (Answers.query noFaults fun disk =>
    disk.fileExists (.layer layerIdx) (path ++ [opaqueWhiteout]))
  unfold opaqueAt
  cases marked : Whiteout.opaqueXattrs.any
      (opaqueXattrAt env os.disk layerIdx path) with
  | true =>
      rw [marked] at marks
      exact ⟨.ok true, .attempt (.bind marks (.pure true)), rfl⟩
  | false =>
      rw [marked] at marks
      rw [Bool.false_or, ← sentinel]
      cases found : os.disk.fileExists (.layer layerIdx)
          (path ++ [opaqueWhiteout]) with
      | ok answer =>
          rw [found] at asked
          exact ⟨.ok answer,
            .attempt (.bind marks (.bind asked (.pure answer))), rfl⟩
      | error errno =>
          rw [found] at asked
          by_cases missing : errno = .ENOENT
          · subst missing
            exact ⟨.ok false,
              .attempt (.bind marks (.bind asked (.pure false))), rfl⟩
          · refine ⟨.error errno, .attempt (.bind marks (.bind asked ?_)), rfl⟩
            cases errno <;> first | exact (missing rfl).elim | rfl

end Syscall

end FuseOverlay
