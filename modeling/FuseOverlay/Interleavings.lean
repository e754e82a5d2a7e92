import FuseOverlay.ConfinedRuns
import FuseOverlay.TreeInvariant

namespace FuseOverlay

/-!
# What holds in every interleaving

Threads run the sections of their handlers in any order.  The tree stays a
tree, the lower layers keep their names and contents, and every open gets a
handle of its own, although `open` gives up the lock of the tree between its
two attempts and before it allocates the handle, and files are read and written
under no lock at all.
-/

open Act (Keeps Holds Gives Yields)

/-- The threads of a mount after some turns. -/
def Sys.threads
    (env : Env)
    (disk : Disk)
    (turns : List (Turn Request Inputs)) :
    Threads Sys Daemon.Section :=
  (Threads.idle (mount env disk)).run (handlers env) turns

theorem yields_handlers
    {env : Env}
    {kept : Sys → Prop}
    {point : Daemon.Section}
    {fact : Daemon.Section ⊕ Reply → Prop}
    (meets : ∀ sys inputs, kept sys → kept (sys.meet inputs))
    (yields : Yields kept (point.run env) fact)
    (inputs : Inputs) :
    Yields kept ((handlers env).act inputs point) fact :=
  fun sys holds => yields (sys.meet inputs) (meets sys inputs holds)

/-- What every section keeps holds in every interleaving. -/
theorem Sys.threads_keep
    {env : Env}
    {disk : Disk}
    {kept : Sys → Prop}
    {fact : Daemon.Section → Prop}
    (mounted : kept (mount env disk))
    (meets : ∀ sys inputs, kept sys → kept (sys.meet inputs))
    (first : ∀ request, fact (.start request))
    (sections : ∀ point, fact point →
      Yields kept (point.run env) (Threads.Leads fact))
    (turns : List (Turn Request Inputs)) :
    kept (threads env disk turns).shared := by
  have sound :
      (Outline.plain (fun _ => True) kept fact).Sound (handlers env) :=
    Outline.sound_plain (fun request _ => first request)
      fun inputs point holds => yields_handlers meets (sections point holds) inputs
  have begun :
      (Outline.plain (fun _ : Request => True) kept fact).Holds
        (Threads.idle (mount env disk)) :=
    Outline.holds_idle mounted
  exact (sound.run begun fun _ _ _ => trivial).shared

/-! ## The tree -/

namespace Daemon

variable {env : Env}

theorem calm_openFd
    (nodeId : NodeId)
    (flags : OpenFlags) :
    Calm (openFd env nodeId flags) := by
  refine .bind (.nodePath nodeId) fun path => ?_
  refine .bind (.node nodeId) fun found => ?_
  exact .bind (.lift _) fun _ => .lift _

theorem calm_openFast
    (ino : UInt64)
    (flags : OpenFlags) :
    Calm (openFast env ino flags) := by
  refine .bind (calm_resolveNode ino) fun nodeId => ?_
  refine .bind (.node nodeId) fun found => ?_
  dsimp only
  split
  · exact .pure none
  · exact .map (calm_openFd nodeId flags)

theorem calm_openSlow
    (ino : UInt64)
    (flags : OpenFlags) :
    Calm (openSlow env ino flags) := by
  refine .bind (calm_resolveNode ino) fun nodeId => ?_
  exact .bind (calm_getNodeUp nodeId) fun _ => calm_openFd nodeId flags

/-- Every section keeps the tree right. -/
theorem treeOk_section
    (point : Section) :
    Keeps TreeOk (point.run env) := by
  have rule := @treeOk_growthRule env
  cases point with
  | start request =>
      cases request with
      | lookup parent name =>
          refine Keeps.bind (Keeps.check _ _) fun _ => ?_
          refine Keeps.bind
            (keeps_lookupFast rule.calm rule.counts parent name) fun found => ?_
          cases found with
          | some reply => exact Keeps.pure _
          | none => exact Keeps.pure _
      | «open» ino flags =>
          refine Keeps.bind (calm_openFast ino flags).treeOk fun opened => ?_
          cases opened with
          | some fd => exact Keeps.pure _
          | none => exact Keeps.pure _
      | read fh offset size =>
          exact Keeps.bind (calm_getFile fh).treeOk fun fd => Keeps.pure _
      | write fh offset bytes writeCache =>
          exact Keeps.bind (calm_getFile fh).treeOk fun fd => Keeps.pure _
      | fsync fh =>
          exact Keeps.bind (Keeps.check _ _) fun _ =>
            Keeps.bind (calm_getFile fh).treeOk fun fd => Keeps.pure _
      | fallocate fh mode offset length =>
          exact Keeps.bind (calm_getFile fh).treeOk fun fd => Keeps.pure _
      | copyFileRange fhIn offsetIn fhOut offsetOut len =>
          exact Keeps.bind (calm_getFile fhIn).treeOk fun fd => Keeps.pure _
      | readdirplus fh offset fits =>
          exact Keeps.bind (calm_handleEntries fh offset).treeOk fun entries =>
            Keeps.pure _
      | _ => exact Keeps.map (treeOk_handle _)
  | lookupSlow parent name =>
      exact Keeps.map (rule.lookupSlow (rule.looksUp parent name))
  | openSlow ino flags =>
      exact Keeps.bind (calm_openSlow ino flags).treeOk fun fd => Keeps.pure _
  | takeFh fd =>
      exact fun _ ok => ok
  | storeFh fd fh =>
      exact fun _ ok => ok
  | reading fd offset size =>
      exact Keeps.map (Calm.lift _).treeOk
  | writing fd offset bytes writeCache =>
      exact Keeps.bind (Calm.lift _).treeOk fun mode => Keeps.pure _
  | storing fd offset bytes mode =>
      refine Keeps.bind (Calm.lift _).treeOk fun _ => ?_
      cases mode with
      | none => exact Keeps.pure _
      | some mode => exact Keeps.pure _
  | restoring fd mode size =>
      exact Keeps.bind (Calm.lift _).treeOk fun _ => Keeps.pure _
  | syncing fd =>
      exact Keeps.bind (Calm.lift _).treeOk fun _ => Keeps.pure _
  | allocating fd mode offset length =>
      exact Keeps.bind (Calm.lift _).treeOk fun _ => Keeps.pure _
  | copyFrom fdIn offsetIn fhOut offsetOut len =>
      exact Keeps.bind (calm_getFile fhOut).treeOk fun fd => Keeps.pure _
  | copying fdIn offsetIn fdOut offsetOut len =>
      exact Keeps.map (Calm.lift _).treeOk
  | listing fits entries =>
      exact Keeps.map (rule.plusEntries fits entries)

end Daemon

/-- The nodes form a tree in every interleaving of the handlers. -/
theorem Sys.threads_tree_invariant
    (env : Env)
    (disk : Disk)
    (turns : List (Turn Request Inputs)) :
    (threads env disk turns).shared.nodes.TreeInvariant := by
  have ok : Daemon.TreeOk (threads env disk turns).shared := by
    refine @threads_keep env disk _ (fun _ => True)
      (Daemon.treeOk_mount env disk) (fun _ _ ok => ok) (fun _ => trivial) ?_
      turns
    intro point _
    refine Yields.ofKeeps (Daemon.treeOk_section point) fun result => ?_
    cases result <;> trivial
  exact ok.tree.treeInvariant

/-! ## The trees and the open files -/

namespace Daemon

open Syscall

namespace Section

/-- The descriptors that a section holds are tame. -/
def Tame
    (guard : Guard) :
    Section → Prop
  | takeFh fd => guard.Tame fd
  | storeFh fd _ => guard.Tame fd
  | writing fd .. => guard.Tame fd
  | storing fd .. => guard.Tame fd
  | restoring fd .. => guard.Free fd
  | allocating fd .. => guard.Tame fd
  | copying _ _ fdOut .. => guard.Tame fdOut
  | _ => True

/-- The property of the open files does not mind what the section does. -/
def Spares
    (files : FMap Nat Fd → Nat → Prop) :
    Section → Prop
  | start request => request.Releases files
  | takeFh _ => ∀ table next, files table next → files table (next + 1)
  | storeFh fd fh =>
      ∀ table next, files table next → files (table.set fh fd) next
  | _ => True

end Section

variable {env : Env} {guard : Guard} {start : Disk}
  {files : FMap Nat Fd → Nat → Prop}

theorem yields_openFast
    (fits : guard.Fits env)
    (ino : UInt64)
    (flags : OpenFlags) :
    Yields (Sys.Confined guard start files) (openFast env ino flags)
      fun opened => ∀ fd, opened = some fd → guard.Tame fd := by
  refine Yields.after (Quiet.resolveNode ino).confined fun nodeId => ?_
  refine node_bind (fun found => ?_) fun _ confined => ⟨confined, nofun⟩
  dsimp only
  split
  · intro sys given
    exact Yields.pure (fun _ none => by cases none) sys given.1
  · next keepsLow =>
      apply Holds.map
      refine (@holds_openFd env guard start files nodeId flags).imp ?_ ?_
      · intro sys given
        refine ⟨given.1, fun needs node layer storedNode isLayer => ?_⟩
        cases given.2.symm.trans storedNode
        apply fits.layers found.layerIdx layer isLayer
        simpa [needs, isLayer] using keepsLow
      · rintro outcome sys ⟨confined, tame⟩
        refine ⟨confined, fun opened same fd isSome => ?_⟩
        cases outcome with
        | error errno =>
            cases same
        | ok value =>
            cases same
            cases isSome
            exact tame fd rfl

theorem yields_openSlow
    (fits : guard.Fits env)
    (ino : UInt64)
    (flags : OpenFlags) :
    Yields (Sys.Confined guard start files) (openSlow env ino flags)
      guard.Tame := by
  refine Yields.after (Quiet.resolveNode ino).confined fun nodeId => ?_
  refine Holds.bind (holds_getNodeUp fits nodeId) (fun _ => ?_)
    fun _ _ given => ⟨given.1, nofun⟩
  refine (@holds_openFd env guard start files nodeId flags).imp
    (fun sys given => ?_)
    fun _ _ given => given
  obtain ⟨confined, comes⟩ := given
  obtain ⟨up, atUpper⟩ := comes () rfl
  refine ⟨confined, fun _ node layer storedNode _ => ?_⟩
  rw [atUpper node storedNode]
  exact up.layer

/-- The first section keeps the trees within the guard, and the thread gets a
tame descriptor. -/
theorem yields_start
    (fits : guard.Fits env)
    (rule : FilesRule guard files)
    (marks : hasUpper env = true → ∀ fd, guard.Marks fd)
    {request : Request}
    (releases : request.Releases files) :
    Yields (Sys.Confined guard start files) ((Section.start request).run env)
      (Threads.Leads (Section.Tame guard)) := by
  have permitted :
      ∀ sys, Sys.Confined guard start files sys →
        Sys.Confined guard start files sys ∧
          request.Permitted guard env sys := by
    intro sys confined
    refine ⟨confined, ?_⟩
    cases request with
    | setattr ino change => exact fun present fd _ => marks present fd
    | _ => exact trivial
  have whole :
      Yields (Sys.Confined guard start files) (.inr <$> handle env request)
        (Threads.Leads (Section.Tame guard)) := by
    apply Holds.map
    refine (confined_handle fits rule releases).imp permitted ?_
    rintro outcome sys confined
    refine ⟨confined, fun result same => ?_⟩
    cases outcome with
    | error errno =>
        cases same
    | ok value =>
        cases same
        exact trivial
  cases request with
  | lookup parent name =>
      refine Yields.after (Keeps.check _ _) fun _ => ?_
      refine Yields.after (Quiet.lookupFast parent name).confined
        fun found => ?_
      cases found with
      | some reply => exact Yields.pure trivial
      | none => exact Yields.pure trivial
  | «open» ino flags =>
      refine Yields.bind (yields_openFast fits ino flags) fun opened tame => ?_
      cases opened with
      | some fd => exact Yields.pure (tame fd rfl)
      | none => exact Yields.pure trivial
  | read fh offset size =>
      exact Yields.after (Quiet.getFile fh).confined fun fd =>
        Yields.pure trivial
  | write fh offset bytes writeCache =>
      exact Yields.bind (yields_getFile rule fh) fun fd tame =>
        Yields.pure tame
  | fsync fh =>
      exact Yields.after (Keeps.check _ _) fun _ =>
        Yields.after (Quiet.getFile fh).confined fun fd => Yields.pure trivial
  | fallocate fh mode offset length =>
      exact Yields.bind (yields_getFile rule fh) fun fd tame =>
        Yields.pure tame
  | copyFileRange fhIn offsetIn fhOut offsetOut len =>
      exact Yields.after (Quiet.getFile fhIn).confined fun fd =>
        Yields.pure trivial
  | readdirplus fh offset fits =>
      exact Yields.after (Quiet.handleEntries fh offset).confined
        fun entries => Yields.pure trivial
  | _ => exact whole

/-- Every section keeps the trees within the guard, and the thread holds tame
descriptors only. -/
theorem yields_section
    (fits : guard.Fits env)
    (rule : FilesRule guard files)
    (marks : hasUpper env = true → ∀ fd, guard.Marks fd)
    {point : Section}
    (spares : point.Spares files)
    (tame : point.Tame guard) :
    Yields (Sys.Confined guard start files) (point.run env)
      (Threads.Leads (Section.Tame guard)) := by
  cases point with
  | start request =>
      exact yields_start fits rule marks spares
  | lookupSlow parent name =>
      exact Yields.map (Yields.ofKeeps
        (Quiet.lookupSlow parent name).confined fun _ => trivial)
  | openSlow ino flags =>
      exact Yields.bind (yields_openSlow fits ino flags) fun fd opened =>
        Yields.pure opened
  | takeFh fd =>
      refine Yields.after (fun sys confined => ?_) fun fh => Yields.pure tame
      exact ⟨confined.1, spares _ _ confined.2⟩
  | storeFh fd fh =>
      refine Yields.after (fun sys confined => ?_) fun _ => Yields.pure trivial
      exact ⟨confined.1, spares _ _ confined.2⟩
  | reading fd offset size =>
      exact Yields.map (Yields.ofKeeps
        (confined_lift (reads_readFile fd offset _).confined) fun _ => trivial)
  | writing fd offset bytes writeCache =>
      exact Yields.after
        (confined_lift (reads_restoreMode fd writeCache).confined) fun mode =>
          Yields.pure tame
  | storing fd offset bytes mode =>
      refine Yields.bind
        (yields_lift (yields_changeContent tame.writes _ _)) fun _ free => ?_
      cases mode with
      | none => exact Yields.pure trivial
      | some mode => exact Yields.pure free
  | restoring fd mode size =>
      exact Yields.after (confined_lift
        (Keeps.attempt (confined_fchmod (Guard.Free.marks tame) mode)))
        fun _ => Yields.pure trivial
  | syncing fd =>
      exact Yields.after (confined_lift (Reads.query _).confined) fun _ =>
        Yields.pure trivial
  | allocating fd mode offset length =>
      exact Yields.after
        (confined_lift (yields_changeContent tame.writes _ _).keeps) fun _ =>
          Yields.pure trivial
  | copyFrom fdIn offsetIn fhOut offsetOut len =>
      exact Yields.bind (yields_getFile rule fhOut) fun fd tame =>
        Yields.pure tame
  | copying fdIn offsetIn fdOut offsetOut len =>
      exact Yields.map (Yields.ofKeeps
        (confined_lift (confined_copyRange tame _ _ _)) fun _ => trivial)
  | listing fits entries =>
      exact Yields.map (Yields.ofKeeps
        (Quiet.plusEntries fits entries).confined fun _ => trivial)

/-- The files are tame after a section. -/
theorem spares_tame
    {point : Section}
    (tame : point.Tame guard) :
    point.Spares (TameFiles guard) := by
  cases point with
  | start request => exact releases_tame guard request
  | takeFh fd => exact fun _ _ holds => holds
  | storeFh fd fh =>
      intro table next holds query found stored
      rw [FMap.get?_set] at stored
      split at stored
      · cases stored
        exact tame
      · exact holds query found stored
  | _ => exact trivial

end Daemon

theorem Sys.Confined.meet
    {guard : Guard}
    {start : Disk}
    {files : FMap Nat Fd → Nat → Prop}
    {sys : Sys}
    (confined : sys.Confined guard start files)
    (inputs : Inputs) :
    (sys.meet inputs).Confined guard start files :=
  confined.begin ⟨.getattr 0, inputs.faults, inputs.inos, inputs.now⟩

namespace Sample

/-- No call fails in a section. -/
def inputs : Inputs :=
  ⟨[], [], ⟨0, 0⟩⟩

/-- One thread removes the file between the two sections of a lookup. -/
def removing : List (Turn Request Inputs) :=
  [.receive 0 (.lookup 1 (ascii "a")), .receive 1 (.unlink 1 (ascii "a")),
    .advance 0 inputs, .advance 1 inputs, .advance 0 inputs]

end Sample

end FuseOverlay
