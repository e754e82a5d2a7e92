import FuseOverlay.Interleavings
import FuseOverlay.Sample

namespace FuseOverlay

/-!
# Handle numbers

A thread takes the number of its handle with one atomic addition and stores the
descriptor under it later, with no lock in between.  Still every number leads
to one descriptor until it is released, and no number is handed out twice.
-/

open Act (Keeps Holds Gives Yields)

/-- Nothing is fixed. -/
def Guard.free : Guard where
  writable _ := True
  fixed _ := False
  loose := True

theorem Guard.fits_free
    (env : Env) :
    Guard.free.Fits env where
  upper _ := ⟨trivial, trivial⟩
  layers _ _ _ _ := trivial
  leaves _ _ _ _ _ _ := trivial

theorem Disk.spared_free
    (start disk : Disk) :
    Disk.Spared Guard.free start disk where
  names _ closed := (closed trivial).elim
  apart _ _ _ _ fixed := fixed
  known _ fixed := fixed.elim
  contents _ fixed := fixed.elim
  whole _ _ fixed := fixed.elim

theorem Guard.tame_free
    (fd : Fd) :
    Guard.free.Tame fd :=
  ⟨fun _ fixed => fixed, fun _ fixed => fixed⟩

theorem Guard.marks_free
    (fd : Fd) :
    Guard.free.Marks fd :=
  fun fixed => fixed.elim

/-- The number was given out, and leads to the descriptor or to none. -/
def HoldsFile
    (fh : Nat)
    (found : Option Fd)
    (table : FMap Nat Fd)
    (next : Nat) : Prop :=
  fh < next ∧ table.get? fh = found

theorem filesRule_holdsFile
    (fh : Nat)
    (found : Option Fd) :
    FilesRule Guard.free (HoldsFile fh found) where
  tame := fun _ _ => Guard.tame_free _
  opens := by
    intro table next fd holds _
    refine ⟨Nat.lt_succ_of_lt holds.1, ?_⟩
    rw [FMap.get?_set, if_neg (Nat.ne_of_lt holds.1)]
    exact holds.2

/-- The files and the next number are the given ones. -/
def SameFiles
    (table : FMap Nat Fd)
    (next : Nat)
    (files : FMap Nat Fd)
    (number : Nat) : Prop :=
  files = table ∧ number = next

namespace Daemon

open Syscall

variable {env : Env} {start : Disk} {table : FMap Nat Fd} {next : Nat}

/-- The number given out is the next one, and it leads to a file. -/
structure GaveOut
    (next fh : Nat)
    (sys : Sys) : Prop where
  number : fh = next
  counted : sys.nextFh = next + 1
  leads : (sys.openFiles.get? fh).isSome = true

theorem GaveOut.taken
    {fh : Nat}
    {sys : Sys}
    (gave : GaveOut next fh sys) :
    fh < sys.nextFh := by
  rw [gave.counted, gave.number]
  exact Nat.lt_succ_self next

theorem gives_allocFh
    (fd : Fd) :
    Gives (Sys.Confined Guard.free start (SameFiles table next)) (allocFh fd)
      (GaveOut next) := by
  intro sys fh later confined returned
  obtain ⟨-, sameTable, sameNext⟩ := confined
  cases returned
  refine ⟨sameNext, congrArg (· + 1) sameNext, ?_⟩
  simp only
  rw [FMap.get?_set, if_pos rfl]
  rfl

theorem gives_create
    (caller : Caller)
    (parent : UInt64)
    (name : Name)
    (mode : Mode)
    (flags : OpenFlags) :
    Gives (Sys.Confined Guard.free start (SameFiles table next))
      (create env caller parent name mode flags)
      fun reply sys =>
        ∀ attr fh, reply = .created attr fh → GaveOut next fh sys := by
  have fits := Guard.fits_free env
  have up : Guard.free.Upper := ⟨trivial, trivial⟩
  have marks := Guard.marks_free
  refine Gives.bind (Gives.ofKeeps
    (confined_lift (reads_checkNamemax name).confined)) fun _ => ?_
  refine Gives.bind (Gives.ofKeeps
    (Quiet.createsOverWhiteout parent name).confined) fun whited => ?_
  refine Gives.bind (Gives.ofKeeps
    (yields_prepareCreateParent fits parent).keeps) fun found => ?_
  refine Gives.bind (Gives.ofKeeps
    (confined_lift (yields_openNew up whited _ name _ _).keeps))
    fun fd => ?_
  refine Gives.bind (Gives.ofKeeps (confined_lift
    (Act.Keeps.attempt (confined_fchown (marks fd) _ _)))) fun _ => ?_
  refine Gives.bind (Gives.ofKeeps (confined_inheritAcl (marks fd) _))
    fun _ => ?_
  refine Gives.bind (Gives.ofKeeps
    (confined_lift (Reads.query _).confined)) fun st => ?_
  refine Gives.bind (Gives.ofKeeps
    (Quiet.createAndRegisterChild _ name st false).confined)
    fun fuseIno => ?_
  refine Gives.bind (gives_allocFh fd) fun fh => ?_
  apply Gives.pure
  intro sys gave attr query same
  cases same
  exact gave

/-! ## Sections -/

/-- What holds of the open files survives a section that spares it. -/
theorem keeps_files
    {files : FMap Nat Fd → Nat → Prop}
    (rule : FilesRule Guard.free files)
    {point : Section}
    (spares : point.Spares files) :
    Keeps (fun sys => files sys.openFiles sys.nextFh) (point.run env) := by
  intro sys holds
  have tame : point.Tame Guard.free := by
    cases point with
    | restoring fd mode size => exact fun fixed => fixed
    | takeFh fd => exact Guard.tame_free fd
    | storeFh fd fh => exact Guard.tame_free fd
    | writing fd offset bytes writeCache => exact Guard.tame_free fd
    | storing fd offset bytes mode => exact Guard.tame_free fd
    | allocating fd mode offset length => exact Guard.tame_free fd
    | copying fdIn offsetIn fdOut offsetOut len => exact Guard.tame_free fdOut
    | _ => exact trivial
  have yields :
      Yields (Sys.Confined Guard.free sys.os.disk files) (point.run env)
        (Threads.Leads (Section.Tame Guard.free)) :=
    yields_section (Guard.fits_free env) rule (fun _ => Guard.marks_free)
      spares tame
  exact (yields sys ⟨Disk.spared_free _ _, holds⟩).1.2

/-- The next number only grows. -/
theorem keeps_nextFh
    (bound : Nat)
    (point : Section) :
    Keeps (fun sys => bound < sys.nextFh) (point.run env) := by
  have rule : FilesRule Guard.free fun _ next => bound < next :=
    ⟨fun _ _ => Guard.tame_free _, fun holds _ => Nat.lt_succ_of_lt holds⟩
  apply keeps_files rule
  cases point with
  | start request =>
      cases request with
      | release fh => exact fun _ _ holds => holds
      | _ => exact trivial
  | takeFh fd => exact fun _ _ holds => Nat.lt_succ_of_lt holds
  | storeFh fd fh => exact fun _ _ holds => holds
  | _ => exact trivial

namespace Section

/-- The number under which the section stores a descriptor. -/
def number? : Section → Option Nat
  | storeFh _ fh => some fh
  | _ => none

/-- The sections that a handler reaches without a number. -/
def Later : Section → Prop
  | .start _ => False
  | .storeFh .. => False
  | _ => True

theorem Later.number
    {point : Section}
    (later : point.Later) :
    point.number? = none := by
  cases point with
  | storeFh fd fh => exact later.elim
  | _ => rfl

theorem Later.started
    {point : Section}
    (later : point.Later)
    (request : Request) :
    point ≠ .start request := by
  rintro rfl
  exact later

end Section

theorem keeps_true
    {α : Type}
    {act : Daemon α} :
    Keeps (fun _ => True) act :=
  fun _ _ => trivial

/-- Only `next_fh.fetch_add` leads to a section that stores a descriptor. -/
theorem yields_unnumbered
    {point : Section}
    (others : ∀ fd, point ≠ .takeFh fd) :
    Yields (fun _ => True) (point.run env)
      (Threads.Leads Section.Later) := by
  cases point with
  | start request =>
      cases request with
      | lookup parent name =>
          refine Yields.after keeps_true fun _ => ?_
          refine Yields.after keeps_true fun found => ?_
          cases found with
          | some reply => exact Yields.pure trivial
          | none => exact Yields.pure trivial
      | «open» ino flags =>
          refine Yields.after keeps_true fun opened => ?_
          cases opened with
          | some fd => exact Yields.pure trivial
          | none => exact Yields.pure trivial
      | fsync fh =>
          exact Yields.after keeps_true fun _ =>
            Yields.after keeps_true fun fd => Yields.pure trivial
      | read fh offset size =>
          exact Yields.after keeps_true fun _ => Yields.pure trivial
      | write fh offset bytes writeCache =>
          exact Yields.after keeps_true fun _ => Yields.pure trivial
      | fallocate fh mode offset length =>
          exact Yields.after keeps_true fun _ => Yields.pure trivial
      | copyFileRange fhIn offsetIn fhOut offsetOut len =>
          exact Yields.after keeps_true fun _ => Yields.pure trivial
      | readdirplus fh offset fits =>
          exact Yields.after keeps_true fun _ => Yields.pure trivial
      | _ =>
          exact Yields.map (Yields.ofKeeps keeps_true fun _ => trivial)
  | takeFh fd =>
      exact (others fd rfl).elim
  | storing fd offset bytes mode =>
      refine Yields.after keeps_true fun _ => ?_
      cases mode with
      | none => exact Yields.pure trivial
      | some mode => exact Yields.pure trivial
  | openSlow ino flags =>
      exact Yields.after keeps_true fun _ => Yields.pure trivial
  | writing fd offset bytes writeCache =>
      exact Yields.after keeps_true fun _ => Yields.pure trivial
  | copyFrom fdIn offsetIn fhOut offsetOut len =>
      exact Yields.after keeps_true fun _ => Yields.pure trivial
  | storeFh fd fh =>
      exact Yields.after keeps_true fun _ => Yields.pure trivial
  | restoring fd mode size =>
      exact Yields.after keeps_true fun _ => Yields.pure trivial
  | syncing fd =>
      exact Yields.after keeps_true fun _ => Yields.pure trivial
  | allocating fd mode offset length =>
      exact Yields.after keeps_true fun _ => Yields.pure trivial
  | _ =>
      exact Yields.map (Yields.ofKeeps keeps_true fun _ => trivial)

/-! ## Threads that store descriptors -/

/-- The numbers that threads are about to store under were taken, by one thread
each. -/
def numbered : Outline Sys Request Section where
  accepts _ := True
  invariant _ := True
  assertion point sys := ∀ fh, point.number? = some fh → fh < sys.nextFh
  apart one other := ∀ fh, one.number? = some fh → other.number? ≠ some fh

/-- The number that a section leads to is the next one. -/
theorem number_of_run
    {point next : Section}
    {sys later : Sys}
    {fh : Nat}
    (ran : point.run env sys = (.ok (.inl next), later))
    (stores : next.number? = some fh) :
    fh = sys.nextFh ∧ later.nextFh = fh + 1 := by
  by_cases takes : ∃ fd, point = .takeFh fd
  · obtain ⟨fd, rfl⟩ := takes
    cases ran
    cases stores
    exact ⟨rfl, rfl⟩
  · have others : ∀ fd, point ≠ .takeFh fd := not_exists.mp takes
    have unnumbered := (@yields_unnumbered env point others sys trivial).2
    rw [ran] at unnumbered
    have later := unnumbered (.inl next) rfl
    cases stores.symm.trans (Section.Later.number later)

/-- No section leads back to the start of a handler. -/
theorem started_of_run
    {point next : Section}
    {sys later : Sys}
    (ran : point.run env sys = (.ok (.inl next), later))
    (request : Request) :
    next ≠ .start request := by
  by_cases takes : ∃ fd, point = .takeFh fd
  · obtain ⟨fd, rfl⟩ := takes
    cases ran
    exact nofun
  · have others : ∀ fd, point ≠ .takeFh fd := not_exists.mp takes
    have unnumbered := (@yields_unnumbered env point others sys trivial).2
    rw [ran] at unnumbered
    exact Section.Later.started (unnumbered (.inl next) rfl) request

theorem sound_numbered :
    numbered.Sound (handlers env) where
  first _ _ _ _ := nofun
  firstApart _ _ _ := ⟨nofun, fun _ _ => nofun⟩
  act := by
    intro inputs point sys _
    refine ⟨trivial, fun next reached fh stores => ?_⟩
    have outcome := Threads.next?_eq_some.mp reached
    have ran := number_of_run (Prod.ext outcome rfl) stores
    exact ran.2 ▸ Nat.lt_succ_self fh
  frame := by
    rintro inputs point query apart sys ⟨-, own, others⟩
    have grown :
        ∀ fh, query.number? = some fh →
          fh < ((handlers env).act inputs point sys).2.nextFh := by
      intro fh stores
      exact keeps_nextFh fh point (sys.meet inputs) (others fh stores)
    refine ⟨grown, fun next reached => ?_⟩
    have outcome := Threads.next?_eq_some.mp reached
    have differs :
        ∀ fh, next.number? = some fh → query.number? ≠ some fh := by
      intro fh stores taken
      have ran := number_of_run (Prod.ext outcome rfl) stores
      have less := others fh taken
      rw [ran.1] at less
      exact Nat.lt_irrefl _ less
    exact ⟨differs, fun fh taken stores => differs fh stores taken⟩

/-- No thread is about to store under the number. -/
def Unstored
    (fh : Nat)
    (point : Section) : Prop :=
  point.number? ≠ some fh

/-- A number that was taken is not taken again. -/
theorem yields_unstored
    (fh : Nat)
    (point : Section) :
    Yields (fun sys => fh < sys.nextFh) (point.run env)
      (Threads.Leads (Unstored fh)) := by
  intro sys taken
  refine ⟨keeps_nextFh fh point sys taken, fun result returned => ?_⟩
  cases result with
  | inr reply => exact trivial
  | inl next =>
      intro stores
      have ran := number_of_run (Prod.ext returned rfl) stores
      rw [ran.1] at taken
      exact Nat.lt_irrefl _ taken

/-- While a number leads to a descriptor, no thread stores under it or releases
it. -/
def heldOpen
    (fh : Nat)
    (fd : Fd) :
    Outline Sys Request Section :=
  .plain (fun request => request ≠ .release fh)
    (fun sys => HoldsFile fh (some fd) sys.openFiles sys.nextFh)
    fun point => Unstored fh point ∧ point ≠ .start (.release fh)

theorem spares_holdsFile
    {fh : Nat}
    {fd : Fd}
    {point : Section}
    (unstored : Unstored fh point)
    (unreleased : point ≠ .start (.release fh)) :
    point.Spares (HoldsFile fh (some fd)) := by
  cases point with
  | start request =>
      cases request with
      | release other =>
          intro table next held
          refine ⟨held.1, ?_⟩
          rw [FMap.get?_remove, if_neg]
          · exact held.2
          · rintro rfl
            exact unreleased rfl
      | _ => exact trivial
  | takeFh fd =>
      exact fun _ _ held => ⟨Nat.lt_succ_of_lt held.1, held.2⟩
  | storeFh fd other =>
      intro table next held
      refine ⟨held.1, ?_⟩
      rw [FMap.get?_set, if_neg]
      · exact held.2
      · rintro rfl
        exact unstored rfl
  | _ => exact trivial

theorem sound_heldOpen
    (fh : Nat)
    (fd : Fd) :
    (heldOpen fh fd).Sound (handlers env) := by
  refine Outline.sound_plain ?_ ?_
  · intro request accepted
    refine ⟨nofun, fun same => ?_⟩
    cases same
    exact accepted rfl
  · rintro inputs point ⟨unstored, unreleased⟩
    refine yields_handlers (fun _ _ held => held) ?_ inputs
    intro sys held
    refine ⟨keeps_files (filesRule_holdsFile fh (some fd))
      (spares_holdsFile unstored unreleased) sys held, fun result returned => ?_⟩
    cases result with
    | inr reply =>
        exact trivial
    | inl next =>
        refine ⟨?_, started_of_run (Prod.ext returned rfl) _⟩
        exact (yields_unstored fh point sys held.1).2 _ returned

end Daemon

/-! ## All interleavings -/

namespace Threads

open Daemon (Section)

/-- The handle that a turn hands out. -/
def handsOut
    (env : Env)
    (threads : Threads Sys Section) :
    Turn Request Inputs → Option Nat
  | .receive .. => none
  | .advance thread inputs =>
      (threads.points.get? thread).bind fun point =>
        match point, (point.run env (threads.shared.meet inputs)).1 with
        | .storeFh _ fh, _ => some fh
        | .start (.create ..), .ok (.inr (.created _ fh)) => some fh
        | _, _ => none

/-- The number leads to the descriptor, and only its thread may change that. -/
structure OpenAt
    (fh : Nat)
    (fd : Fd)
    (threads : Threads Sys Section) : Prop where
  held : HoldsFile fh (some fd) threads.shared.openFiles threads.shared.nextFh
  unstored : ∀ thread point, threads.points.get? thread = some point →
    Daemon.Unstored fh point

/-- `create` stores its descriptor before any other thread runs. -/
theorem gaveOut_of_run
    {env : Env}
    {caller : Caller}
    {parent : UInt64}
    {name : Name}
    {mode : Mode}
    {flags : OpenFlags}
    {sys : Sys}
    {attr : Stat}
    {fh : Nat}
    (replied :
      ((Section.start (.create caller parent name mode flags)).run env sys).1 =
        .ok (.inr (.created attr fh))) :
    Daemon.GaveOut sys.nextFh fh
      ((Section.start (.create caller parent name mode flags)).run env
        sys).2 := by
  have gives :
      Gives
        (Sys.Confined Guard.free sys.os.disk
          (SameFiles sys.openFiles sys.nextFh))
        ((Section.start (.create caller parent name mode flags)).run env)
        fun result later => ∀ attr fh, result = .inr (.created attr fh) →
          Daemon.GaveOut sys.nextFh fh later := by
    refine Gives.bind (Daemon.gives_create caller parent name mode flags)
      fun reply => ?_
    apply Gives.pure
    rintro later gave attr fh ⟨⟩
    exact gave attr fh rfl
  exact gives sys _ _ ⟨Disk.spared_free _ _, rfl, rfl⟩ (Prod.ext replied rfl)
    attr fh rfl

/-- What a turn that hands out a number leaves. -/
theorem openAt_of_handsOut
    {env : Env}
    {threads : Threads Sys Section}
    (holds : Daemon.numbered.Holds threads)
    {turn : Turn Request Inputs}
    {fh : Nat}
    (hands : threads.handsOut env turn = some fh) :
    ∃ fd, OpenAt fh fd (threads.step (handlers env) turn) := by
  cases turn with
  | receive thread request =>
      cases hands
  | advance thread inputs =>
      obtain ⟨point, stored, matched⟩ := Option.bind_eq_some_iff.mp hands
      have moved :
          threads.step (handlers env) (.advance thread inputs) =
            threads.settle thread
              (point.run env (threads.shared.meet inputs)) := by
        simp only [step, advance, stored]
        rfl
      rw [moved]
      split at matched
      · next fd number =>
          cases matched
          refine ⟨fd, ⟨?_, ?_⟩, ?_⟩
          · exact holds.points thread _ stored fh rfl
          · exact FMap.get?_set_self _ fh fd
          · intro other query reached
            rw [settle_points] at reached
            split at reached
            · cases reached
            · next different =>
                exact holds.apart thread other _ query (Ne.symm different)
                  stored reached fh rfl
      · next caller parent name mode flags attr number replied =>
          cases matched
          have gave := gaveOut_of_run replied
          obtain ⟨fd, leads⟩ := Option.isSome_iff_exists.mp gave.leads
          refine ⟨fd, ⟨?_, leads⟩, ?_⟩
          · exact gave.taken
          · intro other query reached
            rw [settle_points] at reached
            split at reached
            · rw [replied] at reached
              cases reached
            · intro stores
              have less := holds.points other query reached fh stores
              rw [gave.number] at less
              exact Nat.lt_irrefl _ less
      · cases matched

/-- A turn that hands out a number is no query. -/
theorem handsOut_advances
    {env : Env}
    {threads : Threads Sys Section}
    {turn : Turn Request Inputs}
    {fh : Nat}
    (hands : threads.handsOut env turn = some fh) :
    ∃ thread inputs, turn = .advance thread inputs := by
  cases turn with
  | receive thread request => cases hands
  | advance thread inputs => exact ⟨thread, inputs, rfl⟩

/-- A number that is taken and not about to be stored is not handed out. -/
theorem handsOut_ne
    {env : Env}
    {threads : Threads Sys Section}
    {fh : Nat}
    (taken : fh < threads.shared.nextFh)
    (unstored : ∀ thread point, threads.points.get? thread = some point →
      Daemon.Unstored fh point)
    (turn : Turn Request Inputs) :
    threads.handsOut env turn ≠ some fh := by
  intro hands
  obtain ⟨thread, inputs, rfl⟩ := handsOut_advances hands
  obtain ⟨point, stored, matched⟩ := Option.bind_eq_some_iff.mp hands
  split at matched
  · cases matched
    exact unstored thread _ stored rfl
  · next replied =>
      cases matched
      have gave := gaveOut_of_run replied
      have same : fh = threads.shared.nextFh := gave.number
      rw [same] at taken
      exact Nat.lt_irrefl _ taken
  · cases matched

/-- The turn that hands out a number starts no release of it. -/
theorem unreleased_step
    {env : Env}
    {threads : Threads Sys Section}
    {turn : Turn Request Inputs}
    {fh : Nat}
    (hands : threads.handsOut env turn = some fh)
    (unreleased : ∀ thread,
      threads.points.get? thread ≠ some (.start (.release fh)))
    {thread : Nat}
    {point : Section}
    (reached :
      (threads.step (handlers env) turn).points.get? thread = some point) :
    point ≠ .start (.release fh) := by
  obtain ⟨busy, inputs, rfl⟩ := handsOut_advances hands
  rintro rfl
  simp only [step, advance] at reached
  split at reached
  · exact unreleased thread reached
  · next before stored =>
      rw [settle_points] at reached
      split at reached
      · have outcome := next?_eq_some.mp reached
        exact Daemon.started_of_run (Prod.ext outcome rfl) _ rfl
      · exact unreleased thread reached

end Threads

namespace Sample

/-- The file is opened for reading. -/
def openReading : Request :=
  .open 11 ⟨true, false, false, false, false, false, false, false, false,
    false⟩

/-- Two threads open the file; the second takes its number first and is about to
store its descriptor. -/
def opening : List (Turn Request Inputs) :=
  [.receive 0 (.lookup 1 (ascii "a")), .advance 0 inputs, .advance 0 inputs,
    .receive 0 openReading, .receive 1 openReading, .advance 0 inputs,
    .advance 1 inputs, .advance 1 inputs, .advance 0 inputs, .advance 0 inputs]

end Sample

end FuseOverlay
