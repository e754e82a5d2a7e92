import FuseOverlay.Disk

namespace FuseOverlay

/-!
# The transfers of `copy_data`

`Copyup.lean` copies a content in one transfer.  Here every call is a step of
its own with the outcome the kernel chose, so that a transfer may be short, be
interrupted or fail between any two others.
-/

namespace CopyData

/-- The two open files, each with the offset of its descriptor. -/
structure Files where
  source : List UInt8
  sourceOffset : Nat
  dest : List UInt8
  destOffset : Nat
  deriving Repr, DecidableEq

/-- What a call answers. -/
inductive Outcome where
  | count (n : Nat)
  | failed (errno : Errno)
  deriving Repr, DecidableEq

/-- `libc::EINTR` -/
def interrupted : Errno := .other 4

/-- The call that `copy_data` makes next, or what it returned. -/
inductive Point where
  | ficlone
  | sendfile (copied : Int)
  | read
  | write (buf : List UInt8) (written : Nat)
  | returned (result : Except Errno Unit)

/-- Where `copy_data` stands. -/
structure State where
  point : Point
  files : Files

namespace Files

/-- The bytes that the descriptor of the source has not passed. -/
def unread (files : Files) : List UInt8 :=
  files.source.drop files.sourceOffset

/-- `n` bytes of the source are taken. -/
def take
    (files : Files)
    (n : Nat) :
    Files :=
  { files with sourceOffset := files.sourceOffset + n }

/-- Bytes are written at the offset of the destination. -/
def put
    (files : Files)
    (bytes : List UInt8) :
    Files :=
  { files with
    dest := Disk.spliceData files.dest bytes files.destOffset
    destOffset := files.destOffset + bytes.length }

end Files

/-- `1 << 20` -/
def bufSize : Nat := 2 ^ 20

/-- After the `sendfile` loop: all is copied, or reads and writes follow. -/
def leaveSendfile (size copied : Int) : Point :=
  if size ≤ copied then .returned (.ok ()) else .read

/-- `while copied < size` -/
def whileCopied (size copied : Int) : Point :=
  if copied < size then .sendfile copied else leaveSendfile size copied

/-- `while written < nread` -/
def whileWritten
    (buf : List UInt8)
    (written : Nat) :
    Point :=
  if written < buf.length then .write buf written else .read

/-- One call of `copy_data` and the code up to the next one. -/
def step
    (size : Int)
    (state : State)
    (outcome : Outcome) :
    State :=
  let files := state.files
  match state.point, outcome with
  | .ficlone, .count _ =>
      ⟨.returned (.ok ()), { files with dest := files.source }⟩
  | .ficlone, .failed _ =>
      ⟨whileCopied size 0, files⟩
  | .sendfile copied, .failed errno =>
      if errno = interrupted then
        ⟨whileCopied size copied, files⟩
      else
        ⟨leaveSendfile size copied, files⟩
  | .sendfile copied, .count n =>
      if n = 0 then
        ⟨.returned (.ok ()), files⟩
      else
        ⟨whileCopied size (copied + n),
          (files.put (files.unread.take n)).take n⟩
  | .read, .failed errno =>
      ⟨.returned (.error errno), files⟩
  | .read, .count n =>
      if n = 0 then
        ⟨.returned (.ok ()), files⟩
      else
        ⟨whileWritten (files.unread.take n) 0, files.take n⟩
  | .write _ _, .failed errno =>
      ⟨.returned (.error errno), files⟩
  | .write buf written, .count n =>
      ⟨whileWritten buf (written + n),
        files.put ((buf.drop written).take n)⟩
  | .returned result, _ =>
      ⟨.returned result, files⟩

/--
What the kernel may answer: any failure, at most the bytes asked for and there,
and 0 for a transfer from the source at its end only.
-/
def Allowed
    (size : Int)
    (state : State) :
    Outcome → Prop
  | .failed _ => True
  | .count n =>
      match state.point with
      | .ficlone => True
      | .sendfile copied =>
          n ≤ (size - copied).toNat ∧ n ≤ state.files.unread.length ∧
            (n = 0 → state.files.unread = [])
      | .read =>
          n ≤ bufSize ∧ n ≤ state.files.unread.length ∧
            (n = 0 → state.files.unread = [])
      | .write buf written => 0 < n ∧ n ≤ buf.length - written
      | .returned _ => True

/-- The source with its content and an empty destination. -/
def start (source : List UInt8) : State :=
  ⟨.ficlone, ⟨source, 0, [], 0⟩⟩

/-- The state after `n` calls. -/
def run
    (source : List UInt8)
    (outcomes : Nat → Outcome) :
    Nat → State
  | 0 => start source
  | n + 1 => step source.length (run source outcomes n) (outcomes n)

/-- Every call is answered as the kernel may. -/
def Legal
    (source : List UInt8)
    (outcomes : Nat → Outcome) : Prop :=
  ∀ n, Allowed source.length (run source outcomes n) (outcomes n)

/-! ## What has arrived -/

/-- The destination and the pending bytes are what was taken. -/
structure Level
    (source : List UInt8)
    (files : Files)
    (pending : List UInt8) : Prop where
  source_eq : files.source = source
  inSource : files.sourceOffset ≤ source.length
  arrived : files.dest ++ pending = source.take files.sourceOffset
  atEnd : files.destOffset = files.dest.length

/-- The invariant of `copy_data`, point by point. -/
def Copied
    (source : List UInt8)
    (state : State) : Prop :=
  match state.point with
  | .ficlone => Level source state.files [] ∧ state.files.sourceOffset = 0
  | .sendfile copied =>
      Level source state.files [] ∧ copied = state.files.sourceOffset
  | .read => Level source state.files []
  | .write buf written =>
      Level source state.files (buf.drop written) ∧ written < buf.length
  | .returned (.ok ()) => state.files.dest = source
  | .returned (.error _) => True

section Step

variable
  {source : List UInt8}
  {files : Files}

namespace Level

/-- With nothing left to read and nothing pending, all has arrived. -/
theorem complete
    (level : Level source files [])
    (atEnd : source.length ≤ files.sourceOffset) :
    files.dest = source := by
  have arrived := level.arrived
  rw [List.append_nil, List.take_of_length_le atEnd] at arrived
  exact arrived

theorem unread_length
    (level : Level source files []) :
    files.unread.length = source.length - files.sourceOffset := by
  unfold Files.unread
  rw [level.source_eq, List.length_drop]

/-- Nothing to read means the end of the source. -/
theorem atEnd_of_unread
    (level : Level source files [])
    (nothing : files.unread = []) :
    source.length ≤ files.sourceOffset := by
  have length := level.unread_length
  rw [nothing, List.length_nil] at length
  omega

/-- Bytes that are taken become pending. -/
theorem taken
    (level : Level source files [])
    {n : Nat}
    (available : n ≤ files.unread.length) :
    Level source (files.take n) (files.unread.take n) where
  source_eq := level.source_eq
  inSource := by
    rw [level.unread_length] at available
    have inSource := level.inSource
    change files.sourceOffset + n ≤ source.length
    omega
  arrived := by
    have arrived := level.arrived
    rw [List.append_nil] at arrived
    change files.dest ++ files.unread.take n =
      source.take (files.sourceOffset + n)
    rw [arrived, List.take_add, ← level.source_eq]
    rfl
  atEnd := level.atEnd

/-- Writing at the end appends. -/
theorem put
    {pending : List UInt8}
    (level : Level source files pending)
    (n : Nat) :
    Level source (files.put (pending.take n)) (pending.drop n) where
  source_eq := level.source_eq
  inSource := level.inSource
  arrived := by
    change Disk.spliceData files.dest (pending.take n) files.destOffset ++
      pending.drop n = source.take files.sourceOffset
    have past :
        files.dest.drop (files.dest.length + (pending.take n).length) = [] :=
      List.drop_of_length_le (Nat.le_add_right _ _)
    rw [← level.arrived, level.atEnd]
    unfold Disk.spliceData
    rw [past]
    simp
  atEnd := by
    change files.destOffset + (pending.take n).length =
      (Disk.spliceData files.dest (pending.take n) files.destOffset).length
    rw [level.atEnd]
    unfold Disk.spliceData
    simp

end Level

/-- The loop head of the `sendfile` part. -/
theorem copied_whileCopied
    (level : Level source files []) :
    Copied source
      ⟨whileCopied source.length files.sourceOffset, files⟩ := by
  unfold whileCopied leaveSendfile
  split
  · exact ⟨level, rfl⟩
  · rename_i notLess
    rw [if_pos (by omega)]
    exact level.complete (by omega)

/-- The loop head of the `write` part. -/
theorem copied_whileWritten
    {buf : List UInt8}
    {written : Nat}
    (level : Level source files (buf.drop written)) :
    Copied source ⟨whileWritten buf written, files⟩ := by
  unfold whileWritten
  split
  · rename_i less
    exact ⟨level, less⟩
  · rename_i notLess
    rw [List.drop_of_length_le (by omega)] at level
    exact level

/-- Every allowed answer keeps the invariant. -/
theorem copied_step
    {state : State}
    {outcome : Outcome}
    (copied : Copied source state)
    (allowed : Allowed source.length state outcome) :
    Copied source (step source.length state outcome) := by
  obtain ⟨point, files⟩ := state
  cases point with
  | ficlone =>
      obtain ⟨level, offset⟩ := copied
      cases outcome with
      | count n =>
          exact level.source_eq
      | failed errno =>
          have head := copied_whileCopied level
          change files.sourceOffset = 0 at offset
          rw [offset] at head
          exact head
  | sendfile sent =>
      obtain ⟨level, offset⟩ := copied
      change sent = files.sourceOffset at offset
      subst offset
      cases outcome with
      | failed errno =>
          simp only [step]
          split
          · exact copied_whileCopied level
          · unfold leaveSendfile
            split
            · rename_i reached
              exact level.complete (Int.ofNat_le.mp reached)
            · exact level
      | count n =>
          obtain ⟨-, available, atEnd⟩ := allowed
          simp only [step]
          split
          · rename_i none_sent
            exact level.complete (level.atEnd_of_unread (atEnd none_sent))
          · have taken := (level.taken available).put n
            rw [List.drop_take_self, List.take_take, Nat.min_self] at taken
            have head := copied_whileCopied taken
            simpa [Files.take, Files.put] using head
  | read =>
      cases outcome with
      | failed errno =>
          trivial
      | count n =>
          obtain ⟨-, available, atEnd⟩ := allowed
          simp only [step]
          split
          · rename_i none_read
            exact Level.complete copied
              (Level.atEnd_of_unread copied (atEnd none_read))
          · exact copied_whileWritten (Level.taken copied available)
  | write buf written =>
      obtain ⟨level, less⟩ := copied
      cases outcome with
      | failed errno =>
          trivial
      | count n =>
          have put := level.put n
          rw [List.drop_drop] at put
          exact copied_whileWritten put
  | returned result =>
      cases outcome <;> exact copied

end Step

section Run

variable
  {source : List UInt8}
  {outcomes : Nat → Outcome}

theorem copied_run
    (legal : Legal source outcomes)
    (n : Nat) :
    Copied source (run source outcomes n) := by
  induction n with
  | zero =>
      exact ⟨⟨rfl, Nat.zero_le _, rfl, rfl⟩, rfl⟩
  | succ n inductionHypothesis =>
      exact copied_step inductionHypothesis (legal n)

/-- Any run that ends well leaves what one transfer of all bytes leaves. -/
theorem one_transfer
    (legal : Legal source outcomes)
    {n : Nat}
    {files : Files}
    (reached : run source outcomes n = ⟨.returned (.ok ()), files⟩) :
    files.dest = Disk.spliceData [] (source.take source.length) 0 := by
  have copied := copied_run legal n
  rw [reached] at copied
  have same : files.dest = source := copied
  rw [same]
  simp [Disk.spliceData]

/-! ## How long it takes -/

/-- The calls that can still come without an interruption. -/
def remaining (state : State) : Nat :=
  let left := state.files.unread.length
  match state.point with
  | .ficlone => 2 * left + 3
  | .sendfile _ => 2 * left + 2
  | .read => 2 * left + 1
  | .write buf written => 2 * left + 1 + (buf.length - written)
  | .returned _ => 0

/-- `copy_data` has returned. -/
def Returned (state : State) : Prop :=
  ∃ result, state.point = .returned result

theorem remaining_whileCopied
    (size copied : Int)
    (files : Files) :
    remaining ⟨whileCopied size copied, files⟩ ≤
      2 * files.unread.length + 2 := by
  unfold whileCopied leaveSendfile
  split_ifs <;> simp [remaining]

theorem remaining_leaveSendfile
    (size copied : Int)
    (files : Files) :
    remaining ⟨leaveSendfile size copied, files⟩ ≤
      2 * files.unread.length + 1 := by
  unfold leaveSendfile
  split_ifs <;> simp [remaining]

theorem remaining_whileWritten
    (buf : List UInt8)
    (written : Nat)
    (files : Files) :
    remaining ⟨whileWritten buf written, files⟩ ≤
      2 * files.unread.length + 1 + (buf.length - written) := by
  unfold whileWritten
  split_ifs <;> simp [remaining]

theorem unread_take
    (files : Files)
    (n : Nat) :
    (files.take n).unread.length = files.unread.length - n := by
  unfold Files.unread Files.take
  simp only [List.length_drop]
  omega

theorem unread_put
    (files : Files)
    (bytes : List UInt8) :
    (files.put bytes).unread = files.unread :=
  rfl

/-- A call that is not interrupted brings the end nearer. -/
theorem remaining_step
    {size : Int}
    {state : State}
    {outcome : Outcome}
    (allowed : Allowed size state outcome)
    (notInterrupted : outcome ≠ .failed interrupted)
    (running : ¬ Returned state) :
    remaining (step size state outcome) < remaining state := by
  obtain ⟨point, files⟩ := state
  cases point with
  | ficlone =>
      cases outcome with
      | count n =>
          simp [step, remaining]
      | failed errno =>
          have next := remaining_whileCopied size 0 files
          simp only [step, remaining] at next ⊢
          omega
  | sendfile copied =>
      cases outcome with
      | failed errno =>
          have other : errno ≠ interrupted := fun same =>
            notInterrupted (congrArg Outcome.failed same)
          have next := remaining_leaveSendfile size copied files
          simp only [step, if_neg other]
          simp only [remaining] at next ⊢
          omega
      | count n =>
          obtain ⟨-, available, -⟩ := allowed
          simp only [step]
          split
          · simp [remaining]
          · have next := remaining_whileCopied size (copied + n)
              ((files.put (files.unread.take n)).take n)
            rw [unread_take, unread_put] at next
            simp only [remaining] at next available ⊢
            omega
  | read =>
      cases outcome with
      | failed errno =>
          simp [step, remaining]
      | count n =>
          obtain ⟨-, available, -⟩ := allowed
          simp only [step]
          split
          · simp [remaining]
          · have next :=
              remaining_whileWritten (files.unread.take n) 0 (files.take n)
            rw [unread_take, List.length_take] at next
            simp only [remaining] at next available ⊢
            omega
  | write buf written =>
      cases outcome with
      | failed errno =>
          simp only [step, remaining]
          omega
      | count n =>
          obtain ⟨positive, fits⟩ := allowed
          have next := remaining_whileWritten buf (written + n)
            (files.put ((buf.drop written).take n))
          rw [unread_put] at next
          simp only [step, remaining] at next ⊢
          omega
  | returned result =>
      exact absurd ⟨result, rfl⟩ running

/-- Once no call is interrupted any more, the measure reaches the end. -/
theorem returns_after
    (legal : Legal source outcomes)
    {bound : Nat}
    (quiet : ∀ n, bound ≤ n → outcomes n ≠ .failed interrupted) :
    ∃ n, Returned (run source outcomes n) := by
  have descends :
      ∀ left n,
        bound ≤ n →
        remaining (run source outcomes n) ≤ left →
        ∃ later, Returned (run source outcomes later) := by
    intro left
    induction left with
    | zero =>
        intro n later least
        by_cases returned : Returned (run source outcomes n)
        · exact ⟨n, returned⟩
        · have less := remaining_step (legal n) (quiet n later) returned
          omega
    | succ left inductionHypothesis =>
        intro n later least
        by_cases returned : Returned (run source outcomes n)
        · exact ⟨n, returned⟩
        · have less := remaining_step (legal n) (quiet n later) returned
          apply inductionHypothesis (n + 1) (by omega)
          rw [run]
          omega
  exact descends _ bound le_rfl le_rfl

/--
`copy_data` copies exactly: whatever the kernel answers, an `Ok` leaves the
whole source in the destination, and it returns if only finitely many calls are
interrupted.
-/
theorem copyData_exact
    (legal : Legal source outcomes) :
    (∀ n files,
      run source outcomes n = ⟨.returned (.ok ()), files⟩ →
      files.dest = source) ∧
    ((∃ bound, ∀ n, bound ≤ n → outcomes n ≠ .failed interrupted) →
      ∃ n, Returned (run source outcomes n)) := by
  constructor
  · intro n files reached
    have copied := copied_run legal n
    rw [reached] at copied
    exact copied
  · rintro ⟨bound, quiet⟩
    exact returns_after legal quiet

end Run

/-- A clone and a second `sendfile` that fail, then a read and a write. -/
def mixedOutcomes : Nat → Outcome
  | 1 | 3 | 4 => .count 1
  | 5 => .count 0
  | _ => .failed .EINVAL

theorem copyData_mixed :
    (∀ n files,
      run [1, 2] mixedOutcomes n = ⟨.returned (.ok ()), files⟩ →
      files.dest = [1, 2]) ∧
    ((∃ bound, ∀ n, bound ≤ n → mixedOutcomes n ≠ .failed interrupted) →
      ∃ n, Returned (run [1, 2] mixedOutcomes n)) :=
  copyData_exact fun n =>
    match n with
    | 0 | 2 => trivial
    | 1 => by simp [Allowed, run, step, start, mixedOutcomes, whileCopied,
        Files.unread]
    | 3 => by simp [Allowed, run, step, start, mixedOutcomes, whileCopied,
        leaveSendfile, interrupted, Files.unread, Files.put, Files.take,
        bufSize]
    | 4 => by simp [Allowed, run, step, start, mixedOutcomes, whileCopied,
        leaveSendfile, whileWritten, interrupted, Files.unread, Files.put,
        Files.take]
    | 5 => by simp [Allowed, run, step, start, mixedOutcomes, whileCopied,
        leaveSendfile, whileWritten, interrupted, Files.unread, Files.put,
        Files.take]
    | _ + 6 => trivial

end CopyData

end FuseOverlay
