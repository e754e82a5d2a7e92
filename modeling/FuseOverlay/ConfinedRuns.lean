import FuseOverlay.ConfinedRequests
import FuseOverlay.Sample

namespace FuseOverlay

/-!
# What no run of requests changes

Two guards for two promises of the mount.  The lower layers keep every name and
every content, and are left alone altogether when no `setattr` goes through a
handle that was opened on one of them.  Without an upper layer nothing on disk
changes.
-/

namespace Sys

variable {env : Env} {guard : Guard} {start : Disk}
  {files : FMap Nat Fd → Nat → Prop}

/-! ## Runs -/

/-- Every request of the run meets a condition where it starts. -/
def RunMeets
    (env : Env)
    (meets : Sys → Request → Prop) :
    Sys → List Call → Prop
  | _, [] => True
  | sys, call :: rest =>
      meets sys call.request ∧ RunMeets env meets (sys.step env call).2 rest

theorem Confined.begin
    {sys : Sys}
    (confined : sys.Confined guard start files)
    (call : Call) :
    (sys.begin call).Confined guard start files := by
  refine ⟨confined.1.withObjs rfl rfl ?_ ?_, confined.2⟩
  · exact fun _ _ => rfl
  · exact fun _ _ _ => rfl

theorem Confined.run
    (fits : guard.Fits env)
    (rule : FilesRule guard files)
    {sys : Sys}
    (confined : sys.Confined guard start files)
    {calls : List Call}
    (releases : ∀ call ∈ calls, call.request.Releases files)
    (permitted : sys.RunMeets env (fun sys request =>
      sys.Confined guard start files → request.Permitted guard env sys)
        calls) :
    (sys.run env calls).Confined guard start files := by
  induction calls generalizing sys with
  | nil =>
      exact confined
  | cons call rest inductionHypothesis =>
      obtain ⟨now, later⟩ := permitted
      have begun : call.request.Permitted guard env (sys.begin call) := by
        have holds := now confined
        cases shape : call.request with
        | setattr ino change =>
            rw [shape] at holds
            exact holds
        | _ => exact trivial
      have stepped := Daemon.confined_handle fits rule
        (releases call List.mem_cons_self) (sys.begin call)
        ⟨confined.begin call, begun⟩
      exact inductionHypothesis stepped
        (fun query member => releases query (List.mem_cons_of_mem call member))
        later

theorem RunMeets.imp
    {meets weaker : Sys → Request → Prop}
    (implies : ∀ sys request, meets sys request → weaker sys request)
    {sys : Sys}
    {calls : List Call}
    (holds : sys.RunMeets env meets calls) :
    sys.RunMeets env weaker calls := by
  induction calls generalizing sys with
  | nil =>
      exact trivial
  | cons call rest inductionHypothesis =>
      exact ⟨implies _ _ holds.1, inductionHypothesis holds.2⟩

/-- Where every descriptor may be marked, every request is permitted. -/
theorem runMeets_permitted
    (marks : Syscall.hasUpper env = true → ∀ fd, guard.Marks fd)
    (sys : Sys)
    (calls : List Call) :
    sys.RunMeets env (fun sys request =>
      sys.Confined guard start files → request.Permitted guard env sys)
        calls := by
  induction calls generalizing sys with
  | nil =>
      exact trivial
  | cons call rest inductionHypothesis =>
      refine ⟨fun _ => ?_, inductionHypothesis _⟩
      cases call.request with
      | setattr ino change => exact fun present fd _ => marks present fd
      | _ => exact trivial

end Sys

/-! ## Open files that are tame -/

/-- Every open file is tame. -/
def TameFiles
    (guard : Guard)
    (table : FMap Nat Fd)
    (_ : Nat) : Prop :=
  ∀ fh fd, table.get? fh = some fd → guard.Tame fd

theorem filesRule_tame
    (guard : Guard) :
    FilesRule guard (TameFiles guard) where
  tame := fun tame stored => tame _ _ stored
  opens := by
    intro table next fd tame new fh found stored
    rw [FMap.get?_set] at stored
    split at stored
    · cases stored
      exact new
    · exact tame fh found stored

theorem releases_tame
    (guard : Guard)
    (request : Request) :
    request.Releases (TameFiles guard) := by
  cases request with
  | release fh =>
      intro table next tame query fd stored
      rw [FMap.get?_remove] at stored
      split at stored
      · cases stored
      · exact tame query fd stored
  | _ => exact trivial

theorem Sys.Confined.mount
    {env : Env}
    {guard : Guard}
    {start : Disk}
    (spared : Disk.Spared guard start start) :
    (Sys.mount env start).Confined guard start (TameFiles guard) := by
  refine ⟨spared, fun fh fd stored => ?_⟩
  have empty : (∅ : FMap Nat Fd).get? fh = some fd := stored
  rw [FMap.get?_empty] at empty
  cases empty

/-! ## Lower layers -/

/-- Only the first layer may be another one than a lower layer. -/
def Env.UpperFirst (env : Env) : Prop :=
  ∀ layerIdx layer, env.layers[layerIdx]? = some layer →
    layer.low = false → layerIdx = 0

/-- A symbolic link that a call follows does not lead into a lower layer. -/
def Host.StaysOut (host : Host) : Prop :=
  ∀ disk loc rest target, ¬ loc.Lower →
    host.leaves disk loc rest = .ok target → ¬ target.Lower

/-- No object is both in a lower layer and elsewhere. -/
def Disk.LowersApart (disk : Disk) : Prop :=
  ∀ low high id, low.Lower → disk.names.get? low = some id →
    disk.names.get? high = some id → high.Lower

/-- No object has two names. -/
def Disk.OneName (disk : Disk) : Prop :=
  ∀ one other id, disk.names.get? one = some id →
    disk.names.get? other = some id → one = other

theorem Disk.OneName.addObj
    {disk : Disk}
    (oneName : disk.OneName)
    (loc : Loc)
    (obj : Obj) :
    (disk.addObj loc obj).OneName := by
  intro one other id named otherNamed
  rw [names_addObj] at named otherNamed
  split at named <;> split at otherNamed
  · next isLoc otherIsLoc => exact isLoc.trans otherIsLoc.symm
  · cases named
    exact (disk.names_ne_nextObj other otherNamed).elim
  · cases otherNamed
    exact (disk.names_ne_nextObj one named).elim
  · exact oneName one other id named otherNamed

theorem Disk.oneName_ofList
    (entries : List (Loc × Obj)) :
    (ofList entries).OneName := by
  have grows :
      ∀ disk : Disk, disk.OneName →
        (entries.foldl (fun disk entry => disk.addObj entry.1 entry.2)
          disk).OneName := by
    induction entries with
    | nil =>
        exact fun _ oneName => oneName
    | cons entry rest inductionHypothesis =>
        exact fun disk oneName =>
          inductionHypothesis _ (oneName.addObj entry.1 entry.2)
  apply grows
  intro one other id named
  have none : (∅ : FMap Loc ObjId).get? one = some id := named
  rw [FMap.get?_empty] at none
  cases none

theorem Disk.OneName.lowersApart
    {disk : Disk}
    (oneName : disk.OneName) :
    disk.LowersApart := by
  intro low high id isLow lowNamed highNamed
  rw [← oneName low high id lowNamed highNamed]
  exact isLow

namespace Sample

/-- A new mode for a path. -/
def setMode : SetAttr :=
  ⟨some 0o600, none, none, none, none, none, none⟩

end Sample

namespace Guard

/-- The lower layers are fixed. -/
def lowers
    (start : Disk)
    (loose : Prop) :
    Guard where
  writable root := root = .layer 0 ∨ root = .workdir
  fixed id := ∃ loc : Loc, loc.Lower ∧ start.names.get? loc = some id
  loose := loose

variable {start : Disk} {loose : Prop}

theorem lower_iff
    (loc : Loc) :
    loc.Lower ↔ ¬ (lowers start loose).writable loc.root := by
  simp [Loc.Lower, lowers]

theorem fits_lowers
    {env : Env}
    (first : env.UpperFirst)
    (stays : env.host.StaysOut) :
    (lowers start loose).Fits env where
  upper _ := ⟨.inl rfl, .inr rfl⟩
  layers layerIdx layer stored high :=
    .inl (congrArg Root.layer (first layerIdx layer stored high))
  leaves := by
    intro disk loc rest target permits followed
    apply Classical.byContradiction
    intro closed
    have high : ¬ loc.Lower := fun low =>
      (@lower_iff start loose loc).mp low permits
    exact stays disk loc rest target high followed (lower_iff target |>.mpr closed)

theorem spared_lowers
    (apart : start.LowersApart) :
    Disk.Spared (lowers start loose) start start := by
  apply Disk.Spared.refl
  · intro loc id permits named fixed
    obtain ⟨low, isLow, lowNamed⟩ := fixed
    have isLower := apart low loc id isLow lowNamed named
    exact (lower_iff loc).mp isLower permits
  · intro id fixed
    obtain ⟨low, -, named⟩ := fixed
    obtain ⟨obj, stored⟩ := Option.isSome_iff_exists.mp (start.named named)
    exact start.bounded stored

end Guard

/-- What a layer shows of the content at a location. -/
def Disk.contentAt
    (disk : Disk)
    (loc : Loc) :
    Option (FileKind × UInt64 × List UInt8 × UInt64) :=
  (disk.find? loc).map Obj.content

namespace Sys

variable {env : Env} {start : Disk}

theorem Confined.lower_contents
    {loose : Prop}
    {files : FMap Nat Fd → Nat → Prop}
    {sys : Sys}
    (confined : sys.Confined (Guard.lowers start loose) start files)
    {loc : Loc}
    (low : loc.Lower) :
    sys.os.disk.names.get? loc = start.names.get? loc ∧
      sys.os.disk.contentAt loc = start.contentAt loc := by
  have names := confined.1.names loc (Guard.lower_iff loc |>.mp low)
  refine ⟨names, ?_⟩
  unfold Disk.contentAt Disk.find?
  rw [names]
  cases named : start.names.get? loc with
  | none =>
      rfl
  | some id =>
      exact confined.1.contents id ⟨loc, low, named⟩

theorem upperFirst_sample
    (lowers : Nat) :
    (Sample.env lowers).UpperFirst := by
  intro layerIdx layer stored high
  cases layerIdx with
  | zero =>
      rfl
  | succ n =>
      have member : layer ∈ List.replicate lowers (Sample.layer true) :=
        List.mem_of_getElem? stored
      rw [List.eq_of_mem_replicate member] at high
      cases high

theorem staysOut_sample : Sample.host.StaysOut := by
  intro disk loc rest target high followed
  cases followed

/-- A `setattr` that names a handle names one of the upper layer. -/
def SetsUpper
    (sys : Sys) :
    Request → Prop
  | .setattr _ change =>
      ∀ fd, change.fh.bind sys.openFiles.get? = some fd → fd.root = .layer 0
  | _ => True

end Sys

/-! ## Mounts without an upper layer -/

namespace Guard

/-- Everything is fixed. -/
def all (start : Disk) : Guard where
  writable _ := False
  fixed id := id < start.nextObj
  loose := False

theorem fits_all
    {env : Env}
    {start : Disk}
    (lows : ∀ layer ∈ env.layers, layer.low = true) :
    (all start).Fits env where
  upper := by
    intro present
    unfold Syscall.hasUpper at present
    cases layers : env.layers with
    | nil =>
        rw [layers] at present
        cases present
    | cons layer rest =>
        have low := lows layer (layers ▸ List.mem_cons_self)
        rw [layers] at present
        simp [low] at present
  layers := by
    intro layerIdx layer stored high
    have low := lows layer (List.mem_of_getElem? stored)
    rw [low] at high
    cases high
  leaves := fun _ _ _ _ permits => permits.elim

end Guard

namespace Sys

variable {env : Env} {start : Disk}

end Sys

end FuseOverlay
