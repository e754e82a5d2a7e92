import FuseOverlay.FileRequests

namespace FuseOverlay

/-!
# A small mount

An upper layer over some lower ones, with the default options, on a host that
allows everything.  The counterexamples run on it.
-/

namespace Sample

/-- The default options. -/
def config : Config where
  uidMappings := []
  gidMappings := []
  squashToRoot := false
  squashToUid := none
  squashToGid := none
  nfsFilehandles := false
  fsync := true
  fastInoCheck := false
  writeback := false
  disableXattrs := false
  inoT32 := false
  staticNlink := false
  noacl := false

def host : Host where
  mknodDevices := true
  trustedXattrs := true
  xattrs := true
  umask := 0o022
  nameMax := 255
  uid := 0
  gid := 0
  overflowUid := 65534
  overflowGid := 65534
  leaves _ _ _ := .error .ELOOP
  fallocated _ _ _ data := data

def layer (low : Bool) : Layer :=
  ⟨low, .none, true, fun _ => 0⟩

/-- An upper layer and the given number of lower layers. -/
def env (lowers : Nat) : Env where
  config := config
  layers := layer false :: List.replicate lowers (layer true)
  host := host
  order := .front
  sameDevice := true
  canMknod := true

def obj
    (kind : FileKind)
    (data : List UInt8)
    (ino : UInt64) :
    Obj :=
  ⟨kind, 0o755, 0, 0, 0, data, ⟨0, 0⟩, ⟨0, 0⟩, ∅, ino⟩

/-- Trees with the roots of the layers and of the work directory. -/
def disk
    (lowers : Nat)
    (entries : List (Loc × Obj)) :
    Disk :=
  .ofList ((⟨.workdir, []⟩, obj .dir [] 1000) ::
    (List.range (lowers + 1)).map
      (fun idx => (⟨.layer idx, []⟩, obj .dir [] (1001 + idx.toUInt64))) ++
    entries)

/-- A request that no system call fails. -/
def call (request : Request) : Call :=
  ⟨request, [], [], ⟨0, 0⟩⟩

/-- A file on the upper layer. -/
def upperFile : Disk :=
  disk 0 [(⟨.layer 0, [ascii "a"]⟩, obj .reg [] 11)]

/-- A file on the lower layer. -/
def lowFile : Disk :=
  disk 1 [(⟨.layer 1, [ascii "a"]⟩, obj .reg [] 11)]

def lookupFile : Call :=
  call (.lookup 1 (ascii "a"))

/-- The upper file is looked up. -/
def foundUpper : Sys :=
  .run (env 0) (.mount (env 0) upperFile) [lookupFile]

/-- The `stat` of the file with some links. -/
def fileStat
    (ino : UInt64)
    (nlink : Nat) : Stat :=
  ⟨ino, 0, ⟨some .reg, 0o755⟩, nlink, 0, 0, 0, 0, ⟨0, 0⟩, ⟨0, 0⟩⟩

end Sample

end FuseOverlay
