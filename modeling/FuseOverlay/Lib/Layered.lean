import Mathlib.Data.List.Induction
import Mathlib.Data.List.Range

namespace FuseOverlay

/-!
# Directory trees laid over one another

Every layer marks a name in a directory as a file or a directory of its own, as
a whiteout, or not at all.  The first layer that marks a name decides what is
shown under it.  A directory that is shown is made of the directories under its
name on the layers of its parent, down to an opaque one, or to a layer with a
file or a whiteout in its place.
-/

/-- What a layer has under a name. -/
inductive Mark where
  | whiteout
  | file
  | dir (isOpaque : Bool)
  deriving DecidableEq

namespace Mark

/-- The layers that a directory is made of, out of the layers of its parent. -/
def dirs (mark : Nat → Option Mark) : List Nat → List Nat
  | [] => []
  | layer :: rest =>
      match mark layer with
      | none => dirs mark rest
      | some (.dir isOpaque) =>
          layer :: if isOpaque then [] else dirs mark rest
      | some _ => []

/-- The layer that a name is shown from, and whether it is a directory. -/
def top (mark : Nat → Option Mark) : List Nat → Option (Nat × Bool)
  | [] => none
  | layer :: rest =>
      match mark layer with
      | none => top mark rest
      | some .whiteout => none
      | some .file => some (layer, false)
      | some (.dir _) => some (layer, true)

variable {mark : Nat → Option Mark} {layers : List Nat}

theorem dirs_sublist
    (mark : Nat → Option Mark)
    (layers : List Nat) :
    (dirs mark layers).Sublist layers := by
  induction layers with
  | nil =>
      exact .slnil
  | cons layer rest inductionHypothesis =>
      unfold dirs
      split
      · exact .cons _ inductionHypothesis
      · split
        · exact .cons_cons _ (List.nil_sublist rest)
        · exact .cons_cons _ inductionHypothesis
      · exact List.nil_sublist _

/-- A directory is made of directories. -/
theorem mark_of_mem_dirs
    {layer : Nat}
    (member : layer ∈ dirs mark layers) :
    ∃ isOpaque, mark layer = some (.dir isOpaque) := by
  induction layers with
  | nil =>
      cases member
  | cons first rest inductionHypothesis =>
      unfold dirs at member
      split at member
      · exact inductionHypothesis member
      · next isOpaque marked =>
          rcases List.mem_cons.mp member with rfl | member
          · exact ⟨isOpaque, marked⟩
          · split at member
            · cases member
            · exact inductionHypothesis member
      · cases member

/-- What is shown is on the first layer that marks the name. -/
theorem split_of_top
    {layer : Nat}
    {isDir : Bool}
    (shown : top mark layers = some (layer, isDir)) :
    ∃ before rest, layers = before ++ layer :: rest ∧
      (∀ other ∈ before, mark other = none) ∧
      (isDir = false → mark layer = some .file) ∧
      (isDir = true → ∃ isOpaque, mark layer = some (.dir isOpaque)) := by
  induction layers with
  | nil =>
      cases shown
  | cons first rest inductionHypothesis =>
      unfold top at shown
      split at shown
      · next unmarked =>
          obtain ⟨before, after, rfl, passed, kinds⟩ :=
            inductionHypothesis shown
          refine ⟨first :: before, after, rfl, ?_, kinds⟩
          intro other among
          rcases List.mem_cons.mp among with rfl | among
          · exact unmarked
          · exact passed other among
      · cases shown
      · next marked =>
          cases shown
          exact ⟨[], rest, rfl, by simp, fun _ => marked, nofun⟩
      · next isOpaque marked =>
          cases shown
          exact ⟨[], rest, rfl, by simp, nofun, fun _ => ⟨_, marked⟩⟩

end Mark

/-- Layers, by the marks of their roots and of the names in a directory. -/
structure Layered (Name : Type) where
  count : Nat
  root : Nat → Option Mark
  mark : List Name → Name → Nat → Option Mark

namespace Layered

variable {Name : Type} (stack : Layered Name)

/-- The layers of a directory below one whose layers are known. -/
def dirsBelow : List Name → List Nat → List Name → List Nat
  | _, layers, [] => layers
  | path, layers, name :: rest =>
      dirsBelow (path ++ [name]) (Mark.dirs (stack.mark path name) layers) rest

/-- The layers that the directory at a path is made of. -/
def dirs (path : List Name) : List Nat :=
  stack.dirsBelow [] (Mark.dirs stack.root (List.range stack.count)) path

/-- What the directory at a path shows under a name. -/
def shown
    (path : List Name)
    (name : Name) :
    Option (Nat × Bool) :=
  Mark.top (stack.mark path name) (stack.dirs path)

theorem dirsBelow_append
    (path : List Name)
    (layers : List Nat)
    (names : List Name)
    (name : Name) :
    stack.dirsBelow path layers (names ++ [name]) =
      Mark.dirs (stack.mark (path ++ names) name)
        (stack.dirsBelow path layers names) := by
  induction names generalizing path layers with
  | nil =>
      rw [List.nil_append, List.append_nil]
      rfl
  | cons first rest inductionHypothesis =>
      rw [List.cons_append, dirsBelow, inductionHypothesis, List.append_assoc]
      rfl

theorem dirs_append
    (path : List Name)
    (name : Name) :
    stack.dirs (path ++ [name]) =
      Mark.dirs (stack.mark path name) (stack.dirs path) :=
  stack.dirsBelow_append [] _ path name

/-- The layers of a directory come in order. -/
theorem dirs_pairwise
    (path : List Name) :
    (stack.dirs path).Pairwise (· < ·) := by
  induction path using List.reverseRecOn with
  | nil =>
      exact List.pairwise_lt_range.sublist (Mark.dirs_sublist ..)
  | append_singleton path name inductionHypothesis =>
      rw [dirs_append]
      exact inductionHypothesis.sublist (Mark.dirs_sublist ..)

theorem dirs_lt
    {path : List Name}
    {layer : Nat}
    (member : layer ∈ stack.dirs path) :
    layer < stack.count := by
  induction path using List.reverseRecOn with
  | nil =>
      exact List.mem_range.mp ((Mark.dirs_sublist ..).subset member)
  | append_singleton path name inductionHypothesis =>
      rw [dirs_append] at member
      exact inductionHypothesis ((Mark.dirs_sublist ..).subset member)

end Layered

end FuseOverlay
