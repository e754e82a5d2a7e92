import FuseOverlay.Requests
import FuseOverlay.SyscallSteps

namespace FuseOverlay

/-!
# Actions of the daemon one by one

The equations say what a short action does in a state, and the lemmas that end
in `_returns` what is known once it returned a value.
-/

namespace Daemon

open Syscall

variable {sys : Sys}

/-! ## System calls -/

theorem lift_apply
    {α : Type}
    {act : Syscall α}
    {result : Except Errno α}
    {later : Os}
    (ran : act sys.os = (result, later)) :
    (liftM act : Daemon α) sys = (result, { sys with os := later }) := by
  rw [liftM_eq]
  unfold Syscall.lift
  rw [ran]

theorem lift_congr
    {α : Type}
    {first second : Syscall α}
    (same : first sys.os = second sys.os) :
    (liftM first : Daemon α) sys = (liftM second : Daemon α) sys := by
  rw [liftM_eq, liftM_eq]
  unfold Syscall.lift
  rw [same]

theorem lift_returns
    {α : Type}
    {act : Syscall α}
    {value : α}
    {later : Sys}
    (returned : (liftM act : Daemon α) sys = (.ok value, later)) :
    act sys.os = (.ok value, later.os) ∧
      later = { sys with os := later.os } := by
  rw [liftM_eq] at returned
  obtain ⟨outcome, left⟩ := Prod.mk.inj returned
  exact ⟨Prod.ext outcome (congrArg Sys.os left), left ▸ rfl⟩

theorem layer_returns
    {env : Env}
    {layerIdx : Nat}
    {later : Sys}
    {found : Layer}
    (returned :
      (liftM (Syscall.layer env layerIdx) : Daemon Layer) sys =
        (.ok found, later)) :
    env.layers[layerIdx]? = some found ∧ later = sys := by
  unfold Syscall.layer at returned
  cases stored : env.layers[layerIdx]? with
  | none =>
      rw [stored] at returned
      cases returned
  | some value =>
      rw [stored] at returned
      cases returned
      exact ⟨rfl, rfl⟩

/-! ## Nodes -/

theorem node_apply
    {id : NodeId}
    {found : OvlNode}
    (stored : sys.nodes.get? id = some found) :
    node id sys = (.ok found, sys) := by
  change Act.orFail (sys.nodes.get? id) Errno.ENOENT sys = _
  rw [stored]
  rfl

theorem node_returns
    {id : NodeId}
    {later : Sys}
    {found : OvlNode}
    (returned : node id sys = (.ok found, later)) :
    sys.nodes.get? id = some found ∧ later = sys := by
  unfold node at returned
  rw [Act.bind_ok (show getNode id sys = (.ok (sys.nodes.get? id), sys)
    from rfl)] at returned
  exact Act.orFail_returns returned

theorem presentOr_apply
    (id : NodeId)
    (errno : Errno)
    (sys : Sys) :
    presentOr (some id) errno sys =
      (if sys.nodes.containsKey id then .ok id else .error errno, sys) := by
  change (Act.check (sys.nodes.containsKey id) errno >>=
    fun _ => (pure id : Daemon NodeId)) sys = _
  rw [Act.bind_apply]
  unfold Act.check
  cases sys.nodes.containsKey id <;> rfl

/-- A number that resolves leads to a stored node. -/
theorem resolveNode_returns
    {ino : UInt64}
    {id : NodeId}
    {later : Sys}
    (returned : resolveNode ino sys = (.ok id, later)) :
    lookupNodeId sys.nodes sys.inodes ino = some id ∧
      sys.nodes.containsKey id = true ∧ later = sys := by
  have read :
      resolveIno ino sys = (.ok (lookupNodeId sys.nodes sys.inodes ino), sys) :=
    rfl
  unfold resolveNode at returned
  rw [Act.bind_ok read] at returned
  cases named : lookupNodeId sys.nodes sys.inodes ino with
  | none =>
      rw [named] at returned
      cases returned
  | some found =>
      rw [named, presentOr_apply] at returned
      obtain ⟨outcome, rfl⟩ := Prod.mk.inj returned
      split at outcome
      · next live =>
          cases outcome
          exact ⟨rfl, live, rfl⟩
      · cases outcome

/-! ## Attributes -/

/-- The attributes of a node that is not hidden. -/
theorem rplStat_shown
    {env : Env}
    {id : NodeId}
    {found : OvlNode}
    (stored : sys.nodes.get? id = some found)
    (shown : found.hidden = false) :
    rplStat env id sys =
      rplStatWithPath env id (nodeParts sys.nodes id) sys := by
  unfold rplStat
  rw [Act.bind_ok (node_apply stored)]
  simp only [shown, Bool.false_eq_true, ↓reduceIte]
  rfl

end Daemon

end FuseOverlay
