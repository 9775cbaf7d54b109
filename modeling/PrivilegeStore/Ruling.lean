import PrivilegeStore.Fault
import PrivilegeStore.Notice

/-!
# Rulings

A ruling on a change accepts it, names the rule it breaks, or says why it could not be judged. The
notices made on the way belong to it.
-/
namespace PrivilegeStore

inductive Failure where
  | breach (b : Breach)
  | fault (f : Fault)
deriving DecidableEq, Repr

structure Ruling where
  outcome : Except Failure Unit
  notices : List Notice := []

namespace Ruling

def accept : Ruling := ⟨.ok (), []⟩

def refuse (b : Breach) : Ruling := ⟨.error (.breach b), []⟩

def fail (f : Fault) : Ruling := ⟨.error (.fault f), []⟩

/-- Puts notices in front. -/
def after (r : Ruling) (notices : List Notice) : Ruling := { r with notices := notices ++ r.notices }

/-- Adds a notice to a ruling that accepts. -/
def onAccept (r : Ruling) (notice : Notice) : Ruling :=
  match r.outcome with
  | .ok () => { r with notices := r.notices ++ [notice] }
  | .error _ => r

@[simp] theorem outcome_after (r : Ruling) (notices : List Notice) :
    (r.after notices).outcome = r.outcome := rfl

@[simp] theorem outcome_onAccept (r : Ruling) (notice : Notice) :
    (r.onAccept notice).outcome = r.outcome := by
  simp only [onAccept]
  split <;> rfl

end Ruling

end PrivilegeStore
