import PrivilegeStore.Commit.Review

/-!
# Verdicts

The verdict on a commit is reached by judging the changes of the privileges node in order, up to the
first that breaks a rule; that one is counted too. A change that cannot be judged leaves the commit
without a verdict. Nothing is judged when the node is absent on both sides or the same on
both.
-/
namespace PrivilegeStore.Commit

structure Verdict where
  /-- The rule that was broken; none for an accepted commit. -/
  breach : Option Breach
  eventsChecked : Nat
deriving DecidableEq, Repr

namespace Verdict

def isAccepted (v : Verdict) : Bool := v.breach.isNone

/-- The numbers of broken rules. -/
def code? (v : Verdict) : Option Nat := v.breach.map Breach.code

end Verdict

/-- A verdict, or why there is none, with the notices made on the way. -/
structure Judgement where
  result : Except Fault Verdict
  notices : List Notice := []
deriving Repr

namespace Review

/-- The verdict on events, after some that were accepted. -/
def verdictFrom (r : Review) (checked : Nat) : List Event → Judgement
  | [] => ⟨.ok ⟨none, checked⟩, [.commitAccepted checked]⟩
  | e :: rest =>
    let (ruling, r) := r.judge e
    match ruling.outcome with
    | .ok () =>
      let later := r.verdictFrom (checked + 1) rest
      { later with notices := ruling.notices ++ later.notices }
    | .error (.breach breach) =>
      ⟨.ok ⟨some breach, checked + 1⟩, ruling.notices ++ [.commitRejected (checked + 1) breach]⟩
    | .error (.fault fault) => ⟨.error fault, ruling.notices⟩

end Review

/-- The verdict on a single event. -/
def verdictOn (before after : Snapshot) (settings : Settings) (e : Event) : Judgement :=
  let (ruling, _) := (Review.mk before after settings none).judge e
  match ruling.outcome with
  | .ok () => ⟨.ok ⟨none, 1⟩, ruling.notices⟩
  | .error (.breach breach) => ⟨.ok ⟨some breach, 1⟩, ruling.notices⟩
  | .error (.fault fault) => ⟨.error fault, ruling.notices⟩

/-- The state of a node that may be absent, an absent one being empty. -/
def stateOf (node : Option Node) : Node := node.getD .empty

/-- Whether a node is absent on both sides, or present and the same on both. -/
def isUnchanged : Option Node → Option Node → Bool
  | none, none => true
  | some old, some new => old.same new
  | _, _ => false

/-- The verdict on a commit. -/
def verdict (before after : Snapshot) (settings : Settings := {}) : Judgement :=
  let old := before.node? settings.privilegesPath
  let new := after.node? settings.privilegesPath
  if isUnchanged old new then ⟨.ok ⟨none, 0⟩, []⟩
  else
    (Review.mk before after settings none).verdictFrom 0 ((stateOf old).changes (stateOf new))

end PrivilegeStore.Commit
