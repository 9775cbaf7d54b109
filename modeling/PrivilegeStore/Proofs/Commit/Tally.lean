import Mathlib.Control.Monad.Basic
import PrivilegeStore.Proofs.Commit.Independence

/-!
# A verdict is a tally of accounts

Of each change there is the account that a review gives of it that has judged nothing. A verdict is
reached by counting these accounts up to the first that does not accept, so nothing but them and
their order can show in it. What is not in an account, the name by which an unknown member is
reported, does not show in the number of a verdict either.
-/
namespace PrivilegeStore.Commit

variable {settings : Settings} {before after : Snapshot}

/-- A verdict, without the name by which an unknown member is reported. -/
def Verdict.account (v : Verdict) : Verdict := { v with breach := v.breach.map Breach.account }

namespace Verdict

variable {v w : Verdict}

theorem code?_account (v : Verdict) : v.account.code? = v.code? := by
  obtain ⟨breach, checked⟩ := v
  cases breach <;> simp [account, code?, Breach.code]

theorem isAccepted_account (v : Verdict) : v.account.isAccepted = v.isAccepted := by
  obtain ⟨breach, checked⟩ := v
  cases breach <;> rfl

theorem eventsChecked_account (v : Verdict) : v.account.eventsChecked = v.eventsChecked := rfl

/-- Verdicts with one account report the same breach, unless it is an unknown member. -/
theorem breach_of_account (same : v.account = w.account) (known : v.code? ≠ some 47) :
    v.breach = w.breach := by
  obtain ⟨breach, checked⟩ := v
  obtain ⟨other, checked'⟩ := w
  cases breach with
  | none =>
    cases other with
    | none => rfl
    | some _ => cases same
  | some breach =>
    cases other with
    | none => cases same
    | some other =>
      have accounts : breach.account = other.account := by
        simpa [account] using congrArg Verdict.breach same
      have rule : breach.rule ≠ .unknownDeclaredAggregate := by
        intro unknown
        exact known (by rw [code?, Option.map_some, Breach.code, unknown]; rfl)
      exact congrArg some (Breach.eq_of_account accounts rule)

end Verdict

/-- Outcomes counted up to the first that does not accept, which is counted as well. -/
def tally (checked : Nat) : List (Except Failure Unit) → Except Fault Verdict
  | [] => .ok ⟨none, checked⟩
  | .ok () :: rest => tally (checked + 1) rest
  | .error (.breach breach) :: _ => .ok ⟨some breach, checked + 1⟩
  | .error (.fault fault) :: _ => .error fault

/-- The account of an event by a review that has judged nothing. -/
def accountOf (settings : Settings) (before after : Snapshot) (e : Event) : Except Failure Unit :=
  ((review settings before after).judge e).1.account

/-- The account of what happened to a property, if anything did. -/
def propertyAccount? (settings : Settings) (before after : Snapshot) (name : String) :
    Option (Except Failure Unit) :=
  (Node.propertyEvent? (stateOf (before.node? settings.privilegesPath))
    (stateOf (after.node? settings.privilegesPath)) name).map (accountOf settings before after)

/-- The account of what happened to a child, if anything did. -/
def childAccount? (settings : Settings) (before after : Snapshot) (name : String) :
    Option (Except Failure Unit) :=
  (Node.childEvent? (stateOf (before.node? settings.privilegesPath))
    (stateOf (after.node? settings.privilegesPath)) name).map (accountOf settings before after)

/-- The names of properties on either side of a commit, in order. -/
abbrev propertyNames (settings : Settings) (before after : Snapshot) : List String :=
  Node.allNames (stateOf (before.node? settings.privilegesPath)).propertyNames
    (stateOf (after.node? settings.privilegesPath)).propertyNames

/-- The names of children on either side of a commit, in order. -/
abbrev childNames (settings : Settings) (before after : Snapshot) : List String :=
  Node.allNames (stateOf (before.node? settings.privilegesPath)).childNames
    (stateOf (after.node? settings.privilegesPath)).childNames

/-- The accounts of the changes of a commit. -/
def accounts (settings : Settings) (before after : Snapshot) : List (Except Failure Unit) :=
  (propertyNames settings before after).filterMap (propertyAccount? settings before after) ++
    (childNames settings before after).filterMap (childAccount? settings before after)

theorem map_accountOf_changes :
    (changes settings before after).map (accountOf settings before after) =
      accounts settings before after := by
  rw [changes, Node.changes, List.map_append, List.map_filterMap, List.map_filterMap]
  rfl

theorem account_verdictFrom {kept : Option Aggregation.Admission}
    (settled : (reviewing settings before after kept).Settled) (checked : Nat)
    (events : List Event) :
    ((reviewing settings before after kept).verdictFrom checked events).result.map
        Verdict.account = tally checked (events.map (accountOf settings before after)) := by
  induction events generalizing kept checked with
  | nil => rfl
  | cons e rest ih =>
    have agree : ((reviewing settings before after kept).judge e).1.account =
        accountOf settings before after e := Review.judge_account settled e
    rw [Review.verdictFrom, List.map_cons, ← agree]
    cases judged : ((reviewing settings before after kept).judge e).1.outcome with
    | ok accepted =>
      have settled' := Review.settled_judge settled (.inl judged)
      obtain ⟨kept', frame⟩ := Review.frame_judge (reviewing settings before after kept) e
      rw [frame] at settled'
      rw [Ruling.account_of_ok judged, tally]
      simp only [judged, frame]
      exact ih settled' (checked + 1)
    | error failure =>
      rw [Ruling.account_of_error judged]
      cases failure <;> simp only [judged] <;> rfl

/-- The account of a verdict is the tally of the accounts of the changes. -/
theorem account_verdict (numbers : (before.privileges settings).WithoutNan) :
    (verdict before after settings).result.map Verdict.account =
      tally 0 (accounts settings before after) := by
  rw [← map_accountOf_changes, verdict]
  split
  next unchanged =>
    rw [changes_of_isUnchanged unchanged numbers]
    rfl
  next =>
    exact account_verdictFrom (Review.settled_anew (review settings before after)) 0 _

/-- A tally comes to the first outcome that does not accept. -/
theorem gist_tally (checked : Nat) (outcomes : List (Except Failure Unit)) :
    Judgement.gist ⟨tally checked outcomes, []⟩ =
      outcomes.forM fun outcome => outcome.mapError Failure.cause := by
  induction outcomes generalizing checked with
  | nil => rfl
  | cons outcome rest ih =>
    match outcome with
    | .ok () => exact ih (checked + 1)
    | .error (.breach breach) => rfl
    | .error (.fault fault) => rfl

/-- The account of a judgement's verdict says what the judgement comes to. -/
theorem gist_eq_account (j : Judgement) :
    j.gist = Judgement.gist ⟨j.result.map Verdict.account, []⟩ := by
  obtain ⟨result, notices⟩ := j
  cases result with
  | error fault => rfl
  | ok v =>
    obtain ⟨breach, checked⟩ := v
    cases breach <;> simp [Judgement.gist, Except.map, Verdict.account]

/-- A commit comes to the first account of a change that does not accept. -/
theorem gist_verdict (numbers : (before.privileges settings).WithoutNan) :
    (verdict before after settings).gist =
      (accounts settings before after).forM fun account => account.mapError Failure.cause := by
  rw [gist_eq_account, account_verdict numbers, gist_tally]

end PrivilegeStore.Commit
