import PrivilegeStore.Aggregation.Admission
import PrivilegeStore.Event
import PrivilegeStore.Settings

/-!
# Review of the changes of a commit

A review holds the snapshots on both sides of a commit and judges events on the privileges node one
by one, in any order. Definitions and properties of the store are never changed or removed; only
the counter may change, to the bit above its former value. A new definition must not lie in a
reserved namespace, the store must have existed before, and the definition is put to the
admission, which is opened for the first such definition and then kept.
-/
namespace PrivilegeStore.Commit

open Aggregation (Admission)

structure Review where
  before : Snapshot
  after : Snapshot
  settings : Settings := {}
  admission : Option Admission := none
deriving Repr

namespace Review

/-- The privileges node of a snapshot. -/
def store (settings : Settings) (s : Snapshot) : Except Breach View :=
  let view := s.view settings.privilegesPath
  if view.isPresent then .ok view else .error .storeNotInitialized

/-- Rules on a change of a property with a given name. -/
def judgeProperty (r : Review) (name : String) : Ruling :=
  if name ≠ Schema.next then .refuse .propertyModified
  else
    match store r.settings r.before with
    | .error breach => .refuse breach
    | .ok storeBefore =>
      match storeBefore.nextBits with
      | .error fault => .fail fault
      | .ok bits =>
        match store r.settings r.after with
        | .error breach => .refuse breach
        | .ok storeAfter => Counter.check bits storeAfter

/-- The admission that the review keeps, or a new one, with what its opening reports. -/
def openAdmission (r : Review) (storeBefore : View) : Except Failure Admission × List Notice :=
  match r.admission with
  | some admission => (.ok admission, [])
  | none =>
    match storeBefore.registry with
    | .error fault => (.error (.fault fault), [])
    | .ok registry =>
      -- an absent node is not read, so nothing is reported of it
      let notices := if storeBefore.isPresent then [Notice.definitionsRead registry.length] else []
      match store r.settings r.after with
      | .error breach => (.error (.breach breach), notices)
      | .ok storeAfter => (.ok (Admission.start registry storeBefore storeAfter), notices)

/-- Puts a definition to the admission. -/
def judgeDefinition (r : Review) (tree : View) (admission : Admission) : Ruling × Review :=
  let kept := { r with admission := some admission }
  match tree.definition with
  | .error fault => (.fail fault, kept)
  | .ok definition =>
    match tree.bits with
    | .error fault => (.fail fault, kept)
    | .ok bits =>
      let (ruling, admission) := admission.judge definition bits
      (ruling, { r with admission := some admission })

def judgeAdded (r : Review) (name : String) (child : Node) : Ruling × Review :=
  if !child.isDefinition then (.accept, r)
  else if Namespace.isReserved r.settings.reservedPrefixes name then
    ((Ruling.refuse (.reservedNamespace name)).after [.namespaceReserved name], r)
  else
    match store r.settings r.before with
    | .error breach => (.refuse breach, r)
    | .ok storeBefore =>
      match r.openAdmission storeBefore with
      | (.error failure, notices) => (⟨.error failure, notices⟩, r)
      | (.ok admission, notices) =>
        let (ruling, r) := r.judgeDefinition (storeBefore.below name (some child)) admission
        ((ruling.onAccept (.privilegePassed name)).after notices, r)

/-- Rules on a child that was there before; `unchanged` says whether it still is as it was. -/
def judgeChanged (name : String) (old : Node) (unchanged : Bool) : Ruling :=
  if old.isDefinition && !unchanged then .refuse (.definitionModified name) else .accept

def judgeDeleted (name : String) (old : Node) : Ruling :=
  if old.isDefinition then .refuse (.definitionDeleted name) else .accept

/-- Whether a side holds a node that is the same as this one. -/
def holdsSame (side : Side) (node : Node) : Bool :=
  match side with
  | .node other => node.same other
  | _ => false

def judge (r : Review) (e : Event) : Ruling × Review :=
  match e.kind with
  | .propertyAdded => (.accept, r)
  | .propertyChanged =>
    match e.before with
    | .property old => (r.judgeProperty old.name, r)
    | _ => (.fail .missingSide, r)
  | .propertyDeleted => (.refuse .propertyDeleted, r)
  | .childAdded =>
    match e.after with
    | .absent => (.accept, r)
    | .property _ => (.fail .missingSide, r)
    | .node child => r.judgeAdded e.name child
  | .childChanged =>
    match e.before with
    | .absent => (.accept, r)
    | .property _ => (.fail .missingSide, r)
    | .node old => (judgeChanged e.name old (holdsSame e.after old), r)
  | .childDeleted =>
    match e.before with
    | .absent => (.accept, r)
    | .property _ => (.fail .missingSide, r)
    | .node old => (judgeDeleted e.name old, r)
  | .unknown label => (.fail (.unknownEvent label), r)

/-- Judges events one after another, also behind one that is not accepted. -/
def judgeAll (r : Review) : List Event → List Ruling × Review
  | [] => ([], r)
  | e :: rest =>
    let (ruling, r) := r.judge e
    let (rulings, r) := r.judgeAll rest
    (ruling :: rulings, r)

end Review

end PrivilegeStore.Commit
