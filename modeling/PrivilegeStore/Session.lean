import PrivilegeStore.Aggregation.Resolver
import PrivilegeStore.Commit.Verdict
import PrivilegeStore.Registration

/-!
# Sessions

A session has a committed snapshot and a working one. Changes are made to the working one. A commit
judges it against the committed one: an accepted working snapshot becomes the committed one, and
a rejected one is given up. A commit that cannot be judged changes nothing.
-/
namespace PrivilegeStore

structure Session where
  committed : Snapshot
  working : Snapshot
  settings : Settings := {}
deriving Repr

namespace Session

def start (s : Snapshot) (settings : Settings := {}) : Session := ⟨s, s, settings⟩

/-- The privileges node of the working snapshot. -/
def store (s : Session) : View := s.working.view s.settings.privilegesPath

/-- Puts an empty store into the working snapshot, or into an empty one. -/
def reset (s : Session) (next : Bits) (keep : Bool) : Session :=
  { s with working := (if keep then s.working else {}).putStore next s.settings }

def register (s : Session) (name : String) (members : Value) (isAbstract : Bool) :
    Except Fault Session × List Notice :=
  match Registration.registerElements s.working name members isAbstract s.settings with
  | .error fault => (.error fault, [])
  | .ok (working, bits) => (.ok { s with working }, [.registrationPrepared name bits])

/-- Changes the node at a path of the working snapshot. -/
def edit (s : Session) (path : String) (change : Node → Node) : Session :=
  { s with working := s.working.update path change }

def check (s : Session) : Commit.Judgement := Commit.verdict s.committed s.working s.settings

def commit (s : Session) : Commit.Judgement × Session :=
  let judgement := s.check
  match judgement.result with
  | .error _ => (judgement, s)
  | .ok verdict =>
    if verdict.isAccepted then (judgement, { s with committed := s.working })
    else (judgement, { s with working := s.committed })

def rollback (s : Session) : Session := { s with working := s.committed }

/-- The leaf closure of names among the definitions of the working snapshot. -/
def closure (s : Session) (names : List Scalar) : Except Failure (List String) × List Notice :=
  match s.store.registry with
  | .error fault => (.error (.fault fault), [])
  | .ok registry =>
    let notices := if s.store.isPresent then [Notice.definitionsRead registry.length] else []
    match Aggregation.resolve registry names with
    | .error breach => (.error (.breach breach), notices)
    | .ok leaves => (.ok leaves, notices)

/-- The union of the bits of names in the working snapshot. -/
def bitsOf (s : Session) (names : List Scalar) : Except Fault Bits :=
  ((BitsIndex.mk s.store false).bitsOf names).1

end Session

end PrivilegeStore
