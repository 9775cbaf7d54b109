import PrivilegeStore.Aggregation.Graph
import PrivilegeStore.Violation

/-!
# Leaf closures

The leaf closure of a name is the set of atomic names that it decomposes into: the name itself if it
is atomic, and otherwise all atomic names reached from it. A name that reaches an unregistered
one has no closure.

A resolver keeps the closures it has found. A walk does not go beyond a name whose closure is known;
a question that fails leaves what was found before it.
-/
namespace PrivilegeStore.Aggregation

structure Resolver where
  registry : Registry
  closures : Entries (List String) := []
deriving Repr

/-- The names of both lists, each once if it is once in either. -/
def joinNames (names others : List String) : List String :=
  names ++ others.filter fun name => !names.contains name

/-- Both lists hold the same names. -/
def sameNames (a b : List String) : Bool := a.all b.contains && b.all a.contains

namespace Resolver

/-- The kept closure of a name. -/
def kept? (r : Resolver) : Scalar → Option (List String)
  | .text name => Entries.find? name r.closures
  | _ => none

/-- The names to follow behind one: none if its closure is kept. -/
def following (r : Resolver) (name : Scalar) : NameSet :=
  if (r.kept? name).isSome then [] else r.registry.membersOf name

def isUnknown (r : Resolver) (name : Scalar) : Bool :=
  (r.kept? name).isNone && (r.registry.find? name).isNone

/-- What a name that was met adds to a closure. -/
def contribution (r : Resolver) (name : Scalar) : List String :=
  match r.kept? name, r.registry.find? name, name with
  | some leaves, _, _ => leaves
  | none, some definition, .text leaf => if definition.isAggregate then [] else [leaf]
  | _, _, _ => []

def met (r : Resolver) (name : Scalar) : NameSet :=
  walk r.following (r.registry.memberCount + 1) [name] [name]

/-- Keeps the closure of a name. -/
def keep (r : Resolver) (name : Scalar) (leaves : List String) : Resolver :=
  match name with
  | .text name => { r with closures := Entries.insert name leaves r.closures }
  | _ => r

def closureOf (r : Resolver) (name : Scalar) : Except Breach (List String) × Resolver :=
  match r.kept? name with
  | some leaves => (.ok leaves, r)
  | none =>
    let met := r.met name
    match met.find? r.isUnknown with
    | some unknown => (.error (.unknownDeclaredAggregate unknown), r)
    | none =>
      let leaves := (met.map r.contribution).foldl joinNames []
      (.ok leaves, r.keep name leaves)

/-- The leaf closures of names joined to leaves found so far. -/
def resolveFrom (r : Resolver) (leaves : List String) :
    List Scalar → Except Breach (List String) × Resolver
  | [] => (.ok leaves, r)
  | name :: rest =>
    match r.closureOf name with
    | (.error breach, r) => (.error breach, r)
    | (.ok found, r) => r.resolveFrom (joinNames leaves found) rest

/-- The atomic names that names decompose into. -/
def resolve (r : Resolver) (names : List Scalar) : Except Breach (List String) × Resolver :=
  r.resolveFrom [] names

end Resolver

/-- The leaf closure of names, by a resolver that has kept nothing yet. -/
def resolve (registry : Registry) (names : List Scalar) : Except Breach (List String) :=
  (Resolver.resolve ⟨registry, []⟩ names).1

end PrivilegeStore.Aggregation
