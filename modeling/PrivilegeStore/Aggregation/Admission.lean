import PrivilegeStore.Aggregation.Resolver
import PrivilegeStore.Counter
import PrivilegeStore.Definition.BitsTable

/-!
# Admission of new definitions

A new definition is judged against the definitions registered before. It must carry bits. An atomic
one must not reuse the bits of a registered privilege and must have advanced the counter. An
aggregate needs at least two members, each registered and none closing a cycle; its bits are
the union of its members' bits; and no registered aggregate declares the same members or
decomposes into the same atomic names.

The rules are tried in that order and the first one broken is named. What has been read and resolved
is kept for the next definition.
-/
namespace PrivilegeStore.Aggregation

structure Admission where
  registry : Registry
  index : BitsIndex
  storeAfter : View
  resolver : Resolver
deriving Repr

/-- The first member that closes a cycle or is not registered. -/
def memberBreach? (registry : Registry) (name : String) : List Scalar → Option Breach
  | [] => none
  | member :: rest =>
    if isCircular registry (.text name) member then some (.circularAggregation member)
    else if (registry.find? member).isNone then some (.unregisteredAggregate member)
    else memberBreach? registry name rest

/-- Looks for an aggregate with the same members or the same leaves among registered definitions. -/
def checkEquivalents (r : Resolver) (name : String) (members : NameSet) (leaves : List String) :
    List Definition → Except Breach Unit × Resolver
  | [] => (.ok (), r)
  | existing :: rest =>
    if !existing.isAggregate then checkEquivalents r name members leaves rest
    else if NameSet.sameAs members existing.members then
      (.error (.duplicateAggregation name existing.name), r)
    else
      match r.resolve existing.members with
      | (.error breach, r) => (.error breach, r)
      | (.ok others, r) =>
        if sameNames leaves others then (.error (.duplicateAggregation name existing.name), r)
        else checkEquivalents r name members leaves rest

namespace Admission

/-- An admission that nothing has been asked of yet. -/
def start (registry : Registry) (storeBefore storeAfter : View) : Admission where
  registry := registry
  index := ⟨storeBefore, false⟩
  storeAfter := storeAfter
  resolver := ⟨registry, []⟩

/-- The registered definitions by their names. -/
def existing (a : Admission) : List Definition :=
  sortBy (fun d e => nameLe d.name e.name) (a.registry.map Prod.snd)

def judgeAtomic (a : Admission) (name : String) (owners : List String) (bits : Bits) : Ruling :=
  if owners.isEmpty then (Counter.check bits a.storeAfter).onAccept (.atomicAccepted name bits)
  else (Ruling.refuse .bitsInUse).after [.bitsReused name (sortNames owners)]

def judgeAggregate (a : Admission) (name : String) (members : NameSet) (bits : Bits) :
    Ruling × Admission :=
  match NameSet.sorted members with
  | .error fault => (.fail fault, a)
  | .ok sorted =>
    match memberBreach? a.registry name sorted with
    | some breach => (.refuse breach, a)
    | none =>
      match a.resolver.resolve members with
      | (.error breach, resolver) => (.refuse breach, { a with resolver })
      | (.ok leaves, resolver) =>
        match a.index.bitsOf members with
        | (.error fault, index) => (.fail fault, { a with resolver, index })
        | (.ok union, index) =>
          if bits = union then
            match checkEquivalents resolver name members leaves a.existing with
            | (.error breach, resolver) => (.refuse breach, { a with resolver, index })
            | (.ok (), resolver) =>
              (Ruling.accept.onAccept (.aggregateAccepted name), { a with resolver, index })
          else (.refuse .invalidAggregateBits, { a with resolver, index })

def judge (a : Admission) (definition : Definition) (bits : Bits) : Ruling × Admission :=
  if bits.isEmpty then (.refuse .bitsMissing, a)
  else
    match a.index.namesOf bits with
    | (.error fault, index) => (.fail fault, { a with index })
    | (.ok owners, index) =>
      let a := { a with index }
      match definition.members with
      | [] => (a.judgeAtomic definition.name owners bits, a)
      | [_] => (.refuse .singularAggregation, a)
      | members => a.judgeAggregate definition.name members bits

/-- Judges definitions one after another. -/
def judgeAll (a : Admission) : List (Definition × Bits) → List Ruling × Admission
  | [] => ([], a)
  | (definition, bits) :: rest =>
    let (ruling, a) := a.judge definition bits
    let (rulings, a) := a.judgeAll rest
    (ruling :: rulings, a)

end Admission

end PrivilegeStore.Aggregation
