import PrivilegeStore.Definition.Registry

/-!
# The aggregation graph

The graph has an edge from every aggregate to each of its declared members. Names without a
definition, and atomic ones, have no edges out. A walk keeps the names it has met and those
still to be followed; each name is followed once, so the walk ends on any graph, cyclic and dangling
ones included.

`Reaches` says what a walk computes, without walking.
-/
namespace PrivilegeStore.Aggregation

/-- `target` is the source itself or is reached from it along declared members. -/
inductive Reaches (next : Scalar → NameSet) (source : Scalar) : Scalar → Prop
  | here {target : Scalar} (same : source.same target) : Reaches next source target
  | member {middle target : Scalar} (reached : Reaches next source middle)
      (declared : NameSet.contains (next middle) target) : Reaches next source target

/-- Adds names to the met and the pending ones, those met before excepted. -/
def discover (met pending : NameSet) : NameSet → NameSet × NameSet
  | [] => (met, pending)
  | name :: rest =>
    if NameSet.contains met name then discover met pending rest
    else discover (name :: met) (name :: pending) rest

/-- Follows the pending names, one a step, and answers the names met. -/
def walk (next : Scalar → NameSet) : Nat → NameSet → NameSet → NameSet
  | 0, met, _ => met
  | _ + 1, met, [] => met
  | steps + 1, met, name :: pending =>
    let (met, pending) := discover met pending (next name)
    walk next steps met pending

/-- The names equal to or reached from one. A step is spent on each declared member at most. -/
def reachable (registry : Registry) (name : Scalar) : NameSet :=
  walk registry.membersOf (registry.memberCount + 1) [name] [name]

/-- Whether declaring `member` as a member of `name` closes a cycle: the two are the same, or `name`
is reached from `member`. -/
def isCircular (registry : Registry) (name member : Scalar) : Bool :=
  NameSet.contains (reachable registry member) name

end PrivilegeStore.Aggregation
