import PrivilegeStore.Proofs.Aggregation.Closure

/-!
# Walks end

`Finishes` is a walk without a bound on its steps: it goes on until no name is pending. The bounded
walks of the cycle detector and of the resolver are such walks, because they may spend a step
on every name they can meet. So the bound shows nowhere in their answers, on any graph.
-/
namespace PrivilegeStore

namespace Aggregation

/-- Following the pending names until none is left ends with the names of `result` met. -/
inductive Finishes (next : Scalar → NameSet) : NameSet → NameSet → NameSet → Prop
  | done (met : NameSet) : Finishes next met [] met
  | step {met pending result : NameSet} {name : Scalar}
      (rest : Finishes next (discover met pending (next name)).1
        (discover met pending (next name)).2 result) :
      Finishes next met (name :: pending) result

variable {next : Scalar → NameSet} {source : Scalar} {domain met pending : NameSet}

/-- A walk ends in one way only. -/
theorem Finishes.unique {result other : NameSet} (first : Finishes next met pending result)
    (second : Finishes next met pending other) : result = other := by
  induction first with
  | done => cases second; rfl
  | step _ ih =>
    cases second with
    | step rest => exact ih rest

/-- With steps for all names that are left, a bounded walk is a walk to the end. -/
theorem Walking.finishes (closed : ∀ x y, y ∈ next x → y.key ∈ domain.map Scalar.key) (steps : Nat)
    (w : Walking next source domain met pending)
    (enough : domain.length + pending.length ≤ steps + met.length) :
    Finishes next met pending (walk next steps met pending) := by
  induction steps generalizing met pending with
  | zero =>
    have bound := w.length_le
    have none : pending = [] := List.eq_nil_of_length_eq_zero (by omega)
    rw [walk, none]
    exact .done met
  | succ steps ih =>
    cases pending with
    | nil => exact .done met
    | cons name pending =>
      obtain ⟨fresh, eq, w⟩ := w.step closed
      rw [walk, eq]
      apply Finishes.step
      rw [eq]
      apply ih w
      simp only [List.length_append, List.length_cons] at *
      omega

theorem finishes_walk (closed : ∀ x y, y ∈ next x → y.key ∈ domain.map Scalar.key) :
    Finishes next [source] [source] (walk next (domain.length + 1) [source] [source]) := by
  have widened : ∀ x y, y ∈ next x → y.key ∈ (source :: domain).map Scalar.key :=
    fun x y behind => List.mem_cons_of_mem _ (closed x y behind)
  have w : Walking next source (source :: domain) [source] [source] :=
    .start List.mem_cons_self
  exact w.finishes widened (domain.length + 1) (by simp)

/-- The walk of the cycle detector comes to its end. -/
theorem finishes_reachable (registry : Registry) (name : Scalar) :
    Finishes registry.membersOf [name] [name] (reachable registry name) := by
  have closed : ∀ x y, y ∈ registry.membersOf x → y.key ∈ registry.members.map Scalar.key :=
    fun x y behind => List.mem_map_of_mem (Registry.mem_members behind)
  have ended : Finishes registry.membersOf [name] [name]
      (walk registry.membersOf (registry.members.length + 1) [name] [name]) := finishes_walk closed
  rwa [Registry.length_members] at ended

/-- The walk of a resolver comes to its end. -/
theorem Resolver.finishes_met (r : Resolver) (name : Scalar) :
    Finishes r.following [name] [name] (r.met name) := by
  have closed : ∀ x y, y ∈ r.following x → y.key ∈ r.registry.members.map Scalar.key :=
    fun x y behind => List.mem_map_of_mem (Registry.mem_members (mem_following behind))
  have ended : Finishes r.following [name] [name]
      (walk r.following (r.registry.members.length + 1) [name] [name]) := finishes_walk closed
  rwa [Registry.length_members] at ended

end Aggregation

end PrivilegeStore
