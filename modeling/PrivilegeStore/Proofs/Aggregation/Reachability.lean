import PrivilegeStore.Aggregation.Graph
import PrivilegeStore.Proofs.Value.Sameness

/-!
# The walk finds exactly what is reached

`walk` spends one step on each name it follows. It answers every name reached from its source as
soon as it may spend as many steps as there are names it can meet, whatever the graph looks like.
`contains_walk` states this for any way of following names, and `isCircular_iff` for a registry.
-/
namespace PrivilegeStore

namespace NameSet

/-- No two of the names are the same. -/
def Distinct (names : NameSet) : Prop := (names.map Scalar.key).Nodup

variable {names : NameSet} {a b : Scalar}

theorem contains_iff : contains names a = true ↔ ∃ n ∈ names, n.same a = true := by
  simp [contains]

theorem contains_of_mem (h : a ∈ names) : contains names a = true :=
  contains_iff.2 ⟨a, h, Scalar.same_refl a⟩

theorem contains_congr (same : a.same b = true) (h : contains names a = true) :
    contains names b = true := by
  obtain ⟨n, member, equal⟩ := contains_iff.1 h
  exact contains_iff.2 ⟨n, member, Scalar.same_trans equal same⟩

theorem contains_mono {others : NameSet} (sub : ∀ n ∈ names, n ∈ others)
    (h : contains names a = true) : contains others a = true := by
  obtain ⟨n, member, same⟩ := contains_iff.1 h
  exact contains_iff.2 ⟨n, sub n member, same⟩

theorem contains_text {s : String} : contains names (.text s) = true ↔ .text s ∈ names := by
  rw [contains_iff]
  constructor
  · rintro ⟨n, member, same⟩
    rwa [← Scalar.same_text.1 same]
  · intro member
    exact ⟨.text s, member, Scalar.same_refl _⟩

end NameSet

namespace Aggregation

variable {next : Scalar → NameSet} {source middle target : Scalar}

/-- The same names have the same names behind them. -/
def Respects (next : Scalar → NameSet) : Prop :=
  ∀ a b : Scalar, a.same b = true → next a = next b

namespace Reaches

theorem refl (source : Scalar) : Reaches next source source := .here (Scalar.same_refl source)

theorem congr (h : Reaches next source middle) (same : middle.same target = true) :
    Reaches next source target := by
  cases h with
  | here equal => exact .here (Scalar.same_trans equal same)
  | member reached declared => exact .member reached (NameSet.contains_congr same declared)

theorem trans (first : Reaches next source middle) (second : Reaches next middle target) :
    Reaches next source target := by
  induction second with
  | here same => exact first.congr same
  | member _ declared ih => exact .member ih declared

/-- What a declared member reaches is reached. -/
theorem head (declared : NameSet.contains (next source) middle = true)
    (rest : Reaches next middle target) : Reaches next source target :=
  trans (.member (refl source) declared) rest

theorem mono {wider : Scalar → NameSet}
    (sub : ∀ a b, NameSet.contains (next a) b = true → NameSet.contains (wider a) b = true)
    (h : Reaches next source target) : Reaches wider source target := by
  induction h with
  | here same => exact .here same
  | member _ declared ih => exact .member ih (sub _ _ declared)

/-- Something else than the source is reached through one of its members. -/
theorem cases_head (respects : Respects next) (h : Reaches next source target) :
    source.same target = true ∨
      ∃ middle ∈ next source, Reaches next middle target := by
  induction h with
  | here same => exact .inl same
  | @member between target _ declared ih =>
    right
    rcases ih with same | ⟨first, member, reached⟩
    · rw [← respects source between same] at declared
      obtain ⟨first, member, equal⟩ := NameSet.contains_iff.1 declared
      exact ⟨first, member, .here equal⟩
    · exact ⟨first, member, .member reached declared⟩

end Reaches

/-- The names met anew come in front of those met before, and of those still to be followed. -/
theorem discover_eq (met pending names : NameSet) :
    ∃ fresh : NameSet, discover met pending names = (fresh ++ met, fresh ++ pending) ∧
      (∀ x ∈ fresh, x ∈ names) ∧ (∀ x ∈ names, NameSet.contains (fresh ++ met) x = true) ∧
      (NameSet.Distinct met → NameSet.Distinct (fresh ++ met)) := by
  induction names generalizing met pending with
  | nil => exact ⟨[], rfl, by simp, by simp, id⟩
  | cons name rest ih =>
    by_cases known : NameSet.contains met name = true
    · obtain ⟨fresh, eq, sub, all, distinct⟩ := ih met pending
      refine ⟨fresh, by simp [discover, known, eq], ?_, ?_, distinct⟩
      · intro x member
        exact List.mem_cons_of_mem _ (sub x member)
      · intro x member
        rcases List.mem_cons.1 member with rfl | member
        · exact NameSet.contains_mono (fun n => List.mem_append_right fresh) known
        · exact all x member
    · obtain ⟨fresh, eq, sub, all, distinct⟩ := ih (name :: met) (name :: pending)
      have split (names : NameSet) : fresh ++ name :: names = (fresh ++ [name]) ++ names := by simp
      refine ⟨fresh ++ [name], by simp [discover, known, eq], ?_, ?_, ?_⟩
      · intro x member
        rcases List.mem_append.1 member with member | member
        · exact List.mem_cons_of_mem _ (sub x member)
        · exact List.mem_cons.2 (.inl (List.mem_singleton.1 member))
      · rw [← split]
        intro x member
        rcases List.mem_cons.1 member with rfl | member
        · exact NameSet.contains_of_mem (by simp)
        · exact all x member
      · intro before
        rw [← split]
        apply distinct
        refine List.nodup_cons.2 ⟨?_, before⟩
        intro member
        obtain ⟨n, there, same⟩ := List.mem_map.1 member
        exact known (NameSet.contains_iff.2 ⟨n, there, Scalar.same_iff.2 same⟩)

/-- What holds at every step of a walk from a source among the names of a domain. -/
structure Walking (next : Scalar → NameSet) (source : Scalar) (domain met pending : NameSet) :
    Prop where
  started : NameSet.contains met source = true
  reached : ∀ x ∈ met, Reaches next source x
  distinct : NameSet.Distinct met
  inside : ∀ x ∈ met, x.key ∈ domain.map Scalar.key
  waiting : ∀ x ∈ pending, x ∈ met
  followed : ∀ x ∈ met, x ∈ pending ∨ ∀ y ∈ next x, NameSet.contains met y = true

namespace Walking

variable {domain met pending : NameSet} {name : Scalar}

theorem start (member : source.key ∈ domain.map Scalar.key) :
    Walking next source domain [source] [source] where
  started := NameSet.contains_of_mem List.mem_cons_self
  reached := by
    intro x member
    rw [List.mem_singleton.1 member]
    exact .refl source
  distinct := List.pairwise_singleton _ _
  inside := by
    intro x here
    rwa [List.mem_singleton.1 here]
  waiting := fun _ => id
  followed := fun _ => .inl

/-- The names met are at most those of the domain. -/
theorem length_le (w : Walking next source domain met pending) : met.length ≤ domain.length := by
  have sub : met.map Scalar.key ⊆ domain.map Scalar.key := by
    intro key member
    obtain ⟨x, there, rfl⟩ := List.mem_map.1 member
    exact w.inside x there
  simpa using List.Nodup.length_le_of_subset w.distinct sub

/-- Following the first pending name. -/
theorem step (closed : ∀ x y, y ∈ next x → y.key ∈ domain.map Scalar.key)
    (w : Walking next source domain met (name :: pending)) :
    ∃ fresh : NameSet, discover met pending (next name) = (fresh ++ met, fresh ++ pending) ∧
      Walking next source domain (fresh ++ met) (fresh ++ pending) := by
  obtain ⟨fresh, eq, sub, all, distinct⟩ := discover_eq met pending (next name)
  have grown : ∀ x, NameSet.contains met x = true → NameSet.contains (fresh ++ met) x = true :=
    fun x => NameSet.contains_mono fun n => List.mem_append_right fresh
  refine ⟨fresh, eq, ?_⟩
  constructor
  · exact grown _ w.started
  · intro x member
    rcases List.mem_append.1 member with new | old
    · have follow := w.reached name (w.waiting name List.mem_cons_self)
      exact .member follow (NameSet.contains_of_mem (sub x new))
    · exact w.reached x old
  · exact distinct w.distinct
  · intro x member
    rcases List.mem_append.1 member with new | old
    · exact closed name x (sub x new)
    · exact w.inside x old
  · intro x member
    rcases List.mem_append.1 member with new | old
    · exact List.mem_append_left _ new
    · exact List.mem_append_right _ (w.waiting x (List.mem_cons_of_mem _ old))
  · intro x member
    rcases List.mem_append.1 member with new | old
    · exact .inl (List.mem_append_left _ new)
    · rcases w.followed x old with later | done
      · rcases List.mem_cons.1 later with rfl | later
        · exact .inr all
        · exact .inl (List.mem_append_right _ later)
      · exact .inr fun y behind => grown y (done y behind)

/-- With steps for all names that are left, the walk ends when nothing is pending. -/
theorem finish (closed : ∀ x y, y ∈ next x → y.key ∈ domain.map Scalar.key) (steps : Nat)
    (w : Walking next source domain met pending)
    (enough : domain.length + pending.length ≤ steps + met.length) :
    Walking next source domain (walk next steps met pending) [] := by
  induction steps generalizing met pending with
  | zero =>
    have bound := w.length_le
    have none : pending = [] := List.eq_nil_of_length_eq_zero (by omega)
    rw [walk, ← none]
    exact w
  | succ steps ih =>
    cases pending with
    | nil => exact w
    | cons name pending =>
      obtain ⟨fresh, eq, w⟩ := w.step closed
      rw [walk, eq]
      apply ih w
      simp only [List.length_append, List.length_cons] at *
      omega

/-- Once nothing is pending, the names met are exactly those reached. -/
theorem contains_iff (respects : Respects next) (w : Walking next source domain met []) :
    NameSet.contains met target = true ↔ Reaches next source target := by
  constructor
  · intro found
    obtain ⟨x, member, same⟩ := NameSet.contains_iff.1 found
    exact (w.reached x member).congr same
  · intro reached
    induction reached with
    | here same => exact NameSet.contains_congr same w.started
    | member _ declared ih =>
      obtain ⟨x, member, same⟩ := NameSet.contains_iff.1 ih
      rw [← respects _ _ same] at declared
      obtain ⟨y, behind, equal⟩ := NameSet.contains_iff.1 declared
      have all := (w.followed x member).resolve_left List.not_mem_nil
      exact NameSet.contains_congr equal (all y behind)

end Walking

theorem contains_walk (respects : Respects next) {domain : NameSet}
    (closed : ∀ x y, y ∈ next x → y.key ∈ domain.map Scalar.key) :
    NameSet.contains (walk next (domain.length + 1) [source] [source]) target = true ↔
      Reaches next source target := by
  have widened : ∀ x y, y ∈ next x → y.key ∈ (source :: domain).map Scalar.key :=
    fun x y behind => List.mem_cons_of_mem _ (closed x y behind)
  have w : Walking next source (source :: domain) [source] [source] :=
    .start List.mem_cons_self
  exact (w.finish widened (domain.length + 1) (by simp)).contains_iff respects

end Aggregation

namespace Registry

variable {registry : Registry} {name a b : Scalar}

/-- All declared members. -/
def members (registry : Registry) : NameSet := registry.flatMap fun (_, d) => d.members

theorem length_members (registry : Registry) : registry.members.length = registry.memberCount := by
  induction registry with
  | nil => rfl
  | cons entry rest ih =>
    rw [members, List.flatMap_cons, List.length_append, memberCount, List.map_cons, List.foldr_cons]
    exact congrArg (entry.2.members.length + ·) ih

theorem find?_congr (same : a.same b = true) : registry.find? a = registry.find? b := by
  have keys := Scalar.same_iff.1 same
  have texts := Scalar.text?_congr keys
  cases a <;> cases b <;> simp_all [find?, Scalar.text?]

theorem membersOf_congr (same : a.same b = true) : registry.membersOf a = registry.membersOf b := by
  rw [membersOf, membersOf, find?_congr same]

theorem respects_membersOf (registry : Registry) : Aggregation.Respects registry.membersOf :=
  fun _ _ => membersOf_congr

theorem membersOf_of_find? {d : Definition} (h : registry.find? name = some d) :
    registry.membersOf name = d.members := by
  simp [membersOf, h]

theorem mem_members (h : a ∈ registry.membersOf name) : a ∈ registry.members := by
  cases found : registry.find? name with
  | none => simp [membersOf, found] at h
  | some d =>
    rw [membersOf_of_find? found] at h
    cases name with
    | text s =>
      have entry := Entries.mem_of_find? (show Entries.find? s registry = some d from found)
      exact List.mem_flatMap.2 ⟨(s, d), entry, h⟩
    | _ => simp [find?] at found

end Registry

namespace Aggregation

variable {registry : Registry} {name member : Scalar}

theorem contains_reachable {target : Scalar} :
    NameSet.contains (reachable registry name) target = true ↔
      Reaches registry.membersOf name target := by
  have closed : ∀ x y, y ∈ registry.membersOf x → y.key ∈ registry.members.map Scalar.key :=
    fun x y behind => List.mem_map_of_mem (Registry.mem_members behind)
  have walked : NameSet.contains
      (walk registry.membersOf (registry.members.length + 1) [name] [name]) target = true ↔
      Reaches registry.membersOf name target := contains_walk registry.respects_membersOf closed
  rwa [Registry.length_members] at walked

/-- The cycle detector decides whether a name is reached from a member. -/
theorem isCircular_iff : isCircular registry name member = true ↔
    Reaches registry.membersOf member name :=
  contains_reachable

end Aggregation

end PrivilegeStore
