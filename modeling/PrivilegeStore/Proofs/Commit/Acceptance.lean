import PrivilegeStore.Proofs.Commit.Review
import PrivilegeStore.Proofs.Definition.Access
import PrivilegeStore.Proofs.Node.Changes
import PrivilegeStore.Registration

/-!
# What an accepted commit has been checked for

Each change of an accepted commit was accepted by a consistent review of it. From this the rules are
read off under each name: definitions stay as they are, properties stay but for the counter, and
definitions that are added were admitted.
-/
namespace PrivilegeStore.Commit

open Aggregation (Admission Admissible Closed)

/-- A commit is accepted. -/
def Accepts (settings : Settings) (before after : Snapshot) : Prop :=
  ((verdict before after settings).result.toOption.any Verdict.isAccepted) = true

instance (settings : Settings) (before after : Snapshot) :
    Decidable (Accepts settings before after) :=
  inferInstanceAs (Decidable (_ = true))

theorem accepts_iff {settings : Settings} {before after : Snapshot} :
    Accepts settings before after ↔
      ∃ v, (verdict before after settings).result = .ok v ∧ v.isAccepted = true := by
  rw [Accepts]
  cases (verdict before after settings).result <;> simp [Except.toOption]

variable {settings : Settings} {before after : Snapshot} {name : String} {old child : Node}

theorem child?_stateOf (s : Snapshot) (name : String) :
    (stateOf (s.node? settings.privilegesPath)).child? name =
      ((s.privileges settings).child name).state := by
  cases found : s.node? settings.privilegesPath <;>
    simp [stateOf, Snapshot.view, View.child, View.below, found, Node.child?, Node.empty]

theorem property?_stateOf (s : Snapshot) (name : String) :
    (stateOf (s.node? settings.privilegesPath)).property? name =
      (s.privileges settings).property? name := by
  cases found : s.node? settings.privilegesPath <;>
    simp [stateOf, Snapshot.view, View.property?, found, Node.property?, Node.empty]

theorem present_of_child {s : Snapshot}
    (there : ((s.privileges settings).child name).state = some child) :
    (s.privileges settings).isPresent = true := by
  cases state : (s.privileges settings).state with
  | none => simp [View.child, View.below, state] at there
  | some node => simp [View.isPresent, state]

theorem present_of_property {s : Snapshot} {value : Value}
    (found : (s.privileges settings).property? name = some value) :
    (s.privileges settings).isPresent = true := by
  cases state : (s.privileges settings).state with
  | none => simp [View.property?, state] at found
  | some node => simp [View.isPresent, state]

/-- What is proposed below the store before is what stands in the store after. -/
theorem below_eq_child (there : ((after.privileges settings).child name).state = some child) :
    (before.privileges settings).below name (some child) =
      (after.privileges settings).child name :=
  View.below_eq_child_of_path rfl there

/-- The review of a commit that has judged nothing yet. -/
abbrev review (settings : Settings) (before after : Snapshot) : Review :=
  ⟨before, after, settings, none⟩

theorem consistent_review : (review settings before after).Consistent := by
  intro a kept
  simp at kept

/-- The changes that a verdict is reached by. -/
abbrev changes (settings : Settings) (before after : Snapshot) : List Event :=
  (stateOf (before.node? settings.privilegesPath)).changes
    (stateOf (after.node? settings.privilegesPath))

theorem same_of_isUnchanged {old new : Option Node} (h : isUnchanged old new = true) :
    (stateOf old).same (stateOf new) = true := by
  cases old <;> cases new <;> simp only [isUnchanged, Bool.false_eq_true] at h
  · exact Node.same_refl _
  · exact h

/-- In an accepted commit nothing has changed, or every change was accepted. -/
theorem Accepts.cases (accepted : Accepts settings before after) :
    (stateOf (before.node? settings.privilegesPath)).same
        (stateOf (after.node? settings.privilegesPath)) = true ∨
      ∀ e ∈ changes settings before after, (review settings before after).Gives e (.ok ()) := by
  obtain ⟨v, reached, plain⟩ := accepts_iff.1 accepted
  rw [verdict] at reached
  split at reached
  next unchanged => exact .inl (same_of_isUnchanged unchanged)
  next =>
    have spec := Review.verdictFrom_spec consistent_review reached
    have none : v.breach = none := by simpa [Verdict.isAccepted] using plain
    simp only [none] at spec
    exact .inr spec

/-- With all members registered before, no commit breaks the rule on unknown members. -/
theorem rule_of_verdict
    (closed : ∀ registry, (before.privileges settings).registry = .ok registry → Closed registry)
    {v : Verdict} (reached : (verdict before after settings).result = .ok v) {breach : Breach}
    (broken : v.breach = some breach) : breach.rule ≠ .unknownDeclaredAggregate := by
  rw [verdict] at reached
  split at reached
  · cases reached
    cases broken
  · have spec := Review.verdictFrom_spec consistent_review reached
    simp only [broken] at spec
    obtain ⟨e, -, kept, consistent, given⟩ := spec
    exact Review.rule_of_judge consistent closed given

/-- A definition that a commit adds was admitted. -/
theorem Accepts.admitted (accepted : Accepts settings before after)
    (fresh : ((before.privileges settings).child name).state = none)
    (there : ((after.privileges settings).child name).state = some child)
    (isDef : child.isDefinition = true) : Admitted settings before after name child := by
  rw [← child?_stateOf] at fresh there
  rcases accepted.cases with same | all
  · obtain ⟨other, found, -⟩ := Node.child?_of_same (Node.same_symm same) there
    rw [fresh] at found
    contradiction
  · obtain ⟨kept, consistent, given⟩ := all _ (Node.childAdded_mem_changes fresh there)
    exact Review.judgeAdded_accepts consistent given isDef

/-- A definition stays as it is. -/
theorem Accepts.kept (accepted : Accepts settings before after)
    (found : ((before.privileges settings).child name).state = some old)
    (isDef : old.isDefinition = true) :
    ∃ new, ((after.privileges settings).child name).state = some new ∧ old.same new = true := by
  rw [← child?_stateOf] at found
  simp only [← child?_stateOf]
  rcases accepted.cases with same | all
  · exact Node.child?_of_same same found
  · cases there : (stateOf (after.node? settings.privilegesPath)).child? name with
    | none =>
      obtain ⟨kept, -, given⟩ := all _ (Node.childDeleted_mem_changes found there)
      simp [Review.judge, Event.childDeleted, Review.judgeDeleted, isDef, Ruling.refuse] at given
    | some new =>
      refine ⟨new, rfl, ?_⟩
      cases same : old.same new with
      | true => rfl
      | false =>
        obtain ⟨kept, -, given⟩ := all _ (Node.childChanged_mem_changes found there same)
        simp [Review.judge, Event.childChanged, Review.judgeChanged, Review.holdsSame, isDef, same,
          Ruling.refuse] at given

/-- Bits that are stored as words stay as they are. -/
theorem Accepts.bits_kept (accepted : Accepts settings before after)
    (wordsBefore : (before.privileges settings).StoresWords)
    (wordsAfter : (after.privileges settings).StoresWords)
    (found : ((before.privileges settings).child name).state = some old)
    (isDef : old.isDefinition = true) :
    ((after.privileges settings).child name).bits =
      ((before.privileges settings).child name).bits := by
  obtain ⟨new, there, same⟩ := accepted.kept found isDef
  exact (View.bits_of_same found there same (wordsBefore name old found)
    (wordsAfter name new there)).symm

/-- A property stays, and so does its value, unless it is the counter and moves on. -/
theorem Accepts.property_kept (accepted : Accepts settings before after) {value : Value}
    (found : (before.privileges settings).property? name = some value) :
    ∃ later, (after.privileges settings).property? name = some later ∧
      (value.form = later.form ∨ name = Schema.next ∧
        ∃ bits, (before.privileges settings).nextBits = .ok bits ∧
          (after.privileges settings).nextBits = .ok bits.next) := by
  rw [← property?_stateOf] at found
  simp only [← property?_stateOf]
  rcases accepted.cases with same | all
  · obtain ⟨later, there, equal⟩ := Node.property?_of_same same found
    exact ⟨later, there, .inl equal⟩
  · cases there : (stateOf (after.node? settings.privilegesPath)).property? name with
    | none =>
      obtain ⟨kept, -, given⟩ := all _ (Node.propertyDeleted_mem_changes found there)
      cases given
    | some later =>
      refine ⟨later, rfl, ?_⟩
      cases differ : value.differs later with
      | false =>
        simp only [Value.differs, Bool.or_eq_false_iff, bne_eq_false_iff_eq] at differ
        exact .inl differ.2
      | true =>
        obtain ⟨kept, -, given⟩ := all _ (Node.propertyChanged_mem_changes found there differ)
        exact .inr (Review.judgeProperty_accepts given)

/-- What an added definition satisfies, read from the store after the commit. -/
theorem Accepts.admissible (accepted : Accepts settings before after)
    (fresh : ((before.privileges settings).child name).state = none)
    (there : ((after.privileges settings).child name).state = some child)
    (isDef : child.isDefinition = true) :
    ∃ registry definition bits, (before.privileges settings).registry = .ok registry ∧
      ((after.privileges settings).child name).definition = .ok definition ∧
      ((after.privileges settings).child name).bits = .ok bits ∧
      (before.privileges settings).bitsTable.fault = none ∧
      Admissible registry (before.privileges settings).bitsTable.entries
        (after.privileges settings) definition bits := by
  obtain ⟨-, -, registry, definition, bits, known, named, read, judged⟩ :=
    accepted.admitted fresh there isDef
  rw [below_eq_child there] at named read
  obtain ⟨-, clean, terms⟩ :=
    (Admission.judge_accepts_iff (Admission.faithful_start _ _ _)).1 judged
  exact ⟨registry, definition, bits, known, named, read, clean, terms⟩

/-- Each definition of an accepted commit was there before and is the same, or stands where a child
was that was no definition, or was admitted. -/
theorem Accepts.definition_origin (accepted : Accepts settings before after)
    (there : ((after.privileges settings).child name).state = some child)
    (isDef : child.isDefinition = true) :
    (∃ old, ((before.privileges settings).child name).state = some old ∧
        old.isDefinition = true ∧ old.same child = true) ∨
      (∃ old, ((before.privileges settings).child name).state = some old ∧
        old.isDefinition = false) ∨
      (((before.privileges settings).child name).state = none ∧
        Admitted settings before after name child) := by
  cases found : ((before.privileges settings).child name).state with
  | none => exact .inr (.inr ⟨rfl, accepted.admitted found there isDef⟩)
  | some old =>
    cases wasDef : old.isDefinition with
    | false => exact .inr (.inl ⟨old, rfl, wasDef⟩)
    | true =>
      obtain ⟨new, still, same⟩ := accepted.kept found wasDef
      rw [there] at still
      cases still
      exact .inl ⟨old, rfl, wasDef, same⟩

/-- A snapshot with a store and nothing else. -/
def holding (next : Bits) (children : Entries Node) : Snapshot :=
  Snapshot.put {} ({} : Settings).privilegesPath
    ⟨[(Schema.primaryType, .text Schema.privilegesType), (Schema.next, next.stored)], children⟩

theorem child_holding (next : Bits) (children : Entries Node) (name : String) :
    ((holding next children).privileges.child name).state = Entries.find? name children := by
  rw [holding, Snapshot.privileges, Snapshot.view_put]
  rfl

theorem property?_holding (next : Bits) (children : Entries Node) (name : String) :
    (holding next children).privileges.property? name =
      Entries.find? name [(Schema.primaryType, .text Schema.privilegesType),
        (Schema.next, next.stored)] := by
  rw [holding, Snapshot.privileges, Snapshot.view_put]
  rfl

theorem nextBits_holding (next : Bits) (children : Entries Node) :
    (holding next children).privileges.nextBits = .ok next := by
  have different : Schema.primaryType ≠ Schema.next := by decide
  rw [View.nextBits, property?_holding]
  simp [Entries.find?, different, Bits.ofValue?, Bits.ofValue_stored]

theorem mem_of_child_holding {next : Bits} {children : Entries Node} {name : String} {child : Node}
    (there : ((holding next children).privileges.child name).state = some child) :
    (name, child) ∈ children := by
  rw [child_holding] at there
  exact Entries.mem_of_find? there

/-- What holds of all children that are held holds of every child. -/
theorem forall_child_holding {P : Node → Prop} {next : Bits} {children : Entries Node}
    (all : ∀ entry ∈ children, P entry.2) (name : String) (child : Node)
    (there : ((holding next children).privileges.child name).state = some child) : P child :=
  all _ (mem_of_child_holding there)

/-- A node with an atomic definition. -/
abbrev atom (bits : Bits) : Node := Registration.definitionNode bits [] false

/-- A node with an aggregate of some names. -/
abbrev aggregate (bits : Bits) (members : List String) : Node :=
  Registration.definitionNode bits (members.map Scalar.text) false

/-- Of two definitions, the one that is added was admitted. -/
theorem definition_origin_of_second :
    Accepts {} (holding ⟨2⟩ [("read", atom ⟨1⟩)])
        (holding ⟨4⟩ [("read", atom ⟨1⟩), ("write", atom ⟨2⟩)]) ∧
      Admitted {} (holding ⟨2⟩ [("read", atom ⟨1⟩)])
        (holding ⟨4⟩ [("read", atom ⟨1⟩), ("write", atom ⟨2⟩)]) "write" (atom ⟨2⟩) := by
  have accepted : Accepts {} (holding ⟨2⟩ [("read", atom ⟨1⟩)])
      (holding ⟨4⟩ [("read", atom ⟨1⟩), ("write", atom ⟨2⟩)]) := by decide +kernel
  have there := child_holding ⟨4⟩ [("read", atom ⟨1⟩), ("write", atom ⟨2⟩)] "write"
  have fresh := child_holding ⟨2⟩ [("read", atom ⟨1⟩)] "write"
  refine ⟨accepted, ?_⟩
  rcases accepted.definition_origin there Registration.isDefinition_definitionNode with
    ⟨old, found, -⟩ | ⟨old, found, -⟩ | ⟨-, admitted⟩
  · rw [fresh] at found
    cases found
  · rw [fresh] at found
    cases found
  · exact admitted

/-- A child that becomes a definition is not judged, not even for having bits. -/
theorem changed_child_not_judged :
    ¬ ∀ (before after : Snapshot) (name : String) (child : Node), Accepts {} before after →
      (after.privileges.child name).state = some child → child.isDefinition = true →
        (∃ old, (before.privileges.child name).state = some old ∧ old.isDefinition = true ∧
          old.same child = true) ∨ Admitted {} before after name child := by
  intro claim
  have accepted : Accepts {} (holding ⟨1⟩ [("read", .empty)])
      (holding ⟨1⟩ [("read", atom .empty)]) := by decide +kernel
  have there := child_holding ⟨1⟩ [("read", atom .empty)] "read"
  have past := child_holding ⟨1⟩ [("read", .empty)] "read"
  rcases claim _ _ "read" _ accepted there Registration.isDefinition_definitionNode with
    ⟨old, found, isDef, -⟩ | admitted
  · rw [past] at found
    cases found
    revert isDef
    decide +kernel
  · obtain ⟨-, -, registry, definition, bits, -, -, read, judged⟩ := admitted
    cases read
    cases judged

end PrivilegeStore.Commit
