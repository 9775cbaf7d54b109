import PrivilegeStore.Proofs.Bits.Positions
import PrivilegeStore.Proofs.Commit.Acceptance

/-!
# Aggregation along a history

A history starts from a new store and goes on by accepted commits, each of which may add any number
of definitions. Every commit extends the registry by definitions whose members were registered
before it, so the graph of a history stays linked and acyclic, and the bits of an aggregate, being
the union of its members' bits, are the union of the bits of its leaves.
-/
namespace PrivilegeStore

open Aggregation (Linked Acyclic Extends Enlarges LeafOf Closed Admissible)

namespace View

/-- Children are definitions, their bits stored as words and their members as texts. -/
structure WellStored (store : View) : Prop where
  definitions : store.OnlyDefinitions
  words : store.StoresWords
  texts : store.StoresTexts

/-- The bits are the union of the bits of a name's leaves. -/
def Represents (store : View) (registry : Registry) (a : Scalar) (bits : Bits) : Prop :=
  ∀ i, bits.value.testBit i = true ↔
    ∃ leaf stored, LeafOf registry a leaf ∧ store.Owns leaf stored ∧ stored.value.testBit i = true

/-- Aggregation is in order: members are registered, there is no cycle, aggregates have two
different members, and their bits are the union of the bits in their leaf closures. -/
structure Coherent (store : View) (registry : Registry) : Prop where
  linked : Linked registry
  acyclic : Acyclic registry
  plural : ∀ name d, registry.find? (.text name) = some d → d.isAggregate = true →
    ∃ m ∈ d.members, ∃ n ∈ d.members, m.same n = false
  represented : ∀ name d, registry.find? (.text name) = some d → d.isAggregate = true →
    ∃ bits leaves, store.Owns name bits ∧ Aggregation.resolve registry [.text name] = .ok leaves ∧
      bits = BitsTable.unionOf store.bitsTable.entries (leaves.map Scalar.text)

variable {store : View} {registry : Registry} {name : String} {bits : Bits}

theorem WellStored.registry_ok (stored : store.WellStored) :
    ∃ registry, store.registry = .ok registry := by
  refine definitionsAmong_ok fun n _ isDef => ?_
  obtain ⟨child, there, -⟩ := isDefinition_iff.1 isDef
  obtain ⟨-, d, read, -⟩ := definition_ok there (stored.texts n child there)
  exact ⟨d, read⟩

theorem WellStored.fault_bitsTable (stored : store.WellStored) : store.bitsTable.fault = none := by
  refine fault_bitsAmong fun n _ isDef => ?_
  obtain ⟨child, there, -⟩ := isDefinition_iff.1 isDef
  exact bits_ok there (stored.words n child there)

theorem WellStored.owns (stored : store.WellStored)
    (isDef : (store.child name).isDefinition = true) : ∃ bits, store.Owns name bits := by
  obtain ⟨child, there, -⟩ := isDefinition_iff.1 isDef
  obtain ⟨bits, read⟩ := bits_ok there (stored.words name child there)
  exact ⟨bits, isDef, read⟩

/-- Of a definition's members any two are different. -/
theorem WellStored.two_members (stored : store.WellStored) {d : Definition}
    (isDef : (store.child name).isDefinition = true) (read : (store.child name).definition = .ok d)
    (enough : 2 ≤ d.members.length) : ∃ m ∈ d.members, ∃ n ∈ d.members, m.same n = false := by
  obtain ⟨child, there, -⟩ := isDefinition_iff.1 isDef
  obtain ⟨names, e, same, members⟩ := definition_ok there (stored.texts name child there)
  rw [read] at same
  cases same
  rw [members] at enough ⊢
  exact NameSet.two_of_ofList enough

theorem OnlyDefinitions.absent_or_definition (definitions : store.OnlyDefinitions) (name : String) :
    (store.child name).state = none ∨ (store.child name).isDefinition = true := by
  cases state : (store.child name).state with
  | none => exact .inl rfl
  | some child => exact .inr (isDefinition_iff.2 ⟨child, state, definitions name child state⟩)

theorem find?_eq_none (read : store.registry = .ok registry)
    (absent : (store.child name).state = none) : registry.find? (.text name) = none := by
  cases found : registry.find? (.text name) with
  | none => rfl
  | some d =>
    obtain ⟨child, there, -⟩ := isDefinition_iff.1 ((find?_registry read).1 found).1
    rw [absent] at there
    contradiction

theorem registered_iff (read : store.registry = .ok registry) :
    registry.Registered (.text name) ↔ (store.child name).isDefinition = true := by
  constructor
  · intro registered
    obtain ⟨d, found⟩ := Option.isSome_iff_exists.1 registered
    exact ((find?_registry read).1 found).1
  · intro isDef
    obtain ⟨d, named⟩ := definition_of_registry read isDef
    exact Aggregation.registered_of_find? ((find?_registry read).2 ⟨isDef, named⟩)

/-- Every entry of a registry is one that is looked up, so no member is declared unseen. -/
theorem closed_of_linked (read : store.registry = .ok registry) (linked : Linked registry) :
    Closed registry := by
  intro entry member m declared
  have found : registry.find? (.text entry.1) = some entry.2 := find?_of_mem_registry read member
  rw [← Registry.membersOf_of_find? found] at declared
  exact linked _ m declared

/-- The union over a resolved closure represents the name. -/
theorem represents_iff (clean : store.bitsTable.fault = none) {leaves : List String}
    (resolved : Aggregation.resolve registry [.text name] = .ok leaves) :
    store.Represents registry (.text name) bits ↔
      bits = BitsTable.unionOf store.bitsTable.entries (leaves.map Scalar.text) := by
  have answers := Aggregation.resolve_answers registry [.text name]
  rw [resolved] at answers
  have member : ∀ leaf, leaf ∈ leaves ↔ LeafOf registry (.text name) leaf := by
    simpa using answers.2
  have union : ∀ i,
      (BitsTable.unionOf store.bitsTable.entries (leaves.map Scalar.text)).value.testBit i = true ↔
        ∃ leaf stored, LeafOf registry (.text name) leaf ∧ store.Owns leaf stored ∧
          stored.value.testBit i = true := by
    intro i
    rw [BitsTable.testBit_unionOf]
    constructor
    · rintro ⟨a, here, stored, found, held⟩
      obtain ⟨leaf, inside, rfl⟩ := List.mem_map.1 here
      exact ⟨leaf, stored, (member leaf).1 inside, (find?_bitsTable clean).1 found, held⟩
    · rintro ⟨leaf, stored, inside, owned, held⟩
      exact ⟨.text leaf, List.mem_map_of_mem ((member leaf).2 inside), stored,
        (find?_bitsTable clean).2 owned, held⟩
  constructor
  · intro represents
    exact Bits.ext_testBit fun i => (represents i).trans (union i).symm
  · rintro rfl
    exact union

/-- An atomic name is represented by its own bits. -/
theorem represents_of_atomic (atomic : registry.Atomic (.text name))
    (owned : store.Owns name bits) : store.Represents registry (.text name) bits := by
  intro i
  constructor
  · intro held
    exact ⟨name, bits, (Aggregation.leafOf_of_atomic atomic).2 rfl, owned, held⟩
  · rintro ⟨leaf, stored, inside, other, held⟩
    rw [(Aggregation.leafOf_of_atomic atomic).1 inside] at other
    rwa [owned.unique other]

/-- Where the registry grows and registered names own what they owned, what represents a registered
name goes on to represent it. -/
theorem Represents.kept {later : View} {old new : Registry} {a : Scalar}
    (represents : store.Represents old a bits) (linked : Linked old) (enlarged : Enlarges old new)
    (registered : old.Registered a)
    (owns : ∀ leaf stored, old.Registered (.text leaf) →
      (later.Owns leaf stored ↔ store.Owns leaf stored)) :
    later.Represents new a bits := by
  intro i
  rw [represents i]
  have known {leaf : String} (inside : LeafOf old a leaf) : old.Registered (.text leaf) :=
    linked.registered registered inside.1
  constructor
  · rintro ⟨leaf, stored, inside, owned, held⟩
    exact ⟨leaf, stored, (enlarged.leafOf_iff linked registered).2 inside,
      (owns leaf stored (known inside)).2 owned, held⟩
  · rintro ⟨leaf, stored, inside, owned, held⟩
    rw [enlarged.leafOf_iff linked registered] at inside
    exact ⟨leaf, stored, inside, (owns leaf stored (known inside)).1 owned, held⟩

/-- A new aggregate is represented, its members being represented before. -/
theorem represents_of_union {later : View} {old new : Registry} (stored : store.WellStored)
    (read : store.registry = .ok old) {d : Definition} (found : new.find? (.text name) = some d)
    (aggregate : d.isAggregate = true) (registered : ∀ m ∈ d.members, old.Registered m)
    (represented : ∀ member own, store.Owns member own →
      later.Represents new (.text member) own) :
    later.Represents new (.text name)
      (BitsTable.unionOf store.bitsTable.entries d.members) := by
  have clean := stored.fault_bitsTable
  intro i
  rw [BitsTable.testBit_unionOf]
  constructor
  · rintro ⟨m, member, own, listed, held⟩
    cases m with
    | text s =>
      have owned := (find?_bitsTable clean).1 listed
      -- the position is held by a leaf of a member, which is a leaf of the aggregate
      obtain ⟨leaf, below, inside, rest⟩ := (represented s own owned i).1 held
      exact ⟨leaf, below, (Aggregation.leafOf_of_aggregate found aggregate).2 ⟨_, member, inside⟩,
        rest⟩
    | _ => cases listed
  · rintro ⟨leaf, below, inside, rest⟩
    obtain ⟨m, member, within⟩ := (Aggregation.leafOf_of_aggregate found aggregate).1 inside
    have known := registered m member
    cases m with
    | text s =>
      obtain ⟨own, owned⟩ := stored.owns ((registered_iff read).1 known)
      have held := (represented s own owned i).2 ⟨leaf, below, within, rest⟩
      exact ⟨.text s, member, own, (find?_bitsTable clean).2 owned, held⟩
    | _ => cases known

theorem Coherent.represents (coherent : store.Coherent registry) (stored : store.WellStored)
    (read : store.registry = .ok registry) (owned : store.Owns name bits) :
    store.Represents registry (.text name) bits := by
  obtain ⟨d, found⟩ := Option.isSome_iff_exists.1 ((registered_iff read).2 owned.1)
  cases aggregate : d.isAggregate with
  | false => exact represents_of_atomic ⟨d, found, aggregate⟩ owned
  | true =>
    obtain ⟨own, leaves, other, resolved, union⟩ := coherent.represented name d found aggregate
    rw [owned.unique other]
    exact (represents_iff stored.fault_bitsTable resolved).2 union

end View

namespace Commit

variable {settings : Settings} {before after start s : Snapshot} {old new : Registry}
  {name : String} {bits next : Bits} {a : Scalar}

/-- A definition is read as before. -/
theorem Accepts.reads_kept (accepted : Accepts settings before after)
    (storedBefore : (before.privileges settings).WellStored)
    (storedAfter : (after.privileges settings).WellStored)
    (isDef : ((before.privileges settings).child name).isDefinition = true) :
    ((after.privileges settings).child name).isDefinition = true ∧
      ((after.privileges settings).child name).definition =
        ((before.privileges settings).child name).definition ∧
      ((after.privileges settings).child name).bits =
        ((before.privileges settings).child name).bits := by
  obtain ⟨past, found, wasDef⟩ := View.isDefinition_iff.1 isDef
  obtain ⟨present, there, same⟩ := accepted.kept found wasDef
  refine ⟨?_, ?_, ?_⟩
  · rw [View.isDefinition_of_state there, ← Node.isDefinition_of_same same]
    exact wasDef
  · have path : ((before.privileges settings).child name).path =
        ((after.privileges settings).child name).path := rfl
    exact (View.definition_of_same path found there same (storedBefore.texts name past found)
      (storedAfter.texts name present there)).symm
  · exact accepted.bits_kept storedBefore.words storedAfter.words found wasDef

/-- What an added definition of a commit is, and that it was put to the rules. -/
theorem Accepts.added_admissible (accepted : Accepts settings before after)
    (readBefore : (before.privileges settings).registry = .ok old)
    (fresh : ((before.privileges settings).child name).state = none) {d : Definition}
    (isDef : ((after.privileges settings).child name).isDefinition = true)
    (named : ((after.privileges settings).child name).definition = .ok d) :
    ∃ bits, (after.privileges settings).Owns name bits ∧
      Admissible old (before.privileges settings).bitsTable.entries (after.privileges settings) d
        bits := by
  obtain ⟨child, there, nowDef⟩ := View.isDefinition_iff.1 isDef
  obtain ⟨registry, definition, bits, known, read, owned, -, terms⟩ :=
    accepted.admissible fresh there nowDef
  rw [readBefore] at known
  cases known
  rw [named] at read
  cases read
  exact ⟨bits, ⟨isDef, owned⟩, terms⟩

/-- A commit extends the registry. -/
theorem Accepts.extends_registry (accepted : Accepts settings before after)
    (storedBefore : (before.privileges settings).WellStored)
    (storedAfter : (after.privileges settings).WellStored)
    (readBefore : (before.privileges settings).registry = .ok old)
    (readAfter : (after.privileges settings).registry = .ok new) : Extends old new := by
  have kept : ∀ a d, old.find? a = some d → new.find? a = some d := by
    intro a d found
    cases a with
    | text name =>
      obtain ⟨isDef, named⟩ := (View.find?_registry readBefore).1 found
      obtain ⟨still, same, -⟩ := accepted.reads_kept storedBefore storedAfter isDef
      exact (View.find?_registry readAfter).2 ⟨still, same.trans named⟩
    | _ => exact found
  refine ⟨kept, fun a d found => ?_⟩
  cases a with
  | text name =>
    obtain ⟨isDef, named⟩ := (View.find?_registry readAfter).1 found
    rcases storedBefore.definitions.absent_or_definition name with fresh | wasDef
    · refine .inr ⟨View.find?_eq_none readBefore fresh, ?_⟩
      obtain ⟨bits, -, -, terms⟩ := accepted.added_admissible readBefore fresh isDef named
      rcases terms with ⟨none, -⟩ | ⟨-, terms⟩
      · intro m member
        rw [none] at member
        exact absurd member List.not_mem_nil
      · exact terms.registered
    · obtain ⟨e, past⟩ := Option.isSome_iff_exists.1 ((View.registered_iff readBefore).2 wasDef)
      rw [kept _ e past] at found
      cases found
      exact .inl past
  | _ => cases found

/-- Registered names own the same bits before and after. -/
theorem Accepts.owns_iff (accepted : Accepts settings before after)
    (storedBefore : (before.privileges settings).WellStored)
    (storedAfter : (after.privileges settings).WellStored)
    (isDef : ((before.privileges settings).child name).isDefinition = true) :
    (after.privileges settings).Owns name bits ↔ (before.privileges settings).Owns name bits := by
  obtain ⟨still, -, same⟩ := accepted.reads_kept storedBefore storedAfter isDef
  rw [View.Owns, View.Owns, same]
  simp [isDef, still]

/-- What represents a registered name goes on to represent it. -/
theorem Accepts.represents_kept (accepted : Accepts settings before after)
    (storedBefore : (before.privileges settings).WellStored)
    (storedAfter : (after.privileges settings).WellStored)
    (readBefore : (before.privileges settings).registry = .ok old) (linked : Linked old)
    (extended : Extends old new) (registered : old.Registered a)
    (represents : (before.privileges settings).Represents old a bits) :
    (after.privileges settings).Represents new a bits :=
  represents.kept linked extended.enlarges registered fun _ _ known =>
    accepted.owns_iff storedBefore storedAfter ((View.registered_iff readBefore).1 known)

section Step

variable (accepted : Accepts settings before after)
  (storedBefore : (before.privileges settings).WellStored)
  (storedAfter : (after.privileges settings).WellStored)
  (readBefore : (before.privileges settings).registry = .ok old)
  (readAfter : (after.privileges settings).registry = .ok new)
  (coherent : (before.privileges settings).Coherent old)

include accepted storedBefore storedAfter readBefore readAfter coherent

theorem Accepts.represents (owned : (after.privileges settings).Owns name bits) :
    (after.privileges settings).Represents new (.text name) bits := by
  have extended := accepted.extends_registry storedBefore storedAfter readBefore readAfter
  have past : ∀ member stored, (before.privileges settings).Owns member stored →
      (after.privileges settings).Represents new (.text member) stored := by
    intro member stored owned
    exact accepted.represents_kept storedBefore storedAfter readBefore coherent.linked extended
      ((View.registered_iff readBefore).2 owned.1)
      (coherent.represents storedBefore readBefore owned)
  rcases storedBefore.definitions.absent_or_definition name with fresh | wasDef
  · obtain ⟨d, named⟩ := View.definition_of_registry readAfter owned.1
    have found : new.find? (.text name) = some d :=
      (View.find?_registry readAfter).2 ⟨owned.1, named⟩
    obtain ⟨own, other, -, terms⟩ := accepted.added_admissible readBefore fresh owned.1 named
    rw [owned.unique other]
    rcases terms with ⟨none, -⟩ | ⟨enough, terms⟩
    · refine View.represents_of_atomic ⟨d, found, ?_⟩ other
      simp [Definition.isAggregate, none]
    · rw [terms.union]
      refine View.represents_of_union storedBefore readBefore found ?_ terms.registered past
      cases members : d.members with
      | nil => simp [members] at enough
      | cons _ _ => simp [Definition.isAggregate, members]
  · exact past name bits ((accepted.owns_iff storedBefore storedAfter wasDef).1 owned)

theorem Accepts.plural {d : Definition} (found : new.find? (.text name) = some d)
    (aggregate : d.isAggregate = true) : ∃ m ∈ d.members, ∃ n ∈ d.members, m.same n = false := by
  have extended := accepted.extends_registry storedBefore storedAfter readBefore readAfter
  obtain ⟨isDef, named⟩ := (View.find?_registry readAfter).1 found
  rcases storedBefore.definitions.absent_or_definition name with fresh | wasDef
  · obtain ⟨bits, -, -, terms⟩ := accepted.added_admissible readBefore fresh isDef named
    rcases terms with ⟨none, -⟩ | ⟨enough, -⟩
    · simp [Definition.isAggregate, none] at aggregate
    · exact storedAfter.two_members isDef named enough
  · obtain ⟨e, past⟩ := Option.isSome_iff_exists.1 ((View.registered_iff readBefore).2 wasDef)
    rw [extended.kept _ e past] at found
    cases found
    exact coherent.plural name d past aggregate

/-- An accepted commit keeps aggregation in order. -/
theorem Accepts.coherent_after : (after.privileges settings).Coherent new := by
  have extended := accepted.extends_registry storedBefore storedAfter readBefore readAfter
  have linked := extended.enlarges.linked coherent.linked
  constructor
  · exact linked
  · exact extended.enlarges.acyclic coherent.linked coherent.acyclic
  · intro name d found aggregate
    exact accepted.plural storedBefore storedAfter readBefore readAfter coherent found aggregate
  · intro name d found aggregate
    have isDef := ((View.find?_registry readAfter).1 found).1
    obtain ⟨bits, owned⟩ := storedAfter.owns isDef
    obtain ⟨leaves, resolved, -⟩ := linked.resolve_ok
      (List.forall_mem_singleton.2 (Aggregation.registered_of_find? found))
    have represents :=
      accepted.represents storedBefore storedAfter readBefore readAfter coherent owned
    exact ⟨bits, leaves, owned, resolved,
      (View.represents_iff storedAfter.fault_bitsTable resolved).1 represents⟩

end Step

/-- A run from a new store by accepted commits, all stores on the way being well stored. -/
inductive History (settings : Settings) (start : Snapshot) (next : Bits) : Snapshot → Prop
  | founded : History settings start next (start.putStore next settings)
  | committed {before after : Snapshot} (past : History settings start next before)
      (accepted : Accepts settings before after)
      (stored : (after.privileges settings).WellStored) : History settings start next after

theorem privileges_putStore : (start.putStore next settings).privileges settings =
    ⟨settings.privilegesPath, some ⟨[(Schema.primaryType, .text Schema.privilegesType),
      (Schema.next, next.stored)], []⟩⟩ :=
  Snapshot.view_put start settings.privilegesPath _

theorem wellStored_putStore : ((start.putStore next settings).privileges settings).WellStored := by
  have none : ∀ name child,
      (((start.putStore next settings).privileges settings).child name).state ≠ some child := by
    intro name child there
    rw [privileges_putStore] at there
    cases there
  exact ⟨fun name child there => absurd there (none name child),
    fun name child there => absurd there (none name child),
    fun name child there => absurd there (none name child)⟩

theorem registry_putStore :
    ((start.putStore next settings).privileges settings).registry = .ok [] := by
  rw [privileges_putStore]
  rfl

theorem coherent_putStore :
    ((start.putStore next settings).privileges settings).Coherent [] := by
  have empty : ∀ a : Scalar, Registry.membersOf [] a = [] := by
    intro a
    cases a <;> rfl
  constructor
  · intro a m member
    rw [empty] at member
    exact absurd member List.not_mem_nil
  · intro a m member
    rw [empty] at member
    exact absurd member List.not_mem_nil
  · intro name d found
    cases found
  · intro name d found
    cases found

namespace History

theorem wellStored (history : History settings start next s) :
    (s.privileges settings).WellStored := by
  cases history with
  | founded => exact wellStored_putStore
  | committed _ _ stored => exact stored

/-- Aggregation is in order all along a history. -/
theorem coherent (history : History settings start next s) :
    ∃ registry, (s.privileges settings).registry = .ok registry ∧
      (s.privileges settings).Coherent registry := by
  induction history with
  | founded => exact ⟨[], registry_putStore, coherent_putStore⟩
  | committed past accepted stored ih =>
    obtain ⟨old, readBefore, coherent⟩ := ih
    obtain ⟨new, readAfter⟩ := stored.registry_ok
    exact ⟨new, readAfter,
      accepted.coherent_after past.wellStored stored readBefore readAfter coherent⟩

/-- All along a history aggregation is in order, and no further commit is rejected for an unknown
member of a definition. -/
theorem aggregation_in_order (history : History settings start next s) :
    ∃ registry, (s.privileges settings).registry = .ok registry ∧
      (s.privileges settings).Coherent registry ∧
      ∀ after v, (verdict s after settings).result = .ok v → v.code? ≠ some 47 := by
  obtain ⟨registry, read, coherent⟩ := history.coherent
  refine ⟨registry, read, coherent, fun after v reached unknown => ?_⟩
  obtain ⟨breach, broken, code⟩ := Option.map_eq_some_iff.1 unknown
  have closed : ∀ other, (s.privileges settings).registry = .ok other → Closed other := by
    intro other same
    exact View.closed_of_linked same (by rw [read] at same; cases same; exact coherent.linked)
  exact rule_of_verdict closed reached broken (Rule.code_injective code)

end History

/-- Definitions written with texts as members are stored well. -/
theorem wellStored_holding {children : Entries Node}
    (written : ∀ entry ∈ children, ∃ (bits : Bits) (names : List String),
      entry.2 = Registration.definitionNode bits (names.map Scalar.text) false) :
    (holding next children).privileges.WellStored := by
  constructor
  · refine forall_child_holding fun entry member => ?_
    obtain ⟨bits, names, same⟩ := written entry member
    rw [same]
    exact Registration.isDefinition_definitionNode
  · refine forall_child_holding fun entry member => ?_
    obtain ⟨bits, names, same⟩ := written entry member
    rw [same]
    exact Registration.storesWords_definitionNode
  · refine forall_child_holding fun entry member => ?_
    obtain ⟨bits, names, same⟩ := written entry member
    rw [same]
    exact Registration.storesTexts_definitionNode

/-- Two atomic privileges and then an aggregate of both. -/
theorem aggregation_in_order_of_both :
    let s := holding ⟨4⟩ [("read", atom ⟨1⟩), ("write", atom ⟨2⟩),
      ("both", Registration.definitionNode ⟨3⟩ [.text "read", .text "write"] false)]
    ∃ registry, s.privileges.registry = .ok registry ∧ s.privileges.Coherent registry ∧
      ∀ after v, (verdict s after).result = .ok v → v.code? ≠ some 47 := by
  have none : History {} {} ⟨1⟩ (holding ⟨1⟩ []) := .founded
  have one : History {} {} ⟨1⟩ (holding ⟨2⟩ [("read", atom ⟨1⟩)]) := by
    refine none.committed (by decide +kernel) (wellStored_holding ?_)
    intro entry member
    rw [List.mem_singleton.1 member]
    exact ⟨⟨1⟩, [], rfl⟩
  have two : History {} {} ⟨1⟩ (holding ⟨4⟩ [("read", atom ⟨1⟩), ("write", atom ⟨2⟩)]) := by
    refine one.committed (by decide +kernel) (wellStored_holding ?_)
    simp only [List.forall_mem_cons]
    exact ⟨⟨⟨1⟩, [], rfl⟩, ⟨⟨2⟩, [], rfl⟩, by simp⟩
  have three : History {} {} ⟨1⟩ (holding ⟨4⟩ [("read", atom ⟨1⟩), ("write", atom ⟨2⟩),
      ("both", Registration.definitionNode ⟨3⟩ [.text "read", .text "write"] false)]) := by
    refine two.committed (by decide +kernel) (wellStored_holding ?_)
    simp only [List.forall_mem_cons]
    exact ⟨⟨⟨1⟩, [], rfl⟩, ⟨⟨2⟩, [], rfl⟩, ⟨⟨3⟩, ["read", "write"], rfl⟩, by simp⟩
  exact three.aggregation_in_order

end Commit

end PrivilegeStore
