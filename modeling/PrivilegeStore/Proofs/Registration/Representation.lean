import PrivilegeStore.Proofs.Commit.Counting
import PrivilegeStore.Proofs.Definition.Members
import PrivilegeStore.Proofs.Registration.Effects

/-!
# Bits represent leaf closures

A registration gives an aggregate the bits of its direct members as they are stored, while closures
are found by a walk along all members. In a store that registrations have made of a new one the two
agree: every definition carries the bits of its leaves, and the bits of two atomic privileges share
no position. So what names decompose into can be told from their bits, whatever the counter was to
begin with and in whichever order privileges were registered.
-/
namespace PrivilegeStore

open Aggregation (Linked Extends Enlarges LeafOf)

namespace View

/-- Definitions carry the bits of their leaves, which are apart from one another and below the
counter. -/
structure Faithful (store : View) (registry : Registry) (counter : Bits) : Prop where
  stored : store.WellStored
  read : store.registry = .ok registry
  linked : Linked registry
  counted : store.CountedBy counter
  filled : counter.isEmpty = false
  apart : ∀ m n b c, registry.Atomic (.text m) → registry.Atomic (.text n) → store.Owns m b →
    store.Owns n c → m ≠ n → b.Disjoint c
  represented : ∀ name bits, store.Owns name bits → store.Represents registry (.text name) bits

end View

namespace Registration.Registers

variable {store later : View} {name : String} {texts : List String} {isAbstract : Bool}
  {bits counter : Bits} {old new : Registry}

section Reading

variable (registers : Registers store later name (texts.map Scalar.text) isAbstract bits)

include registers

theorem isDefinition : (later.child name).isDefinition = true :=
  View.isDefinition_iff.2 ⟨_, registers.added, isDefinition_definitionNode⟩

theorem owns_self {own : Bits} : later.Owns name own ↔ own = bits := by
  have read : (later.child name).bits = .ok bits := bits_of_definitionNode registers.added
  constructor
  · rintro ⟨-, other⟩
    exact Except.ok.inj (other.symm.trans read)
  · rintro rfl
    exact ⟨registers.isDefinition, read⟩

theorem owns_other {other : String} {own : Bits} (different : name ≠ other) :
    later.Owns other own ↔ store.Owns other own := by
  rw [View.Owns, View.Owns, registers.others other different]

theorem wellStored (stored : store.WellStored) : later.WellStored := by
  have each : ∀ other child, (later.child other).state = some child →
      child = definitionNode bits (texts.map Scalar.text) isAbstract ∨
        (store.child other).state = some child := by
    intro other child there
    by_cases here : name = other
    · subst here
      rw [registers.added] at there
      exact .inl (Option.some.inj there).symm
    · rw [registers.others other here] at there
      exact .inr there
  constructor
  · intro other child there
    rcases each other child there with rfl | past
    · exact isDefinition_definitionNode
    · exact stored.definitions other child past
  · intro other child there
    rcases each other child there with rfl | past
    · exact storesWords_definitionNode
    · exact stored.words other child past
  · intro other child there
    rcases each other child there with rfl | past
    · exact storesTexts_definitionNode
    · exact stored.texts other child past

/-- The new definition is read with the members that it was given. -/
theorem definition_self : ∃ d, (later.child name).definition = .ok d ∧
    d.members = NameSet.ofList (texts.map Scalar.text) :=
  ⟨_, definition_of_definitionNode registers.added, rfl⟩

/-- What the registry holds under the new name. -/
theorem members_of_find? (readAfter : later.registry = .ok new) {d : Definition}
    (found : new.find? (.text name) = some d) :
    d.members = NameSet.ofList (texts.map Scalar.text) := by
  obtain ⟨-, read⟩ := (View.find?_registry readAfter).1 found
  obtain ⟨e, same, members⟩ := registers.definition_self
  rw [read] at same
  cases same
  exact members

end Reading

section Step

variable (registers : Registers store later name (texts.map Scalar.text) isAbstract bits)
  (faithful : store.Faithful old counter)

include registers faithful

/-- The bits are those of the counter, which moves on, or the union of the members' bits. -/
theorem bits_cases : (texts = [] ∧ bits = counter ∧
      later.property? Schema.next = some counter.next.stored) ∨
    (texts ≠ [] ∧ bits = BitsTable.unionOf store.bitsTable.entries (texts.map Scalar.text) ∧
      later.property? Schema.next = store.property? Schema.next) := by
  rcases registers.allocated with ⟨none, read, moved⟩ | ⟨some, union, same⟩
  · have equal : bits = counter := Except.ok.inj (read.symm.trans faithful.counted.read)
    subst equal
    exact .inl ⟨by simpa using none, rfl, moved⟩
  · have clean : (BitsIndex.mk store false).store.bitsTable.fault = .none :=
      faithful.stored.fault_bitsTable
    rw [BitsIndex.bitsOf_of_no_fault _ clean] at union
    exact .inr ⟨by simpa using some, (Except.ok.inj union).symm, same⟩

/-- A new atomic privilege has the bits of the counter, which share no position with former bits. -/
theorem apart_self (readAfter : later.registry = .ok new) (atomic : new.Atomic (.text name))
    {other : String} {own : Bits} (owned : store.Owns other own) : bits.Disjoint own := by
  obtain ⟨d, found, plain⟩ := atomic
  rcases registers.bits_cases faithful with ⟨-, rfl, -⟩ | ⟨some, -, -⟩
  · have below := faithful.counted.above other own owned
    obtain ⟨k, rfl⟩ := faithful.counted.single other own owned
    exact Bits.disjoint_of_lt below
  · have aggregate :=
      (Definition.isAggregate_iff (registers.members_of_find? readAfter found)).2 some
    rw [plain] at aggregate
    cases aggregate

variable (known : ∀ m ∈ texts, (store.child m).isDefinition = true)

include known

/-- The store stays counted: the new bits are not empty, and below a counter that has moved on if
they were taken from it. -/
theorem counted :
    ∃ next, (next = counter ∨ next = counter.next) ∧ later.CountedBy next := by
  have counted := faithful.counted
  have clean := faithful.stored.fault_bitsTable
  have each {next : Bits} (new : bits.isEmpty = false ∧ bits.value < next.value ∧ next.IsSingle)
      (other : String) (own : Bits) (owned : later.Owns other own) :
      store.Owns other own ∨ (own.isEmpty = false ∧ own.value < next.value ∧ next.IsSingle) := by
    by_cases here : name = other
    · subst here
      rw [registers.owns_self.1 owned]
      exact .inr new
    · exact .inl ((registers.owns_other here).1 owned)
  rcases registers.bits_cases faithful with ⟨-, rfl, moved⟩ | ⟨some, union, same⟩
  · have above := each ⟨faithful.filled, bits.value_lt_next, bits.isSingle_next⟩
    refine ⟨bits.next, .inr rfl, Commit.countedBy_of_moves counted (.inr rfl) ?_ ?_ above⟩
    · rw [moved]
      rfl
    · rw [View.nextBits, moved]
      exact Bits.ofValue_stored bits.next
  · have filled : bits.isEmpty = false := by
      obtain ⟨m, member⟩ := List.exists_mem_of_ne_nil texts some
      obtain ⟨own, owned⟩ := faithful.stored.owns (known m member)
      rw [union]
      exact BitsTable.isEmpty_unionOf (List.mem_map_of_mem member)
        ((View.find?_bitsTable clean).2 owned) (counted.carried m own owned)
    have below : bits.value < counter.value ∧ counter.IsSingle := by
      rw [union] at filled ⊢
      exact counted.above_union clean _ filled
    refine ⟨counter, .inl rfl, Commit.countedBy_of_moves counted (.inl rfl) ?_ ?_
      (each ⟨filled, below⟩)⟩
    · rw [same]
      exact counted.present
    · rw [View.nextBits, same]
      exact counted.read

variable (fresh : (store.child name).state = none) (readAfter : later.registry = .ok new)

include fresh readAfter

/-- Members were registered before, so the registry is extended. -/
theorem extends_registry : Extends old new := by
  have absent : old.find? (.text name) = none := View.find?_eq_none faithful.read fresh
  constructor
  · intro a d found
    cases a with
    | text other =>
      have different : name ≠ other := by
        rintro rfl
        rw [absent] at found
        cases found
      have past := (View.find?_registry faithful.read).1 found
      rw [← registers.others other different] at past
      exact (View.find?_registry readAfter).2 past
    | _ => cases found
  · intro a d found
    cases a with
    | text other =>
      obtain ⟨isDef, read⟩ := (View.find?_registry readAfter).1 found
      by_cases here : name = other
      · subst here
        refine .inr ⟨absent, fun m member => ?_⟩
        rw [registers.members_of_find? readAfter found, NameSet.mem_ofList_texts] at member
        obtain ⟨text, given, rfl⟩ := member
        exact (View.registered_iff faithful.read).2 (known text given)
      · rw [registers.others other here] at isDef read
        exact .inl ((View.find?_registry faithful.read).2 ⟨isDef, read⟩)
    | _ => cases found

theorem apart {m n : String} {b c : Bits} (atomicM : new.Atomic (.text m))
    (atomicN : new.Atomic (.text n)) (ownsM : later.Owns m b) (ownsN : later.Owns n c)
    (different : m ≠ n) : b.Disjoint c := by
  have enlarged := (registers.extends_registry faithful known fresh readAfter).enlarges
  have self (atomic : new.Atomic (.text name)) {other : String} {own : Bits}
      (owned : store.Owns other own) := registers.apart_self faithful readAfter atomic owned
  by_cases hereM : name = m <;> by_cases hereN : name = n
  · exact absurd (hereM.symm.trans hereN) different
  · subst hereM
    rw [registers.owns_self.1 ownsM]
    exact self atomicM ((registers.owns_other hereN).1 ownsN)
  · subst hereN
    rw [registers.owns_self.1 ownsN]
    exact (self atomicN ((registers.owns_other hereM).1 ownsM)).symm
  · have pastM := (registers.owns_other hereM).1 ownsM
    have pastN := (registers.owns_other hereN).1 ownsN
    have knownM := (View.registered_iff faithful.read).2 pastM.1
    have knownN := (View.registered_iff faithful.read).2 pastN.1
    exact faithful.apart m n b c ((enlarged.retains.atomic_iff knownM).1 atomicM)
      ((enlarged.retains.atomic_iff knownN).1 atomicN) pastM pastN different

/-- Each definition carries the bits of its leaves, the new one because its members did. -/
theorem represented {other : String} {own : Bits} (owned : later.Owns other own) :
    later.Represents new (.text other) own := by
  have extended := registers.extends_registry faithful known fresh readAfter
  have past : ∀ member stored, store.Owns member stored →
      later.Represents new (.text member) stored := by
    intro member stored was
    refine (faithful.represented member stored was).kept faithful.linked extended.enlarges
      ((View.registered_iff faithful.read).2 was.1) fun leaf bits known => ?_
    refine registers.owns_other ?_
    rintro rfl
    rw [Registry.Registered, View.find?_eq_none faithful.read fresh] at known
    cases known
  by_cases here : name = other
  · subst here
    have equal := registers.owns_self.1 owned
    subst equal
    obtain ⟨d, read, members⟩ := registers.definition_self
    have found : new.find? (.text name) = some d :=
      (View.find?_registry readAfter).2 ⟨registers.isDefinition, read⟩
    rcases registers.bits_cases faithful with ⟨none, -, -⟩ | ⟨some, union, -⟩
    · refine View.represents_of_atomic ⟨d, found, ?_⟩ owned
      rw [← Bool.not_eq_true, Definition.isAggregate_iff members]
      exact not_not_intro none
    · have same : ∀ a, a ∈ texts.map Scalar.text ↔ a ∈ d.members := by
        intro a
        rw [members, NameSet.mem_ofList_map]
      rw [union, BitsTable.unionOf_congr same]
      refine View.represents_of_union faithful.stored faithful.read found
        ((Definition.isAggregate_iff members).2 some) ?_ past
      intro m member
      obtain ⟨text, given, rfl⟩ := List.mem_map.1 ((same m).2 member)
      exact (View.registered_iff faithful.read).2 (known text given)
  · exact past other own ((registers.owns_other here).1 owned)

end Step

/-- A registration of a new name with registered members keeps bits faithful. -/
theorem faithful_after (registers : Registers store later name (texts.map Scalar.text) isAbstract
    bits) (faithful : store.Faithful old counter) (fresh : (store.child name).state = none)
    (known : ∀ m ∈ texts, (store.child m).isDefinition = true) :
    ∃ new next, later.Faithful new next := by
  have stored := registers.wellStored faithful.stored
  obtain ⟨new, readAfter⟩ := stored.registry_ok
  obtain ⟨next, moves, counted⟩ := registers.counted faithful known
  have extended := registers.extends_registry faithful known fresh readAfter
  refine ⟨new, next, ?_⟩
  constructor
  · exact stored
  · exact readAfter
  · exact extended.enlarges.linked faithful.linked
  · exact counted
  · have filled := faithful.filled
    have above := Commit.le_of_moves moves
    rw [Bits.isEmpty, beq_eq_false_iff_ne] at filled ⊢
    omega
  · exact fun m n b c => registers.apart faithful known fresh readAfter
  · exact fun name bits => registers.represented faithful known fresh readAfter

end Registration.Registers

namespace View.Faithful

variable {store : View} {registry : Registry} {counter : Bits} {names others : List String}

/-- Registered names have a leaf closure. -/
theorem resolve_ok (faithful : store.Faithful registry counter)
    (known : ∀ m ∈ names, registry.Registered (.text m)) :
    ∃ leaves, Aggregation.resolve registry (names.map Scalar.text) = .ok leaves ∧
      ∀ leaf, leaf ∈ leaves ↔ ∃ m ∈ names, LeafOf registry (.text m) leaf := by
  obtain ⟨leaves, found, right⟩ := faithful.linked.resolve_ok (List.forall_mem_map.2 known)
  refine ⟨leaves, found, fun leaf => (right leaf).trans ⟨?_, ?_⟩⟩
  · rintro ⟨a, here, inside⟩
    obtain ⟨m, member, rfl⟩ := List.mem_map.1 here
    exact ⟨m, member, inside⟩
  · rintro ⟨m, member, inside⟩
    exact ⟨.text m, List.mem_map_of_mem member, inside⟩

/-- The union of the bits of registered names holds the positions that their leaves hold. -/
theorem testBit_unionOf (faithful : store.Faithful registry counter)
    (known : ∀ m ∈ names, (store.child m).isDefinition = true) (i : Nat) :
    (BitsTable.unionOf store.bitsTable.entries (names.map Scalar.text)).value.testBit i = true ↔
      ∃ leaf bits, (∃ m ∈ names, LeafOf registry (.text m) leaf) ∧ store.Owns leaf bits ∧
        bits.value.testBit i = true := by
  have clean := faithful.stored.fault_bitsTable
  rw [BitsTable.testBit_unionOf]
  constructor
  · rintro ⟨a, here, own, found, held⟩
    obtain ⟨m, member, rfl⟩ := List.mem_map.1 here
    have owned := (find?_bitsTable clean).1 found
    obtain ⟨leaf, bits, inside, rest⟩ := (faithful.represented m own owned i).1 held
    exact ⟨leaf, bits, ⟨m, member, inside⟩, rest⟩
  · rintro ⟨leaf, bits, ⟨m, member, inside⟩, rest⟩
    obtain ⟨own, owned⟩ := faithful.stored.owns (known m member)
    have held := (faithful.represented m own owned i).2 ⟨leaf, bits, inside, rest⟩
    exact ⟨.text m, List.mem_map_of_mem member, own, (find?_bitsTable clean).2 owned, held⟩

/-- The leaves of registered names have the bits that the names have. -/
theorem unionOf_leaves (faithful : store.Faithful registry counter)
    (known : ∀ m ∈ names, (store.child m).isDefinition = true) {leaves : List String}
    (right : ∀ leaf, leaf ∈ leaves ↔ ∃ m ∈ names, LeafOf registry (.text m) leaf) :
    BitsTable.unionOf store.bitsTable.entries (leaves.map Scalar.text) =
      BitsTable.unionOf store.bitsTable.entries (names.map Scalar.text) := by
  have clean := faithful.stored.fault_bitsTable
  apply Bits.ext_testBit
  intro i
  rw [faithful.testBit_unionOf known, BitsTable.testBit_unionOf]
  constructor
  · rintro ⟨a, here, bits, found, held⟩
    obtain ⟨leaf, member, rfl⟩ := List.mem_map.1 here
    exact ⟨leaf, bits, (right leaf).1 member, (find?_bitsTable clean).1 found, held⟩
  · rintro ⟨leaf, bits, inside, owned, held⟩
    exact ⟨.text leaf, List.mem_map_of_mem ((right leaf).2 inside), bits,
      (find?_bitsTable clean).2 owned, held⟩

/-- Bits include others exactly if the leaves include the others' leaves. -/
theorem includes_iff (faithful : store.Faithful registry counter)
    (knownA : ∀ m ∈ names, (store.child m).isDefinition = true)
    (knownB : ∀ m ∈ others, (store.child m).isDefinition = true) :
    (∀ i,
        (BitsTable.unionOf store.bitsTable.entries (names.map Scalar.text)).value.testBit i = true →
        (BitsTable.unionOf store.bitsTable.entries (others.map Scalar.text)).value.testBit i =
          true) ↔
      ∀ leaf, (∃ m ∈ names, LeafOf registry (.text m) leaf) →
        ∃ m ∈ others, LeafOf registry (.text m) leaf := by
  simp only [faithful.testBit_unionOf knownA, faithful.testBit_unionOf knownB]
  constructor
  · rintro within leaf ⟨m, member, inside⟩
    have isDef : (store.child leaf).isDefinition = true := by
      obtain ⟨d, found, -⟩ := inside.2
      exact (registered_iff faithful.read).1 (Aggregation.registered_of_find? found)
    obtain ⟨bits, owned⟩ := faithful.stored.owns isDef
    -- the leaf holds a position, and no other leaf holds it
    obtain ⟨i, held⟩ := Bits.exists_testBit (faithful.counted.carried leaf bits owned)
    obtain ⟨other, own, ⟨n, member', inside'⟩, owned', held'⟩ :=
      within i ⟨leaf, bits, ⟨m, member, inside⟩, owned, held⟩
    by_cases same : leaf = other
    · subst same
      exact ⟨n, member', inside'⟩
    · have apart := faithful.apart leaf other bits own inside.2 inside'.2 owned owned' same
      exact (apart.not_both held held').elim
  · rintro within i ⟨leaf, bits, inside, rest⟩
    exact ⟨leaf, bits, within leaf inside, rest⟩

end View.Faithful

namespace Registration

/-- A store that registrations have made of a new one, each of a name that was free and with members
that were definitions. -/
inductive Built (settings : Settings) (start : Snapshot) (next : Bits) : Snapshot → Prop
  | founded : Built settings start next (start.putStore next settings)
  | registered {s after : Snapshot} {name : String} {members : List String} {isAbstract : Bool}
      {bits : Bits} (past : Built settings start next s)
      (fresh : ((s.privileges settings).child name).state = none)
      (known : ∀ m ∈ members, ((s.privileges settings).child m).isDefinition = true)
      (done : register s name (members.map Scalar.text) isAbstract settings = .ok (after, bits)) :
      Built settings start next after

variable {settings : Settings} {start s : Snapshot} {next : Bits}

theorem faithful_putStore (some : next.isEmpty = false) :
    ((start.putStore next settings).privileges settings).Faithful [] next := by
  have coherent : ((start.putStore next settings).privileges settings).Coherent [] :=
    Commit.coherent_putStore
  constructor
  · exact Commit.wellStored_putStore
  · exact Commit.registry_putStore
  · exact coherent.linked
  · exact Commit.countedBy_putStore
  · exact some
  · exact fun m n b c _ _ owned => absurd owned (Commit.not_owns_putStore m b)
  · exact fun name own owned => absurd owned (Commit.not_owns_putStore name own)

namespace Built

/-- Bits are faithful all along. -/
theorem faithful (built : Built settings start next s) (some : next.isEmpty = false) :
    ∃ registry counter, (s.privileges settings).Faithful registry counter := by
  induction built with
  | founded => exact ⟨[], next, faithful_putStore some⟩
  | @registered s after name members isAbstract bits past fresh known done ih =>
    obtain ⟨old, counter, faithful⟩ := ih
    obtain ⟨inOrder, ordered, registers⟩ := register_spec done
    obtain ⟨texts, sorted, same⟩ := NameSet.sorted_texts members
    rw [ordered] at sorted
    cases sorted
    exact registers.faithful_after faithful fresh fun m member => known m ((same m).1 member)

/-- A definition of texts can always be registered. -/
theorem register_ok (built : Built settings start next s) (some : next.isEmpty = false)
    (name : String) (members : List String) (isAbstract : Bool) :
    ∃ after bits, register s name (members.map Scalar.text) isAbstract settings =
      .ok (after, bits) := by
  obtain ⟨registry, counter, faithful⟩ := built.faithful some
  obtain ⟨value, found⟩ := Option.isSome_iff_exists.1 faithful.counted.present
  obtain ⟨texts, ordered, -⟩ := NameSet.sorted_texts members
  obtain ⟨node, state, -⟩ := Option.bind_eq_some_iff.1 found
  obtain ⟨bits, moved, allocated⟩ := allocate_ok faithful.stored.fault_bitsTable
    faithful.counted.read node (texts.map Scalar.text)
  exact ⟨_, bits, register_eq state ordered allocated⟩

/-- Registered names have the bits of their leaf closure, and other names hold all of these bits
exactly if their leaf closure includes it. -/
theorem bits_tell_closures (built : Built settings start next s) (some : next.isEmpty = false) :
    ∃ registry, (s.privileges settings).registry = .ok registry ∧
      ∀ names others : List String, (∀ m ∈ names, registry.Registered (.text m)) →
        (∀ m ∈ others, registry.Registered (.text m)) →
        ∃ leaves leaves' bits bits',
          Aggregation.resolve registry (names.map Scalar.text) = .ok leaves ∧
          Aggregation.resolve registry (others.map Scalar.text) = .ok leaves' ∧
          (∀ index : BitsIndex, index.store = s.privileges settings →
            (index.bitsOf (names.map Scalar.text)).1 = .ok bits ∧
            (index.bitsOf (leaves.map Scalar.text)).1 = .ok bits ∧
            (index.bitsOf (others.map Scalar.text)).1 = .ok bits') ∧
          ((∀ i, bits.value.testBit i = true → bits'.value.testBit i = true) ↔
            ∀ leaf ∈ leaves, leaf ∈ leaves') ∧
          (bits = bits' ↔ Aggregation.sameNames leaves leaves' = true) := by
  obtain ⟨registry, counter, faithful⟩ := built.faithful some
  have clean := faithful.stored.fault_bitsTable
  have isDefinition {names : List String} (known : ∀ m ∈ names, registry.Registered (.text m))
      (m : String) (member : m ∈ names) :
      ((s.privileges settings).child m).isDefinition = true :=
    (View.registered_iff faithful.read).1 (known m member)
  refine ⟨registry, faithful.read, fun names others knownA knownB => ?_⟩
  obtain ⟨leaves, foundA, rightA⟩ := faithful.resolve_ok knownA
  obtain ⟨leaves', foundB, rightB⟩ := faithful.resolve_ok knownB
  have within := faithful.includes_iff (isDefinition knownA) (isDefinition knownB)
  have within' := faithful.includes_iff (isDefinition knownB) (isDefinition knownA)
  simp only [← rightA, ← rightB] at within within'
  refine ⟨leaves, leaves', _, _, foundA, foundB, fun index here => ?_, within, ?_⟩
  · rw [← here] at clean
    have answer (asked : NameSet) : (index.bitsOf asked).1 =
        .ok (BitsTable.unionOf (s.privileges settings).bitsTable.entries asked) := by
      rw [BitsIndex.bitsOf_of_no_fault asked clean, here]
    refine ⟨answer _, ?_, answer _⟩
    rw [answer, faithful.unionOf_leaves (isDefinition knownA) rightA]
  · rw [Aggregation.sameNames_iff]
    constructor
    · intro equal leaf
      exact ⟨within.1 (fun i held => by rwa [← equal]) leaf,
        within'.1 (fun i held => by rwa [equal]) leaf⟩
    · intro same
      apply Bits.ext_testBit
      intro i
      exact ⟨within.2 (fun leaf => (same leaf).1) i, within'.2 (fun leaf => (same leaf).2) i⟩

end Built

open Commit (holding atom aggregate)

/-- From a counter at two positions, an aggregate of an aggregate is told to have the leaves of two
atomic privileges, by having their bits. -/
theorem closure_of_nested :
    let s := holding ⟨16⟩ [("read", atom ⟨5⟩), ("write", atom ⟨8⟩),
      ("rw", aggregate ⟨13⟩ ["read", "write"]), ("all", aggregate ⟨13⟩ ["rw"])]
    Built {} {} ⟨5⟩ s ∧ ∃ registry leaves leaves', s.privileges.registry = .ok registry ∧
      Aggregation.resolve registry [.text "all"] = .ok leaves ∧
      Aggregation.resolve registry [.text "write", .text "read"] = .ok leaves' ∧
      Aggregation.sameNames leaves leaves' = true := by
  intro s
  have none : Built {} {} ⟨5⟩ (holding ⟨5⟩ []) := .founded
  have read : register (holding ⟨5⟩ []) "read" (([] : List String).map Scalar.text) =
      .ok (holding ⟨8⟩ [("read", atom ⟨5⟩)], ⟨5⟩) := rfl
  have one := none.registered rfl (by simp) read
  have write : register (holding ⟨8⟩ [("read", atom ⟨5⟩)]) "write"
      (([] : List String).map Scalar.text) =
      .ok (holding ⟨16⟩ [("read", atom ⟨5⟩), ("write", atom ⟨8⟩)], ⟨8⟩) := rfl
  have two := one.registered rfl (by simp) write
  have rw : register (holding ⟨16⟩ [("read", atom ⟨5⟩), ("write", atom ⟨8⟩)]) "rw"
      (["write", "read"].map Scalar.text) =
      .ok (holding ⟨16⟩ [("read", atom ⟨5⟩), ("write", atom ⟨8⟩),
        ("rw", aggregate ⟨13⟩ ["read", "write"])], ⟨13⟩) := rfl
  have three := two.registered rfl (by decide +kernel) rw
  have all : register (holding ⟨16⟩ [("read", atom ⟨5⟩), ("write", atom ⟨8⟩),
      ("rw", aggregate ⟨13⟩ ["read", "write"])]) "all" (["rw"].map Scalar.text) =
      .ok (s, ⟨13⟩) := rfl
  have four := three.registered rfl (by decide +kernel) all
  obtain ⟨registry, read, told⟩ := four.bits_tell_closures rfl
  have known {m : String} (isDef : (s.privileges.child m).isDefinition = true) :
      registry.Registered (.text m) := (View.registered_iff read).2 isDef
  obtain ⟨leaves, leaves', bits, bits', foundA, foundB, answers, -, equal⟩ :=
    told ["all"] ["write", "read"] (by simpa using known (by decide +kernel)) (by
      simpa using ⟨known (by decide +kernel), known (by decide +kernel)⟩)
  obtain ⟨ofAll, -, ofBoth⟩ := answers ⟨s.privileges, false⟩ rfl
  have first : (.ok ⟨13⟩ : Except Fault Bits) = .ok bits := ofAll
  have second : (.ok ⟨13⟩ : Except Fault Bits) = .ok bits' := ofBoth
  refine ⟨four, registry, leaves, leaves', read, foundA, foundB, equal.1 ?_⟩
  exact (Except.ok.inj first).symm.trans (Except.ok.inj second)

end Registration

end PrivilegeStore
