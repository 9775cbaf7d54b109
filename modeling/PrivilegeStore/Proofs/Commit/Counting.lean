import PrivilegeStore.Proofs.Commit.History

/-!
# The counter along a run

Where bits and the counter are stored as lists of words, an accepted commit leaves the counter or
moves it to the bit above. A new atomic definition lies below the counter because it forces the
counter to the bit above its own bits. A new aggregate lies below it because the counter is a single
bit by then, and a union of bits below a single bit lies below it. So whatever a store is founded
with and however commits mix registrations with moves of the counter, all bits in the store stay
below the counter, which never goes back.
-/
namespace PrivilegeStore

namespace View

/-- Children are definitions, their bits and the counter being stored as lists of words. -/
structure StoredInWords (store : View) : Prop where
  definitions : store.OnlyDefinitions
  words : store.StoresWords
  counter : ∀ value, store.property? Schema.next = some value → value.IsWordList

/-- The counter is there and stands above the bits of all definitions, none of which are empty. Once
there is a definition the counter is a single bit. -/
structure CountedBy (store : View) (counter : Bits) : Prop where
  present : (store.property? Schema.next).isSome = true
  read : store.nextBits = .ok counter
  carried : ∀ name bits, store.Owns name bits → bits.isEmpty = false
  above : ∀ name bits, store.Owns name bits → bits.value < counter.value
  single : ∀ name bits, store.Owns name bits → counter.IsSingle

variable {store : View} {counter : Bits}

/-- A union of bits in the store is empty, or the counter is a single bit above it. -/
theorem CountedBy.above_union (counted : store.CountedBy counter)
    (clean : store.bitsTable.fault = none) (names : NameSet)
    (some : (BitsTable.unionOf store.bitsTable.entries names).isEmpty = false) :
    (BitsTable.unionOf store.bitsTable.entries names).value < counter.value ∧ counter.IsSingle := by
  by_cases defined : ∃ name bits, store.Owns name bits
  · obtain ⟨name, bits, owned⟩ := defined
    obtain ⟨k, position⟩ := counted.single name bits owned
    subst position
    refine ⟨BitsTable.unionOf_lt fun other stored found => ?_, k, rfl⟩
    exact counted.above other stored ((find?_bitsTable clean).1 found)
  -- without definitions the counter may be anything, but then the union is empty
  · have small : (BitsTable.unionOf store.bitsTable.entries names).value < 2 ^ 0 := by
      apply BitsTable.unionOf_lt
      intro name bits found
      exact absurd ⟨name, bits, (find?_bitsTable clean).1 found⟩ defined
    rw [Bits.isEmpty, beq_eq_false_iff_ne] at some
    omega

end View

namespace Commit

variable {settings : Settings} {before after start s : Snapshot} {name : String}
  {bits next counter later : Bits}

theorem le_of_moves (moves : later = counter ∨ later = counter.next) :
    counter.value ≤ later.value := by
  rcases moves with rfl | rfl
  · exact Nat.le_refl _
  · exact Nat.le_of_lt counter.value_lt_next

theorem isSingle_of_moves (moves : later = counter ∨ later = counter.next)
    (single : counter.IsSingle) : later.IsSingle := by
  rcases moves with rfl | rfl
  · exact single
  · exact counter.isSingle_next

/-- A store stays counted when its counter stays or moves on, and new bits lie below the counter. -/
theorem countedBy_of_moves {store grown : View} (counted : store.CountedBy counter)
    (moves : later = counter ∨ later = counter.next)
    (present : (grown.property? Schema.next).isSome = true) (read : grown.nextBits = .ok later)
    (each : ∀ name bits, grown.Owns name bits → store.Owns name bits ∨
      (bits.isEmpty = false ∧ bits.value < later.value ∧ later.IsSingle)) :
    grown.CountedBy later := by
  have all : ∀ name bits, grown.Owns name bits →
      bits.isEmpty = false ∧ bits.value < later.value ∧ later.IsSingle := by
    intro name bits owned
    rcases each name bits owned with was | new
    · exact ⟨counted.carried name bits was,
        Nat.lt_of_lt_of_le (counted.above name bits was) (le_of_moves moves),
        isSingle_of_moves moves (counted.single name bits was)⟩
    · exact new
  constructor
  · exact present
  · exact read
  · exact fun name bits owned => (all name bits owned).1
  · exact fun name bits owned => (all name bits owned).2.1
  · exact fun name bits owned => (all name bits owned).2.2

/-- The counter stays, or goes to the bit above. -/
theorem Accepts.counter_moves (accepted : Accepts settings before after)
    (storedBefore : (before.privileges settings).StoredInWords)
    (storedAfter : (after.privileges settings).StoredInWords)
    (present : ((before.privileges settings).property? Schema.next).isSome = true)
    (read : (before.privileges settings).nextBits = .ok counter) :
    ((after.privileges settings).property? Schema.next).isSome = true ∧
      ∃ later, (after.privileges settings).nextBits = .ok later ∧
        (later = counter ∨ later = counter.next) := by
  obtain ⟨value, found⟩ := Option.isSome_iff_exists.1 present
  obtain ⟨kept, there, same | ⟨-, known, was, moved⟩⟩ := accepted.property_kept found
  · have equal : value = kept :=
      (storedBefore.counter value found).eq_of_same (storedAfter.counter kept there) same
    refine ⟨by rw [there]; rfl, counter, ?_, .inl rfl⟩
    rw [View.nextBits, there, ← equal, ← found]
    exact read
  · have same : known = counter := Except.ok.inj (was.symm.trans read)
    subst same
    exact ⟨by rw [there]; rfl, known.next, moved, .inr rfl⟩

/-- Bits owned afterwards under a name that was there before were owned before. -/
theorem Accepts.owned_before (accepted : Accepts settings before after)
    (storedBefore : (before.privileges settings).StoredInWords)
    (storedAfter : (after.privileges settings).StoredInWords) {old : Node}
    (found : ((before.privileges settings).child name).state = some old)
    (owned : (after.privileges settings).Owns name bits) :
    (before.privileges settings).Owns name bits := by
  have isDef := storedBefore.definitions name old found
  refine ⟨View.isDefinition_iff.2 ⟨old, found, isDef⟩, ?_⟩
  rw [← accepted.bits_kept storedBefore.words storedAfter.words found isDef]
  exact owned.2

/-- Added bits are not empty, and the counter afterwards is a single bit above them. -/
theorem Accepts.added_below (accepted : Accepts settings before after)
    (counted : (before.privileges settings).CountedBy counter)
    (read : (after.privileges settings).nextBits = .ok later)
    (moves : later = counter ∨ later = counter.next)
    (fresh : ((before.privileges settings).child name).state = none)
    (owned : (after.privileges settings).Owns name bits) :
    bits.isEmpty = false ∧ bits.value < later.value ∧ later.IsSingle := by
  obtain ⟨child, there, isDef⟩ := owned.state
  obtain ⟨registry, definition, own, -, -, same, clean, some, terms⟩ :=
    accepted.admissible fresh there isDef
  have equal : own = bits := Except.ok.inj (same.symm.trans owned.2)
  subst equal
  refine ⟨some, ?_⟩
  rcases terms with ⟨-, terms⟩ | ⟨-, terms⟩
  -- an atomic definition has put the counter above itself, wherever the counter was before
  · have next : later = own.next := Except.ok.inj (read.symm.trans terms.counted)
    rw [next]
    exact ⟨own.value_lt_next, own.isSingle_next⟩
  -- the bits of an aggregate are below the counter as it was before
  · have union := terms.union
    rw [union] at some ⊢
    obtain ⟨below, single⟩ := counted.above_union clean definition.members some
    exact ⟨Nat.lt_of_lt_of_le below (le_of_moves moves), isSingle_of_moves moves single⟩

/-- An accepted commit keeps the store counted. -/
theorem Accepts.counted_after (accepted : Accepts settings before after)
    (storedBefore : (before.privileges settings).StoredInWords)
    (storedAfter : (after.privileges settings).StoredInWords)
    (counted : (before.privileges settings).CountedBy counter) :
    ∃ later, (after.privileges settings).CountedBy later ∧
      (later = counter ∨ later = counter.next) := by
  obtain ⟨present, later, read, moves⟩ :=
    accepted.counter_moves storedBefore storedAfter counted.present counted.read
  refine ⟨later, countedBy_of_moves counted moves present read fun name bits owned => ?_, moves⟩
  cases past : ((before.privileges settings).child name).state with
  | none => exact .inr (accepted.added_below counted read moves past owned)
  | some old => exact .inl (accepted.owned_before storedBefore storedAfter past owned)

/-- A run from a new store by accepted commits, each store on the way being stored in some way. -/
inductive Run (settings : Settings) (start : Snapshot) (next : Bits) (stored : View → Prop) :
    Snapshot → Prop
  | founded : Run settings start next stored (start.putStore next settings)
  | committed {before after : Snapshot} (past : Run settings start next stored before)
      (accepted : Accepts settings before after) (kept : stored (after.privileges settings)) :
      Run settings start next stored after

theorem property?_putStore :
    ((start.putStore next settings).privileges settings).property? Schema.next =
      some next.stored := by
  have different : Schema.primaryType ≠ Schema.next := by decide
  rw [privileges_putStore]
  simp [View.property?, Node.property?, Entries.find?, different]

theorem storedInWords_putStore :
    ((start.putStore next settings).privileges settings).StoredInWords := by
  constructor
  · exact wellStored_putStore.definitions
  · exact wellStored_putStore.words
  · intro value found
    rw [property?_putStore] at found
    cases found
    exact Bits.isWordList_stored next

/-- A new store has no definitions. -/
theorem not_owns_putStore (name : String) (bits : Bits) :
    ¬ ((start.putStore next settings).privileges settings).Owns name bits := by
  intro owned
  obtain ⟨child, there, -⟩ := owned.state
  rw [privileges_putStore] at there
  cases there

/-- Without definitions the counter of a new store may be anything. -/
theorem countedBy_putStore :
    ((start.putStore next settings).privileges settings).CountedBy next := by
  constructor
  · rw [property?_putStore]
    rfl
  · rw [View.nextBits, property?_putStore]
    exact Bits.ofValue_stored next
  · exact fun name bits owned => absurd owned (not_owns_putStore name bits)
  · exact fun name bits owned => absurd owned (not_owns_putStore name bits)
  · exact fun name bits owned => absurd owned (not_owns_putStore name bits)

namespace Run

theorem mono {stored weaker : View → Prop} (implies : ∀ store, stored store → weaker store)
    (run : Run settings start next stored s) : Run settings start next weaker s := by
  induction run with
  | founded => exact .founded
  | committed _ accepted kept ih => exact ih.committed accepted (implies _ kept)

theorem history (run : Run settings start next View.WellStored s) :
    History settings start next s := by
  induction run with
  | founded => exact .founded
  | committed _ accepted kept ih => exact ih.committed accepted kept

/-- Every store of a run is stored like the others, if the new one is. -/
theorem kept {stored : View → Prop} (run : Run settings start next stored s)
    (founding : stored ((start.putStore next settings).privileges settings)) :
    stored (s.privileges settings) := by
  cases run with
  | founded => exact founding
  | committed _ _ kept => exact kept

theorem storedInWords (run : Run settings start next View.StoredInWords s) :
    (s.privileges settings).StoredInWords :=
  run.kept storedInWords_putStore

/-- All along a run the store is counted, by a counter that has not gone back. -/
theorem countedBy (run : Run settings start next View.StoredInWords s) :
    ∃ counter, (s.privileges settings).CountedBy counter ∧ next.value ≤ counter.value := by
  induction run with
  | founded => exact ⟨next, countedBy_putStore, Nat.le_refl _⟩
  | committed past accepted kept ih =>
    obtain ⟨counter, counted, reached⟩ := ih
    obtain ⟨later, after, moves⟩ := accepted.counted_after past.storedInWords kept counted
    exact ⟨later, after, Nat.le_trans reached (le_of_moves moves)⟩

/-- All along a run the counter is there, above the bits of every definition, and the next commit
leaves it or moves it to the bit above. -/
theorem counter_in_order (run : Run settings start next View.StoredInWords s) :
    ((s.privileges settings).property? Schema.next).isSome = true ∧
      ∃ counter, (s.privileges settings).nextBits = .ok counter ∧
        (∀ name, ((s.privileges settings).child name).isDefinition = true →
          ∃ bits, ((s.privileges settings).child name).bits = .ok bits ∧
            bits.value < counter.value) ∧
        ∀ after, Accepts settings s after → (after.privileges settings).StoredInWords →
          ∃ later, (after.privileges settings).nextBits = .ok later ∧
            (later = counter ∨ later = counter.next) ∧ counter.value ≤ later.value := by
  obtain ⟨counter, counted, -⟩ := run.countedBy
  refine ⟨counted.present, counter, counted.read, ?_, ?_⟩
  · intro name isDef
    obtain ⟨child, there, -⟩ := View.isDefinition_iff.1 isDef
    obtain ⟨bits, read⟩ := View.bits_ok there (run.storedInWords.words name child there)
    exact ⟨bits, read, counted.above name bits ⟨isDef, read⟩⟩
  · intro after accepted kept
    obtain ⟨later, following, moves⟩ := accepted.counted_after run.storedInWords kept counted
    exact ⟨later, following.read, moves, le_of_moves moves⟩

end Run

theorem storedInWords_holding {next : Bits} {children : Entries Node}
    (stored : (holding next children).privileges.WellStored) :
    (holding next children).privileges.StoredInWords := by
  refine ⟨stored.definitions, stored.words, fun value found => ?_⟩
  have different : Schema.primaryType ≠ Schema.next := by decide
  rw [property?_holding] at found
  simp only [Entries.find?, if_neg different, if_true, Option.some.injEq] at found
  rw [← found]
  exact Bits.isWordList_stored next

/-- A counter at two positions is handed out like any other, and an aggregate stays below it. -/
theorem counter_in_order_of_both :
    let s := holding ⟨16⟩ [("read", atom ⟨5⟩), ("write", atom ⟨8⟩),
      ("both", Registration.definitionNode ⟨13⟩ [.text "read", .text "write"] false)]
    Run {} {} ⟨5⟩ View.StoredInWords s ∧
      ∃ bits, (s.privileges.child "both").bits = .ok bits ∧ bits.value < 16 := by
  intro s
  have none : Run {} {} ⟨5⟩ View.StoredInWords (holding ⟨5⟩ []) := .founded
  have one : Run {} {} ⟨5⟩ View.StoredInWords (holding ⟨8⟩ [("read", atom ⟨5⟩)]) := by
    refine none.committed (by decide +kernel) (storedInWords_holding (wellStored_holding ?_))
    simp only [List.forall_mem_cons]
    exact ⟨⟨⟨5⟩, [], rfl⟩, by simp⟩
  have two : Run {} {} ⟨5⟩ View.StoredInWords
      (holding ⟨16⟩ [("read", atom ⟨5⟩), ("write", atom ⟨8⟩)]) := by
    refine one.committed (by decide +kernel) (storedInWords_holding (wellStored_holding ?_))
    simp only [List.forall_mem_cons]
    exact ⟨⟨⟨5⟩, [], rfl⟩, ⟨⟨8⟩, [], rfl⟩, by simp⟩
  have three : Run {} {} ⟨5⟩ View.StoredInWords s := by
    refine two.committed (by decide +kernel) (storedInWords_holding (wellStored_holding ?_))
    simp only [List.forall_mem_cons]
    exact ⟨⟨⟨5⟩, [], rfl⟩, ⟨⟨8⟩, [], rfl⟩, ⟨⟨13⟩, ["read", "write"], rfl⟩, by simp⟩
  obtain ⟨-, counter, read, below, -⟩ := three.counter_in_order
  rw [nextBits_holding] at read
  cases read
  exact ⟨three, below "both" (by decide +kernel)⟩

end Commit

end PrivilegeStore
