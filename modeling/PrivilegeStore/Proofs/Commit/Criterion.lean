import PrivilegeStore.Proofs.Commit.Proposal

/-!
# When a commit is accepted

Where bits are stored as numbers or lists of them and members as lists of texts, all that rules look
at can be read, so that every commit comes to a verdict. What it says does not depend on the order
of the changes, on what the review keeps or on the ways out of it: the commit is accepted exactly if
what stands under each name is permitted to change as it does.
-/
namespace PrivilegeStore

/-- A number that fits into a word, or a list of such numbers. -/
def Value.IsBits (v : Value) : Prop := (∃ w : Nat, w < wordBound ∧ v = .int w) ∨ v.IsWordList

theorem Bits.ofValue_isBits {v : Value} (h : v.IsBits) : ∃ bits, ofValue v = .ok bits := by
  rcases h with ⟨w, fits, rfl⟩ | words
  · refine ⟨ofWords [w], ?_⟩
    rw [Value.int, ofValue, word_natCast fits]
    rfl
  · exact ofValue_isWordList words

theorem Bits.ofValue?_isBits {stored : Option Value} (h : ∀ v, stored = some v → v.IsBits) :
    ∃ bits, ofValue? stored = .ok bits := by
  cases stored with
  | none => exact ⟨empty, rfl⟩
  | some v => exact ofValue_isBits (h v rfl)

namespace View

/-- The counter and the bits of definitions are stored as numbers or lists of them, and members as
lists of texts. -/
structure StoredPlainly (store : View) : Prop where
  counter : ∀ v, store.property? Schema.next = some v → v.IsBits
  bits : ∀ name child, (store.child name).state = some child → child.isDefinition = true →
    ∀ v, child.property? Schema.bits = some v → v.IsBits
  members : ∀ name child, (store.child name).state = some child → child.isDefinition = true →
    child.StoresTexts

namespace StoredPlainly

variable {store : View} {name : String}

theorem nextBits_ok (plain : store.StoredPlainly) : ∃ counter, store.nextBits = .ok counter :=
  Bits.ofValue?_isBits plain.counter

theorem bits_ok (plain : store.StoredPlainly) (isDef : (store.child name).isDefinition = true) :
    ∃ bits, (store.child name).bits = .ok bits := by
  obtain ⟨child, there, isDef⟩ := isDefinition_iff.1 isDef
  rw [View.bits, property?_of_state there]
  exact Bits.ofValue?_isBits (plain.bits name child there isDef)

/-- A definition is read with texts as its members, which have an order. -/
theorem definition_ok (plain : store.StoredPlainly)
    (isDef : (store.child name).isDefinition = true) :
    ∃ d inOrder, (store.child name).definition = .ok d ∧
      NameSet.sorted d.members = .ok inOrder := by
  obtain ⟨child, there, isDef⟩ := isDefinition_iff.1 isDef
  obtain ⟨names, d, read, members⟩ :=
    View.definition_ok there (plain.members name child there isDef)
  obtain ⟨inOrder, ordered, -⟩ := NameSet.sorted_texts names
  exact ⟨d, _, read, by rwa [members]⟩

theorem registry_ok (plain : store.StoredPlainly) : ∃ registry, store.registry = .ok registry := by
  refine definitionsAmong_ok fun name _ isDef => ?_
  obtain ⟨d, -, read, -⟩ := plain.definition_ok isDef
  exact ⟨d, read⟩

theorem fault_bitsTable (plain : store.StoredPlainly) : store.bitsTable.fault = none :=
  fault_bitsAmong fun _ _ => plain.bits_ok

end StoredPlainly

/-- The counter and the bits of definitions are stored as lists of words, and members as lists of
texts. -/
structure StoredInLists (store : View) : Prop where
  counter : ∀ v, store.property? Schema.next = some v → v.IsWordList
  words : ∀ name child, (store.child name).state = some child → child.isDefinition = true →
    child.StoresWords
  texts : ∀ name child, (store.child name).state = some child → child.isDefinition = true →
    child.StoresTexts

theorem StoredInLists.storedPlainly {store : View} (lists : store.StoredInLists) :
    store.StoredPlainly where
  counter v found := .inr (lists.counter v found)
  bits name child there isDef v found := .inr (lists.words name child there isDef v found)
  members := lists.texts

theorem Regular.storedInLists {store : View} (regular : store.Regular) : store.StoredInLists where
  counter := regular.counter
  words name child there _ := regular.words name child there
  texts name child there _ := regular.texts name child there

theorem Regular.storedPlainly {store : View} (regular : store.Regular) : store.StoredPlainly :=
  regular.storedInLists.storedPlainly

end View

namespace Ruling

/-- A ruling accepts or names the rule that is broken. -/
def Decided (r : Ruling) : Prop := ∀ fault, r.outcome ≠ .error (.fault fault)

@[simp] theorem decided_accept : accept.Decided := by
  intro fault
  simp [accept]

@[simp] theorem decided_refuse (breach : Breach) : (refuse breach).Decided := by
  intro fault
  simp [refuse]

@[simp] theorem decided_after {r : Ruling} {notices : List Notice} :
    (r.after notices).Decided ↔ r.Decided := by
  simp only [Decided, outcome_after]

@[simp] theorem decided_onAccept {r : Ruling} {notice : Notice} :
    (r.onAccept notice).Decided ↔ r.Decided := by
  simp only [Decided, outcome_onAccept]

end Ruling

theorem Counter.decided_check {store : View} (readable : ∃ found, store.nextBits = .ok found)
    (bits : Bits) : (check bits store).Decided := by
  obtain ⟨found, read⟩ := readable
  rw [check, read]
  simp only
  split <;> simp

namespace Aggregation.Admission

variable {a : Admission} {definition : Definition} {bits : Bits} {inOrder : NameSet}

theorem decided_judgeAggregate (clean : a.index.store.bitsTable.fault = none)
    {members : NameSet} (ordered : NameSet.sorted members = .ok inOrder) (name : String)
    (bits : Bits) : (a.judgeAggregate name members bits).1.Decided := by
  rw [judgeAggregate, ordered]
  simp only
  split
  · simp
  · split
    · simp
    · rw [BitsIndex.bitsOf_of_no_fault _ clean]
      simp only
      split
      · split <;> simp
      · simp

/-- Where bits and the counter can be read and members have an order, every definition is decided
on. -/
theorem decided_judge (clean : a.index.store.bitsTable.fault = none)
    (readable : ∃ found, a.storeAfter.nextBits = .ok found)
    (ordered : NameSet.sorted definition.members = .ok inOrder) (bits : Bits) :
    (a.judge definition bits).1.Decided := by
  rw [judge]
  cases none : bits.isEmpty with
  | true => simp
  | false =>
    rw [BitsIndex.namesOf_of_no_fault none clean]
    simp only [Bool.false_eq_true, ↓reduceIte]
    split
    · rw [judgeAtomic]
      split
      · simpa using Counter.decided_check readable bits
      · simp
    · simp
    · exact decided_judgeAggregate (a := { a with index := { a.index with consulted := true } })
        clean ordered definition.name bits

end Aggregation.Admission

namespace Commit

open Aggregation (Admission)

variable {settings : Settings} {before after : Snapshot} {name : String} {child : Node} {e : Event}

/-- What a commit is permitted to do under each name: properties stay with their values, the counter
moves to the bit above if at all, definitions stay as they are, and those that are added are
admitted. -/
structure Permitted (settings : Settings) (before after : Snapshot) : Prop where
  properties : ∀ name old, (before.privileges settings).property? name = some old →
    ∃ new, (after.privileges settings).property? name = some new ∧
      (name ≠ Schema.next → old.same new = true)
  counter : ∀ old new, (before.privileges settings).property? Schema.next = some old →
    (after.privileges settings).property? Schema.next = some new → old.same new = false →
      ∃ bits, (before.privileges settings).nextBits = .ok bits ∧
        (after.privileges settings).nextBits = .ok bits.next
  definitions : ∀ name old, ((before.privileges settings).child name).state = some old →
    old.isDefinition = true →
      ∃ new, ((after.privileges settings).child name).state = some new ∧ old.same new = true
  additions : ∀ name child, ((before.privileges settings).child name).state = none →
    ((after.privileges settings).child name).state = some child → child.isDefinition = true →
      Admitted settings before after name child

theorem Accepts.permitted (accepted : Accepts settings before after) :
    Permitted settings before after := by
  constructor
  · intro name old found
    obtain ⟨new, there, kept⟩ := accepted.property_kept found
    refine ⟨new, there, fun other => ?_⟩
    rcases kept with same | ⟨here, -⟩
    · exact Value.same_iff.2 same
    · exact absurd here other
  · intro old new found there differ
    obtain ⟨later, there', kept⟩ := accepted.property_kept found
    rw [there] at there'
    cases there'
    rcases kept with same | ⟨-, moved⟩
    · rw [Value.same_iff.2 same] at differ
      contradiction
    · exact moved
  · exact fun name old found isDef => accepted.kept found isDef
  · exact fun name child fresh there isDef => accepted.admitted fresh there isDef

/-- Each change of a permitted commit passes. -/
theorem Permitted.passes (permitted : Permitted settings before after)
    (numbers : (before.privileges settings).WithoutNan)
    (member : e ∈ changes settings before after) : Passes settings before after e := by
  cases Node.mem_changes_iff.1 member with
  | propertyAdded => rfl
  | @propertyChanged name old new found there differ =>
    rw [property?_stateOf] at found there
    have different : old.same new = false := by
      rw [← Bool.not_eq_true, Value.same_iff]
      intro same
      rw [Value.differs_of_same (numbers name old found) same] at differ
      cases differ
    by_cases next : name = Schema.next
    · subst next
      obtain ⟨bits, read, moved⟩ := permitted.counter old new found there different
      exact passes_of_moved (present_of_property found) (present_of_property there) read moved
    · obtain ⟨new', there', same⟩ := permitted.properties name old found
      rw [there] at there'
      cases there'
      rw [same next] at different
      cases different
  | propertyDeleted found absent =>
    rw [property?_stateOf] at found absent
    obtain ⟨new, there, -⟩ := permitted.properties _ _ found
    rw [absent] at there
    cases there
  | @childAdded name child absent there =>
    rw [child?_stateOf] at absent there
    cases isDef : child.isDefinition with
    | false =>
      rw [passes_iff, Ruling.gist_eq_ok]
      simp [Review.judge, Event.childAdded, Review.judgeAdded, isDef, Ruling.accept]
    | true =>
      exact passes_of_admitted (permitted.additions name child absent there isDef) isDef
        (present_of_child there)
  | @childChanged name old new found there differ =>
    rw [child?_stateOf] at found there
    cases isDef : old.isDefinition with
    | false =>
      rw [passes_iff, Ruling.gist_eq_ok]
      simp [Review.judge, Event.childChanged, Review.judgeChanged, isDef, Ruling.accept]
    | true =>
      obtain ⟨new', there', same⟩ := permitted.definitions name old found isDef
      rw [there] at there'
      cases there'
      rw [differ] at same
      cases same
  | @childDeleted name old found absent =>
    rw [child?_stateOf] at found absent
    cases isDef : old.isDefinition with
    | false =>
      rw [passes_iff, Ruling.gist_eq_ok]
      simp [Review.judge, Event.childDeleted, Review.judgeDeleted, isDef, Ruling.accept]
    | true =>
      obtain ⟨new, there, -⟩ := permitted.definitions name old found isDef
      rw [absent] at there
      cases there

/-- A commit is accepted exactly if it is permitted. -/
theorem permitted_iff (numbers : (before.privileges settings).WithoutNan) :
    Accepts settings before after ↔ Permitted settings before after :=
  ⟨Accepts.permitted, fun permitted => accepts_of_passes fun _ => permitted.passes numbers⟩

section Reading

variable (plainBefore : (before.privileges settings).StoredPlainly)
  (plainAfter : (after.privileges settings).StoredPlainly)

include plainBefore plainAfter

theorem decided_judgeProperty (name : String) :
    ((review settings before after).judgeProperty name).Decided := by
  rw [Review.judgeProperty]
  split
  · simp
  · split
    · simp
    next storeBefore known =>
      obtain ⟨-, rfl⟩ := Review.store_eq_ok.1 known
      obtain ⟨counter, read⟩ := plainBefore.nextBits_ok
      rw [read]
      simp only
      split
      · simp
      next storeAfter known =>
        obtain ⟨-, rfl⟩ := Review.store_eq_ok.1 known
        exact Counter.decided_check plainAfter.nextBits_ok counter

theorem decided_judgeAdded (there : ((after.privileges settings).child name).state = some child) :
    ((review settings before after).judgeAdded name child).1.Decided := by
  have present := Review.store_eq_ok.2 ⟨present_of_child there, rfl⟩
  rw [Review.judgeAdded]
  split
  · simp
  next isDef =>
    split
    · simp
    · split
      · simp
      next storeBefore known =>
        obtain ⟨-, rfl⟩ := Review.store_eq_ok.1 known
        have nowDef : ((after.privileges settings).child name).isDefinition = true := by
          rw [View.isDefinition_of_state there]
          simpa using isDef
        obtain ⟨registry, listed⟩ := plainBefore.registry_ok
        obtain ⟨d, inOrder, named, ordered⟩ := plainAfter.definition_ok nowDef
        obtain ⟨bits, read⟩ := plainAfter.bits_ok nowDef
        have tree : (before.privileges settings).below name (some child) = _ := below_eq_child there
        have judged := Admission.decided_judge
          (a := Admission.start registry (before.privileges settings) (after.privileges settings))
          plainBefore.fault_bitsTable plainAfter.nextBits_ok ordered bits
        simpa only [Review.openAdmission, listed, present, Review.judgeDefinition, tree, named,
          read, Ruling.decided_after, Ruling.decided_onAccept] using judged

/-- Every change of the store can be judged. -/
theorem decided_judge (member : e ∈ changes settings before after) :
    ((review settings before after).judge e).1.Decided := by
  cases Node.mem_changes_iff.1 member with
  | propertyAdded => exact Ruling.decided_accept
  | propertyChanged => exact decided_judgeProperty plainBefore plainAfter _
  | propertyDeleted => exact Ruling.decided_refuse _
  | childAdded absent there =>
    rw [child?_stateOf] at there
    exact decided_judgeAdded plainBefore plainAfter there
  | @childChanged name old new =>
    cases isDef : old.isDefinition <;> cases same : old.same new <;>
      simp [Review.judge, Event.childChanged, Review.judgeChanged, Review.holdsSame, isDef, same]
  | @childDeleted name old =>
    cases isDef : old.isDefinition <;>
      simp [Review.judge, Event.childDeleted, Review.judgeDeleted, isDef]

end Reading

theorem verdictOn_ok (decided : ((review settings before after).judge e).1.Decided) :
    ∃ v, (verdictOn before after settings e).result = .ok v := by
  rw [verdictOn]
  cases judged : ((review settings before after).judge e).1.outcome with
  | ok accepted => simp only [judged, Except.ok.injEq, exists_eq']
  | error failure =>
    cases failure with
    | breach breach => simp only [judged, Except.ok.injEq, exists_eq']
    | fault fault => exact absurd judged (decided fault)

/-- Where every change can be judged there is a verdict. -/
theorem verdict_ok (decided : ∀ e ∈ changes settings before after,
    ((review settings before after).judge e).1.Decided) :
    ∃ v, (verdict before after settings).result = .ok v := by
  have settled : (reviewing settings before after none).Settled :=
    Review.settled_anew (review settings before after)
  rw [verdict]
  split
  · exact ⟨_, rfl⟩
  · rcases pass_or_stop settings before after (changes settings before after) with
      all | ⟨passed, e, rest, split, all, stops⟩
    · obtain ⟨later, -, equal⟩ := verdictFrom_append settled 0 all []
      rw [List.append_nil] at equal
      exact ⟨_, equal⟩
    -- the first change that does not pass decides, and not for a fault
    · obtain ⟨later, settled', equal⟩ := verdictFrom_append settled 0 all (e :: rest)
      have stopped := verdictFrom_of_not_passes settled' (0 + passed.length) rest stops
      obtain ⟨apart, judged⟩ := verdictOn_ok (decided e (by rw [split]; simp))
      rw [← equal, ← split, Decides, judged] at stopped
      obtain ⟨v, reached, -⟩ := stopped
      exact ⟨v, reached⟩

/-- Every commit on plainly stored definitions gets a verdict, and it is accepted exactly if it does
what is permitted under each name. -/
theorem verdict_of_permitted (numbers : (before.privileges settings).WithoutNan)
    (plainBefore : (before.privileges settings).StoredPlainly)
    (plainAfter : (after.privileges settings).StoredPlainly) :
    ∃ v, (verdict before after settings).result = .ok v ∧
      (v.isAccepted = true ↔ Permitted settings before after) := by
  obtain ⟨v, reached⟩ := verdict_ok fun e member => decided_judge plainBefore plainAfter member
  refine ⟨v, reached, ?_⟩
  rw [← permitted_iff numbers, accepts_iff, reached]
  simp

/-- A second privilege may be added to a store, and may not be taken out of it again. -/
theorem second_permitted :
    let before := holding ⟨2⟩ [("read", atom ⟨1⟩)]
    let after := holding ⟨4⟩ [("read", atom ⟨1⟩), ("write", atom ⟨2⟩)]
    (Accepts {} before after ∧ Permitted {} before after) ∧
      ¬ Accepts {} after before ∧ ¬ Permitted {} after before := by
  intro before after
  have plainBefore : before.privileges.StoredPlainly := by
    refine (regular_holding ?_).storedPlainly
    simp only [List.forall_mem_cons]
    exact ⟨⟨⟨1⟩, [], rfl⟩, by simp⟩
  have plainAfter : after.privileges.StoredPlainly := by
    refine (regular_holding ?_).storedPlainly
    simp only [List.forall_mem_cons]
    exact ⟨⟨⟨1⟩, [], rfl⟩, ⟨⟨2⟩, [], rfl⟩, by simp⟩
  have added : Accepts {} before after := by decide +kernel
  have removed : ¬ Accepts {} after before := by decide +kernel
  refine ⟨⟨added, ?_⟩, removed, fun permitted => ?_⟩
  · obtain ⟨v, reached, criterion⟩ :=
      verdict_of_permitted withoutNan_holding plainBefore plainAfter
    obtain ⟨w, same, accepted⟩ := accepts_iff.1 added
    rw [reached] at same
    cases same
    exact criterion.1 accepted
  · obtain ⟨v, reached, criterion⟩ :=
      verdict_of_permitted withoutNan_holding plainAfter plainBefore
    exact removed (accepts_iff.2 ⟨v, reached, criterion.2 permitted⟩)

end Commit

end PrivilegeStore
