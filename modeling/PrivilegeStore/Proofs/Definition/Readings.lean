import Mathlib.Algebra.Group.Nat.Defs
import PrivilegeStore.Definition.BitsTable
import PrivilegeStore.Proofs.Aggregation.Reachability
import PrivilegeStore.Proofs.Bits.Words
import PrivilegeStore.Registration

/-!
# What is read from a store

The registry and the bits table of a store are looked up child by child: a name is found in them
exactly when the child of that name is a definition, with what the child's own view reads. Two same
nodes read the same where bits are stored as lists of words and members as lists of texts.
-/
namespace PrivilegeStore

namespace View

variable {store : View} {name : String}

theorem isDefinition_iff {v : View} :
    v.isDefinition = true ↔ ∃ n, v.state = some n ∧ n.isDefinition = true := by
  cases h : v.state <;> simp [isDefinition, h]

theorem isDefinition_of_state {v : View} {n : Node} (h : v.state = some n) :
    v.isDefinition = n.isDefinition := by
  simp [isDefinition, h]

theorem mem_childNames :
    name ∈ store.childNames ↔ ∃ child, (store.child name).state = some child := by
  cases h : store.state with
  | none => simp [childNames, child, below, h]
  | some node =>
    simp only [childNames, h, Option.map_some, Option.getD_some, child, below, Option.bind_some]
    exact Entries.mem_names

theorem mem_childNames_of_isDefinition (h : (store.child name).isDefinition = true) :
    name ∈ store.childNames := by
  obtain ⟨n, there, -⟩ := isDefinition_iff.1 h
  exact mem_childNames.2 ⟨n, there⟩

theorem find?_definitionsAmong {names : List String} {registry : Registry} {d : Definition}
    (h : store.definitionsAmong names = .ok registry) :
    Entries.find? name registry = some d ↔
      name ∈ names ∧ (store.child name).isDefinition = true ∧
        (store.child name).definition = .ok d := by
  induction names generalizing registry with
  | nil =>
    cases h
    simp
  | cons n rest ih =>
    rw [definitionsAmong] at h
    cases isDef : (store.child n).isDefinition with
    | false =>
      simp only [isDef, Bool.false_eq_true, ↓reduceIte] at h
      rw [ih h]
      by_cases here : name = n
      · subst here
        simp [isDef]
      · simp [here]
    | true =>
      simp only [isDef, ↓reduceIte] at h
      split at h
      · contradiction
      next first read =>
        split at h
        · contradiction
        next others later =>
          cases h
          rw [Entries.find?]
          by_cases here : n = name
          · subst here
            simp [isDef, read]
          · rw [if_neg here, ih later]
            simp [Ne.symm here]

/-- What a registry holds under a name is the definition of the child of that name. -/
theorem find?_registry {registry : Registry} {d : Definition} (h : store.registry = .ok registry) :
    Entries.find? name registry = some d ↔
      (store.child name).isDefinition = true ∧ (store.child name).definition = .ok d := by
  rw [find?_definitionsAmong h]
  constructor
  · rintro ⟨-, rest⟩
    exact rest
  · intro rest
    exact ⟨mem_childNames_of_isDefinition rest.1, rest⟩

theorem mem_definitionsAmong {names : List String} {registry : Registry}
    {entry : String × Definition} (h : store.definitionsAmong names = .ok registry)
    (member : entry ∈ registry) :
    (store.child entry.1).isDefinition = true ∧ (store.child entry.1).definition = .ok entry.2 := by
  induction names generalizing registry with
  | nil =>
    cases h
    exact absurd member List.not_mem_nil
  | cons n rest ih =>
    rw [definitionsAmong] at h
    split at h
    next isDef =>
      split at h
      · contradiction
      next first read =>
        split at h
        · contradiction
        next others later =>
          cases h
          rcases List.mem_cons.1 member with rfl | member
          · exact ⟨isDef, read⟩
          · exact ih later member
    next => exact ih h member

/-- Registered are the names among those asked for that are definitions, in the same order. -/
theorem names_definitionsAmong {names : List String} {registry : Registry}
    (h : store.definitionsAmong names = .ok registry) :
    registry.map Prod.fst = names.filter fun name => (store.child name).isDefinition := by
  induction names generalizing registry with
  | nil =>
    cases h
    rfl
  | cons n rest ih =>
    rw [definitionsAmong] at h
    split at h
    next isDef =>
      split at h
      · contradiction
      next first read =>
        split at h
        · contradiction
        next others later =>
          cases h
          rw [List.filter_cons, if_pos isDef, List.map_cons, ih later]
    next noDef => rw [List.filter_cons, if_neg noDef, ih h]

/-- Every name is registered once. -/
theorem nodup_names_registry {registry : Registry} (h : store.registry = .ok registry) :
    (registry.map Prod.fst).Nodup := by
  have once : store.childNames.Nodup := by
    rw [childNames]
    cases store.state with
    | none => exact .nil
    | some node => exact Entries.names_nodup node.children
  rw [names_definitionsAmong h]
  exact once.filter _

/-- Every entry of a registry is the one that is found under its name. -/
theorem find?_of_mem_registry {registry : Registry} {entry : String × Definition}
    (h : store.registry = .ok registry) (member : entry ∈ registry) :
    Entries.find? entry.1 registry = some entry.2 :=
  (find?_registry h).2 (mem_definitionsAmong h member)

theorem definitionsAmong_ok {names : List String}
    (readable : ∀ n ∈ names, (store.child n).isDefinition = true →
      ∃ d, (store.child n).definition = .ok d) :
    ∃ registry, store.definitionsAmong names = .ok registry := by
  induction names with
  | nil => exact ⟨[], rfl⟩
  | cons n rest ih =>
    obtain ⟨others, later⟩ := ih fun m member => readable m (List.mem_cons_of_mem _ member)
    rw [definitionsAmong]
    split
    next isDef =>
      obtain ⟨d, read⟩ := readable n List.mem_cons_self isDef
      simp [read, later]
    next => exact ⟨others, later⟩

/-- A registered name is a definition that could be read. -/
theorem definition_of_registry {registry : Registry} (h : store.registry = .ok registry)
    (isDef : (store.child name).isDefinition = true) :
    ∃ d, (store.child name).definition = .ok d := by
  have member := mem_childNames_of_isDefinition isDef
  unfold View.registry at h
  generalize store.childNames = names at *
  induction names generalizing registry with
  | nil => exact absurd member List.not_mem_nil
  | cons n rest ih =>
    rw [definitionsAmong] at h
    rcases List.mem_cons.1 member with rfl | member
    · simp only [isDef, ↓reduceIte] at h
      split at h
      · contradiction
      next d read => exact ⟨d, read⟩
    · split at h
      · split at h
        · contradiction
        · split at h
          · contradiction
          next others later => exact ih later member
      · exact ih h member

theorem find?_bitsAmong {names : List String} {bits : Bits}
    (h : (store.bitsAmong names).fault = none) :
    Entries.find? name (store.bitsAmong names).entries = some bits ↔
      name ∈ names ∧ (store.child name).isDefinition = true ∧
        (store.child name).bits = .ok bits := by
  induction names with
  | nil => simp [bitsAmong]
  | cons n rest ih =>
    rw [bitsAmong] at h ⊢
    cases isDef : (store.child n).isDefinition with
    | false =>
      simp only [isDef, Bool.false_eq_true, ↓reduceIte] at h ⊢
      rw [ih h]
      by_cases here : name = n
      · subst here
        simp [isDef]
      · simp [here]
    | true =>
      simp only [isDef, ↓reduceIte] at h ⊢
      cases read : (store.child n).bits with
      | error fault => simp [read] at h
      | ok first =>
        simp only [read] at h ⊢
        rw [Entries.find?]
        by_cases here : n = name
        · subst here
          simp [isDef, read]
        · rw [if_neg here, ih h]
          simp [Ne.symm here]

/-- What a bits table without a fault holds under a name is the bits of the child of that name. -/
theorem find?_bitsTable {bits : Bits} (h : store.bitsTable.fault = none) :
    Entries.find? name store.bitsTable.entries = some bits ↔
      (store.child name).isDefinition = true ∧ (store.child name).bits = .ok bits := by
  rw [bitsTable, find?_bitsAmong h]
  constructor
  · rintro ⟨-, rest⟩
    exact rest
  · intro rest
    exact ⟨mem_childNames_of_isDefinition rest.1, rest⟩

theorem mem_bitsAmong {names : List String} {entry : String × Bits}
    (member : entry ∈ (store.bitsAmong names).entries) :
    (store.child entry.1).isDefinition = true ∧ (store.child entry.1).bits = .ok entry.2 := by
  induction names with
  | nil => exact absurd member List.not_mem_nil
  | cons n rest ih =>
    rw [bitsAmong] at member
    split at member
    next isDef =>
      split at member
      · exact absurd member List.not_mem_nil
      next first read =>
        rcases List.mem_cons.1 member with rfl | member
        · exact ⟨isDef, read⟩
        · exact ih member
    next => exact ih member

theorem fault_bitsAmong {names : List String}
    (readable : ∀ n ∈ names, (store.child n).isDefinition = true →
      ∃ bits, (store.child n).bits = .ok bits) :
    (store.bitsAmong names).fault = none := by
  induction names with
  | nil => rfl
  | cons n rest ih =>
    have later := ih fun m member => readable m (List.mem_cons_of_mem _ member)
    rw [bitsAmong]
    split
    next isDef =>
      obtain ⟨bits, read⟩ := readable n List.mem_cons_self isDef
      simp [read, later]
    next => exact later

theorem bits_of_bitsAmong {names : List String}
    (clean : (store.bitsAmong names).fault = none) (member : name ∈ names)
    (isDef : (store.child name).isDefinition = true) :
    ∃ bits, (store.child name).bits = .ok bits := by
  induction names with
  | nil => exact absurd member List.not_mem_nil
  | cons n rest ih =>
    rw [bitsAmong] at clean
    rcases List.mem_cons.1 member with rfl | member
    · cases read : (store.child name).bits with
      | error fault => simp [isDef, read] at clean
      | ok bits => exact ⟨bits, rfl⟩
    · split at clean
      · split at clean
        · contradiction
        · exact ih clean member
      · exact ih clean member

/-- The bits of every definition can be read. -/
def BitsReadable (store : View) : Prop :=
  ∀ name, (store.child name).isDefinition = true → ∃ bits, (store.child name).bits = .ok bits

theorem BitsReadable.clean (readable : store.BitsReadable) : store.bitsTable.fault = none :=
  fault_bitsAmong fun name _ => readable name

theorem bitsReadable_iff : store.BitsReadable ↔ store.bitsTable.fault = none :=
  ⟨BitsReadable.clean, fun clean _ isDef =>
    bits_of_bitsAmong clean (mem_childNames_of_isDefinition isDef) isDef⟩

end View

namespace BitsTable

/-- Nobody owns bits that no entry holds. -/
theorem ownersOf_eq_nil {entries : Entries Bits} {bits : Bits} (h : ownersOf entries bits = [])
    {name : String} {stored : Bits} (found : Entries.find? name entries = some stored) :
    stored ≠ bits := by
  rw [ownersOf, List.map_eq_nil_iff, List.filter_eq_nil_iff] at h
  have entry := h _ (Entries.mem_of_find? found)
  simpa using entry

end BitsTable

namespace Value

/-- A list of numbers that fit into words. -/
def IsWordList (v : Value) : Prop :=
  ∃ words : List Nat, (∀ w ∈ words, w < wordBound) ∧ v = .list (words.map fun (w : Nat) => .int w)

/-- A list of texts. -/
def IsTextList (v : Value) : Prop := ∃ names : List String, v = .texts names

theorem IsWordList.eq_of_same {v w : Value} (hv : v.IsWordList) (hw : w.IsWordList)
    (same : v.form = w.form) : v = w := by
  obtain ⟨xs, -, rfl⟩ := hv
  obtain ⟨ys, -, rfl⟩ := hw
  rw [formItems_ints_injective (Form.list.inj same)]

theorem IsTextList.eq_of_same {v w : Value} (hv : v.IsTextList) (hw : w.IsTextList)
    (same : v.form = w.form) : v = w := by
  obtain ⟨xs, rfl⟩ := hv
  obtain ⟨ys, rfl⟩ := hw
  rw [formItems_texts_injective (Form.list.inj same)]

end Value

namespace Bits

/-- A list of words is read by joining them. -/
theorem ofValue_isWordList {v : Value} (h : v.IsWordList) : ∃ bits, ofValue v = .ok bits := by
  obtain ⟨words, bounded, rfl⟩ := h
  exact ⟨ofWords words, by simp [ofValue, Value.elements, words_ints bounded, Except.map]⟩

/-- Bits are stored as a list of words. -/
theorem isWordList_stored (b : Bits) : b.stored.IsWordList :=
  ⟨b.toWords, fun _ => toWords_bounded, rfl⟩

end Bits

namespace Definition

theorem scalars_length {elements : List Value} {names : List Scalar}
    (h : NameSet.scalars elements = .ok names) : names.length = elements.length := by
  induction elements generalizing names with
  | nil =>
    cases h
    rfl
  | cons element rest ih =>
    cases element with
    | scalar s =>
      rw [NameSet.scalars] at h
      split at h
      · contradiction
      next others later =>
        cases h
        simp [ih later]
    | _ => simp [NameSet.scalars] at h

theorem ofValues_ne_nil {element : Value} {rest : List Value} :
    NameSet.ofValues (element :: rest) ≠ .ok [] := by
  intro h
  rw [NameSet.ofValues] at h
  cases read : NameSet.scalars (element :: rest) with
  | error fault =>
    rw [read] at h
    cases h
  | ok names =>
    rw [read] at h
    have length := scalars_length read
    cases names with
    | nil => simp at length
    | cons name others => simp [Except.map, NameSet.ofList] at h

/-- A stored value declares no member exactly if it is void. -/
theorem declared_eq_nil {v : Value} : declared v = .ok [] ↔ v.isVoid = true := by
  cases void : v.isVoid with
  | true => simp [declared, void]
  | false =>
    simp only [Bool.false_eq_true, iff_false]
    cases v with
    | scalar s => cases s <;> simp [declared, void, NameSet.ofValue, Value.elements]
    | list items =>
      cases items with
      | nil => simp [Value.isVoid] at void
      | cons item rest =>
        simp only [declared, void]
        exact ofValues_ne_nil
    | object entries =>
      cases entries with
      | nil => simp [Value.isVoid] at void
      | cons entry rest =>
        simp only [declared, void]
        exact ofValues_ne_nil

theorem scalars_texts (names : List String) :
    NameSet.scalars (names.map Value.text) = .ok (names.map Scalar.text) := by
  induction names with
  | nil => rfl
  | cons name rest ih => simp [NameSet.scalars, Value.text, ih]

/-- A list of texts declares these texts. -/
theorem declared_texts (names : List String) :
    declared (.texts names) = .ok (NameSet.ofList (names.map Scalar.text)) := by
  cases names with
  | nil => rfl
  | cons name rest =>
    simp [declared, Value.texts, Value.isVoid, NameSet.ofValue, Value.elements, NameSet.ofValues,
      scalars_texts, Except.map, -List.map_cons]

end Definition

namespace NameSet

/-- A set with two names has two that are not the same. -/
theorem two_of_ofList {names : List Scalar} (enough : 2 ≤ (ofList names).length) :
    ∃ m ∈ ofList names, ∃ n ∈ ofList names, m.same n = false := by
  cases names with
  | nil => simp [ofList] at enough
  | cons m rest =>
    rw [ofList] at enough ⊢
    cases others : (ofList rest).filter fun other => !m.same other with
    | nil => simp [others] at enough
    | cons n _ =>
      have kept : n ∈ (ofList rest).filter fun other => !m.same other := by
        rw [others]
        exact List.mem_cons_self
      have different := (List.mem_filter.1 kept).2
      rw [Bool.not_eq_true'] at different
      exact ⟨m, List.mem_cons_self, n, List.mem_cons_of_mem _ List.mem_cons_self, different⟩

end NameSet

namespace Node

/-- Bits, where there are any, are stored as a list of words. -/
def StoresWords (n : Node) : Prop := ∀ v, n.property? Schema.bits = some v → v.IsWordList

/-- Members, where there are any, are stored as a list of texts. -/
def StoresTexts (n : Node) : Prop := ∀ v, n.property? Schema.aggregates = some v → v.IsTextList

end Node

namespace Registration

variable {bits : Bits} {members : NameSet} {isAbstract : Bool}

theorem isDefinition_definitionNode :
    (definitionNode bits members isAbstract).isDefinition = true := by
  simp [Node.isDefinition, Node.property?, definitionNode, Entries.find?, Value.text, Value.text?,
    Scalar.text?]

theorem storesWords_definitionNode : (definitionNode bits members isAbstract).StoresWords := by
  intro v found
  have different : Schema.primaryType ≠ Schema.bits := by decide
  simp only [Node.property?, definitionNode, List.cons_append, Entries.find?, if_neg different,
    if_true, Option.some.injEq] at found
  rw [← found]
  exact Bits.isWordList_stored bits

theorem bits_of_definitionNode {v : View}
    (h : v.state = some (definitionNode bits members isAbstract)) : v.bits = .ok bits := by
  have different : Schema.primaryType ≠ Schema.bits := by decide
  rw [View.bits, View.property?, h]
  simp only [Option.bind_some, Node.property?, definitionNode, List.cons_append, Entries.find?,
    if_neg different, if_true]
  exact Bits.ofValue_stored bits

/-- A definition is written with the members that it was made for, if there are any. -/
theorem aggregates_definitionNode (names : List String) :
    (definitionNode bits (names.map Scalar.text) isAbstract).property? Schema.aggregates =
      if names = [] then none else some (.texts names) := by
  have first : Schema.primaryType ≠ Schema.aggregates := by decide
  have second : Schema.bits ≠ Schema.aggregates := by decide
  have third : Schema.isAbstract ≠ Schema.aggregates := by decide
  cases names with
  | nil =>
    cases isAbstract <;> simp [Node.property?, definitionNode, Entries.find?, first, second, third]
  | cons m rest =>
    simp [Node.property?, definitionNode, Entries.find?, first, second, Value.texts, Value.text]

theorem storesTexts_definitionNode {names : List String} :
    (definitionNode bits (names.map Scalar.text) isAbstract).StoresTexts := by
  intro v found
  rw [aggregates_definitionNode] at found
  split at found
  · cases found
  · exact ⟨names, (Option.some.inj found).symm⟩

end Registration

namespace View

/-- Every child is a definition. -/
def OnlyDefinitions (store : View) : Prop :=
  ∀ name child, (store.child name).state = some child → child.isDefinition = true

/-- Every child stores its bits as a list of words. -/
def StoresWords (store : View) : Prop :=
  ∀ name child, (store.child name).state = some child → child.StoresWords

/-- Every child stores its members as a list of texts. -/
def StoresTexts (store : View) : Prop :=
  ∀ name child, (store.child name).state = some child → child.StoresTexts

/-- A definition with its bits. -/
def Owns (store : View) (name : String) (bits : Bits) : Prop :=
  (store.child name).isDefinition = true ∧ (store.child name).bits = .ok bits

theorem Owns.unique {store : View} {name : String} {b c : Bits} (hb : store.Owns name b)
    (hc : store.Owns name c) : b = c :=
  Except.ok.inj (hb.2.symm.trans hc.2)

theorem Owns.state {store : View} {name : String} {bits : Bits} (h : store.Owns name bits) :
    ∃ child, (store.child name).state = some child ∧ child.isDefinition = true :=
  isDefinition_iff.1 h.1

variable {v w : View} {a b : Node}

theorem property?_of_state (h : v.state = some a) (name : String) :
    v.property? name = a.property? name := by
  simp [property?, h]

theorem property?_cases (ha : v.state = some a) (hb : w.state = some b) (same : a.same b = true)
    (name : String) : (v.property? name = none ∧ w.property? name = none) ∨
      ∃ x y, v.property? name = some x ∧ w.property? name = some y ∧ x.form = y.form := by
  rw [property?_of_state ha, property?_of_state hb]
  exact Node.property?_cases same name

/-- Equal stored values under one name, for two same nodes whose values of that name are written in
one way only. -/
theorem property?_eq_of_same (ha : v.state = some a) (hb : w.state = some b)
    (same : a.same b = true) {name : String} {form : Value → Prop}
    (sa : ∀ value, a.property? name = some value → form value)
    (sb : ∀ value, b.property? name = some value → form value)
    (unique : ∀ x y, form x → form y → x.form = y.form → x = y) :
    v.property? name = w.property? name := by
  rcases property?_cases ha hb same name with ⟨left, right⟩ | ⟨x, y, left, right, equal⟩
  · rw [left, right]
  · rw [left, right]
    rw [property?_of_state ha] at left
    rw [property?_of_state hb] at right
    rw [unique x y (sa x left) (sb y right) equal]

theorem bits_of_same (ha : v.state = some a) (hb : w.state = some b) (same : a.same b = true)
    (sa : a.StoresWords) (sb : b.StoresWords) : v.bits = w.bits := by
  rw [bits, bits, property?_eq_of_same ha hb same sa sb fun _ _ => Value.IsWordList.eq_of_same]

/-- Bits that no definition has are not owned. -/
theorem ownersOf_bitsTable {store : View} {bits : Bits}
    (unused : ∀ name stored, store.Owns name stored → stored ≠ bits) :
    BitsTable.ownersOf store.bitsTable.entries bits = [] := by
  rw [BitsTable.ownersOf, List.map_eq_nil_iff, List.filter_eq_nil_iff]
  intro entry member
  have other := unused entry.1 entry.2 (mem_bitsAmong member)
  simpa using other

/-- Two same nodes are abstract or not alike. -/
theorem isAbstract_of_same (ha : v.state = some a) (hb : w.state = some b)
    (same : a.same b = true) (name : String) :
    ((v.property? name).any fun stored => !stored.isVoid) =
      (w.property? name).any fun stored => !stored.isVoid := by
  rw [property?_of_state ha, property?_of_state hb]
  exact Value.any_not_isVoid_congr (Node.property?_form_congr (Node.same_iff.1 same) name)

theorem definition_of_same (path : v.path = w.path) (ha : v.state = some a) (hb : w.state = some b)
    (same : a.same b = true) (sa : a.StoresTexts) (sb : b.StoresTexts) :
    v.definition = w.definition := by
  have members := property?_eq_of_same ha hb same sa sb fun _ _ => Value.IsTextList.eq_of_same
  have names : v.name = w.name := by rw [name, name, path]
  rw [definition, definition, members, names, isAbstract_of_same ha hb same]

/-- A definition without members is one whose stored members are void or missing. -/
theorem definition_atomic_iff :
    (∃ d, v.definition = .ok d ∧ d.isAggregate = false) ↔
      (v.property? Schema.aggregates).all Value.isVoid = true := by
  cases stored : v.property? Schema.aggregates with
  | none => simp [definition, stored, Definition.declared?, Definition.isAggregate]
  | some value =>
    simp only [Option.all_some, ← Definition.declared_eq_nil]
    constructor
    · rintro ⟨d, read, plain⟩
      simp only [definition, stored, Definition.declared?] at read
      split at read
      · contradiction
      next members declared =>
        cases read
        rw [declared]
        simpa [Definition.isAggregate] using plain
    · intro declared
      simp [definition, stored, Definition.declared?, declared, Definition.isAggregate]

/-- Two same nodes are atomic definitions alike, however their members are stored. -/
theorem definition_atomic_of_same (ha : v.state = some a) (hb : w.state = some b)
    (same : a.same b = true) (h : ∃ d, v.definition = .ok d ∧ d.isAggregate = false) :
    ∃ d, w.definition = .ok d ∧ d.isAggregate = false := by
  rw [definition_atomic_iff] at h ⊢
  rcases property?_cases ha hb same Schema.aggregates with
    ⟨left, right⟩ | ⟨x, y, left, right, equal⟩
  · rw [right]
    rfl
  · rw [left, Option.all_some, Value.isVoid_congr equal] at h
    rw [right, Option.all_some]
    exact h

theorem bits_ok (ha : v.state = some a) (sa : a.StoresWords) : ∃ bits, v.bits = .ok bits := by
  rw [bits, property?_of_state ha]
  cases stored : a.property? Schema.bits with
  | none => exact ⟨.empty, rfl⟩
  | some value => exact Bits.ofValue_isWordList (sa value stored)

/-- Members stored as texts are read as these texts, each once. -/
theorem definition_ok (ha : v.state = some a) (sa : a.StoresTexts) :
    ∃ names : List String, ∃ d, v.definition = .ok d ∧
      d.members = NameSet.ofList (names.map Scalar.text) := by
  rw [definition, property?_of_state ha]
  cases stored : a.property? Schema.aggregates with
  | none => exact ⟨[], _, rfl, rfl⟩
  | some value =>
    obtain ⟨names, rfl⟩ := sa value stored
    simp only [Definition.declared?, Definition.declared_texts]
    exact ⟨names, _, rfl, rfl⟩

end View

namespace Registration

/-- A node written without members is read as an atomic definition. -/
theorem atomic_of_definitionNode {v : View} {bits : Bits} {isAbstract : Bool}
    (h : v.state = some (definitionNode bits [] isAbstract)) :
    ∃ d, v.definition = .ok d ∧ d.isAggregate = false := by
  have unlisted : (definitionNode bits [] isAbstract).property? Schema.aggregates = none :=
    (aggregates_definitionNode []).trans (if_pos rfl)
  rw [View.definition_atomic_iff, View.property?_of_state h, unlisted]
  rfl

end Registration

end PrivilegeStore
