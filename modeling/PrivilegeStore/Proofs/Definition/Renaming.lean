import PrivilegeStore.Proofs.Definition.Members
import PrivilegeStore.Proofs.Node.Extensionality

/-!
# Definitions whose members are renamed

A renaming maps names one to one to other names. The members that a node stores are renamed where
they stand: a text, the items of a list, or the names of an object's entries. A node that declares
texts is then read with the renamed texts as its members and is otherwise read as before, and two
such nodes are the same exactly if they were the same under their old names.
-/
namespace PrivilegeStore

/-- Names are renamed one to one, and their new names are names as well: texts that are not empty
and have no slash. -/
structure Renaming where
  covers : String → Prop
  newName : String → String
  injective : ∀ m n, covers m → covers n → newName m = newName n → m = n
  plain : ∀ n, covers n → n ≠ "" ∧ '/' ∉ n.toList
  plain_newName : ∀ n, covers n → newName n ≠ "" ∧ '/' ∉ (newName n).toList

instance : CoeFun Renaming fun _ => String → String := ⟨Renaming.newName⟩

namespace Renaming

variable (ρ : Renaming)

def scalar : Scalar → Scalar
  | .text s => .text (ρ s)
  | other => other

def item : Value → Value
  | .scalar a => .scalar (ρ.scalar a)
  | other => other

/-- Entries under the new names, with their values changed as well. -/
def entries {α β : Type} (change : α → β) (entries : Entries α) : Entries β :=
  entries.map fun entry => (ρ entry.1, change entry.2)

/-- Renames the members that a stored value declares. Void values declare none. -/
def value : Value → Value
  | .scalar a => .scalar (if a.isVoid then a else ρ.scalar a)
  | .list items => .list (items.map ρ.item)
  | .object entries => .object (ρ.entries id entries)

/-- Renames the members of a definition. -/
def node (n : Node) : Node :=
  match n.property? Schema.aggregates with
  | none => n
  | some stored => n.setProperty Schema.aggregates (ρ.value stored)

variable {ρ} {m n name : String}

theorem injective_iff (hm : ρ.covers m) (hn : ρ.covers n) : ρ m = ρ n ↔ m = n :=
  ⟨ρ.injective m n hm hn, fun same => by rw [same]⟩

theorem map_injective {names others : List String} (covered : ∀ n ∈ names, ρ.covers n)
    (covered' : ∀ n ∈ others, ρ.covers n) (same : names.map ρ = others.map ρ) : names = others := by
  induction names generalizing others with
  | nil => exact (List.map_eq_nil_iff.1 same.symm).symm
  | cons n rest ih =>
    cases others with
    | nil => cases same
    | cons m others =>
      rw [List.forall_mem_cons] at covered covered'
      simp only [List.map_cons, List.cons.injEq] at same
      rw [ρ.injective n m covered.1 covered'.1 same.1, ih covered.2 covered'.2 same.2]

section Entries

variable {α β : Type} {change : α → β} {entries : Entries α}

/-- What was found under a name is found under its new name. -/
theorem find?_entries (covered : ∀ n ∈ entries.map Prod.fst, ρ.covers n) (hn : ρ.covers name) :
    Entries.find? (ρ name) (ρ.entries change entries) =
      (Entries.find? name entries).map change := by
  induction entries with
  | nil => rfl
  | cons entry rest ih =>
    rw [List.map_cons, List.forall_mem_cons] at covered
    have step : ρ.entries change (entry :: rest) =
        (ρ entry.1, change entry.2) :: ρ.entries change rest := rfl
    rw [step, Entries.find?, Entries.find?, ih covered.2]
    simp only [injective_iff covered.1 hn]
    split <;> rfl

/-- Nothing is found under other names than the new ones. -/
theorem mem_of_find?_entries {value : β}
    (found : Entries.find? name (ρ.entries change entries) = some value) :
    ∃ n ∈ entries.map Prod.fst, name = ρ n := by
  obtain ⟨entry, member, same⟩ := List.mem_map.1 (Entries.mem_of_find? found)
  simp only [Prod.mk.injEq] at same
  exact ⟨entry.1, List.mem_map_of_mem member, same.1.symm⟩

theorem find?_of_not_covered (covered : ∀ n ∈ entries.map Prod.fst, ρ.covers n)
    (hn : ¬ ρ.covers name) : Entries.find? name entries = none := by
  rw [← Option.not_isSome_iff_eq_none, Entries.isSome_find?]
  exact fun member => hn (covered name member)

theorem find?_entries_of_not_new (covered : ∀ n ∈ entries.map Prod.fst, ρ.covers n)
    (old : ¬ ∃ n, ρ.covers n ∧ name = ρ n) :
    Entries.find? name (ρ.entries change entries) = none := by
  refine Option.eq_none_iff_forall_ne_some.2 fun value found => ?_
  obtain ⟨n, member, same⟩ := mem_of_find?_entries found
  exact old ⟨n, covered n member, same⟩

end Entries

end Renaming

theorem Value.form_text (s : String) : (text s).form = .scalar (.text s) := by
  rw [text, form, Scalar.key]

/-- A void scalar is no name. -/
theorem Scalar.key_ne_of_void {a : Scalar} {s : String} (void : a.isVoid = true) (some : s ≠ "") :
    a.key ≠ .text s := by
  intro same
  rw [key_eq_text.1 same] at void
  exact some (by simpa [isVoid] using void)

/-- A stored value declares texts, in the order in which they are read. -/
inductive Value.Lists : Value → List String → Prop
  | void {a : Scalar} (void : a.isVoid = true) : Lists (.scalar a) []
  | text {s : String} (some : s ≠ "") : Lists (.text s) [s]
  | list (names : List String) : Lists (.texts names) names
  | object (entries : Entries Value) : Lists (.object entries) (entries.map Prod.fst)

namespace Value.Lists

variable {v w : Value} {names others : List String}

theorem declared (lists : v.Lists names) :
    Definition.declared v = .ok (NameSet.ofList (names.map Scalar.text)) := by
  cases lists with
  | void void => exact Definition.declared_eq_nil.2 void
  | text some => simp [Definition.declared, Value.text, isVoid, Scalar.isVoid, some, NameSet.ofList]
  | list => exact Definition.declared_texts names
  | object entries => exact Definition.declared_object entries

theorem items_of_scalars {items : List Value} {scalars : List Scalar}
    (admitted : NameSet.scalars items = .ok scalars) : items = scalars.map .scalar := by
  induction items generalizing scalars with
  | nil =>
    cases admitted
    rfl
  | cons item rest ih =>
    cases item with
    | scalar a =>
      rw [NameSet.scalars] at admitted
      split at admitted
      · contradiction
      next others later =>
        cases admitted
        rw [ih later, List.map_cons]
    | list => cases admitted
    | object => cases admitted

/-- Whatever is read as a set of texts lists them. -/
theorem of_declared {members : NameSet} (read : Definition.declared v = .ok members)
    (texts : ∀ m ∈ members, ∃ t, m = .text t) : ∃ names, v.Lists names := by
  cases v with
  | scalar a =>
    by_cases void : a.isVoid = true
    · exact ⟨[], .void void⟩
    · cases a with
      | text s =>
        refine ⟨[s], .text ?_⟩
        rintro rfl
        exact void rfl
      | _ => simp_all [Definition.declared, isVoid, NameSet.ofValue, elements]
  | list items =>
    rw [Definition.declared_list, NameSet.ofValues] at read
    cases admitted : NameSet.scalars items with
    | error fault => simp [admitted, Except.map] at read
    | ok scalars =>
      rw [admitted] at read
      cases read
      have all : ∀ a ∈ scalars, ∃ t, a = .text t := by
        intro a member
        have held := NameSet.contains_ofList.2 (NameSet.contains_of_mem member)
        obtain ⟨n, there, same⟩ := NameSet.contains_iff.1 held
        obtain ⟨t, rfl⟩ := texts n there
        exact ⟨t, Scalar.same_text.1 (Scalar.same_symm same)⟩
      obtain ⟨names, rfl⟩ := NameSet.texts_of_forall all
      rw [items_of_scalars admitted, List.map_map]
      exact ⟨names, .list names⟩
  | object entries => exact ⟨_, .object entries⟩

end Value.Lists

namespace Renaming

variable {ρ : Renaming} {v w : Value} {names others : List String}

theorem value_void {a : Scalar} (void : a.isVoid = true) : ρ.value (.scalar a) = .scalar a := by
  rw [value, if_pos void]

theorem value_text {s : String} (some : s ≠ "") : ρ.value (.text s) = .text (ρ s) := by
  have full : ¬ (Scalar.text s).isVoid = true := by simpa [Scalar.isVoid] using some
  rw [Value.text, value, if_neg full]
  rfl

theorem value_texts (names : List String) : ρ.value (.texts names) = .texts (names.map ρ) := by
  rw [Value.texts, value, Value.texts, List.map_map, List.map_map]
  rfl

/-- What listed texts lists their new names. -/
theorem lists_value (lists : v.Lists names) (covered : ∀ n ∈ names, ρ.covers n) :
    (ρ.value v).Lists (names.map ρ) := by
  cases lists with
  | void void =>
    rw [value_void void]
    exact .void void
  | @text s some =>
    rw [value_text some]
    exact .text (ρ.plain_newName s (covered s List.mem_cons_self)).1
  | list =>
    rw [value_texts]
    exact .list _
  | object entries =>
    have names : (ρ.entries id entries).map Prod.fst = (entries.map Prod.fst).map ρ := by
      rw [Renaming.entries, List.map_map, List.map_map]
      rfl
    rw [value, ← names]
    exact .object _

/-- Objects with renamed entries are the same exactly if they were the same before. -/
theorem formEntries_iff {entries others : Entries Value}
    (covered : ∀ n ∈ entries.map Prod.fst, ρ.covers n)
    (covered' : ∀ n ∈ others.map Prod.fst, ρ.covers n) :
    Value.formEntries (ρ.entries id entries) = Value.formEntries (ρ.entries id others) ↔
      Value.formEntries entries = Value.formEntries others := by
  constructor <;> intro same <;>
    refine Form.increasing_ext (Value.increasing_formEntries _) (Value.increasing_formEntries _)
      fun name => ?_ <;>
    rw [Value.find?_formEntries, Value.find?_formEntries]
  · by_cases hn : ρ.covers name
    · have found := congrArg (Entries.find? (ρ name)) same
      rw [Value.find?_formEntries, Value.find?_formEntries, find?_entries covered hn,
        find?_entries covered' hn] at found
      simpa using found
    · rw [find?_of_not_covered covered hn, find?_of_not_covered covered' hn]
  · by_cases new : ∃ n, ρ.covers n ∧ name = ρ n
    · obtain ⟨n, hn, rfl⟩ := new
      have found := congrArg (Entries.find? n) same
      rw [Value.find?_formEntries, Value.find?_formEntries] at found
      simpa [find?_entries covered hn, find?_entries covered' hn] using found
    · rw [find?_entries_of_not_new covered new, find?_entries_of_not_new covered' new]

/-- Values that list texts are the same under the new names exactly if they were the same before. -/
theorem form_value_iff (left : v.Lists names) (right : w.Lists others)
    (covered : ∀ n ∈ names, ρ.covers n) (covered' : ∀ n ∈ others, ρ.covers n) :
    (ρ.value v).form = (ρ.value w).form ↔ v.form = w.form := by
  cases left with
  | void void =>
    cases right with
    | void void' => rw [value_void void, value_void void']
    | @text t some =>
      have some' := (ρ.plain_newName t (covered' t List.mem_cons_self)).1
      rw [value_void void, value_text some, Value.form_text, Value.form_text, Value.form]
      simp only [Form.scalar.injEq, Scalar.key_ne_of_void void some,
        Scalar.key_ne_of_void void some']
    | list => simp [Value.texts, Renaming.value, Value.form]
    | object => simp [Renaming.value, Value.form]
  | @text s some =>
    have hs := covered s List.mem_cons_self
    cases right with
    | void void =>
      have some' := (ρ.plain_newName s hs).1
      rw [value_void void, value_text some, Value.form_text, Value.form_text, Value.form]
      simp only [Form.scalar.injEq, Ne.symm (Scalar.key_ne_of_void void some),
        Ne.symm (Scalar.key_ne_of_void void some')]
    | @text t some' =>
      have ht := covered' t List.mem_cons_self
      rw [value_text some, value_text some', Value.form_text, Value.form_text, Value.form_text,
        Value.form_text]
      simp only [Form.scalar.injEq, Key.text.injEq, injective_iff hs ht]
    | list => simp [Value.texts, Value.text, Renaming.value, Value.form]
    | object => simp [Renaming.value, Value.text, Value.form]
  | list =>
    cases right with
    | list =>
      rw [value_texts, value_texts]
      simp only [Value.texts, Value.form, Form.list.injEq]
      constructor <;> intro same
      · rw [map_injective covered covered' (Value.formItems_texts_injective same)]
      · rw [Value.formItems_texts_injective same]
    | void => simp [Value.texts, Renaming.value, Value.form]
    | text => simp [Value.texts, Value.text, Renaming.value, Value.form]
    | object => simp [Value.texts, Renaming.value, Value.form]
  | object =>
    cases right with
    | object => simp [Renaming.value, Value.form, formEntries_iff covered covered']
    | void => simp [Renaming.value, Value.form]
    | text => simp [Renaming.value, Value.text, Value.form]
    | list => simp [Value.texts, Renaming.value, Value.form]

theorem scalar_text (s : String) : ρ.scalar (.text s) = .text (ρ s) := rfl

theorem map_text (names : List String) :
    (names.map Scalar.text).map ρ.scalar = (names.map ρ).map Scalar.text := by
  rw [List.map_map, List.map_map]
  rfl

/-- A set of names is renamed name by name: names that differ go on to differ. -/
theorem ofList_map_text (covered : ∀ n ∈ names, ρ.covers n) :
    NameSet.ofList ((names.map ρ).map Scalar.text) =
      (NameSet.ofList (names.map Scalar.text)).map ρ.scalar := by
  induction names with
  | nil => rfl
  | cons n rest ih =>
    rw [List.forall_mem_cons] at covered
    simp only [List.map_cons, NameSet.ofList, scalar_text, ih covered.2, List.filter_map]
    refine congrArg _ (congrArg _ (List.filter_congr fun a member => ?_))
    obtain ⟨m, there, rfl⟩ := NameSet.mem_ofList_texts.1 member
    have equal := injective_iff covered.1 (covered.2 m there)
    have same : (Scalar.text (ρ n)).same (.text (ρ m)) = (Scalar.text n).same (.text m) := by
      rw [Bool.eq_iff_iff, Scalar.same_text, Scalar.same_text, Scalar.text.injEq, equal,
        Scalar.text.injEq]
    rw [Function.comp_apply, scalar_text, same]

end Renaming

namespace Node

variable {ρ : Renaming} {n a b : Node}

/-- The members that a node stores are texts that a renaming covers. -/
def ListsCovered (ρ : Renaming) (n : Node) : Prop :=
  ∀ v, n.property? Schema.aggregates = some v → ∃ names, v.Lists names ∧ ∀ m ∈ names, ρ.covers m

theorem property?_rename (n : Node) (name : String) : (ρ.node n).property? name =
    if name = Schema.aggregates then (n.property? Schema.aggregates).map ρ.value
    else n.property? name := by
  rw [Renaming.node]
  split
  next missing =>
    split
    next here => rw [here, missing]; rfl
    next => rfl
  next stored found =>
    rw [property?_setProperty, found]
    simp only [eq_comm, Option.map_some]

@[simp] theorem property?_rename_of_ne {name : String} (other : name ≠ Schema.aggregates) :
    (ρ.node n).property? name = n.property? name := by
  rw [property?_rename, if_neg other]

@[simp] theorem child?_rename (n : Node) (name : String) :
    (ρ.node n).child? name = n.child? name := by
  rw [Renaming.node]
  split <;> rfl

@[simp] theorem isDefinition_rename (n : Node) : (ρ.node n).isDefinition = n.isDefinition := by
  rw [isDefinition, isDefinition, property?_rename_of_ne (by decide)]

/-- Nodes are the same exactly if they have the same properties and children. -/
theorem form_iff : a.form = b.form ↔
    (∀ name, (a.property? name).map Value.form = (b.property? name).map Value.form) ∧
      ∀ name, (a.child? name).map form = (b.child? name).map form :=
  ⟨fun same => ⟨property?_form_congr same, child?_form_congr same⟩,
    fun same => form_ext same.1 same.2⟩

/-- Nodes with renamed members are the same exactly if they were the same before. -/
theorem same_rename (left : a.ListsCovered ρ) (right : b.ListsCovered ρ) :
    (ρ.node a).same (ρ.node b) = a.same b := by
  rw [Bool.eq_iff_iff, same_iff, same_iff, form_iff, form_iff]
  simp only [child?_rename]
  refine and_congr_left fun _ => forall_congr' fun name => ?_
  rw [property?_rename, property?_rename]
  split
  next here =>
    rw [here]
    cases found : a.property? Schema.aggregates with
    | none => cases b.property? Schema.aggregates <;> simp
    | some v =>
      cases found' : b.property? Schema.aggregates with
      | none => simp
      | some w =>
        obtain ⟨names, lists, covered⟩ := left v found
        obtain ⟨others, lists', covered'⟩ := right w found'
        simpa using Renaming.form_value_iff lists lists' covered covered'
  next => rfl

end Node

namespace Definition

/-- A definition declares texts that a renaming covers. -/
def Covered (ρ : Renaming) (d : Definition) : Prop := ∀ m ∈ d.members, ∃ t, ρ.covers t ∧ m = .text t

theorem Covered.texts {ρ : Renaming} {d : Definition} (covered : d.Covered ρ) :
    ∃ names : List String, d.members = names.map Scalar.text ∧ ∀ n ∈ names, ρ.covers n := by
  obtain ⟨names, members⟩ := NameSet.texts_of_forall fun m member =>
    (covered m member).imp fun _ => And.right
  refine ⟨names, members, fun n member => ?_⟩
  obtain ⟨t, known, same⟩ := covered (.text n) (members ▸ List.mem_map_of_mem member)
  cases same
  exact known

end Definition

namespace View

variable {ρ : Renaming} {v w : View} {d : Definition} {stored : Value}

/-- Members that can be read and that are covered are stored as covered texts. -/
theorem lists_of_definition (read : v.definition = .ok d) (covered : d.Covered ρ)
    (found : v.property? Schema.aggregates = some stored) : ∃ names, stored.Lists names ∧
      (∀ n ∈ names, ρ.covers n) ∧ d.members = NameSet.ofList (names.map Scalar.text) := by
  rw [definition, found, Definition.declared?] at read
  split at read
  · contradiction
  next members declared =>
    cases read
    obtain ⟨names, lists⟩ := Value.Lists.of_declared declared fun m member =>
      (covered m member).imp fun _ => And.right
    cases declared.symm.trans lists.declared
    refine ⟨names, lists, fun n member => ?_, rfl⟩
    obtain ⟨t, known, same⟩ := covered _ (NameSet.mem_ofList_texts.2 ⟨n, member, rfl⟩)
    cases same
    exact known

theorem listsCovered_of_definition {n : Node} (there : v.state = some n)
    (read : v.definition = .ok d) (covered : d.Covered ρ) : n.ListsCovered ρ := by
  intro stored found
  rw [← property?_of_state there] at found
  obtain ⟨names, lists, known, -⟩ := lists_of_definition read covered found
  exact ⟨names, lists, known⟩

section Renamed

variable (renamed : w.state = v.state.map ρ.node)

include renamed

theorem property?_renamed (name : String) : w.property? name =
    if name = Schema.aggregates then (v.property? Schema.aggregates).map ρ.value
    else v.property? name := by
  rw [property?, property?, property?, renamed]
  cases v.state with
  | none => simp
  | some n => exact Node.property?_rename n name

theorem isDefinition_renamed : w.isDefinition = v.isDefinition := by
  rw [isDefinition, isDefinition, renamed]
  cases v.state <;> simp

theorem bits_renamed : w.bits = v.bits := by
  rw [bits, bits, property?_renamed renamed, if_neg (by decide)]

/-- A renamed definition declares the new names of its members. -/
theorem definition_renamed (read : v.definition = .ok d) (covered : d.Covered ρ) :
    w.definition = .ok ⟨w.name, d.members.map ρ.scalar, d.isAbstract⟩ := by
  have kind : w.property? Schema.isAbstract = v.property? Schema.isAbstract := by
    rw [property?_renamed renamed, if_neg (by decide)]
  rw [definition, property?_renamed renamed, if_pos rfl, kind]
  cases found : v.property? Schema.aggregates with
  | none =>
    rw [definition, found] at read
    cases read
    rfl
  | some stored =>
    obtain ⟨names, lists, known, members⟩ := lists_of_definition read covered found
    have declared := (Renaming.lists_value lists known).declared
    rw [Renaming.ofList_map_text known, ← members] at declared
    rw [definition, found, Definition.declared?, lists.declared] at read
    cases read
    rw [Option.map_some, Definition.declared?, declared]

end Renamed

end View

end PrivilegeStore
