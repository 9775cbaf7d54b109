import PrivilegeStore.Proofs.Aggregation.Precedence
import PrivilegeStore.Proofs.Aggregation.Renaming
import PrivilegeStore.Proofs.Commit.Criterion
import PrivilegeStore.Proofs.Commit.Legibility

/-!
# Commits under new names

The children of a store may be given new names, together with the members that definitions declare.
Events, members and aggregates then come in another order, and another rule may be the first that is
broken. But whether a commit is permitted is a question about the graph, the bits and the counter,
and about whether names are reserved. So a commit is accepted under new names exactly if it is
accepted under the old ones.
-/
namespace PrivilegeStore

namespace Renaming

variable (ρ : Renaming)

/-- Renames the children of a node and the members that they declare. -/
def children (n : Node) : Node := { n with children := ρ.entries ρ.node n.children }

/-- A view of a store under new names. -/
def view (v : View) : View := { v with state := v.state.map ρ.children }

/-- Renames the children of the privileges node of a snapshot. -/
def snapshot (settings : Settings) (s : Snapshot) : Snapshot :=
  match s.node? settings.privilegesPath with
  | none => s
  | some n => s.put settings.privilegesPath (ρ.children n)

/-- A renaming covers the children of a store and the members of its definitions, all texts. -/
structure CoversStore (v : View) : Prop where
  child : ∀ name child, (v.child name).state = some child → ρ.covers name
  member : ∀ name d, (v.child name).isDefinition = true → (v.child name).definition = .ok d →
    d.Covered ρ

variable {ρ} {v : View} {name n : String} {child : Node} {d : Definition} {bits : Bits}
  {settings : Settings}

variable (ρ settings) in
theorem privileges_snapshot (s : Snapshot) :
    (ρ.snapshot settings s).privileges settings = ρ.view (s.privileges settings) := by
  rw [snapshot]
  split
  next missing => simp only [Snapshot.privileges, Snapshot.view, view, missing, Option.map_none]
  next n found =>
    rw [Snapshot.privileges, Snapshot.view_put, view, Snapshot.privileges, Snapshot.view, found,
      Option.map_some]

@[simp] theorem property?_view (name : String) : (ρ.view v).property? name = v.property? name := by
  rw [View.property?, View.property?, view]
  cases v.state <;> rfl

theorem state_child_view (name : String) : ((ρ.view v).child name).state =
    v.state.bind fun store => Entries.find? name (ρ.entries ρ.node store.children) := by
  rw [View.child, View.below, view]
  cases v.state <;> rfl

@[simp] theorem isPresent_view : (ρ.view v).isPresent = v.isPresent := by
  simp [View.isPresent, view]

@[simp] theorem nextBits_view : (ρ.view v).nextBits = v.nextBits := by
  rw [View.nextBits, View.nextBits, property?_view]

/-- A definition that is read under a covered name bears this name. -/
theorem name_of_covers (hn : ρ.covers n) (read : (v.child n).definition = .ok d) : d.name = n := by
  obtain ⟨some, single⟩ := ρ.plain n hn
  rw [View.name_of_definition read, View.name_child some single]

namespace CoversStore

/-- A store is covered where its children's names and the members in its registry are. -/
theorem of_reads {registry : Registry} (read : v.registry = .ok registry)
    (children : ∀ name ∈ v.childNames, ρ.covers name)
    (members : ∀ entry ∈ registry, entry.2.Covered ρ) : ρ.CoversStore v where
  child name child there := children name (View.mem_childNames.2 ⟨child, there⟩)
  member name d isDef found :=
    members (name, d) (Entries.mem_of_find? ((View.find?_registry read).2 ⟨isDef, found⟩))

variable (covered : ρ.CoversStore v)

include covered

theorem covers_of_mem {store : Node} (state : v.state = some store)
    (member : n ∈ store.children.map Prod.fst) : ρ.covers n := by
  obtain ⟨child, found⟩ := Option.isSome_iff_exists.1 (Entries.isSome_find?.2 member)
  refine covered.child n child ?_
  rwa [View.child, View.below, state]

theorem child_new (hn : ρ.covers n) :
    ((ρ.view v).child (ρ n)).state = (v.child n).state.map ρ.node := by
  rw [state_child_view, View.child, View.below]
  cases state : v.state with
  | none => rfl
  | some store => exact find?_entries (fun _ => covered.covers_of_mem state) hn

/-- A definition that can be read stores covered texts. -/
theorem listsCovered (readable : v.Readable) (there : (v.child n).state = some child)
    (isDef : child.isDefinition = true) : child.ListsCovered ρ := by
  have nowDef := View.isDefinition_iff.2 ⟨child, there, isDef⟩
  obtain ⟨d, read⟩ := readable.definition n nowDef
  exact View.listsCovered_of_definition there read (covered.member n d nowDef read)

/-- Children stand under new names only. -/
theorem child_back (there : ((ρ.view v).child name).state = some child) :
    ∃ n old, ρ.covers n ∧ name = ρ n ∧ (v.child n).state = some old ∧ child = ρ.node old := by
  have known : ∃ n, ρ.covers n ∧ name = ρ n := by
    rw [state_child_view, Option.bind_eq_some_iff] at there
    obtain ⟨store, state, found⟩ := there
    obtain ⟨n, member, same⟩ := mem_of_find?_entries found
    exact ⟨n, covered.covers_of_mem state member, same⟩
  obtain ⟨n, hn, rfl⟩ := known
  rw [covered.child_new hn, Option.map_eq_some_iff] at there
  obtain ⟨old, found, same⟩ := there
  exact ⟨n, old, hn, rfl, found, same.symm⟩

theorem isDefinition_new (hn : ρ.covers n) :
    ((ρ.view v).child (ρ n)).isDefinition = (v.child n).isDefinition :=
  View.isDefinition_renamed (covered.child_new hn)

theorem bits_new (hn : ρ.covers n) : ((ρ.view v).child (ρ n)).bits = (v.child n).bits :=
  View.bits_renamed (covered.child_new hn)

theorem definition_new (hn : ρ.covers n) (isDef : (v.child n).isDefinition = true)
    (read : (v.child n).definition = .ok d) :
    ((ρ.view v).child (ρ n)).definition = .ok (ρ.definition d) := by
  obtain ⟨some, single⟩ := ρ.plain_newName n hn
  rw [View.definition_renamed (covered.child_new hn) read (covered.member n d isDef read),
    View.name_child some single, definition, name_of_covers hn read]

theorem definition_back (isDef : ((ρ.view v).child name).isDefinition = true) :
    ∃ n, ρ.covers n ∧ name = ρ n ∧ (v.child n).isDefinition = true := by
  obtain ⟨child, there, -⟩ := View.isDefinition_iff.1 isDef
  obtain ⟨n, -, hn, rfl, -, -⟩ := covered.child_back there
  exact ⟨n, hn, rfl, by rwa [← covered.isDefinition_new hn]⟩

theorem plainlyNamed : v.PlainlyNamed := by
  intro name isDef
  obtain ⟨child, there, -⟩ := View.isDefinition_iff.1 isDef
  exact ρ.plain name (covered.child name child there)

theorem plainlyNamed_view : (ρ.view v).PlainlyNamed := by
  intro name isDef
  obtain ⟨n, hn, rfl, -⟩ := covered.definition_back isDef
  exact ρ.plain_newName n hn

theorem owners (bits : Bits) :
    ρ.Carries (fun n => v.Owns n bits) fun name => (ρ.view v).Owns name bits where
  covered n owns := by
    obtain ⟨child, there, -⟩ := owns.state
    exact covered.child n child there
  holds_iff name := by
    have new {n : String} (hn : ρ.covers n) : (ρ.view v).Owns (ρ n) bits ↔ v.Owns n bits := by
      rw [View.Owns, View.Owns, covered.isDefinition_new hn, covered.bits_new hn]
    constructor
    · intro owns
      obtain ⟨n, hn, rfl, -⟩ := covered.definition_back owns.1
      exact ⟨n, (new hn).1 owns, rfl⟩
    · rintro ⟨n, owns, rfl⟩
      obtain ⟨child, there, -⟩ := owns.state
      exact (new (covered.child n child there)).2 owns

theorem bitsReadable (readable : v.BitsReadable) : (ρ.view v).BitsReadable := by
  intro name isDef
  obtain ⟨n, hn, rfl, wasDef⟩ := covered.definition_back isDef
  rw [covered.bits_new hn]
  exact readable n wasDef

variable {left right : Registry}

theorem registry_view (read : v.registry = .ok left) :
    ∃ right, (ρ.view v).registry = .ok right := by
  refine View.definitionsAmong_ok fun name _ isDef => ?_
  obtain ⟨n, hn, rfl, wasDef⟩ := covered.definition_back isDef
  obtain ⟨d, found⟩ := View.definition_of_registry read wasDef
  exact ⟨_, covered.definition_new hn wasDef found⟩

/-- The registry of a renamed store is the renamed registry. -/
theorem registries (readLeft : v.registry = .ok left)
    (readRight : (ρ.view v).registry = .ok right) : ρ.Registries left right where
  covered n d found := by
    obtain ⟨isDef, read⟩ := (View.find?_registry readLeft).1 found
    obtain ⟨child, there, -⟩ := View.isDefinition_iff.1 isDef
    exact ⟨covered.child n child there, covered.member n d isDef read⟩
  found n hn := by
    cases found : left.find? (.text n) with
    | some d =>
      obtain ⟨isDef, read⟩ := (View.find?_registry readLeft).1 found
      refine (View.find?_registry readRight).2 ⟨?_, covered.definition_new hn isDef read⟩
      rwa [covered.isDefinition_new hn]
    | none =>
      refine Option.eq_none_iff_forall_ne_some.2 fun e there => ?_
      have isDef := ((View.find?_registry readRight).1 there).1
      rw [covered.isDefinition_new hn] at isDef
      obtain ⟨d, read⟩ := View.definition_of_registry readLeft isDef
      cases found.symm.trans ((View.find?_registry readLeft).2 ⟨isDef, read⟩)
  back name d found := by
    obtain ⟨n, hn, same, -⟩ := covered.definition_back ((View.find?_registry readRight).1 found).1
    exact ⟨n, hn, same⟩

end CoversStore

end Renaming

namespace Commit

open Aggregation (Acceptable Admission)

variable {settings : Settings} {before after : Snapshot} {name n : String} {child : Node}

/-- A definition that declares texts is admitted exactly if its name is free, there was a store, and
it is acceptable. -/
theorem admitted_iff {registry : Registry} {definition : Definition} {names : List String}
    {counter bits : Bits} (read : (before.privileges settings).registry = .ok registry)
    (clean : (before.privileges settings).bitsTable.fault = none)
    (plain : (before.privileges settings).PlainlyNamed)
    (counted : (after.privileges settings).nextBits = .ok counter)
    (there : ((after.privileges settings).child name).state = some child)
    (named : ((after.privileges settings).child name).definition = .ok definition)
    (members : definition.members = names.map .text)
    (held : ((after.privileges settings).child name).bits = .ok bits) :
    Admitted settings before after name child ↔
      Namespace.isReserved settings.reservedPrefixes name = false ∧
        (before.privileges settings).isPresent = true ∧
        Acceptable (before.privileges settings) registry definition.name names counter bits := by
  have tree : (before.privileges settings).below name (some child) = _ := below_eq_child there
  have ready := Admission.ready_start read clean plain counted
  have accepts := (Admission.judge_follows ready members bits).accepted_iff.trans
    Aggregation.firstBroken_none_iff
  constructor
  · rintro ⟨free, founded, registry', definition', bits', known, named', held', judged⟩
    cases read.symm.trans known
    rw [tree] at named' held'
    cases named.symm.trans named'
    cases held.symm.trans held'
    exact ⟨free, founded, accepts.1 judged⟩
  · rintro ⟨free, founded, acceptable⟩
    exact ⟨free, founded, registry, definition, bits, read, by rw [tree, named],
      by rw [tree, held], accepts.2 acceptable⟩

section Renamed

variable {ρ : Renaming}

/-- A definition that is kept stores covered texts on both sides, so it is kept under its new name
if and only if it is kept under the old one. -/
theorem kept_renamed_iff {v w : View} {old : Node} (readable : v.Readable) (readable' : w.Readable)
    (covered : ρ.CoversStore v) (covered' : ρ.CoversStore w) (hn : ρ.covers n)
    (there : (v.child n).state = some old) (isDef : old.isDefinition = true) :
    (∃ new, ((ρ.view w).child (ρ n)).state = some new ∧ (ρ.node old).same new = true) ↔
      ∃ new, (w.child n).state = some new ∧ old.same new = true := by
  have same {new : Node} (found : (w.child n).state = some new) (newDef : new.isDefinition = true) :
      (ρ.node old).same (ρ.node new) = old.same new :=
    Node.same_rename (covered.listsCovered readable there isDef)
      (covered'.listsCovered readable' found newDef)
  rw [covered'.child_new hn]
  constructor
  · rintro ⟨_, stands, kept⟩
    obtain ⟨new, found, rfl⟩ := Option.map_eq_some_iff.1 stands
    have newDef := Node.isDefinition_of_same kept
    rw [Node.isDefinition_rename, Node.isDefinition_rename, isDef] at newDef
    exact ⟨new, found, by rwa [← same found newDef.symm]⟩
  · rintro ⟨new, found, kept⟩
    have newDef := (Node.isDefinition_of_same kept).symm.trans isDef
    exact ⟨ρ.node new, by rw [found, Option.map_some], by rwa [same found newDef]⟩

variable (readableBefore : (before.privileges settings).Readable)
  (readableAfter : (after.privileges settings).Readable)
  (coveredBefore : ρ.CoversStore (before.privileges settings))
  (coveredAfter : ρ.CoversStore (after.privileges settings))

include readableBefore readableAfter coveredBefore coveredAfter

/-- A definition is admitted under its new name exactly if it is under the old one. -/
theorem admitted_renamed_iff (hn : ρ.covers n)
    (status : Namespace.isReserved settings.reservedPrefixes (ρ n) =
      Namespace.isReserved settings.reservedPrefixes n)
    (there : ((after.privileges settings).child n).state = some child)
    (isDef : child.isDefinition = true) :
    Admitted settings (ρ.snapshot settings before) (ρ.snapshot settings after) (ρ n)
        (ρ.node child) ↔ Admitted settings before after n child := by
  have nowDef := View.isDefinition_iff.2 ⟨child, there, isDef⟩
  obtain ⟨registry, read⟩ : ∃ registry, (before.privileges settings).registry = .ok registry :=
    View.definitionsAmong_ok fun name _ => readableBefore.definition name
  obtain ⟨registry', read'⟩ := coveredBefore.registry_view read
  obtain ⟨counter, counted⟩ := readableAfter.counter
  obtain ⟨d, named⟩ := readableAfter.definition n nowDef
  obtain ⟨bits, held⟩ := readableAfter.bits n nowDef
  obtain ⟨names, members, known⟩ := (coveredAfter.member n d nowDef named).texts
  have members' : (ρ.definition d).members = (names.map ρ).map Scalar.text := by
    rw [Renaming.definition, members, Renaming.map_text]
  have name : d.name = n := Renaming.name_of_covers hn named
  have graph : Acceptable (ρ.view (before.privileges settings)) registry' (ρ n) (names.map ρ)
      counter bits ↔ Acceptable (before.privileges settings) registry n names counter bits :=
    (coveredBefore.registries read read').acceptable_iff coveredBefore.owners hn known
  have past := Renaming.privileges_snapshot ρ settings before
  have present := Renaming.privileges_snapshot ρ settings after
  have renamed : Admitted settings (ρ.snapshot settings before) (ρ.snapshot settings after) (ρ n)
      (ρ.node child) ↔ Namespace.isReserved settings.reservedPrefixes (ρ n) = false ∧
        ((ρ.snapshot settings before).privileges settings).isPresent = true ∧
        Acceptable ((ρ.snapshot settings before).privileges settings) registry'
          (ρ.definition d).name (names.map ρ) counter bits := by
    refine admitted_iff ?_ ?_ ?_ ?_ ?_ ?_ members' ?_
    · rw [past, read']
    · rw [past, (coveredBefore.bitsReadable readableBefore.bits).clean]
    · rw [past]
      exact coveredBefore.plainlyNamed_view
    · rw [present, Renaming.nextBits_view, counted]
    · rw [present, coveredAfter.child_new hn, there, Option.map_some]
    · rw [present, coveredAfter.definition_new hn nowDef named]
    · rw [present, coveredAfter.bits_new hn, held]
  have original := admitted_iff read readableBefore.bits.clean coveredBefore.plainlyNamed counted
    there named members held
  rw [renamed, original, past, Renaming.isPresent_view, Renaming.definition, name, status, graph]

variable (status : ∀ n, ρ.covers n → Namespace.isReserved settings.reservedPrefixes (ρ n) =
  Namespace.isReserved settings.reservedPrefixes n)

include status

theorem Permitted.renamed (permitted : Permitted settings before after) :
    Permitted settings (ρ.snapshot settings before) (ρ.snapshot settings after) := by
  obtain ⟨properties, counter, definitions, additions⟩ := permitted
  have past := Renaming.privileges_snapshot ρ settings before
  have present := Renaming.privileges_snapshot ρ settings after
  constructor
  · simpa only [past, present, Renaming.property?_view] using properties
  · simpa only [past, present, Renaming.property?_view, Renaming.nextBits_view] using counter
  · intro name moved there isDef
    rw [past] at there
    obtain ⟨n, old, hn, rfl, found, rfl⟩ := coveredBefore.child_back there
    rw [Node.isDefinition_rename] at isDef
    rw [present, kept_renamed_iff readableBefore readableAfter coveredBefore coveredAfter hn found
      isDef]
    exact definitions n old found isDef
  · intro name moved fresh there isDef
    rw [present] at there
    obtain ⟨n, child, hn, rfl, found, rfl⟩ := coveredAfter.child_back there
    rw [past, coveredBefore.child_new hn, Option.map_eq_none_iff] at fresh
    rw [Node.isDefinition_rename] at isDef
    rw [admitted_renamed_iff readableBefore readableAfter coveredBefore coveredAfter hn
      (status n hn) found isDef]
    exact additions n child fresh found isDef

theorem Permitted.of_renamed
    (permitted : Permitted settings (ρ.snapshot settings before) (ρ.snapshot settings after)) :
    Permitted settings before after := by
  obtain ⟨properties, counter, definitions, additions⟩ := permitted
  rw [Renaming.privileges_snapshot, Renaming.privileges_snapshot]
    at properties counter definitions additions
  constructor
  · simpa only [Renaming.property?_view] using properties
  · simpa only [Renaming.property?_view, Renaming.nextBits_view] using counter
  · intro n old found isDef
    have hn := coveredBefore.child n old found
    rw [← kept_renamed_iff readableBefore readableAfter coveredBefore coveredAfter hn found isDef]
    refine definitions (ρ n) (ρ.node old) ?_ ?_
    · rw [coveredBefore.child_new hn, found, Option.map_some]
    · rw [Node.isDefinition_rename, isDef]
  · intro n child fresh found isDef
    have hn := coveredAfter.child n child found
    rw [← admitted_renamed_iff readableBefore readableAfter coveredBefore coveredAfter hn
      (status n hn) found isDef]
    refine additions (ρ n) (ρ.node child) ?_ ?_ ?_
    · rw [coveredBefore.child_new hn, fresh, Option.map_none]
    · rw [coveredAfter.child_new hn, found, Option.map_some]
    · rw [Node.isDefinition_rename, isDef]

end Renamed

/-- A commit is accepted under new names exactly if it is accepted under the old ones, where the
names that are reserved stay reserved and the others stay free. -/
theorem accepts_under_new_names (ρ : Renaming)
    (numbers : (before.privileges settings).WithoutNan)
    (readableBefore : (before.privileges settings).Readable)
    (readableAfter : (after.privileges settings).Readable)
    (coveredBefore : ρ.CoversStore (before.privileges settings))
    (coveredAfter : ρ.CoversStore (after.privileges settings))
    (status : ∀ n, ρ.covers n → Namespace.isReserved settings.reservedPrefixes (ρ n) =
      Namespace.isReserved settings.reservedPrefixes n) :
    Accepts settings (ρ.snapshot settings before) (ρ.snapshot settings after) ↔
      Accepts settings before after := by
  have numbers' : ((ρ.snapshot settings before).privileges settings).WithoutNan := by
    intro name value found
    rw [Renaming.privileges_snapshot, Renaming.property?_view] at found
    exact numbers name value found
  rw [permitted_iff numbers', permitted_iff numbers]
  exact ⟨.of_renamed readableBefore readableAfter coveredBefore coveredAfter status,
    .renamed readableBefore readableAfter coveredBefore coveredAfter status⟩

/-- Two atomic privileges exchange their names, and an aggregate of them gets another one. -/
def exchange : Renaming where
  covers n := n ∈ ["read", "write", "rw"]
  newName n := if n = "read" then "write" else if n = "write" then "read" else "both"
  injective m n hm hn := by
    have apart : ∀ m ∈ ["read", "write", "rw"], ∀ n ∈ ["read", "write", "rw"],
        (if m = "read" then "write" else if m = "write" then "read" else "both") =
          (if n = "read" then "write" else if n = "write" then "read" else "both") → m = n := by
      decide
    exact apart m hm n hn
  plain := by decide
  plain_newName := by decide

/-- The aggregate is added under either name. -/
theorem accepts_aggregate_under_new_names :
    let children := [("read", atom ⟨1⟩), ("write", atom ⟨2⟩)]
    let before := holding ⟨4⟩ children
    let after := holding ⟨4⟩ (children ++ [("rw", aggregate ⟨3⟩ ["read", "write"])])
    Accepts {} before after ∧
      Accepts {} (exchange.snapshot {} before) (exchange.snapshot {} after) ∧
      ((exchange.snapshot {} after).privileges.child "both").isDefinition = true := by
  intro children before after
  have accepted : Accepts {} before after := by decide +kernel
  have registered : before.privileges.registry =
      .ok [("read", ⟨"read", [], false⟩), ("write", ⟨"write", [], false⟩)] := by decide +kernel
  have registered' : after.privileges.registry =
      .ok [("read", ⟨"read", [], false⟩), ("write", ⟨"write", [], false⟩),
        ("rw", ⟨"rw", [.text "read", .text "write"], false⟩)] := by decide +kernel
  have readableBefore : before.privileges.Readable :=
    .of_reads registered (by decide +kernel) (nextBits_holding _ _)
  have readableAfter : after.privileges.Readable :=
    .of_reads registered' (by decide +kernel) (nextBits_holding _ _)
  have coveredBefore : exchange.CoversStore before.privileges := by
    refine .of_reads registered ?_ ?_
    · show ∀ name ∈ before.privileges.childNames, name ∈ ["read", "write", "rw"]
      decide +kernel
    · simp [Definition.Covered]
  have coveredAfter : exchange.CoversStore after.privileges := by
    refine .of_reads registered' ?_ ?_
    · show ∀ name ∈ after.privileges.childNames, name ∈ ["read", "write", "rw"]
      decide +kernel
    · simp [Definition.Covered, exchange]
  have status : ∀ n ∈ ["read", "write", "rw"],
      Namespace.isReserved ({} : Settings).reservedPrefixes (exchange n) =
        Namespace.isReserved ({} : Settings).reservedPrefixes n := by decide +kernel
  have renamed := accepts_under_new_names exchange withoutNan_holding readableBefore readableAfter
    coveredBefore coveredAfter status
  exact ⟨accepted, renamed.2 accepted, by decide +kernel⟩

end Commit

end PrivilegeStore
