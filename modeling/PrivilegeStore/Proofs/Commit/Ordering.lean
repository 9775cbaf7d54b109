import PrivilegeStore.Proofs.Aggregation.Opening
import PrivilegeStore.Proofs.Commit.Correspondence
import PrivilegeStore.Proofs.Commit.Criterion

/-!
# The order in which a store is kept

Children are read in the order in which they are stored, members are walked in the order in which
they are declared, and closures are kept in the order in which they are first asked for. None of
this shows in a verdict. Properties and children may be stored in any order, on each side in another
one. Members may be listed in any order in a definition that is added, and in one that is the same
on both sides if it is listed alike on both; in a definition that is changed their order counts.
-/
namespace PrivilegeStore.Commit

variable {settings : Settings} {before after before' after' : Snapshot}
  {old new old' new' : Option Node}

/-- What stands under one name on the two sides of a commit is stored in other order. -/
inductive ChildReordered (old new old' new' : Option Node) : Prop
  /-- Only properties and children are, at any depth. -/
  | stored (past : old.map Node.form = old'.map Node.form)
      (present : new.map Node.form = new'.map Node.form)
  /-- A definition that is added lists its members in other order as well. -/
  | added {n n' : Node} (past : old.map Node.form = old'.map Node.form)
      (fresh : old.any Node.isDefinition = false) (there : new = some n) (there' : new' = some n')
      (isDef : n.isDefinition = true) (relists : n.Relists n')
  /-- What is the same on both sides lists its members in other order as well, alike on both. -/
  | kept {a b a' b' : Node} (found : old = some a) (there : new = some b) (found' : old' = some a')
      (there' : new' = some b') (same : a.same b = true) (past : a.Relists a')
      (present : b.Relists b') (alike : (a'.property? Schema.aggregates).map Value.form =
        (b'.property? Schema.aggregates).map Value.form)

/-- The stores of a commit are stored in other order. -/
structure Reordered (settings : Settings) (before after before' after' : Snapshot) : Prop where
  presentBefore : (before.privileges settings).isPresent = (before'.privileges settings).isPresent
  presentAfter : (after.privileges settings).isPresent = (after'.privileges settings).isPresent
  propertiesBefore : ∀ name, ((before.privileges settings).property? name).map Value.form =
    ((before'.privileges settings).property? name).map Value.form
  propertiesAfter : ∀ name, ((after.privileges settings).property? name).map Value.form =
    ((after'.privileges settings).property? name).map Value.form
  children : ∀ name, ChildReordered ((before.privileges settings).child name).state
    ((after.privileges settings).child name).state
    ((before'.privileges settings).child name).state
    ((after'.privileges settings).child name).state

namespace ChildReordered

variable (child : ChildReordered old new old' new')

include child

theorem relistsBefore : Option.Rel Node.Relists old old' := by
  cases child with
  | stored past _ => exact Node.rel_relists_of_form past
  | added past => exact Node.rel_relists_of_form past
  | kept found _ found' _ _ past =>
    rw [found, found']
    exact .some past

theorem relistsAfter : Option.Rel Node.Relists new new' := by
  cases child with
  | stored _ present => exact Node.rel_relists_of_form present
  | added _ _ there there' _ relists =>
    rw [there, there']
    exact .some relists
  | kept _ there _ there' _ _ present =>
    rw [there, there']
    exact .some present

/-- Whether a child is the same on both sides does not change. -/
theorem same_eq {a b a' b' : Node} (found : old = some a) (there : new = some b)
    (found' : old' = some a') (there' : new' = some b') : a.same b = a'.same b' := by
  cases child with
  | stored past present =>
    rw [found, found'] at past
    rw [there, there'] at present
    rw [Node.same, Node.same, Option.some.inj past, Option.some.inj present]
  | @added n n' past fresh added added' isDef relists =>
    rw [there] at added
    rw [there'] at added'
    cases added
    cases added'
    rw [found, found'] at past
    rw [found, Option.any_some] at fresh
    have kind : a.isDefinition = a'.isDefinition :=
      Node.isDefinition_of_same (Node.same_iff.2 (Option.some.inj past))
    have differ {x y : Node} (no : x.isDefinition = false) (yes : y.isDefinition = true) :
        x.same y = false := by
      rw [← Bool.not_eq_true]
      intro same
      rw [Node.isDefinition_of_same same, yes] at no
      cases no
    rw [differ fresh isDef, differ (kind.symm.trans fresh) (relists.isDefinition.symm.trans isDef)]
  | kept old new old' new' same past present alike =>
    cases found.symm.trans old
    cases there.symm.trans new
    cases found'.symm.trans old'
    cases there'.symm.trans new'
    rw [same, past.same_of_same present same alike]

end ChildReordered

/-- Snapshots with the same trees are stored in other order. -/
theorem Reordered.of_same (past : before.root.same before'.root = true)
    (present : after.root.same after'.root = true) :
    Reordered settings before after before' after' := by
  have states {s s' : Snapshot} (same : s.root.same s'.root = true) :
      (s.privileges settings).state.map Node.form = (s'.privileges settings).state.map Node.form :=
    Node.descend_form_congr (Node.same_iff.1 same) _
  exact ⟨isSome_eq_of_map_eq (states past), isSome_eq_of_map_eq (states present),
    View.property?_form_congr (states past), View.property?_form_congr (states present),
    fun name => .stored (View.child_form_congr (states past) name)
      (View.child_form_congr (states present) name)⟩

namespace Reordered

variable (reordered : Reordered settings before after before' after')

include reordered

section Before

variable (lists : (before.privileges settings).StoredInLists)

include lists

theorem readsBefore (name : String) : ((before.privileges settings).child name).ReadsAlike
    ((before'.privileges settings).child name) :=
  .of_rel (reordered.children name).relistsBefore rfl (lists.words name) (lists.texts name)

theorem counterBefore : (before.privileges settings).nextBits =
    (before'.privileges settings).nextBits := by
  obtain ⟨bits, left, right⟩ :=
    Bits.ofValue?_of_isWordList lists.counter (reordered.propertiesBefore Schema.next)
  exact left.trans right.symm

end Before

section After

variable (lists : (after.privileges settings).StoredInLists)

include lists

theorem readsAfter (name : String) : ((after.privileges settings).child name).ReadsAlike
    ((after'.privileges settings).child name) :=
  .of_rel (reordered.children name).relistsAfter rfl (lists.words name) (lists.texts name)

theorem counterAfter : (after.privileges settings).nextBits =
    (after'.privileges settings).nextBits := by
  obtain ⟨bits, left, right⟩ :=
    Bits.ofValue?_of_isWordList lists.counter (reordered.propertiesAfter Schema.next)
  exact left.trans right.symm

theorem childCorresponds (name : String) :
    ChildCorresponds ((before.privileges settings).child name)
      ((after.privileges settings).child name) ((before'.privileges settings).child name)
      ((after'.privileges settings).child name) := by
  have child := reordered.children name
  have alike := reordered.readsAfter lists name
  refine ⟨Node.map_isDefinition_of_rel child.relistsBefore,
    Node.map_isDefinition_of_rel child.relistsAfter,
    fun a b a' b' => child.same_eq, fun _ isDef => ?_, fun _ isDef => ?_⟩
  · obtain ⟨d, e, left, right, same, order⟩ := alike.definition isDef
    rw [left, right]
    exact ⟨same.name, order⟩
  · obtain ⟨bits, left, right⟩ := alike.bits isDef
    rw [left, right]

end After

variable (listsBefore : (before.privileges settings).StoredInLists)
  (listsAfter : (after.privileges settings).StoredInLists)
  (plain : (before.privileges settings).PlainlyNamed)

include listsBefore listsAfter plain

theorem corresponds : Corresponds settings before after before' after' := by
  have alike := reordered.readsBefore listsBefore
  have back (name : String) : ((before'.privileges settings).child name).ReadsAlike
      ((before.privileges settings).child name) := (alike name).symm
  have counter := reordered.counterAfter listsAfter
  refine ⟨reordered.presentBefore, reordered.presentAfter, reordered.counterBefore listsBefore,
    counter, ?_⟩
  obtain ⟨registry, read⟩ := View.registry_ok_of_alike alike
  obtain ⟨registry', read'⟩ := View.registry_ok_of_alike back
  rw [read, read']
  exact View.openedAlike alike plain read read' counter

/-- The same happens under each name, and is given the same account. -/
theorem accounts_eq : accounts settings before after = accounts settings before' after' := by
  have corresponds := reordered.corresponds listsBefore listsAfter plain
  have propertyNames :
      propertyNames settings before after = propertyNames settings before' after' :=
    propertyNames_eq (fun name => isSome_eq_of_map_eq (reordered.propertiesBefore name))
      fun name => isSome_eq_of_map_eq (reordered.propertiesAfter name)
  have childNames : childNames settings before after = childNames settings before' after' :=
    childNames_eq
      (fun name => isSome_eq_of_map_eq
        (Node.map_isDefinition_of_rel (reordered.children name).relistsBefore))
      fun name => isSome_eq_of_map_eq
        (Node.map_isDefinition_of_rel (reordered.children name).relistsAfter)
  have properties : propertyAccount? settings before after =
      propertyAccount? settings before' after' :=
    funext fun name => corresponds.propertyAccount?_eq (reordered.propertiesBefore name)
      (reordered.propertiesAfter name)
  have children : childAccount? settings before after = childAccount? settings before' after' :=
    funext fun name => corresponds.childAccount?_eq (reordered.childCorresponds listsAfter name)
  rw [accounts, accounts, propertyNames, childNames, properties, children]

end Reordered

/-- A commit comes to the same verdict in whatever order its stores are kept. Only an unknown member
may be reported by another name. -/
theorem verdict_of_reordered (reordered : Reordered settings before after before' after')
    (numbers : (before.privileges settings).WithoutNan)
    (listsBefore : (before.privileges settings).StoredInLists)
    (listsAfter : (after.privileges settings).StoredInLists)
    (plain : (before.privileges settings).PlainlyNamed) :
    ∃ v w, (verdict before after settings).result = .ok v ∧
      (verdict before' after' settings).result = .ok w ∧ v.isAccepted = w.isAccepted ∧
      v.code? = w.code? ∧ v.eventsChecked = w.eventsChecked ∧
      (v.code? ≠ some 47 → v.breach = w.breach) := by
  have numbers' : (before'.privileges settings).WithoutNan := by
    intro name value found
    rcases cases_of_map_eq (reordered.propertiesBefore name) with
      ⟨-, missing⟩ | ⟨x, y, left, right, same⟩
    · rw [missing] at found
      cases found
    · rw [right] at found
      cases found
      rw [← Value.isNan_congr same, numbers name x left]
  have accounts : (verdict before after settings).result.map Verdict.account =
      (verdict before' after' settings).result.map Verdict.account := by
    rw [account_verdict numbers, account_verdict numbers',
      reordered.accounts_eq listsBefore listsAfter plain]
  obtain ⟨v, reached⟩ := verdict_ok fun e member =>
    decided_judge listsBefore.storedPlainly listsAfter.storedPlainly member
  rw [reached] at accounts
  cases reached' : (verdict before' after' settings).result with
  | error fault =>
    rw [reached'] at accounts
    cases accounts
  | ok w =>
    rw [reached'] at accounts
    have same : v.account = w.account := Except.ok.inj accounts
    refine ⟨v, w, reached, rfl, ?_, ?_, ?_, Verdict.breach_of_account same⟩
    · rw [← v.isAccepted_account, same, w.isAccepted_account]
    · rw [← v.code?_account, same, w.code?_account]
    · rw [← v.eventsChecked_account, same, w.eventsChecked_account]

section Holding

variable {next next' : Bits} {children others children' others' : Entries Node}

theorem reordered_holding (child : ∀ name, ChildReordered (Entries.find? name children)
      (Entries.find? name others) (Entries.find? name children') (Entries.find? name others')) :
    Reordered {} (holding next children) (holding next' others) (holding next children')
      (holding next' others') where
  presentBefore := by simp only [holding, Snapshot.view_put, View.isPresent, Option.isSome_some]
  presentAfter := by simp only [holding, Snapshot.view_put, View.isPresent, Option.isSome_some]
  propertiesBefore name := by rw [property?_holding, property?_holding]
  propertiesAfter name := by rw [property?_holding, property?_holding]
  children name := by
    simp only [child_holding]
    exact child name

theorem plainlyNamed_holding
    (plain : ∀ entry ∈ children, entry.1 ≠ "" ∧ '/' ∉ entry.1.toList) :
    (holding next children).privileges.PlainlyNamed := by
  intro name isDef
  obtain ⟨child, there, -⟩ := View.isDefinition_iff.1 isDef
  exact plain _ (mem_of_child_holding there)

end Holding

/-- An aggregate is added that has the members of another one, with all that is stored turned round
and both listing these members the other way. The same duplicate is reported, at the same change. -/
theorem duplicate_reported_reordered :
    let children := [("read", atom ⟨1⟩), ("write", atom ⟨2⟩),
      ("rw", aggregate ⟨3⟩ ["read", "write"])]
    let children' := [("rw", aggregate ⟨3⟩ ["write", "read"]), ("write", atom ⟨2⟩),
      ("read", ⟨(atom ⟨1⟩).properties.reverse, []⟩)]
    let before' := holding ⟨4⟩ children'
    let after' := holding ⟨4⟩ (("wr", aggregate ⟨3⟩ ["read", "write"]) :: children')
    (verdict (holding ⟨4⟩ children)
        (holding ⟨4⟩ (children ++ [("wr", aggregate ⟨3⟩ ["write", "read"])]))).result =
      .ok ⟨some (.duplicateAggregation "wr" "rw"), 1⟩ ∧
    ∃ w, (verdict before' after').result = .ok w ∧
      w.breach = some (.duplicateAggregation "wr" "rw") ∧ w.eventsChecked = 1 := by
  intro children children' before' after'
  let before := holding ⟨4⟩ children
  let after := holding ⟨4⟩ (children ++ [("wr", aggregate ⟨3⟩ ["write", "read"])])
  have turned : ["read", "write"].Perm ["write", "read"] := .swap _ _ _
  have listed : (aggregate ⟨3⟩ ["read", "write"]).Relists (aggregate ⟨3⟩ ["write", "read"]) :=
    Registration.relists_definitionNode turned ⟨3⟩ false
  have relisted : (aggregate ⟨3⟩ ["write", "read"]).Relists (aggregate ⟨3⟩ ["read", "write"]) :=
    Registration.relists_definitionNode turned.symm ⟨3⟩ false
  have isDef : (aggregate ⟨3⟩ ["write", "read"]).isDefinition = true :=
    Registration.isDefinition_definitionNode
  have read : (atom ⟨1⟩).form = (⟨(atom ⟨1⟩).properties.reverse, []⟩ : Node).form :=
    Node.form_of_perm (by decide +kernel) (by decide +kernel) (List.reverse_perm _).symm (.refl _)
  have reordered : Reordered {} before after before' after' := by
    refine reordered_holding fun name => ?_
    by_cases kept : name = "rw"
    · subst kept
      exact .kept (by simp [children, Entries.find?]) (by simp [children, Entries.find?])
        (by simp [children', Entries.find?]) (by simp [children', Entries.find?])
        (Node.same_refl _) listed listed rfl
    · by_cases added : name = "wr"
      · subst added
        exact .added (by simp [children, children', Entries.find?])
          (by simp [children, Entries.find?]) (by simp [children, Entries.find?])
          (by simp [Entries.find?]) isDef relisted
      · have past : (Entries.find? name children).map Node.form =
            (Entries.find? name children').map Node.form := by
          by_cases first : name = "read"
          · subst first
            simpa [children, children', Entries.find?] using read
          · simp [children, children', Entries.find?, Ne.symm first, Ne.symm kept]
        refine .stored past ?_
        simpa [children, Entries.find?, Ne.symm added] using past
  have plain : before.privileges.PlainlyNamed := plainlyNamed_holding (by decide +kernel)
  have listsBefore : before.privileges.StoredInLists := by
    refine (regular_holding ?_).storedInLists
    simp only [List.forall_mem_cons, children]
    exact ⟨⟨⟨1⟩, [], rfl⟩, ⟨⟨2⟩, [], rfl⟩, ⟨⟨3⟩, ["read", "write"], rfl⟩, by simp⟩
  have listsAfter : after.privileges.StoredInLists := by
    refine (regular_holding ?_).storedInLists
    simp only [List.forall_mem_cons, children, List.cons_append, List.nil_append]
    exact ⟨⟨⟨1⟩, [], rfl⟩, ⟨⟨2⟩, [], rfl⟩, ⟨⟨3⟩, ["read", "write"], rfl⟩,
      ⟨⟨3⟩, ["write", "read"], rfl⟩, by simp⟩
  have decided : (verdict before after).result =
      .ok ⟨some (.duplicateAggregation "wr" "rw"), 1⟩ := by decide +kernel
  obtain ⟨v, w, reached, reached', -, -, checked, reported⟩ :=
    verdict_of_reordered reordered withoutNan_holding listsBefore listsAfter plain
  rw [decided] at reached
  cases reached
  exact ⟨decided, w, reached', (reported (by decide)).symm, checked.symm⟩

end PrivilegeStore.Commit
