import PrivilegeStore.Proofs.Commit.Tally

/-!
# Commits that correspond

What a rule looks at is the presence of the store, its counter, the definitions that it is opened on
and the definition that is added. Two commits may store all this in other order or have other things
beside it: where it is read alike, the changes under a name are given the same account in both.
-/
namespace PrivilegeStore

/-- Both fail for the same reason, or both succeed with results that are related. -/
def Except.Both {ε α β : Type} (related : α → β → Prop) : Except ε α → Except ε β → Prop
  | .ok a, .ok b => related a b
  | .error e, .error f => e = f
  | _, _ => False

theorem Except.Both.refl {ε α : Type} {related : α → α → Prop} (refl : ∀ a, related a a)
    (x : Except ε α) : Except.Both related x x := by
  cases x with
  | error e => rfl
  | ok a => exact refl a

theorem Except.Both.cases {ε α β : Type} {related : α → β → Prop} {x : Except ε α} {y : Except ε β}
    (both : Except.Both related x y) :
    (∃ e, x = .error e ∧ y = .error e) ∨ ∃ a b, x = .ok a ∧ y = .ok b ∧ related a b := by
  cases x with
  | error e =>
    cases y with
    | error f => exact .inl ⟨e, rfl, congrArg _ (Eq.symm both)⟩
    | ok b => exact both.elim
  | ok a =>
    cases y with
    | error f => exact both.elim
    | ok b => exact .inr ⟨a, b, rfl, rfl, both⟩

namespace Commit

open Aggregation (Admission)

/-- Two definitions are told apart by no rule on definitions that are added. -/
def Interchangeable (d e : Definition) : Prop :=
  d.name = e.name ∧ NameSet.sorted d.members = NameSet.sorted e.members

/-- The stores of two commits are read alike. -/
structure Corresponds (settings : Settings) (before after before' after' : Snapshot) : Prop where
  presentBefore : (before.privileges settings).isPresent = (before'.privileges settings).isPresent
  presentAfter : (after.privileges settings).isPresent = (after'.privileges settings).isPresent
  counterBefore : (before.privileges settings).nextBits = (before'.privileges settings).nextBits
  counterAfter : (after.privileges settings).nextBits = (after'.privileges settings).nextBits
  registry : Except.Both (fun registry registry' =>
      (Admission.start registry (before.privileges settings)
        (after.privileges settings)).OpenedAlike
      (Admission.start registry' (before'.privileges settings) (after'.privileges settings)))
    (before.privileges settings).registry (before'.privileges settings).registry

/-- What two commits have under the name of a child, each on both sides, is told apart by no rule.
Only of a child that is added is it looked at how it is read. -/
structure ChildCorresponds (old new old' new' : View) : Prop where
  before : old.state.map Node.isDefinition = old'.state.map Node.isDefinition
  after : new.state.map Node.isDefinition = new'.state.map Node.isDefinition
  same : ∀ a b a' b', old.state = some a → new.state = some b → old'.state = some a' →
    new'.state = some b' → a.same b = a'.same b'
  definition : old.state = none → new.isDefinition = true →
    Except.Both Interchangeable new.definition new'.definition
  bits : old.state = none → new.isDefinition = true → new.bits = new'.bits

variable {settings : Settings} {before after before' after' : Snapshot} {name : String}

/-- Properties that are present alike are looked at under the same names. -/
theorem propertyNames_eq
    (left : ∀ name, ((before.privileges settings).property? name).isSome =
      ((before'.privileges settings).property? name).isSome)
    (right : ∀ name, ((after.privileges settings).property? name).isSome =
      ((after'.privileges settings).property? name).isSome) :
    propertyNames settings before after = propertyNames settings before' after' := by
  have present (s : Snapshot) (name : String) :
      Entries.find? name (stateOf (s.node? settings.privilegesPath)).properties =
        (s.privileges settings).property? name := property?_stateOf s name
  refine Node.allNames_entries_eq (fun name => ?_) fun name => ?_
  · rw [present, present, left]
  · rw [present, present, right]

/-- Children that are present alike are looked at under the same names. -/
theorem childNames_filter_eq (keep : String → Bool)
    (left : ∀ name, keep name = true → ((before.privileges settings).child name).state.isSome =
      ((before'.privileges settings).child name).state.isSome)
    (right : ∀ name, keep name = true → ((after.privileges settings).child name).state.isSome =
      ((after'.privileges settings).child name).state.isSome) :
    (childNames settings before after).filter keep =
      (childNames settings before' after').filter keep := by
  refine Node.allNames_entries_filter_eq _ fun name kept => ?_
  have present (s : Snapshot) :
      Entries.find? name (stateOf (s.node? settings.privilegesPath)).children =
        ((s.privileges settings).child name).state := child?_stateOf s name
  rw [present, present, present, present]
  exact ⟨left name kept, right name kept⟩

theorem childNames_eq
    (left : ∀ name, ((before.privileges settings).child name).state.isSome =
      ((before'.privileges settings).child name).state.isSome)
    (right : ∀ name, ((after.privileges settings).child name).state.isSome =
      ((after'.privileges settings).child name).state.isSome) :
    childNames settings before after = childNames settings before' after' := by
  have present (s : Snapshot) (name : String) :
      Entries.find? name (stateOf (s.node? settings.privilegesPath)).children =
        ((s.privileges settings).child name).state := child?_stateOf s name
  refine Node.allNames_entries_eq (fun name => ?_) fun name => ?_
  · rw [present, present, left]
  · rw [present, present, right]

/-- Definitions that are added and read alike are given the same account. -/
theorem account_judgeDefinition {registry registry' : Registry} {tree tree' : View}
    (opened : (Admission.start registry (before.privileges settings)
        (after.privileges settings)).OpenedAlike
      (Admission.start registry' (before'.privileges settings) (after'.privileges settings)))
    (read : Except.Both Interchangeable tree.definition tree'.definition)
    (bits : tree.bits = tree'.bits) :
    ((review settings before after).judgeDefinition tree
      (Admission.start registry (before.privileges settings)
        (after.privileges settings))).1.account =
    ((review settings before' after').judgeDefinition tree'
      (Admission.start registry' (before'.privileges settings)
        (after'.privileges settings))).1.account := by
  rw [Review.judgeDefinition, Review.judgeDefinition, bits]
  rcases read.cases with ⟨fault, first, second⟩ | ⟨d, e, first, second, alike⟩
  · rw [first, second]
  · rw [first, second]
    cases tree'.bits with
    | error fault => rfl
    | ok found =>
      exact Admission.judge_account (Admission.faithful_start _ _ _)
        (Admission.faithful_start _ _ _) opened alike.1 alike.2 found

namespace Corresponds

variable (corresponds : Corresponds settings before after before' after')

include corresponds

theorem account_judgeProperty (name : String) :
    ((review settings before after).judgeProperty name).account =
      ((review settings before' after').judgeProperty name).account := by
  simp only [Review.judgeProperty, Review.store]
  rw [corresponds.presentBefore, corresponds.presentAfter]
  split
  · rfl
  · cases present : (before'.privileges settings).isPresent with
    | false => rfl
    | true =>
      simp only [↓reduceIte]
      rw [corresponds.counterBefore]
      cases counter : (before'.privileges settings).nextBits with
      | error fault => rfl
      | ok bits =>
        simp only
        cases present : (after'.privileges settings).isPresent with
        | false => rfl
        | true => simp only [↓reduceIte, Counter.check, corresponds.counterAfter]

theorem account_judgeAdded (name : String) {child child' : Node}
    (isDef : child.isDefinition = child'.isDefinition)
    (read : child.isDefinition = true → Except.Both Interchangeable
      ((before.privileges settings).below name (some child)).definition
      ((before'.privileges settings).below name (some child')).definition)
    (bits : child.isDefinition = true →
      ((before.privileges settings).below name (some child)).bits =
        ((before'.privileges settings).below name (some child')).bits) :
    ((review settings before after).judgeAdded name child).1.account =
      ((review settings before' after').judgeAdded name child').1.account := by
  simp only [Review.judgeAdded, Review.store, Review.openAdmission]
  rw [isDef] at read bits ⊢
  cases wanted : child'.isDefinition with
  | false => rfl
  | true =>
    simp only [Bool.not_true, Bool.false_eq_true, ↓reduceIte]
    split
    · rfl
    · rw [corresponds.presentBefore, corresponds.presentAfter]
      cases present : (before'.privileges settings).isPresent with
      | false => rfl
      | true =>
        simp only [↓reduceIte]
        rcases corresponds.registry.cases with
          ⟨fault, first, second⟩ | ⟨registry, registry', first, second, opened⟩
        · rw [first, second]
        · rw [first, second]
          cases present : (after'.privileges settings).isPresent with
          | false => rfl
          | true =>
            simp only [↓reduceIte, Ruling.account_after, Ruling.account_onAccept]
            exact account_judgeDefinition opened (read wanted) (bits wanted)

/-- What happened to a property that has the same values is given the same account. -/
theorem propertyAccount?_eq
    (left : ((before.privileges settings).property? name).map Value.form =
      ((before'.privileges settings).property? name).map Value.form)
    (right : ((after.privileges settings).property? name).map Value.form =
      ((after'.privileges settings).property? name).map Value.form) :
    propertyAccount? settings before after name =
      propertyAccount? settings before' after' name := by
  simp only [propertyAccount?, Node.propertyEvent?, property?_stateOf]
  rcases cases_of_map_eq left with ⟨first, second⟩ | ⟨v, v', first, second, olds⟩
  · rcases cases_of_map_eq right with ⟨third, fourth⟩ | ⟨w, w', third, fourth, -⟩
    · rw [first, second, third, fourth]
      rfl
    · rw [first, second, third, fourth]
      rfl
  · rcases cases_of_map_eq right with ⟨third, fourth⟩ | ⟨w, w', third, fourth, news⟩
    · rw [first, second, third, fourth]
      rfl
    · rw [first, second, third, fourth]
      simp only [Value.differs_congr olds news]
      split
      · exact congrArg some (corresponds.account_judgeProperty name)
      · rfl

/-- What happened to children that correspond is given the same account. -/
theorem childAccount?_eq
    (child : ChildCorresponds ((before.privileges settings).child name)
      ((after.privileges settings).child name) ((before'.privileges settings).child name)
      ((after'.privileges settings).child name)) :
    childAccount? settings before after name = childAccount? settings before' after' name := by
  simp only [childAccount?, Node.childEvent?, child?_stateOf]
  rcases cases_of_map_eq child.before with ⟨first, second⟩ | ⟨a, a', first, second, wasDef⟩
  · rcases cases_of_map_eq child.after with ⟨third, fourth⟩ | ⟨b, b', third, fourth, isDef⟩
    · rw [first, second, third, fourth]
      rfl
    · rw [first, second, third, fourth]
      refine congrArg some (corresponds.account_judgeAdded name isDef (fun wanted => ?_)
        fun wanted => ?_)
      · rw [below_eq_child third, below_eq_child fourth]
        exact child.definition first (by rwa [View.isDefinition_of_state third])
      · rw [below_eq_child third, below_eq_child fourth]
        exact child.bits first (by rwa [View.isDefinition_of_state third])
  · rcases cases_of_map_eq child.after with ⟨third, fourth⟩ | ⟨b, b', third, fourth, -⟩
    · rw [first, second, third, fourth]
      simp only [Option.map_some, accountOf, Event.childDeleted, Review.judge, Review.judgeDeleted,
        wasDef]
    · rw [first, second, third, fourth]
      have same := child.same a b a' b' first third second fourth
      simp only [same]
      split
      · rfl
      · simp only [Option.map_some, accountOf, Event.childChanged, Review.judge,
          Review.judgeChanged, Review.holdsSame, wasDef, same]
        rfl

end Corresponds

end Commit

end PrivilegeStore
