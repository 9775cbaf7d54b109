import PrivilegeStore.Proofs.Commit.Correspondence

/-!
# What lies beside the definitions

The privileges node may have children that are no definitions, and the rest of the tree may hold
anything. Changes of all this are accepted or are no changes of the privileges node, and neither the
definitions that a rule looks up nor their bits are read from there. So it does not show in what a
commit comes to, even where a definition declares the name of such a child as a member.
-/
namespace PrivilegeStore

namespace View

/-- Two views of a store have the same properties, and under the names that are kept the same
children in the same order. -/
structure SameOn (keep : String → Bool) (v w : View) : Prop where
  present : v.isPresent = w.isPresent
  property : ∀ name, v.property? name = w.property? name
  child : ∀ name, keep name = true → (v.child name).state = (w.child name).state
  order : v.childNames.filter keep = w.childNames.filter keep

variable {keep : String → Bool} {v w store : View} {name : String}

/-- Definitions are read the same among the names that are kept, if none is left out. -/
theorem definitionsAmong_filter
    (kept : ∀ name, (v.child name).isDefinition = true → keep name = true)
    (same : ∀ name, keep name = true → v.child name = w.child name) (names : List String) :
    v.definitionsAmong names = w.definitionsAmong (names.filter keep) := by
  induction names with
  | nil => rfl
  | cons name rest ih =>
    rw [List.filter_cons, definitionsAmong]
    split
    next isDef => rw [if_pos (kept name isDef), definitionsAmong, ← same name (kept name isDef),
      if_pos isDef, ih]
    next noDef =>
      split
      next keeps => rw [definitionsAmong, ← same name keeps, if_neg noDef, ih]
      next => exact ih

theorem bitsAmong_filter
    (kept : ∀ name, (v.child name).isDefinition = true → keep name = true)
    (same : ∀ name, keep name = true → v.child name = w.child name) (names : List String) :
    v.bitsAmong names = w.bitsAmong (names.filter keep) := by
  induction names with
  | nil => rfl
  | cons name rest ih =>
    rw [List.filter_cons, bitsAmong]
    split
    next isDef => rw [if_pos (kept name isDef), bitsAmong, ← same name (kept name isDef),
      if_pos isDef, ih]
    next noDef =>
      split
      next keeps => rw [bitsAmong, ← same name keeps, if_neg noDef, ih]
      next => exact ih

namespace SameOn

variable (same : v.SameOn keep w) (path : v.path = w.path)
  (keptV : ∀ name, (v.child name).isDefinition = true → keep name = true)
  (keptW : ∀ name, (w.child name).isDefinition = true → keep name = true)

include same path

theorem child_eq (kept : keep name = true) : v.child name = w.child name := by
  have state := same.child name kept
  simp only [View.child, below] at state ⊢
  rw [path, state]

include keptV keptW

/-- If all definitions are kept the definitions read are the same. -/
theorem registry_eq : v.registry = w.registry := by
  rw [registry, definitionsAmong_filter keptV fun _ => same.child_eq path, same.order,
    ← definitionsAmong_filter keptW fun _ _ => rfl, registry]

theorem bitsTable_eq : v.bitsTable = w.bitsTable := by
  rw [bitsTable, bitsAmong_filter keptV fun _ => same.child_eq path, same.order,
    ← bitsAmong_filter keptW fun _ _ => rfl, bitsTable]

end SameOn

end View

namespace Commit

variable {settings : Settings} {before after before' after' : Snapshot} {name : String}

/-- A name stands for a definition on one of the sides of a commit. -/
def concerned (settings : Settings) (before after : Snapshot) (name : String) : Bool :=
  ((before.privileges settings).child name).isDefinition ||
    ((after.privileges settings).child name).isDefinition

/-- A name stands for a definition on one of the sides of one of two commits. -/
def concernedInEither (settings : Settings) (before after before' after' : Snapshot)
    (name : String) : Bool :=
  concerned settings before after name || concerned settings before' after' name

/-- What happens to a child that is no definition on either side is accepted. -/
theorem childAccount?_of_not_concerned (idle : concerned settings before after name = false)
    {account : Except Failure Unit}
    (given : childAccount? settings before after name = some account) :
    account = .ok () := by
  simp only [concerned, Bool.or_eq_false_iff] at idle
  obtain ⟨wasNone, isNone⟩ := idle
  simp only [childAccount?, Node.childEvent?, child?_stateOf] at given
  split at given
  · cases given
  next child _ there =>
    rw [View.isDefinition_of_state there] at isNone
    cases given
    simp only [accountOf, Event.childAdded, Review.judge, Review.judgeAdded, isNone]
    rfl
  next child found _ =>
    rw [View.isDefinition_of_state found] at wasNone
    cases given
    simp only [accountOf, Event.childDeleted, Review.judge, Review.judgeDeleted, wasNone]
    rfl
  next old new found _ =>
    rw [View.isDefinition_of_state found] at wasNone
    split at given
    · cases given
    · cases given
      simp only [accountOf, Event.childChanged, Review.judge, Review.judgeChanged, wasNone]
      rfl

/-- Accounts that accept may be left out. -/
theorem forM_filterMap_filter {ε δ : Type} {account? : String → Option (Except ε Unit)}
    (weigh : Except ε Unit → Except δ Unit) (accepts : weigh (.ok ()) = .ok ())
    (keep : String → Bool) (idle : ∀ name, keep name = false → ∀ account,
      account? name = some account → account = .ok ()) (names : List String) :
    (names.filterMap account?).forM weigh =
      ((names.filter keep).filterMap account?).forM weigh := by
  induction names with
  | nil => rfl
  | cons name rest ih =>
    have tail (account : Except ε Unit) (others : List (Except ε Unit)) :
        (account :: others).forM weigh = weigh account >>= fun _ => others.forM weigh := rfl
    rw [List.filter_cons, List.filterMap_cons]
    split
    next nothing =>
      split
      · rw [List.filterMap_cons, nothing, ih]
      · exact ih
    next account given =>
      split
      · rw [List.filterMap_cons, given, tail, tail, ih]
      next dropped =>
        rw [tail, idle name (by simpa using dropped) account given, accepts, ← ih]
        rfl

section Beside

variable
  (past : (before.privileges settings).SameOn
    (concernedInEither settings before after before' after') (before'.privileges settings))
  (later : (after.privileges settings).SameOn
    (concernedInEither settings before after before' after') (after'.privileges settings))

include past later

theorem corresponds_of_sameOn : Corresponds settings before after before' after' := by
  have keptPast (name : String) (isDef : ((before.privileges settings).child name).isDefinition) :
      concernedInEither settings before after before' after' name = true := by
    simp [concernedInEither, concerned, isDef]
  have keptPast' (name : String)
      (isDef : ((before'.privileges settings).child name).isDefinition) :
      concernedInEither settings before after before' after' name = true := by
    simp [concernedInEither, concerned, isDef]
  have registry := past.registry_eq rfl keptPast keptPast'
  have table := past.bitsTable_eq rfl keptPast keptPast'
  have counter : (after.privileges settings).nextBits = (after'.privileges settings).nextBits := by
    rw [View.nextBits, View.nextBits, later.property]
  refine ⟨past.present, later.present, ?_, counter, ?_⟩
  · rw [View.nextBits, View.nextBits, past.property]
  · rw [registry]
    exact Except.Both.refl (fun _ => .of_eq rfl table counter) _

theorem childAccount?_eq_of_kept
    (kept : concernedInEither settings before after before' after' name = true) :
    childAccount? settings before after name = childAccount? settings before' after' name := by
  refine (corresponds_of_sameOn past later).childAccount?_eq ?_
  rw [past.child_eq rfl kept, later.child_eq rfl kept]
  refine ⟨rfl, rfl, ?_, fun _ _ => Except.Both.refl (fun _ => ⟨rfl, rfl⟩) _, fun _ _ => rfl⟩
  intro a b a' b' first second third fourth
  rw [first] at third
  rw [second] at fourth
  cases third
  cases fourth
  rfl

/-- The children that are kept are given the same accounts, in the same order. -/
theorem childAccounts_eq :
    ((childNames settings before after).filter
        (concernedInEither settings before after before' after')).filterMap
        (childAccount? settings before after) =
      ((childNames settings before' after').filter
        (concernedInEither settings before after before' after')).filterMap
        (childAccount? settings before' after') := by
  have names : (childNames settings before after).filter
      (concernedInEither settings before after before' after') =
      (childNames settings before' after').filter
        (concernedInEither settings before after before' after') :=
    childNames_filter_eq _ (fun name kept => by rw [past.child name kept])
      fun name kept => by rw [later.child name kept]
  rw [names]
  exact List.filterMap_congr fun name member =>
    childAccount?_eq_of_kept past later (List.mem_filter.1 member).2

/-- Two commits come to the same that differ only beside the definitions. -/
theorem gist_beside_definitions (numbers : (before.privileges settings).WithoutNan) :
    (verdict before after settings).gist = (verdict before' after' settings).gist := by
  have numbers' : (before'.privileges settings).WithoutNan := by
    intro name value found
    rw [← past.property] at found
    exact numbers name value found
  have names : propertyNames settings before after = propertyNames settings before' after' :=
    propertyNames_eq (fun name => by rw [past.property]) fun name => by rw [later.property]
  have properties : propertyAccount? settings before after =
      propertyAccount? settings before' after' :=
    funext fun name => (corresponds_of_sameOn past later).propertyAccount?_eq
      (by rw [past.property]) (by rw [later.property])
  have dropped (name : String)
      (idle : concernedInEither settings before after before' after' name = false) :
      concerned settings before after name = false ∧
        concerned settings before' after' name = false := by
    simpa [concernedInEither] using idle
  have children := forM_filterMap_filter (fun account => account.mapError Failure.cause) rfl _
    (fun name idle _ => childAccount?_of_not_concerned (dropped name idle).1)
    (childNames settings before after)
  have children' := forM_filterMap_filter (fun account => account.mapError Failure.cause) rfl _
    (fun name idle _ => childAccount?_of_not_concerned (dropped name idle).2)
    (childNames settings before' after')
  rw [gist_verdict numbers, gist_verdict numbers', accounts, accounts, names, properties]
  simp only [List.forM_eq_forM, List.forM_append] at children children' ⊢
  rw [children, children', childAccounts_eq past later]

end Beside

theorem sameOn_holding {keep : String → Bool} {next : Bits} {children others : Entries Node}
    (same : ∀ name, keep name = true → Entries.find? name children = Entries.find? name others)
    (order : (Entries.names children).filter keep = (Entries.names others).filter keep) :
    (holding next children).privileges.SameOn keep (holding next others).privileges where
  present := by simp only [holding, Snapshot.view_put, View.isPresent, Option.isSome_some]
  property name := by rw [property?_holding, property?_holding]
  child name kept := by rw [child_holding, child_holding, same name kept]
  order := by
    simp only [holding, Snapshot.view_put]
    exact order

/-- A child that is no definition bears the name of a declared member. Without it the commit is
refused for the same reason. -/
theorem refused_without_namesake :
    let before := holding ⟨2⟩ [("read", atom ⟨1⟩), ("ghost", .empty)]
    let after := holding ⟨2⟩ [("read", atom ⟨1⟩), ("ghost", .empty),
      ("rw", aggregate ⟨1⟩ ["read", "ghost"])]
    let before' := holding ⟨2⟩ [("read", atom ⟨1⟩)]
    let after' := holding ⟨2⟩ [("read", atom ⟨1⟩), ("rw", aggregate ⟨1⟩ ["read", "ghost"])]
    (verdict before after).gist = .error (.inl .unregisteredAggregate) ∧
      (verdict before' after').gist = .error (.inl .unregisteredAggregate) := by
  intro before after before' after'
  have noGhost : concernedInEither {} before after before' after' "ghost" = false := by
    decide +kernel
  have past : before.privileges.SameOn (concernedInEither {} before after before' after')
      before'.privileges := by
    refine sameOn_holding (fun name kept => ?_) (by decide +kernel)
    have other : "ghost" ≠ name := by
      rintro rfl
      rw [noGhost] at kept
      contradiction
    simp [Entries.find?, other]
  have later : after.privileges.SameOn (concernedInEither {} before after before' after')
      after'.privileges := by
    refine sameOn_holding (fun name kept => ?_) (by decide +kernel)
    have other : "ghost" ≠ name := by
      rintro rfl
      rw [noGhost] at kept
      contradiction
    simp [Entries.find?, other]
  have refused : (verdict before' after').gist = .error (.inl .unregisteredAggregate) := by
    decide +kernel
  exact ⟨(gist_beside_definitions past later withoutNan_holding).trans refused, refused⟩

end Commit

end PrivilegeStore
