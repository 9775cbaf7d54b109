import Mathlib.Control.Monad.Basic
import PrivilegeStore.Proofs.Commit.Events

/-!
# Events do not influence one another

A review may go on judging after an event that it did not accept, and events need not be changes of
its snapshots. It keeps what it has read and resolved on the way to every ruling, so that an
aggregate that is refused halfway leaves the closures behind that were found before. Where the bits
of the store before can be read all that is kept is right, whatever the rulings were. So each event
comes to what a review that has judged nothing makes of it, and the order of events decides nothing.
-/
namespace PrivilegeStore

namespace Commit

/-- What a judgement comes to: acceptance, the rule that was broken, or a fault. -/
def Judgement.gist (j : Judgement) : Except (Rule ⊕ Fault) Unit :=
  match j.result with
  | .ok v =>
    match v.breach with
    | none => .ok ()
    | some breach => .error (.inl breach.rule)
  | .error fault => .error (.inr fault)

variable {settings : Settings} {before after : Snapshot}

/-- The verdict on a single event comes to the ruling of a review that has judged nothing. -/
theorem gist_verdictOn (settings : Settings) (before after : Snapshot) (e : Event) :
    (verdictOn before after settings e).gist = ((review settings before after).judge e).1.gist := by
  rw [verdictOn]
  cases judged : ((review settings before after).judge e).1.outcome with
  | ok accepted => simp only [judged, Judgement.gist, Ruling.gist_of_ok judged]
  | error failure =>
    rw [Ruling.gist_of_error judged]
    cases failure <;> simp only [judged, Judgement.gist, Failure.cause]

namespace Review

variable {r : Review}

/-- A settled review makes of each event what one that has judged nothing makes of it. -/
theorem gist_judgeAll (settled : r.Settled)
    (clean : (r.before.privileges r.settings).bitsTable.fault = none) (events : List Event) :
    (r.judgeAll events).1.map Ruling.gist = events.map fun e => (r.anew.judge e).1.gist := by
  induction events generalizing r with
  | nil => rfl
  | cons e rest ih =>
    obtain ⟨kept, frame⟩ := frame_judge r e
    have later := settled_judge settled (e := e) (.inr clean)
    rw [frame] at later
    rw [judgeAll, List.map_cons, List.map_cons, ← judge_anew settled e, frame]
    -- what the event leaves behind is a settled review of the same commit
    exact congrArg ((r.judge e).1.gist :: ·) (ih later clean)

end Review

/-- One review accepts all of some events. -/
def AcceptsAll (settings : Settings) (before after : Snapshot) (events : List Event) : Prop :=
  ∀ ruling ∈ ((review settings before after).judgeAll events).1, ruling.outcome = .ok ()

theorem gist_judgeAll_review (readable : (before.privileges settings).BitsReadable)
    (events : List Event) :
    ((review settings before after).judgeAll events).1.map Ruling.gist =
      events.map fun e => (verdictOn before after settings e).gist := by
  have apart := Review.gist_judgeAll (Review.settled_anew (review settings before after))
    readable.clean events
  simp only [gist_verdictOn]
  exact apart

theorem acceptsAll_iff (readable : (before.privileges settings).BitsReadable)
    (events : List Event) :
    AcceptsAll settings before after events ↔ ∀ e ∈ events, Passes settings before after e := by
  have rulings : (∀ gist ∈ ((review settings before after).judgeAll events).1.map Ruling.gist,
      gist = .ok ()) ↔ AcceptsAll settings before after events := by
    simp only [List.forall_mem_map, Ruling.gist_eq_ok, AcceptsAll]
  rw [← rulings, gist_judgeAll_review readable]
  simp only [List.forall_mem_map, gist_verdictOn, passes_iff]

/-- Events judged by one review, in any order and also after events that were not accepted, come
each to what it comes to apart from the others. So neither whether all are accepted nor whether the
verdict on them accepts depends on their order. -/
theorem judged_as_apart (readable : (before.privileges settings).BitsReadable)
    (events : List Event) :
    (((review settings before after).judgeAll events).1.map Ruling.gist =
        events.map fun e => (verdictOn before after settings e).gist) ∧
      ∀ others, events.Perm others →
        (AcceptsAll settings before after events ↔ AcceptsAll settings before after others) ∧
        (((review settings before after).verdictFrom 0 events).result.toOption.any
            Verdict.isAccepted =
          ((review settings before after).verdictFrom 0 others).result.toOption.any
            Verdict.isAccepted) := by
  refine ⟨gist_judgeAll_review readable events, fun others perm => ?_⟩
  have passes : (∀ e ∈ events, Passes settings before after e) ↔
      ∀ e ∈ others, Passes settings before after e :=
    forall_congr' fun e => by rw [perm.mem_iff]
  constructor
  · rw [acceptsAll_iff readable, acceptsAll_iff readable, passes]
  · rw [Bool.eq_iff_iff, verdictFrom_accepts_iff, verdictFrom_accepts_iff, passes]

/-- An aggregate is refused when the comparison meets a registered one with an unknown member. What
was resolved before that is kept, and changes neither the rulings in between nor the second one on
the same event. -/
theorem refused_again_after_others :
    let before := holding ⟨4⟩ [("read", atom ⟨1⟩), ("write", atom ⟨2⟩),
      ("ghost", Registration.definitionNode ⟨3⟩ [.text "read", .text "gone"] false)]
    let after := holding ⟨8⟩ []
    let both := Event.childAdded "both"
      (Registration.definitionNode ⟨3⟩ [.text "read", .text "write"] false)
    let gone := Event.childAdded "gone"
      (Registration.definitionNode ⟨3⟩ [.text "ghost", .text "write"] false)
    before.privileges.BitsReadable ∧
      ((review {} before after).judgeAll [both, gone, .childAdded "run" (atom ⟨4⟩), both]).1.map
          Ruling.gist =
        [.error (.inl .unknownDeclaredAggregate), .error (.inl .circularAggregation), .ok (),
          .error (.inl .unknownDeclaredAggregate)] := by
  intro before after both gone
  have written : ∀ name child, (before.privileges.child name).state = some child →
      child.StoresWords := by
    refine forall_child_holding ?_
    simp only [List.forall_mem_cons]
    exact ⟨Registration.storesWords_definitionNode, Registration.storesWords_definitionNode,
      Registration.storesWords_definitionNode, by simp⟩
  have readable : before.privileges.BitsReadable := by
    intro name isDef
    obtain ⟨child, there, -⟩ := View.isDefinition_iff.1 isDef
    exact View.bits_ok there (written name child there)
  refine ⟨readable, ?_⟩
  rw [(judged_as_apart readable _).1]
  decide +kernel

end Commit

end PrivilegeStore
