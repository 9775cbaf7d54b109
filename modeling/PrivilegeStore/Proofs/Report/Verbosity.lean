import PrivilegeStore.Proofs.Commit.Acceptance
import PrivilegeStore.Proofs.Report.Ending

/-!
# What a verbose check adds

A verbose check lists the definitions after the commit, and so reads every one of them with its bits
and wants texts as members, while a verdict may be reached without this: the store may be unchanged,
or a rule broken before. So on a console that prints whatever cannot be taken for a tag a check with
the flag and one without it come to the same end exactly if the commit cannot be judged or every
definition after it can be listed.
-/
namespace PrivilegeStore.Report

open Commit (Accepts Verdict)
open Renderer (Unmarked)

variable {r : Renderer} {after : Snapshot} {settings : Settings} {judgement : Commit.Judgement}
  {log : LogSettings} {elapsed elapsed' : Nat} {v : Verdict}

/-- A check comes to its end and leaves with a status. -/
def Check.Exits (c : Check) (status : Nat) : Prop :=
  ∃ v, c.result = .ok v ∧ exitStatus v = status

theorem exitStatus_eq_zero {v : Verdict} : exitStatus v = 0 ↔ v.isAccepted = true := by
  rw [exitStatus]
  split <;> simp [*]

theorem exitStatus_eq_one {v : Verdict} : exitStatus v = 1 ↔ v.isAccepted = false := by
  rw [exitStatus]
  split <;> simp [*]

/-- A check leaves with the status of the verdict, and with neither status if there is none. -/
def Check.LeavesAs (c : Check) (judgement : Commit.Judgement) : Prop :=
  (c.Exits 0 ↔ ∃ v, judgement.result = .ok v ∧ v.isAccepted = true) ∧
    (c.Exits 1 ↔ ∃ v, judgement.result = .ok v ∧ v.isAccepted = false)

/-- A check that ends with the verdict if it can be told leaves with the status of the verdict
exactly if it can be told. -/
theorem leavesAs_iff {c : Check} {told : Verdict → Prop}
    (ends : ∀ v, c.result = .ok v ↔ judgement.result = .ok v ∧ told v) :
    c.LeavesAs judgement ↔ ∀ v, judgement.result = .ok v → told v := by
  constructor
  · rintro ⟨zero, one⟩ v reached
    -- one of the two statuses is due, whichever the verdict is
    have ended : ∃ w, c.result = .ok w := by
      cases accepted : v.isAccepted with
      | true => exact (zero.2 ⟨v, reached, accepted⟩).imp fun _ => And.left
      | false => exact (one.2 ⟨v, reached, accepted⟩).imp fun _ => And.left
    obtain ⟨w, ended⟩ := ended
    obtain ⟨same, toldOf⟩ := (ends w).1 ended
    rw [reached] at same
    cases same
    exact toldOf
  · intro all
    have same (v : Verdict) : c.result = .ok v ↔ judgement.result = .ok v :=
      (ends v).trans (and_iff_left_of_imp (all v))
    simp only [Check.LeavesAs, Check.Exits, same, exitStatus_eq_zero, exitStatus_eq_one, and_self]

/-- When a verbose check leaves with the status of the verdict and ends as the plain one does. -/
theorem alike_iff :
    ((∀ v, (report r judgement after true settings log elapsed').result = .ok v ↔
        (report r judgement after false settings log elapsed).result = .ok v) ∧
      (report r judgement after true settings log elapsed').LeavesAs judgement) ↔
      ∀ v, judgement.result = .ok v →
        r.Shows (verdictTexts v elapsed) ∧ r.Shows (verdictTexts v elapsed') ∧
          (after.privileges settings).AllListable ∧ ShowsListing r after settings := by
  rw [leavesAs_iff fun v => result_verbose.trans and_assoc]
  constructor
  -- the right status says all of the verbose check; the same result says it of the plain one
  · rintro ⟨same, listed⟩ v reached
    have told := listed v reached
    have ended := (same v).1 (result_verbose.2 ⟨⟨reached, told.1⟩, told.2⟩)
    exact ⟨(result_plain.1 ended).2, told⟩
  · intro all
    refine ⟨fun v => ?_, fun v reached => (all v reached).2⟩
    rw [result_plain, result_verbose, and_assoc]
    exact and_congr_right fun reached => iff_of_true (all v reached).2 (all v reached).1

theorem unmarked_timeText (elapsed : Nat) : Unmarked (timeText elapsed) := by
  have zeros (n : Nat) : Unmarked (String.ofList (List.replicate n '0')) := by
    simp [Unmarked]
  have digits := Renderer.unmarked_toString
  have plain : Unmarked (seconds elapsed) :=
    (((digits _).append (by decide)).append (zeros _)).append (digits _)
  exact (Unmarked.append (by decide) plain).append (by decide)

/-- A verdict is told if no tag begins in the violation. -/
theorem shows_verdictTexts (prints : r.PrintsUnmarked)
    (unmarked : ∀ breach, v.breach = some breach → Unmarked breach.violation.text) :
    r.Shows (verdictTexts v elapsed) := by
  have head : ∃ lines, r.text heading = .ok lines :=
    prints.stretch (by decide) (by decide) (by decide) (by decide)
  have count : ∃ lines, r.text (countText v) = .ok lines :=
    prints.stretch (by decide) (by decide) (by decide) (Renderer.unmarked_toString _)
  have time : ∃ lines, r.text (timeText elapsed) = .ok lines :=
    prints.plain (unmarked_timeText elapsed)
  have outcome : r.Shows (outcomeTexts v) := by
    rw [outcomeTexts]
    cases broken : v.breach with
    | none =>
      exact Renderer.shows_singleton.2
        (prints.stretch (by decide) (by decide) (by decide) (by decide))
    | some breach =>
      have violation : Unmarked ("  Violation: " ++ breach.violation.text) :=
        Unmarked.append (by decide) (unmarked breach broken)
      exact Renderer.shows_cons.2 ⟨prints.stretch (by decide) (by decide) (by decide) (by decide),
        Renderer.shows_singleton.2 (prints.plain violation)⟩
  exact shows_verdictTexts_iff.2 ⟨head, outcome, count, time⟩

theorem showsListing_of_unmarked (prints : r.PrintsUnmarked)
    (unmarked : (after.privileges settings).AllUnmarked) : ShowsListing r after settings where
  heading := Renderer.shows_singleton.2
    (prints.stretch (by decide) (by decide) (by decide) (by decide))
  table _ listed := prints.table (by decide) (unmarked_listing unmarked listed)

/-- A plain check leaves with status 0 if the commit is accepted and 1 if it is rejected, exactly if
the console prints what tells the verdict. A verbose one does, and has the same result, exactly if
moreover every definition after the commit can be listed and the console shows the listing. On a
console that keeps its promise, and where no tag begins in violation, names and members, only this
is left: the commit cannot be judged or every definition after it can be listed. -/
theorem verbose_like_plain_iff (r : Renderer) (before after : Snapshot) (settings : Settings)
    (log : LogSettings) (elapsed elapsed' : Nat) :
    let judgement := Commit.verdict before after settings
    let plain := report r judgement after false settings log elapsed
    let verbose := report r judgement after true settings log elapsed'
    let Rejects := ∃ v, judgement.result = .ok v ∧ v.isAccepted = false
    let Plain := (plain.Exits 0 ↔ Accepts settings before after) ∧ (plain.Exits 1 ↔ Rejects)
    let Alike := (∀ v, verbose.result = .ok v ↔ plain.result = .ok v) ∧
      (verbose.Exits 0 ↔ Accepts settings before after) ∧ (verbose.Exits 1 ↔ Rejects)
    (Plain ↔ ∀ v, judgement.result = .ok v → r.Shows (verdictTexts v elapsed)) ∧
      (Alike ↔ ∀ v, judgement.result = .ok v →
        r.Shows (verdictTexts v elapsed) ∧ r.Shows (verdictTexts v elapsed') ∧
          (after.privileges settings).AllListable ∧ ShowsListing r after settings) ∧
      (r.PrintsUnmarked →
        (∀ v breach, judgement.result = .ok v → v.breach = some breach →
          Unmarked breach.violation.text) →
        (after.privileges settings).AllUnmarked →
        Plain ∧ (Alike ↔
          ((∃ v, judgement.result = .ok v) → (after.privileges settings).AllListable))) := by
  intro judgement plain verbose Rejects Plain Alike
  have ended : Plain ↔ ∀ v, judgement.result = .ok v → r.Shows (verdictTexts v elapsed) := by
    simp only [Plain, Rejects, Commit.accepts_iff]
    exact leavesAs_iff fun v => result_plain
  have alike : Alike ↔ ∀ v, judgement.result = .ok v →
      r.Shows (verdictTexts v elapsed) ∧ r.Shows (verdictTexts v elapsed') ∧
        (after.privileges settings).AllListable ∧ ShowsListing r after settings := by
    simp only [Alike, Rejects, Commit.accepts_iff]
    exact alike_iff
  refine ⟨ended, alike, fun prints violation names => ?_⟩
  have told (v : Verdict) (reached : judgement.result = .ok v) (elapsed : Nat) :
      r.Shows (verdictTexts v elapsed) :=
    shows_verdictTexts prints fun breach broken => violation v breach reached broken
  refine ⟨ended.2 fun v reached => told v reached elapsed, alike.trans ⟨?_, ?_⟩⟩
  · rintro all ⟨v, reached⟩
    exact (all v reached).2.2.1
  · intro listable v reached
    exact ⟨told v reached elapsed, told v reached elapsed', listable ⟨v, reached⟩,
      showsListing_of_unmarked prints names⟩

/-- A rejected commit is rejected with the flag too: what is left behind it can be listed, and the
console of the command prints all there is to print. -/
theorem verbose_like_plain_of_deleted :
    let before := Commit.holding ⟨4⟩ [("read", Commit.atom ⟨1⟩), ("write", Commit.atom ⟨2⟩)]
    let after := Commit.holding ⟨4⟩ [("write", Commit.atom ⟨2⟩)]
    let plain := check Console.renderer before after false {} ⟨20, true⟩ 0
    let verbose := check Console.renderer before after true {} ⟨20, true⟩ 0
    Console.renderer.PrintsUnmarked ∧ after.privileges.AllUnmarked ∧
      (∀ v, verbose.result = .ok v ↔ plain.result = .ok v) ∧ plain.Exits 1 ∧ verbose.Exits 1 := by
  intro before after plain verbose
  have rejected : (Commit.verdict before after).result =
      .ok ⟨some (.definitionDeleted "read"), 1⟩ := by decide +kernel
  have registered : after.privileges.registry = .ok [("write", ⟨"write", [], false⟩)] := by
    decide +kernel
  have listed : listing after = .ok [⟨"write", "0x2", dash, dash⟩] := by decide +kernel
  have names : after.privileges.AllUnmarked := by
    refine View.allUnmarked_of_registry registered fun entry member => ?_
    cases List.mem_singleton.1 member
    exact ⟨by decide, nofun⟩
  have violation (v : Verdict) (breach : Breach)
      (reached : (Commit.verdict before after).result = .ok v) (broken : v.breach = some breach) :
      Unmarked breach.violation.text := by
    rw [rejected] at reached
    cases reached
    cases broken
    decide
  obtain ⟨-, -, same⟩ := verbose_like_plain_iff Console.renderer before after {} ⟨20, true⟩ 0 0
  obtain ⟨⟨-, plainly⟩, alike⟩ := same Console.printsUnmarked_renderer violation names
  obtain ⟨equal, -, verbosely⟩ := alike.2 fun _ => listing_ok_iff.1 ⟨_, listed⟩
  exact ⟨Console.printsUnmarked_renderer, names, equal, plainly.2 ⟨_, rejected, rfl⟩,
    verbosely.2 ⟨_, rejected, rfl⟩⟩

/-- A commit that changes nothing is accepted, also when bits are stored that cannot be read. The
verbose check reads them and comes to no end, whatever the console. -/
theorem verbose_check_of_unread_bits :
    ¬ ∃ (r : Renderer) (log : LogSettings) (elapsed elapsed' : Nat), ∀ before after : Snapshot,
      let plain := check r before after false {} log elapsed
      let verbose := check r before after true {} log elapsed'
      (∀ v, verbose.result = .ok v ↔ plain.result = .ok v) ∧
        (verbose.Exits 0 ↔ Accepts {} before after) ∧
        (verbose.Exits 1 ↔
          ∃ v, (Commit.verdict before after).result = .ok v ∧ v.isAccepted = false) := by
  rintro ⟨r, log, elapsed, elapsed', claim⟩
  let read : Node :=
    ⟨[(Schema.primaryType, .text Schema.privilegeType), (Schema.bits, .bool true)], []⟩
  let s : Snapshot := Commit.holding ⟨2⟩ [("read", read)]
  have accepted : Accepts {} s s := by decide +kernel
  obtain ⟨v, ended, -⟩ := ((claim s s).2.1).2 accepted
  obtain ⟨shown, listed⟩ := listing_ok_iff.2 (result_verbose.1 ended).2.1
  have fails : (listing s).toOption = none := by decide +kernel
  rw [listed] at fails
  cases fails

end PrivilegeStore.Report
