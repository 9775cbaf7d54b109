import PrivilegeStore.Proofs.Report.Listing
import PrivilegeStore.Report.Check

/-!
# When a check comes to its end

A check is a sequence of actions that may fail. What each of them comes to does not depend on what
was put out before, so the ends of a check are known from those of its parts: a verdict is reached,
the console prints the texts that tell it and, in a verbose check, every definition after the commit
can be listed and the console shows the listing. Nothing is assumed of the console.
-/
namespace PrivilegeStore.Report

open Commit (Verdict)

variable {r : Renderer} {after : Snapshot} {settings : Settings} {log : LogSettings}
  {judgement : Commit.Judgement} {elapsed : Nat} {v : Verdict}

namespace Reporting

variable {α β : Type} {x : Reporting α} {f : α → Reporting β} {values : α → Prop}

/-- An action comes to its end with certain values and no others, whatever was put out before. -/
def EndsIn (x : Reporting α) (values : α → Prop) : Prop :=
  ∀ output a, (x.run.run output).run.1 = .ok a ↔ values a

theorem run_bind (x : Reporting α) (f : α → Reporting β) (output : Output) :
    ((x >>= f).run.run output).run = match (x.run.run output).run with
      | (.ok a, behind) => ((f a).run.run behind).run
      | (.error failure, behind) => (.error failure, behind) := by
  unfold ExceptT.run StateT.run Id.run
  simp only [bind, ExceptT.bind, ExceptT.mk, StateT.bind, ExceptT.bindCont]
  rcases x output with ⟨_ | a, behind⟩ <;> rfl

/-- An action ends if its first part does and then the rest. -/
theorem EndsIn.bind {later : α → β → Prop} (first : x.EndsIn values)
    (rest : ∀ a, (f a).EndsIn (later a)) : (x >>= f).EndsIn fun b => ∃ a, values a ∧ later a b := by
  intro output b
  have known := first output
  rw [run_bind]
  generalize (x.run.run output).run = ran at known ⊢
  rcases ran with ⟨failure | a, behind⟩
  -- a first part that failed has no value for the rest to go on with
  · refine iff_of_false (by simp) fun ⟨a, reached, _⟩ => ?_
    cases (known a).2 reached
  · simp only [Except.ok.injEq] at known
    simp only [← known, exists_eq_left', rest a behind b]

/-- The same for a first part that yields nothing. -/
theorem EndsIn.andThen {possible : Prop} {x : Reporting Unit} {y : Reporting β} {later : β → Prop}
    (first : x.EndsIn fun _ => possible) (rest : y.EndsIn later) :
    (do x; y).EndsIn fun b => possible ∧ later b := by
  intro output b
  rw [(first.bind fun _ => rest) output b]
  exact exists_const Unit

theorem endsIn_pure (a : α) : (pure a : Reporting α).EndsIn (a = ·) := by
  intro output b
  simp

theorem endsIn_read (found : Except Fault α) : (read found).EndsIn (found = .ok ·) := by
  intro output a
  cases found <;> simp [read]

theorem endsIn_write (lines : List LogLine) : (write lines).EndsIn fun _ => True :=
  fun _ _ => iff_of_true rfl trivial

theorem endsIn_display (drawn : Except String (List String)) :
    (display drawn).EndsIn fun _ => ∃ lines, drawn = .ok lines := by
  intro output a
  cases drawn with
  | error message => simp [display]
  | ok lines => exact iff_of_true rfl ⟨lines, rfl⟩

theorem endsIn_print (r : Renderer) (text : String) :
    (print r text).EndsIn fun _ => ∃ lines, r.text text = .ok lines := endsIn_display _

/-- Texts are printed one after the other, up to the first that the console refuses. -/
theorem endsIn_prints (r : Renderer) (texts : List String) :
    (texts.forM (print r)).EndsIn fun _ => r.Shows texts := by
  induction texts with
  | nil => simpa [Renderer.shows_nil] using endsIn_pure ()
  | cons text rest ih =>
    simp only [Renderer.shows_cons]
    exact (endsIn_print r text).andThen ih

end Reporting

open Reporting

/-- The texts that tell a verdict. -/
def verdictTexts (v : Verdict) (elapsed : Nat) : List String :=
  heading :: outcomeTexts v ++ [countText v, timeText elapsed]

theorem shows_verdictTexts_iff : r.Shows (verdictTexts v elapsed) ↔
    (∃ lines, r.text heading = .ok lines) ∧ r.Shows (outcomeTexts v) ∧
      (∃ lines, r.text (countText v) = .ok lines) ∧
        ∃ lines, r.text (timeText elapsed) = .ok lines := by
  simp only [verdictTexts, List.cons_append, Renderer.shows_cons, Renderer.shows_append,
    Renderer.shows_nil, and_true]

/-- A verdict is told if there is one and the console prints its texts. -/
theorem endsIn_tellVerdict (r : Renderer) (judgement : Commit.Judgement) (log : LogSettings)
    (elapsed : Nat) : (tellVerdict r judgement log elapsed).EndsIn fun v =>
      judgement.result = .ok v ∧ r.Shows (verdictTexts v elapsed) := by
  have stages := (endsIn_print r heading).andThen <|
    (endsIn_write (logNotices log judgement.notices)).andThen <|
    (endsIn_read judgement.result).bind fun v =>
    (endsIn_prints r (outcomeTexts v)).andThen <|
    (endsIn_write (logRecord log (outcomeRecord v))).andThen <|
    (endsIn_print r (countText v)).andThen <|
    (endsIn_print r (timeText elapsed)).andThen <| endsIn_pure v
  intro output v
  rw [tellVerdict, stages output v]
  simp only [shows_verdictTexts_iff]
  constructor
  · rintro ⟨head, -, _, reached, outcome, -, count, time, rfl⟩
    exact ⟨reached, head, outcome, count, time⟩
  · rintro ⟨reached, head, outcome, count, time⟩
    exact ⟨head, trivial, v, reached, outcome, trivial, count, time, rfl⟩

/-- The console prints the heading of a listing and draws its table. -/
structure ShowsListing (r : Renderer) (s : Snapshot) (settings : Settings) : Prop where
  heading : r.Shows [listingHeading]
  table : ∀ shown, listing s settings = .ok shown → r.Draws headings (shown.map Row.cells)

/-- A snapshot is listed if each of its definitions can be and the console shows the listing. -/
theorem endsIn_listDefinitions (r : Renderer) (after : Snapshot) (settings : Settings)
    (log : LogSettings) : (listDefinitions r after settings log).EndsIn fun _ =>
      (after.privileges settings).AllListable ∧ ShowsListing r after settings := by
  let store := after.view settings.privilegesPath
  have stages := (endsIn_print r listingHeading).andThen <|
    (endsIn_read store.registry).bind fun registry =>
    (endsIn_write (logNotices log
      (if store.isPresent then [Notice.definitionsRead registry.length] else []))).andThen <|
    (endsIn_read (rows store registry)).bind fun shown =>
    endsIn_display (r.table headings (shown.map Row.cells))
  intro output u
  rw [listDefinitions, stages output u, ← listing_ok_iff]
  constructor
  · rintro ⟨head, registry, read, -, shown, found, drawn⟩
    have listed : listing after settings = .ok shown := listing_eq_ok.2 ⟨registry, read, found⟩
    refine ⟨⟨shown, listed⟩, ?_, fun other same => ?_⟩
    · exact Renderer.shows_singleton.2 head
    · rw [listed] at same
      cases same
      exact drawn
  · rintro ⟨⟨shown, listed⟩, prints⟩
    obtain ⟨registry, read, found⟩ := listing_eq_ok.1 listed
    exact ⟨Renderer.shows_singleton.1 prints.heading, registry, read, trivial, shown, found,
      prints.table shown listed⟩

/-- A plain check comes to its end if the verdict is told. -/
theorem result_plain : (report r judgement after false settings log elapsed).result = .ok v ↔
    judgement.result = .ok v ∧ r.Shows (verdictTexts v elapsed) :=
  ((endsIn_tellVerdict r judgement log elapsed).bind endsIn_pure {} v).trans exists_eq_right

/-- A verbose check comes to its end if the verdict is told and the definitions are listed. -/
theorem result_verbose : (report r judgement after true settings log elapsed).result = .ok v ↔
    (judgement.result = .ok v ∧ r.Shows (verdictTexts v elapsed)) ∧
      (after.privileges settings).AllListable ∧ ShowsListing r after settings := by
  have stages := (endsIn_tellVerdict r judgement log elapsed).bind fun v =>
    (endsIn_listDefinitions r after settings log).andThen (endsIn_pure v)
  refine (stages {} v).trans ?_
  simp only [exists_eq_right_right]

end PrivilegeStore.Report
