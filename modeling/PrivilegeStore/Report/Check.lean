import PrivilegeStore.Commit.Verdict
import PrivilegeStore.Report.Listing
import PrivilegeStore.Report.Log

/-!
# Check of a commit

A check prints the verdict on a commit and logs its outcome. A verbose check goes on to list the
definitions after the commit. It may fail where the verdict did not, and the console may refuse what
either of them prints. What was put out before a failure stays.
-/
namespace PrivilegeStore.Report

open Commit (Verdict)

/-- The level and format of log lines; nothing for a level without a rank. -/
def logSettings? (settings : Settings) : Option LogSettings :=
  (Severity.threshold? settings.logLevel).map fun threshold =>
    ⟨threshold, settings.logFormat == "json"⟩

/-- Why a check comes to no end. -/
inductive Failure where
  /-- What is stored cannot be read. -/
  | reading (fault : Fault)
  /-- The console has something against a text or a table. -/
  | rendering (message : String)
deriving DecidableEq, Repr

/-- What has been printed and what has been logged. -/
structure Output where
  printed : List String := []
  logged : List LogLine := []
deriving DecidableEq, Repr

/-- An action of a check, which adds to the output and may fail. -/
abbrev Reporting := ExceptT Failure (StateM Output)

namespace Reporting

/-- Goes on with what was read. -/
def read {α : Type} : Except Fault α → Reporting α
  | .ok value => pure value
  | .error fault => throw (.reading fault)

def write (lines : List LogLine) : Reporting Unit :=
  modify fun output => { output with logged := output.logged ++ lines }

/-- Prints what the console has made of a text or a table. -/
def display : Except String (List String) → Reporting Unit
  | .ok lines => modify fun output => { output with printed := output.printed ++ lines }
  | .error message => throw (.rendering message)

def print (r : Renderer) (text : String) : Reporting Unit := Reporting.display (r.text text)

end Reporting

def heading : String := "\n" ++ Renderer.styled "bold blue" "═══ Privilege Commit Check ═══"

/-- The texts that tell the outcome. -/
def outcomeTexts (v : Verdict) : List String :=
  match v.breach with
  | none => ["  Decision: " ++ Renderer.styled "bold green" "✓ ACCEPTED"]
  | some breach =>
    ["  Decision: " ++ Renderer.styled "bold red" "✗ REJECTED",
      "  Violation: " ++ breach.violation.text]

def countText (v : Verdict) : String :=
  "  Events checked: " ++ Renderer.styled "bold" (toString v.eventsChecked)

/-- Milliseconds as seconds with three places. -/
def seconds (milliseconds : Nat) : String :=
  let places := toString (milliseconds % 1000)
  toString (milliseconds / 1000) ++ "." ++
    String.ofList (List.replicate (3 - places.length) '0') ++ places

def timeText (elapsed : Nat) : String := "  Check time: " ++ seconds elapsed ++ "s"

def outcomeRecord (v : Verdict) : Record :=
  match v.breach with
  | none =>
    ⟨.info, "privilege_integrity.check.accepted", [("events_checked", .number v.eventsChecked)]⟩
  | some breach =>
    ⟨.warning, "privilege_integrity.check.rejected",
      [("code", .number breach.code), ("events_checked", .number v.eventsChecked),
        ("message", .text breach.message)]⟩

def listingHeading : String :=
  "\n" ++ Renderer.styled "bold" "Privilege definitions after commit:"

/-- Lists the definitions of a snapshot in a table. -/
def listDefinitions (r : Renderer) (s : Snapshot) (settings : Settings) (log : LogSettings) :
    Reporting Unit := do
  Reporting.print r listingHeading
  let store := s.view settings.privilegesPath
  let registry ← Reporting.read store.registry
  Reporting.write (logNotices log
    (if store.isPresent then [Notice.definitionsRead registry.length] else []))
  let rows ← Reporting.read (rows store registry)
  Reporting.display (r.table headings (rows.map Row.cells))

/-- Tells the verdict that judging came to after `elapsed` milliseconds, if it came to one. -/
def tellVerdict (r : Renderer) (judgement : Commit.Judgement) (log : LogSettings) (elapsed : Nat) :
    Reporting Verdict := do
  Reporting.print r heading
  Reporting.write (logNotices log judgement.notices)
  let verdict ← Reporting.read judgement.result
  (outcomeTexts verdict).forM (Reporting.print r)
  Reporting.write (logRecord log (outcomeRecord verdict))
  Reporting.print r (countText verdict)
  Reporting.print r (timeText elapsed)
  return verdict

/-- Tells the verdict and, if asked to, lists the definitions after the commit. -/
def tellAll (r : Renderer) (judgement : Commit.Judgement) (after : Snapshot) (verbose : Bool)
    (settings : Settings) (log : LogSettings) (elapsed : Nat) : Reporting Verdict := do
  let verdict ← tellVerdict r judgement log elapsed
  if verbose then listDefinitions r after settings log
  return verdict

/-- How a check ended, and its output. -/
structure Check where
  /-- The verdict, or why the check came to no end. -/
  result : Except Failure Verdict
  output : Output
deriving Repr

/-- Reports a judgement. -/
def report (r : Renderer) (judgement : Commit.Judgement) (after : Snapshot) (verbose : Bool)
    (settings : Settings) (log : LogSettings) (elapsed : Nat) : Check :=
  let (result, output) := (tellAll r judgement after verbose settings log elapsed).run.run {}
  ⟨result, output⟩

/-- Judges a commit and reports the judgement. -/
def check (r : Renderer) (before after : Snapshot) (verbose : Bool) (settings : Settings)
    (log : LogSettings) (elapsed : Nat) : Check :=
  report r (Commit.verdict before after settings) after verbose settings log elapsed

/-- The exit status of a check that came to its end. -/
def exitStatus (v : Verdict) : Nat := if v.isAccepted then 0 else 1

end PrivilegeStore.Report
