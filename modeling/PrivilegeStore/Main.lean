import PrivilegeStore.CommandLine
import PrivilegeStore.Console.Table
import PrivilegeStore.Reading
import PrivilegeStore.Report.Check

/-!
# The check command

Reads two snapshots, prints the verdict on the commit from the one to the other and leaves with
status 0 if it is accepted, 1 if it is rejected or cannot be judged, and 2 if the arguments are
wrong.
-/
namespace PrivilegeStore

def usage : String := "usage: privilege-check [-h] [--verbose] before after"

/-- The environment variables that settings are taken from. -/
def settingVariables : List String :=
  ["PRIVILEGE_PRIVILEGES_PATH", "PRIVILEGE_RESERVED_PREFIXES", "PRIVILEGE_LOG_LEVEL",
    "PRIVILEGE_LOG_FORMAT"]

def readEnvironment : IO (Entries String) := do
  let mut found : Entries String := []
  for name in settingVariables do
    if let some value ← IO.getEnv name then
      found := found ++ [(name, value)]
  return found

def readSnapshot (path : Option String) : IO Snapshot := do
  let some path := path | throw (IO.userError "-- names no file")
  match Snapshot.parse (← IO.FS.readFile path) with
  | .ok snapshot => return snapshot
  | .error .malformed => throw (IO.userError (path ++ " is no JSON"))
  | .error .numeralTooLong => throw (IO.userError (path ++ " holds an integer that is too long"))
  | .error (.notNode _) => throw (IO.userError (path ++ " is no node"))

def runCheck (request : CommandLine.Request) (settings : Settings) (log : Report.LogSettings) :
    IO UInt32 := do
  let before ← readSnapshot request.before
  let after ← readSnapshot request.after
  let start ← IO.monoMsNow
  let judgement ← IO.lazyPure fun _ => Commit.verdict before after settings
  let elapsed := (← IO.monoMsNow) - start
  let check := Report.report Console.renderer judgement after request.verbose settings log elapsed
  for line in check.output.printed do
    IO.println line
  for line in check.output.logged do
    IO.eprintln line.line
  match check.result with
  | .ok verdict => return (Report.exitStatus verdict).toUInt32
  | .error (.reading fault) =>
    IO.eprintln (fault.message?.getD "the privileges node cannot be read")
    return 1
  | .error (.rendering message) =>
    IO.eprintln message
    return 1

end PrivilegeStore

open PrivilegeStore in
def main (arguments : List String) : IO UInt32 := do
  match CommandLine.read arguments with
  | .help =>
    IO.println usage
    return 0
  | .refused =>
    IO.eprintln usage
    return 2
  | .request request =>
    match Settings.load [] (← readEnvironment) with
    | .error _ =>
      IO.eprintln "wrong settings"
      return 1
    | .ok settings =>
      match Report.logSettings? settings with
      | none =>
        IO.eprintln ("unknown log level " ++ settings.logLevel)
        return 1
      | some log =>
        try runCheck request settings log
        catch failure =>
          IO.eprintln (toString failure)
          return 1
