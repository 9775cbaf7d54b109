import PrivilegeStore.Json.Reader
import PrivilegeStore.Namespace
import PrivilegeStore.NameSet
import PrivilegeStore.Text.Case

/-!
# Settings

A setting is given by an argument, else by an environment variable, else by its default. An argument
is named like the field and a variable `PRIVILEGE_` and the field, both in any case; of several
arguments for a field the first counts, and of several variables the last. Texts are taken as they
are; the reserved prefixes come as a list, which a variable writes in JSON. Every wrong setting is
reported, in the order of the fields.
-/
namespace PrivilegeStore

structure Settings where
  privilegesPath : String := "/jcr:system/rep:privileges"
  reservedPrefixes : List String := Namespace.reservedByDefault
  logLevel : String := "INFO"
  logFormat : String := "json"
deriving DecidableEq, Repr, Inhabited

namespace Settings

inductive Complaint where
  /-- The field should hold a text. -/
  | notText (field : String)
  /-- The field should hold a list. -/
  | notList (field : String)
  /-- An item of the field should be a text. -/
  | itemNotText (field : String) (index : Nat)
deriving DecidableEq, Repr

inductive Problem where
  /-- A variable could not be read. -/
  | unreadable
  | complaints (all : List Complaint)
deriving DecidableEq, Repr

/-- The argument of a field; the first one counts. -/
def argument? (arguments : Entries Value) (field : String) : Option Value :=
  (List.find? (fun (name, _) => Text.lower name == field) arguments).map Prod.snd

/-- The variable of a field; the last one counts. -/
def fromEnvironment? (environment : Entries String) (field : String) : Option String :=
  (environment.reverse.find? fun (name, _) => Text.lower name == "privilege_" ++ field).map Prod.snd

def textField (arguments : Entries Value) (environment : Entries String) (field byDefault : String) :
    Except (List Complaint) String :=
  match argument? arguments field, fromEnvironment? environment field with
  | some value, _ =>
    match value.text? with
    | some text => .ok text
    | none => .error [.notText field]
  | none, some text => .ok text
  | none, none => .ok byDefault

/-- The items of a list that are no texts. -/
def itemComplaints (field : String) (index : Nat) : List Value → List Complaint
  | [] => []
  | item :: rest =>
    let others := itemComplaints field (index + 1) rest
    if item.text?.isSome then others else .itemNotText field index :: others

def listOfTexts (field : String) : Value → Except (List Complaint) (List String)
  | .list items =>
    match itemComplaints field 0 items with
    | [] => .ok (items.filterMap Value.text?).eraseDups
    | complaints => .error complaints
  | _ => .error [.notList field]

/-- The value that the variable of the reserved prefixes writes; null leaves them unset. -/
def reservedVariable (environment : Entries String) : Except Problem (Option Value) :=
  match fromEnvironment? environment "reserved_prefixes" with
  | none => .ok none
  | some text =>
    match Json.parse text with
    | .error _ => .error .unreadable
    | .ok (.scalar .null) => .ok none
    | .ok value => .ok (some value)

def reservedField (arguments : Entries Value) (fromVariable : Option Value) :
    Except (List Complaint) (List String) :=
  match argument? arguments "reserved_prefixes", fromVariable with
  | some value, _ => listOfTexts "reserved_prefixes" value
  | none, some value => listOfTexts "reserved_prefixes" value
  | none, none => .ok Namespace.reservedByDefault

def complaintsOf {α : Type} : Except (List Complaint) α → List Complaint
  | .ok _ => []
  | .error complaints => complaints

def load (arguments : Entries Value) (environment : Entries String := []) : Except Problem Settings :=
  match reservedVariable environment with
  | .error problem => .error problem
  | .ok fromVariable =>
    let byDefault : Settings := {}
    let path := textField arguments environment "privileges_path" byDefault.privilegesPath
    let reserved := reservedField arguments fromVariable
    let level := textField arguments environment "log_level" byDefault.logLevel
    let format := textField arguments environment "log_format" byDefault.logFormat
    match path, reserved, level, format with
    | .ok privilegesPath, .ok reservedPrefixes, .ok logLevel, .ok logFormat =>
      .ok { privilegesPath, reservedPrefixes, logLevel, logFormat }
    | _, _, _, _ =>
      .error (.complaints (complaintsOf path ++ complaintsOf reserved ++ complaintsOf level ++
        complaintsOf format))

end Settings

end PrivilegeStore
