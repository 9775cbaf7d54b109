import PrivilegeStore.Notice

/-!
# Log lines

Notices at or above a level are logged as plain lines. The outcome of a check is a record of named
fields, which is logged either in JSON or as a plain line with its fields in the order of
their names.
-/
namespace PrivilegeStore.Report

inductive Field where
  | number (n : Nat)
  | text (s : String)
deriving DecidableEq, Repr

structure Record where
  severity : Severity
  event : String
  /-- The other fields, in the order of their names. -/
  fields : List (String × Field)
deriving DecidableEq, Repr

inductive LogLine where
  | plain (line : String)
  | record (r : Record)
deriving DecidableEq, Repr

structure LogSettings where
  threshold : Nat
  inJson : Bool
deriving DecidableEq, Repr

def noticeLine (n : Notice) : String :=
  n.severity.label ++ ":" ++ n.channel ++ ":" ++ n.message

def logNotices (settings : LogSettings) (notices : List Notice) : List LogLine :=
  (notices.filter fun n => settings.threshold ≤ n.severity.rank).map fun n => .plain (noticeLine n)

def Record.level (r : Record) : String :=
  match r.severity with
  | .debug => "debug"
  | .info => "info"
  | .warning => "warning"
  | .error => "error"
  | .critical => "critical"

/-- Whether a text must be quoted in a plain line. -/
def needsQuotes (text : String) : Bool :=
  text.toList.any fun c => [' ', '\t', '=', '\r', '\n', '"', '\''].contains c

def Field.plain : Field → String
  | .number n => toString n
  | .text s => if needsQuotes s then Text.quoted s else s

def padded (width : Nat) (text : String) : String :=
  text ++ String.ofList (List.replicate (width - text.length) ' ')

/-- The level in brackets, padded to nine characters, the event, padded to thirty when fields
follow, and the fields. -/
def Record.plain (r : Record) : String :=
  "[" ++ padded 9 r.level ++ "] " ++ padded 30 r.event ++ " " ++
    " ".intercalate (r.fields.map fun (name, field) => name ++ "=" ++ field.plain)

def logRecord (settings : LogSettings) (r : Record) : List LogLine :=
  if r.severity.rank < settings.threshold then []
  else if settings.inJson then [.record r]
  else [.plain r.plain]

/-- A text in JSON, with all but the printable characters of ASCII escaped. -/
def jsonChar (c : Char) : String :=
  let unit (n : Nat) := "\\u" ++ String.ofList (Text.paddedHex 4 n)
  if c = '"' then "\\\""
  else if c = '\\' then "\\\\"
  else if c = '\n' then "\\n"
  else if c = '\r' then "\\r"
  else if c = '\t' then "\\t"
  else if c = '\x08' then "\\b"
  else if c = '\x0c' then "\\f"
  else if 0x20 ≤ c.toNat ∧ c.toNat < 0x7F then c.toString
  else if c.toNat < 0x10000 then unit c.toNat
  else
    let rest := c.toNat - 0x10000
    unit (0xD800 + rest / 0x400) ++ unit (0xDC00 + rest % 0x400)

def jsonText (s : String) : String := "\"" ++ String.join (s.toList.map jsonChar) ++ "\""

def Field.json : Field → String
  | .number n => toString n
  | .text s => jsonText s

def Record.json (r : Record) : String :=
  let entries := r.fields.map (fun (name, field) => (name, field.json)) ++
    [("event", jsonText r.event), ("level", jsonText r.level)]
  "\x7b" ++ ", ".intercalate (entries.map fun (name, value) => jsonText name ++ ": " ++ value) ++
    "\x7d"

def LogLine.line : LogLine → String
  | .plain line => line
  | .record r => r.json

end PrivilegeStore.Report
