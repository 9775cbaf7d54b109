import PrivilegeStore.Text.Integer

/-!
# Command line

Two files are named, before and after; `-v` or `--verbose` asks for the listing and `-h` or `--help`
for help. A long option may be cut short as long as one option alone starts so. Several short options
may stand behind one dash, the first of them also in front of an equals sign; anything else that is
given to an option is a value, and no option takes one. Options take effect from left to right: help
ends the reading, and so does a value. Unknown options and a wrong number of files are refused at the
end.

The first `--` parts options from files: behind it everything names a file. It belongs to the file
in front of it, else to the one behind it, and is refused if it belongs to none. A second `--` is a
file without a name, unless the first one stands in front of it and belongs to it.
-/
namespace PrivilegeStore.CommandLine

inductive Flag where
  | help
  | verbose
deriving DecidableEq, Repr

structure Request where
  before : Option String
  after : Option String
  verbose : Bool
deriving DecidableEq, Repr

inductive Answer where
  | help
  | refused
  | request (r : Request)
deriving DecidableEq, Repr

/-- What an argument is. -/
inductive Argument where
  | file (name : String)
  /-- The first `--`. -/
  | separator
  /-- A long option, and whether a value is given to it. -/
  | long (flag : Flag) (hasValue : Bool)
  /-- A short option, and what stands behind it. -/
  | short (flag : Flag) (behind : List Char)
  /-- A short option with an equals sign, and the value behind that. -/
  | assigned (flag : Flag) (value : List Char)
  | unknown
  /-- A start of more than one option. -/
  | ambiguous
deriving DecidableEq, Repr

def shortFlag? : Char → Option Flag
  | 'h' => some .help
  | 'v' => some .verbose
  | _ => none

def longFlags : List (List Char × Flag) := [("help".toList, .help), ("verbose".toList, .verbose)]

/-- The options that a name is or is a start of; a full name is only itself. -/
def longMatches (name : List Char) : List Flag :=
  match longFlags.find? fun (long, _) => long == name with
  | some (_, flag) => [flag]
  | none => (longFlags.filter fun (long, _) => name.isPrefixOf long).map Prod.snd

/-- Digits with at most one point among them, and at least one behind it; a line feed may follow. -/
def isNumber (cs : List Char) : Bool :=
  let isDigit (c : Char) := (Text.digit? c).isSome
  let behind := cs.dropWhile isDigit
  let ends (rest : List Char) := rest == [] || rest == ['\n']
  match behind with
  | '.' :: fraction => fraction.head?.any isDigit && ends (fraction.dropWhile isDigit)
  | rest => cs.head?.any isDigit && ends rest

/-- What an argument is that starts with a dash but is no option: a file if it is a negative number or
holds a space. -/
def nonOption (text : String) (behindDash : List Char) : Argument :=
  if isNumber behindDash || text.toList.contains ' ' then .file text else .unknown

def classify (text : String) : Argument :=
  match text.toList with
  | '-' :: '-' :: name =>
    match longMatches (name.takeWhile (· != '=')) with
    | [] => nonOption text ('-' :: name)
    | [flag] => .long flag (name.contains '=')
    | _ => .ambiguous
  | '-' :: c :: rest =>
    match shortFlag? c, rest with
    | some flag, '=' :: value => .assigned flag value
    | some flag, behind => .short flag behind
    | none, _ => nonOption text (c :: rest)
  | _ => .file text

/-- The arguments up to `--`, behind which all name files. -/
def arguments : List String → List Argument
  | [] => []
  | text :: rest =>
    if text = "--" then .separator :: rest.map .file else classify text :: arguments rest

/-- An option and those behind the same dash, if nothing else stands there. -/
def cluster? (flag : Flag) : List Char → Option (List Flag)
  | [] => some [flag]
  | c :: rest =>
    match shortFlag? c with
    | none => none
    | some next => (cluster? next rest).map (flag :: ·)

/-- The options of an argument; nothing for a value that is no options. -/
def options? : Argument → Option (List Flag)
  | .long flag false => some [flag]
  | .short flag behind => cluster? flag behind
  | .assigned _ [] => none
  | .assigned flag value => cluster? flag value
  | _ => none

/-- What has been read so far. -/
structure Progress where
  /-- The files, the last one first. -/
  files : List (Option String) := []
  verbose : Bool := false
  faulty : Bool := false

def Progress.wantsFile (p : Progress) : Bool := p.files.length < 2

def finish (p : Progress) : Answer :=
  match p.files.reverse, p.faulty with
  | [before, after], false => .request ⟨before, after, p.verbose⟩
  | _, _ => .refused

/-- A file's name; `--` on its own has none. -/
def name? (text : String) : Option String := if text = "--" then none else some text

/-- Reads arguments; `behindFile` holds if a wanted file stands right in front of them. -/
def readFrom (p : Progress) (behindFile : Bool) : List Argument → Answer
  | [] => finish p
  | .separator :: .file text :: rest =>
    if behindFile then
      if p.wantsFile then readFrom { p with files := name? text :: p.files } true rest else .refused
    else if p.wantsFile then readFrom { p with files := some text :: p.files } true rest
    else .refused
  | .separator :: rest => readFrom { p with faulty := p.faulty || !behindFile } false rest
  | .file text :: rest =>
    if p.wantsFile then readFrom { p with files := name? text :: p.files } true rest
    else readFrom { p with faulty := true } false rest
  | .unknown :: rest => readFrom { p with faulty := true } false rest
  | .ambiguous :: _ => .refused
  | option :: rest =>
    match options? option with
    | none => .refused
    | some flags =>
      if flags.contains .help then .help else readFrom { p with verbose := true } false rest

def read (texts : List String) : Answer :=
  let found := arguments texts
  if found.contains .ambiguous then .refused else readFrom {} false found

end PrivilegeStore.CommandLine
