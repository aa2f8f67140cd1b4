import HoverServer.CommandLine.Halt
import HoverServer.Text.Similarity

/-! Arguments read from left to right. Nothing is positional: every word is an option, the value
of one, or an error. -/
namespace HoverServer.CommandLine

/-- An option counts as given once it is known to have its value; until then it is pending. -/
structure Reading where
  given : List Setting
  choices : Choices
  pending : Option (Setting × Option Bytes)

namespace Reading

def start : Reading := ⟨[], .none, none⟩

def give (r : Reading) (s : Setting) (value : Bytes) : Except Halt Reading :=
  if r.choices.decided s then .error (.repeated s)
  else
    match r.choices.decide s value with
    | .ok c => .ok ⟨r.given ++ [s], c, r.pending⟩
    | .error fault => .error (.ofValueFault s fault)

def settle (r : Reading) : Except Halt Reading :=
  match r.pending with
  | none => .ok r
  | some (s, none) => .error (.missingValue s)
  | some (s, some value) => { r with pending := none }.give s value

/-- The options given so far. A pending one counts if it has a value; if it was given before,
neither counts. -/
def used (r : Reading) : List Flag :=
  let settings :=
    match r.pending with
    | some (s, some _) => if r.given.contains s then r.given.erase s else r.given ++ [s]
    | _ => r.given
  settings.map .setting

end Reading

/-- A long option is a name, and a value behind the first equals sign. -/
def splitValue : Bytes → Bytes × Option Bytes
  | [] => ([], none)
  | b :: r =>
    if b = 61 then ([], some r)
    else
      let rest := splitValue r
      (b :: rest.1, rest.2)

def stray (argument : Bytes) : Halt := .unknownArgument (Text.Lossy.decode argument) none []

def unknownLong (r : Reading) (name : Bytes) : Halt :=
  let name := Text.Lossy.decode name
  let tip := Text.Similarity.nearest Flag.name name Flag.all
  let used := r.used
  .unknownArgument ("--" ++ name) tip
    (used ++ tip.toList.filter fun f => !used.contains f)

def long (r : Reading) (argument : Bytes) : Except Halt Reading :=
  let (name, value) := splitValue argument
  match (Text.decode? name).bind Flag.ofName?, value with
  | some (.setting s), some value => do (← r.settle).give s value
  | some (.setting s), none => do return { ← r.settle with pending := some (s, none) }
  | some .help, none => do
    let _ ← r.settle
    .error .help
  | some .version, none => do
    let _ ← r.settle
    .error .version
  | some f, some value =>
    .error (.unexpectedValue (Text.Lossy.decode value) f r.given)
  | none, _ => .error (unknownLong r name)

/-- The first character, if the bytes start with one. -/
def firstChar? (bs : Bytes) : Option Char :=
  (Text.Lossy.decode bs).toList.head?.filter fun c => (String.utf8EncodeChar c).isPrefixOf bs

/-- The first letter of a group decides, as both letters that mean something end the reading. -/
def short (r : Reading) (group : Bytes) : Except Halt Reading :=
  match firstChar? group with
  | none => .error (.unknownArgument ("-" ++ Text.Lossy.decode group) none [])
  | some 'h' => do
    let _ ← r.settle
    .error .help
  | some 'V' => do
    let _ ← r.settle
    .error .version
  | some c => .error (.unknownArgument ("-" ++ String.ofList [c]) none [])

def word (r : Reading) (argument : Bytes) : Except Halt Reading :=
  match r.pending with
  | some (s, none) => .ok { r with pending := some (s, some argument) }
  | _ => .error (stray argument)

/-- Behind a double dash nothing is an option any more. -/
def Reading.readFrom (r : Reading) : List Bytes → Except Halt Reading
  | [] => r.settle
  | argument :: more =>
    match argument with
    | [45, 45] =>
      match more with
      | [] => r.settle
      | first :: _ => .error (stray first)
    | 45 :: 45 :: name => do (← long r name).readFrom more
    | 45 :: b :: group => do (← short r (b :: group)).readFrom more
    | _ => do (← word r argument).readFrom more

/-- What the program was called by: the last part of its path. -/
def calledName (path : Bytes) : String :=
  let parts := (path.splitOn 47).filter fun part => part != [] && part != [46]
  match parts.getLast? with
  | none => programName
  | some part =>
    if part = [46, 46] then programName else (Text.decode? part).getD programName

def readSettings (arguments : List Bytes) (env : Environment) : Except Halt Settings := do
  let r ← Reading.start.readFrom (arguments.drop 1)
  match r.choices.complete env with
  | .ok c => return c.settings
  | .error (s, fault) => .error (.ofValueFault s fault)

end HoverServer.CommandLine
