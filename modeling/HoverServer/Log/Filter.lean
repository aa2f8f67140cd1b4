import HoverServer.Log.Event
import HoverServer.Text.Alphanumeric
import HoverServer.Text.Blank
import HoverServer.Text.Lossy

/-! Which events are logged: a list of directives, each a level, a target, or a target with a
level. -/
namespace HoverServer.Log

def Level.rank : Level → Nat
  | .error => 1
  | .warn => 2
  | .info => 3
  | .debug => 4
  | .trace => 5

inductive Threshold where
  | off
  | upTo (l : Level)
  deriving DecidableEq

def Threshold.rank : Threshold → Nat
  | .off => 0
  | .upTo l => l.rank

def Threshold.admits (t : Threshold) (l : Level) : Bool := l.rank ≤ t.rank

namespace Threshold

/-- Ordered by rank. -/
def all : List (String × Threshold) :=
  [("off", .off), ("error", .upTo .error), ("warn", .upTo .warn), ("info", .upTo .info),
    ("debug", .upTo .debug), ("trace", .upTo .trace)]

/-- A number may have a plus sign and zeros in front. -/
def number? (text : Bytes) : Option Nat :=
  let digits := if text.head? = some 43 then text.drop 1 else text
  if digits ≠ [] && digits.all Bytes.isDigit then some (Bytes.decimalValue digits) else none

def ofText? (text : Bytes) : Option Threshold :=
  match (number? text).bind fun n => all[n]? with
  | some (_, t) => some t
  | none => (all.find? fun (name, _) => Bytes.sameLetters (Bytes.ofString name) text).map (·.2)

end Threshold

/-- A directive that asks for a span is met by no event, as no event is inside one. -/
structure Directive where
  target : Option String
  threshold : Threshold
  inSpan : Bool
  deriving DecidableEq

inductive FilterFault where
  | directive
  | level
  deriving DecidableEq

def FilterFault.message : FilterFault → String
  | .directive => "invalid filter directive"
  | .level =>
    "error parsing level filter: expected one of \"off\", \"error\", \"warn\", \"info\", " ++
      "\"debug\", \"trace\", or a number 0-5"

namespace Directive

/-- The part of a directive that is being read, and where it began. -/
inductive Part where
  | start
  | name (first : Nat)
  | level (first : Nat)
  | span (first : Nat)
  | field (first : Nat)
  | fields
  | spanEnd
  deriving DecidableEq

def cut (whole : Bytes) (first last : Nat) : Bytes := (whole.take last).drop first

def mayStart (c : Char) : Bool := c = '-' || c = ':' || c = '_' || Text.isAlphanumeric c

/-- The part that a character belongs to, in a directive without blanks around it. -/
def next (place : Nat) : Part → Char → Except FilterFault Part
  | .start, c =>
    if c = '[' then .ok (.span (place + 1))
    else if mayStart c then .ok (.name place)
    else .error .directive
  | .name first, c =>
    if c = '=' then .ok (.level (place + 1))
    else if c = '[' then .ok (.span (place + 1))
    else .ok (.name first)
  | .level first, _ => .ok (.level first)
  | .span first, c =>
    if c = ']' then .ok .spanEnd
    else if c = '\x7b' then .ok (.field (place + 1))
    else .ok (.span first)
  | .field first, c =>
    if c = '\x7d' then if first = place then .error .directive else .ok .fields
    else .ok (.field first)
  | .fields, c => if c = ']' then .ok .spanEnd else .error .directive
  | .spanEnd, c => if c = '=' then .ok (.level (place + 1)) else .error .directive

/-- A name is the target once something other than a name follows it. -/
def targetAt (whole : Bytes) (place : Nat) (known : Option String) : Part → Part → Option String
  | .name first, .level _ => some (Text.Lossy.decode (cut whole first place))
  | .name first, .span _ => some (Text.Lossy.decode (cut whole first place))
  | _, _ => known

def lastThreshold (text : Bytes) : Except FilterFault Threshold :=
  if text = [] then .ok (.upTo .trace)
  else
    match Threshold.ofText? text with
    | some t => .ok t
    | none => .error .level

def finish (whole : Bytes) (known : Option String) (inSpan : Bool) :
    Part → Except FilterFault Directive
  | .name first =>
    let text := whole.drop first
    match Threshold.ofText? text with
    | some t => .ok ⟨none, t, false⟩
    | none => .ok ⟨some (Text.Lossy.decode text), .upTo .trace, false⟩
  | .level first => (lastThreshold (whole.drop first)).map fun t => ⟨known, t, inSpan⟩
  | .spanEnd => .ok ⟨known, .upTo .trace, true⟩
  | _ => .error .directive

def readFrom (whole : Bytes) (place : Nat) (known : Option String) (inSpan : Bool) (part : Part) :
    List Char → Except FilterFault Directive
  | [] => finish whole known inSpan part
  | c :: r => do
    let part' ← next place part c
    readFrom whole (place + c.utf8Size) (targetAt whole place known part part')
      (inSpan || part' = .spanEnd) part' r

/-- Blanks around a directive do not count when its parts are told apart by their places, but the
parts are then cut from the text as it is given. -/
def read (text : List Char) : Except FilterFault Directive :=
  readFrom (Bytes.ofString (String.ofList text)) 0 none false .start (Text.trim text)

def matchesTarget (d : Directive) (path : String) : Bool :=
  !d.inSpan && (d.target.map fun t => t.toList.isPrefixOf path.toList).getD true

/-- No target at all is less than any. -/
def specificity (d : Directive) : Nat := (d.target.map fun t => t.length + 1).getD 0

end Directive

abbrev Filter := List Directive

namespace Filter

def read (text : String) : Except FilterFault Filter :=
  ((text.toList.splitOn ',').filter (· ≠ [])).mapM Directive.read

/-- The most specific directive for a target, the last of several. -/
def directive? (f : Filter) (path : String) : Option Directive :=
  f.foldl (fun best d =>
    if d.matchesTarget path && (best.map fun b => decide (b.specificity ≤ d.specificity)).getD true
    then some d else best) none

def admits (f : Filter) (e : Event) : Bool :=
  match f.directive? e.target.path with
  | none => false
  | some d => d.threshold.admits e.level

end Filter
end HoverServer.Log
