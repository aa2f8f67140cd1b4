import HoverServer.Json.Printer
import HoverServer.Log.Filter
import HoverServer.Log.Format
import HoverServer.Text.Quoted

/-! Events as lines, one for each event that a filter admits. -/
namespace HoverServer.Log

def Level.name : Level → String
  | .error => "ERROR"
  | .warn => "WARN"
  | .info => "INFO"
  | .debug => "DEBUG"
  | .trace => "TRACE"

def Value.shownText : Value → String
  | .text s => Text.quoted s
  | .shown s => s
  | .count n => toString n

def Value.jsonChars : Value → List Char
  | .text s => Json.stringChars s
  | .shown s => Json.stringChars s
  | .count n => Nat.toDigits 10 n

namespace Event

/-- The message and the fields behind it. -/
def body (e : Event) : String :=
  e.message ++ String.join (e.fields.map fun (name, v) => " " ++ name ++ "=" ++ v.shownText)

/-- Level names take five places, with blanks in front. -/
def paddedLevel (l : Level) : String :=
  String.ofList (List.replicate (5 - l.name.length) ' ') ++ l.name

def jsonMember (member : String × Value) : List Char :=
  Json.stringChars member.1 ++ ':' :: member.2.jsonChars

def jsonLine (stamp : String) (e : Event) : String :=
  let members : List (String × Value) :=
    [("timestamp", .text stamp), ("level", .text e.level.name), ("message", .text e.message)] ++
      e.fields ++ [("target", .text e.target.path)]
  String.ofList ('\x7b' :: (List.intercalate [','] (members.map jsonMember) ++ ['\x7d']))

def line (format : Format) (stamp : String) (e : Event) : String :=
  match format with
  | .plain => "[" ++ stamp ++ "] [" ++ e.level.name ++ "] " ++ e.body
  | .compact => stamp ++ " " ++ paddedLevel e.level ++ " " ++ e.target.path ++ ": " ++ e.body
  | .json => e.jsonLine stamp

end Event

/-- The lines of a log, where `stamps` gives the time of each. -/
def linesFrom (format : Format) (stamps : Nat → String) (n : Nat) : List Event → List String
  | [] => []
  | e :: r => e.line format (stamps n) :: linesFrom format stamps (n + 1) r

def lines (format : Format) (f : Filter) (stamps : Nat → String) (events : List Event) :
    List String :=
  linesFrom format stamps 0 (events.filter f.admits)

def text (lines : List String) : String := String.join (lines.map (· ++ "\n"))

end HoverServer.Log
