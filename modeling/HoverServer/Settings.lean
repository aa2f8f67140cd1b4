import HoverServer.Log.Format
import HoverServer.Policy
import HoverServer.Text.Lossy

/-! What can be set, and how settings are decided one after the other. -/
namespace HoverServer

structure Settings where
  logFile : Option String
  logFilter : String
  logFormat : Log.Format
  policies : Policies
  deriving DecidableEq

def Settings.standard : Settings := ⟨none, "info", .plain, .standard⟩

inductive Setting where
  | logFile
  | logFilter
  | logFormat
  | malformed
  | unknown
  deriving DecidableEq

namespace Setting

def all : List Setting := [.logFile, .logFilter, .logFormat, .malformed, .unknown]

/-- The environment variable that gives the setting. -/
def environmentName : Setting → String
  | .logFile => "LUMEN_LOG_FILE"
  | .logFilter => "LUMEN_LOG_FILTER"
  | .logFormat => "LUMEN_LOG_FORMAT"
  | .malformed => "LUMEN_MALFORMED_MESSAGES"
  | .unknown => "LUMEN_UNKNOWN_METHODS"

end Setting

/-- The bytes of those variables that are set. -/
abbrev Environment := Setting → Option Bytes

/-- What has been decided so far. -/
structure Choices where
  logFile : Option String
  logFilter : Option String
  logFormat : Option Log.Format
  malformed : Option MalformedPolicy
  unknown : Option UnknownMethodPolicy
  deriving DecidableEq

inductive ValueFault where
  | notText
  | noVariant (value : String)
  deriving DecidableEq

/-- The one of several named things that a text names, up to the case of ASCII letters. -/
def variant? {α : Type} (name : α → String) (all : List α) (text : String) : Option α :=
  all.find? fun a => Bytes.sameLetters (Bytes.ofString (name a)) (Bytes.ofString text)

def Log.Format.ofName? : String → Option Log.Format := variant? name [.plain, .json, .compact]

def MalformedPolicy.ofName? : String → Option MalformedPolicy := variant? name [.terminate, .reject]

def UnknownMethodPolicy.ofName? : String → Option UnknownMethodPolicy :=
  variant? name [.ignore, .reject]

namespace Choices

def none : Choices := ⟨.none, .none, .none, .none, .none⟩

def decided (c : Choices) : Setting → Bool
  | .logFile => c.logFile.isSome
  | .logFilter => c.logFilter.isSome
  | .logFormat => c.logFormat.isSome
  | .malformed => c.malformed.isSome
  | .unknown => c.unknown.isSome

def variant {α : Type} (ofName? : String → Option α) (text : String) : Except ValueFault α :=
  match ofName? text with
  | some a => .ok a
  | .none => .error (.noVariant text)

def decide (c : Choices) (s : Setting) (value : Bytes) : Except ValueFault Choices := do
  match Text.decode? value with
  | .none => .error .notText
  | some text =>
    match s with
    | .logFile => return { c with logFile := some text }
    | .logFilter => return { c with logFilter := some text }
    | .logFormat => return { c with logFormat := some (← variant Log.Format.ofName? text) }
    | .malformed => return { c with malformed := some (← variant MalformedPolicy.ofName? text) }
    | .unknown => return { c with unknown := some (← variant UnknownMethodPolicy.ofName? text) }

/-- Whatever nobody decided is as in the standard settings. -/
def settings (c : Choices) : Settings :=
  let standard := Settings.standard
  { logFile := c.logFile
    logFilter := c.logFilter.getD standard.logFilter
    logFormat := c.logFormat.getD standard.logFormat
    policies :=
      ⟨c.malformed.getD standard.policies.malformed, c.unknown.getD standard.policies.unknown⟩ }

/-- The environment decides what is still open. The first bad variable is reported. -/
def completeFrom (env : Environment) (c : Choices) :
    List Setting → Except (Setting × ValueFault) Choices
  | [] => .ok c
  | s :: r =>
    match c.decided s, env s with
    | false, some value =>
      match c.decide s value with
      | .ok c => completeFrom env c r
      | .error fault => .error (s, fault)
    | _, _ => completeFrom env c r

def complete (env : Environment) (c : Choices) : Except (Setting × ValueFault) Choices :=
  c.completeFrom env Setting.all

end Choices
end HoverServer
