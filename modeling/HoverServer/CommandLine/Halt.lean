import HoverServer.Settings
import HoverServer.Text.Printable

/-! What ends the reading of a command line before there are settings, and what is said then. -/
namespace HoverServer.CommandLine

open Text.Printable (Medium)

inductive Flag where
  | setting (s : Setting)
  | help
  | version
  deriving DecidableEq

def settingName : Setting → String
  | .logFile => "log-file"
  | .logFilter => "log-filter"
  | .logFormat => "log-format"
  | .malformed => "malformed-messages"
  | .unknown => "unknown-methods"

namespace Flag

def all : List Flag := Setting.all.map .setting ++ [.help, .version]

def name : Flag → String
  | .setting s => settingName s
  | .help => "help"
  | .version => "version"

def ofName? (name : String) : Option Flag := all.find? fun f => f.name = name

end Flag

def placeholder : Setting → String
  | .logFile => "PATH"
  | .logFilter => "EXPR"
  | .logFormat => "FORMAT"
  | .malformed => "POLICY"
  | .unknown => "POLICY"

/-- A flag as a usage line shows it. -/
def Flag.usage (f : Flag) : String :=
  match f with
  | .setting s => "--" ++ f.name ++ " <" ++ placeholder s ++ ">"
  | _ => "--" ++ f.name

inductive Halt where
  | help
  | version
  | unknownArgument (argument : String) (tip : Option Flag) (used : List Flag)
  | unexpectedValue (value : String) (flag : Flag) (given : List Setting)
  | missingValue (s : Setting)
  | repeated (s : Setting)
  | notText
  | badValue (value : String) (s : Setting)
  deriving DecidableEq

def Halt.ofValueFault (s : Setting) : ValueFault → Halt
  | .notText => .notText
  | .noVariant value => .badValue value s

def programName : String := "lumend"

def programVersion : String := "0.1.0"

def description : Setting → String
  | .logFile => "File receiving the diagnostic log. Logs go to stderr when unset"
  | .logFilter => "`tracing` filter expression, for example `info` or `lumen_lsp=debug`"
  | .logFormat => "Format of each diagnostic log line"
  | .malformed => "Reaction to bodies that are not valid JSON-RPC requests"
  | .unknown => "Reaction to methods the server does not implement"

def standardText : Setting → Option String
  | .logFile => none
  | .logFilter => some Settings.standard.logFilter
  | .logFormat => some Settings.standard.logFormat.name
  | .malformed => some Settings.standard.policies.malformed.name
  | .unknown => some Settings.standard.policies.unknown.name

def blanks (n : Nat) : String := String.ofList (List.replicate n ' ')

/-- The column where descriptions start. -/
def helpColumn : Nat := 37

/-- Flags without a letter of their own leave its place blank. -/
def Flag.indent : Flag → Nat
  | .setting _ => 6
  | _ => 2

/-- A flag as the help shows it. -/
def Flag.label (f : Flag) : String :=
  match f with
  | .setting _ => f.usage
  | .help => "-h, " ++ f.usage
  | .version => "-V, " ++ f.usage

def settingHelp (env : Environment) (s : Setting) : String :=
  let value := Text.Lossy.decode ((env s).getD [])
  description s ++ " [env: " ++ s.environmentName ++ "=" ++ value ++ "]" ++
    ((standardText s).map fun text => " [default: " ++ text ++ "]").getD ""

def flagHelp (env : Environment) : Flag → String
  | .setting s => settingHelp env s
  | .help => "Print help"
  | .version => "Print version"

/-- What the help says of a flag, from the label on. -/
def helpRow (env : Environment) (f : Flag) : String :=
  f.label ++ blanks (helpColumn - f.indent - f.label.length) ++
    (flagHelp env f).replace "\n" ("\n" ++ blanks helpColumn) ++ "\n"

/-- The blanks in front of the first of some rows. -/
def indentation : List Flag → String
  | [] => ""
  | f :: _ => blanks f.indent

/-- A label is written in a style of its own, and the start of a style ends what a value above
has left unfinished: each row is cleared together with the indentation of the next. -/
def helpRows (m : Medium) (env : Environment) : List Flag → String
  | [] => ""
  | f :: r => Text.printable m (helpRow env f ++ indentation r) ++ helpRows m env r

def usageLine (m : Medium) (name : String) (parts : List String) : String :=
  "Usage: " ++ String.intercalate " " (Text.printable m name :: parts)

/-- The usage without flags stands for all of them. -/
def usageOf (m : Medium) (name : String) (used : List Flag) : String :=
  usageLine m name (if used = [] then ["[OPTIONS]"] else used.map Flag.usage)

/-- The settings as a group, of which a usage line does not say which are meant. -/
def settingsGroup : String :=
  "<" ++ String.intercalate "|" (Setting.all.map fun s => (Flag.setting s).usage) ++ ">"

def helpText (m : Medium) (name : String) (env : Environment) : String :=
  "Minimal Language Server Protocol endpoint speaking JSON-RPC over stdio\n\n" ++
    usageOf m name [] ++ "\n\nOptions:\n" ++ indentation Flag.all ++ helpRows m env Flag.all

/-- The paragraphs of an error, the last of which says where to find help. -/
def errorText (paragraphs : List String) : String :=
  let all := paragraphs ++ ["For more information, try '--help'."]
  "error: " ++ String.intercalate "\n\n" all ++ "\n"

def tipText (f : Flag) : String := "  tip: a similar argument exists: '--" ++ f.name ++ "'"

namespace Halt

/-- Called for, rather than an error. -/
def isInformational : Halt → Bool
  | .help => true
  | .version => true
  | _ => false

def exitCode (h : Halt) : UInt8 := if h.isInformational then 0 else 2

/-- Texts from outside are cleared one by one, as each is set off by a style. -/
def text (m : Medium) (name : String) (env : Environment) : Halt → String
  | .help => helpText m name env
  | .version => programName ++ " " ++ programVersion ++ "\n"
  | .unknownArgument argument tip used =>
    errorText (["unexpected argument '" ++ Text.printable m argument ++ "' found"] ++
      (tip.map tipText).toList ++ [usageOf m name used])
  | .unexpectedValue value flag given =>
    errorText ["unexpected value '" ++ Text.printable m value ++ "' for '--" ++ flag.name ++
      "' found; no more were expected",
      usageLine m name (flag.usage :: if given = [] then [] else [settingsGroup])]
  | .missingValue s =>
    errorText ["a value is required for '" ++ (Flag.setting s).usage ++ "' but none was supplied"]
  | .repeated s =>
    errorText ["the argument '" ++ (Flag.setting s).usage ++ "' cannot be used multiple times",
      usageOf m name []]
  | .notText =>
    errorText ["invalid UTF-8 was detected in one or more arguments", usageOf m name []]
  | .badValue value s =>
    errorText ["invalid value '" ++ Text.printable m value ++ "' for '" ++ (Flag.setting s).usage ++
      "': Matching variant not found"]

def message (name : String) (env : Environment) (h : Halt) : String :=
  "invalid arguments: " ++ h.text .text name env

end Halt
end HoverServer.CommandLine
