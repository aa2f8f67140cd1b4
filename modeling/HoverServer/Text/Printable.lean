/-! Texts cleared of what would only steer a terminal. -/
namespace HoverServer.Text.Printable

/-- What a terminal makes of the next character: text, a part of an escape or of a control
sequence, a title or the like up to its bell, the call of a device, or what is meant for
neither reader nor screen, up to the terminator. -/
inductive State where
  | plain
  | escape
  | escapeMore
  | sequence
  | command
  | device
  | deviceParameters
  | deviceMore
  | message
  deriving DecidableEq

/-- Blanks are the controls that stay. -/
def isBlank (c : Char) : Bool := c = '\t' || c = '\n' || c = '\r' || c.toNat = 12

def within (low high : Nat) (c : Char) : Bool := low ≤ c.toNat && c.toNat ≤ high

/-- Blanks show through sequences, but not through what sequences have opened. -/
def shows (s : State) (c : Char) : Bool :=
  match s with
  | .plain => isBlank c || (32 ≤ c.toNat && c.toNat != 127)
  | .escape => isBlank c
  | .escapeMore => isBlank c
  | .sequence => isBlank c
  | _ => false

/-- A terminal takes bytes, so the terminator of a message may be a part of a character. -/
def terminates (c : Char) : Bool := (String.utf8EncodeChar c).contains 0x9C

/-- The state behind a character that is not shown. Characters outside ASCII are no part of any
sequence and change nothing, but for the terminator of a message. -/
def swallow (s : State) (c : Char) : State :=
  if c.toNat = 27 then .escape
  else if c.toNat = 24 || c.toNat = 26 then .plain
  else
    match s with
    | .plain => .plain
    | .escape =>
      if c = '[' then .sequence
      else if c = ']' then .command
      else if c = 'P' then .device
      else if c = 'X' || c = '^' || c = '_' then .message
      else if within 32 47 c then .escapeMore
      else if within 48 126 c then .plain
      else .escape
    | .escapeMore => if within 48 126 c then .plain else .escapeMore
    | .sequence => if within 64 126 c then .plain else .sequence
    | .command => if c.toNat = 7 then .plain else .command
    | .device =>
      if within 32 47 c then .deviceMore
      else if within 48 63 c then .deviceParameters
      else if within 64 126 c then .message
      else .device
    | .deviceParameters =>
      if within 32 47 c then .deviceMore
      else if within 60 126 c then .message
      else .deviceParameters
    | .deviceMore => if within 48 126 c then .message else .deviceMore
    | .message => if terminates c then .plain else .message

/-- A blank shown in the middle of a sequence ends the sequence in a text. In a stream the
sequence goes on behind the next control. -/
inductive Medium where
  | text
  | stream
  deriving DecidableEq

/-- The state behind a character that is shown. -/
def resume (m : Medium) (s : State) (c : Char) : State :=
  match m with
  | .text => .plain
  | .stream => if c.toNat < 128 then s else .plain

/-- Behind a shown character all that would show in plain text is shown. -/
def filter (m : Medium) (s : State) (shown : Bool) : List Char → List Char
  | [] => []
  | c :: r =>
    if shows (if shown then .plain else s) c then c :: filter m (resume m s c) true r
    else filter m (swallow s c) false r

end HoverServer.Text.Printable

namespace HoverServer.Text

/-- A text without terminal sequences and without controls other than blanks. -/
def printable (m : Printable.Medium) (s : String) : String :=
  String.ofList (Printable.filter m .plain false s.toList)

end HoverServer.Text
