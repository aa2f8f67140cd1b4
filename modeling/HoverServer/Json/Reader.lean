import HoverServer.Json.Basic

/-! Reading JSON. A reader takes the characters that are left and gives the value with the
characters after it, or the place where it stopped. -/
namespace HoverServer.Json.Reader

inductive Cause where
  | eofValue
  | eofList
  | eofObject
  | eofString
  | expectedColon
  | expectedListEnd
  | expectedObjectEnd
  | expectedIdent
  | expectedValue
  | invalidEscape
  | invalidNumber
  | numberOutOfRange
  | controlCharacter
  | keyNotString
  | loneSurrogate
  | unpairedSurrogate
  | trailingComma
  | trailingCharacters
  | tooDeep
  deriving DecidableEq

def Cause.message : Cause → String
  | .eofValue => "EOF while parsing a value"
  | .eofList => "EOF while parsing a list"
  | .eofObject => "EOF while parsing an object"
  | .eofString => "EOF while parsing a string"
  | .expectedColon => "expected `:`"
  | .expectedListEnd => "expected `,` or `]`"
  | .expectedObjectEnd => "expected `,` or `\x7d`"
  | .expectedIdent => "expected ident"
  | .expectedValue => "expected value"
  | .invalidEscape => "invalid escape"
  | .invalidNumber => "invalid number"
  | .numberOutOfRange => "number out of range"
  | .controlCharacter => "control character (\\u0000-\\u001F) found while parsing a string"
  | .keyNotString => "key must be a string"
  | .loneSurrogate => "lone leading surrogate in hex escape"
  | .unpairedSurrogate => "unexpected end of hex escape"
  | .trailingComma => "trailing comma"
  | .trailingCharacters => "trailing characters"
  | .tooDeep => "recursion limit exceeded"

/-- Where reading ended: `past` bytes into the characters that were left. -/
structure Stop where
  cause : Cause
  left : List Char
  past : Nat
  deriving DecidableEq

/-- Lines count from one, columns count the bytes since the last line break. -/
structure Position where
  line : Nat
  column : Nat
  deriving DecidableEq

def Position.start : Position := ⟨1, 0⟩

/-- The position after the first `n` bytes. -/
def Position.advance (p : Position) : Nat → List Char → Position
  | 0, _ => p
  | _, [] => p
  | n, c :: r =>
    let next : Position :=
      if c = '\n' then ⟨p.line + 1, 0⟩ else ⟨p.line, p.column + min n c.utf8Size⟩
    next.advance (n - c.utf8Size) r

def byteCount (s : List Char) : Nat := s.foldl (fun n c => n + c.utf8Size) 0

def Stop.position (stop : Stop) (whole : List Char) : Position :=
  Position.start.advance (byteCount whole - byteCount stop.left + stop.past) whole

abbrev Reading (α : Type) := Except Stop (α × List Char)

def stopAt {α : Type} (cause : Cause) (left : List Char) : Except Stop α := .error ⟨cause, left, 1⟩

def stopBefore {α : Type} (cause : Cause) (left : List Char) : Except Stop α :=
  .error ⟨cause, left, 0⟩

def isBlank (c : Char) : Bool := c = ' ' || c = '\n' || c = '\t' || c = '\r'

def skipBlanks (s : List Char) : List Char := s.dropWhile isBlank

def word : List Char → List Char → Except Stop (List Char)
  | [], s => .ok s
  | _ :: _, [] => stopBefore .eofValue []
  | e :: es, c :: s => if c = e then word es s else stopAt .expectedIdent (c :: s)

/-! ### Numbers -/

def digitValue (c : Char) : Nat := c.toNat - 48

/-- Digits are gathered into 64 bits and left alone from the first one that does not fit. -/
def gather (n : Nat) : List Char → Nat × List Char
  | [] => (n, [])
  | c :: r =>
    if c.isDigit && 10 * n + digitValue c < 0x10000000000000000 then gather (10 * n + digitValue c) r
    else (n, c :: r)

def skipDigits (s : List Char) : List Char := s.dropWhile Char.isDigit

def startsWithDigit : List Char → Bool
  | [] => false
  | c :: _ => c.isDigit

def powerOfTen (n : Nat) : Float := Float.ofScientific 1 false n

/-- The product `x * 10 ^ exponent`, by one multiplication or division, after steps of 10³⁰⁸ where
the power itself is no double. There is no answer above the largest double. -/
def scale : Nat → Float → Int → Option Float
  | 0, x, _ => some x
  | fuel + 1, x, exponent =>
    if exponent.natAbs ≤ 308 then
      if exponent < 0 then some (x / powerOfTen exponent.natAbs)
      else
        let y := x * powerOfTen exponent.natAbs
        if y.isInf then none else some y
    else if x == 0 then some x
    else if exponent < 0 then scale fuel (x / powerOfTen 308) (exponent + 308)
    else none

def signed (negative : Bool) (x : Float) : Float := if negative then -x else x

def finish (negative : Bool) (n : Nat) (exponent : Int) (r : List Char) : Reading Number :=
  match scale 4 n.toUInt64.toFloat exponent with
  | some x => .ok (.real (signed negative x), r)
  | none => stopBefore .numberOutOfRange r

/-- The digits of an exponent. Past 31 bits there is no number left but zero. -/
def exponentDigits (negative zero up : Bool) (n : Nat) (base : Int) (e : Nat) :
    List Char → Reading Number
  | [] => finish negative n (if up then base + e else base - e) []
  | c :: r =>
    if c.isDigit then
      if 10 * e + digitValue c < 0x80000000 then
        exponentDigits negative zero up n base (10 * e + digitValue c) r
      else if up && !zero then stopBefore .numberOutOfRange r
      else .ok (.real (signed negative 0), skipDigits r)
    else finish negative n (if up then base + e else base - e) (c :: r)

def exponentValue (negative up : Bool) (n : Nat) (base : Int) : List Char → Reading Number
  | [] => stopBefore .eofValue []
  | c :: r =>
    if c.isDigit then exponentDigits negative (n == 0) up n base (digitValue c) r
    else stopAt .invalidNumber (c :: r)

def exponentPart (negative : Bool) (n : Nat) (base : Int) (s : List Char) : Reading Number :=
  match s with
  | [] => stopBefore .eofValue []
  | c :: r =>
    if c = '+' then exponentValue negative true n base r
    else if c = '-' then exponentValue negative false n base r
    else exponentValue negative true n base (c :: r)

def isExponentMark (c : Char) : Bool := c = 'e' || c = 'E'

def exponentOrEnd (negative : Bool) (n : Nat) (base : Int) : List Char → Reading Number
  | [] => finish negative n base []
  | c :: r =>
    if isExponentMark c then exponentPart negative n base r else finish negative n base (c :: r)

/-- After the point. Digits that no longer fit are dropped. -/
def fractionPart (negative : Bool) (n : Nat) (base : Int) (s : List Char) : Reading Number :=
  if startsWithDigit s then
    let (m, r) := gather n s
    exponentOrEnd negative m (base - (s.length - r.length : Nat)) (skipDigits r)
  else match s with
    | [] => stopBefore .eofValue []
    | c :: r => stopAt .invalidNumber (c :: r)

/-- An integer that has run out of 64 bits: its further digits only move the exponent. -/
def longInteger (negative : Bool) (n : Nat) (s : List Char) : Reading Number :=
  let rest := skipDigits s
  let base : Int := (s.length - rest.length : Nat)
  match rest with
  | [] => finish negative n base []
  | c :: r =>
    if c = '.' then fractionPart negative n base r else exponentOrEnd negative n base (c :: r)

def integerEnd (negative : Bool) (n : Nat) (r : List Char) : Reading Number :=
  if negative && n == 0 then .ok (.real (signed true 0), r)
  else
    match Whole.ofInt? (if negative then -(n : Int) else n) with
    | some w => .ok (.whole w, r)
    | none => .ok (.real (signed negative n.toUInt64.toFloat), r)

def afterInteger (negative : Bool) (n : Nat) : List Char → Reading Number
  | [] => integerEnd negative n []
  | c :: r =>
    if c = '.' then fractionPart negative n 0 r
    else if isExponentMark c then exponentPart negative n 0 r
    else integerEnd negative n (c :: r)

def number (negative : Bool) : List Char → Reading Number
  | [] => stopBefore .eofValue []
  | c :: r =>
    if c = '0' then
      if startsWithDigit r then stopAt .invalidNumber r else afterInteger negative 0 r
    else if c.isDigit then
      let (n, rest) := gather (digitValue c) r
      if startsWithDigit rest then longInteger negative n rest else afterInteger negative n rest
    else stopAt .invalidNumber (c :: r)

/-! ### Strings -/

def hexValue? (c : Char) : Option Nat :=
  if c.isDigit then some (c.toNat - 48)
  else if 'a' ≤ c && c ≤ 'f' then some (c.toNat - 87)
  else if 'A' ≤ c && c ≤ 'F' then some (c.toNat - 55)
  else none

/-- Four bytes are taken before they are looked at. -/
def hexQuad (s : List Char) : Reading Nat :=
  if byteCount (s.take 4) < 4 then stopBefore .eofString []
  else
    match s with
    | a :: b :: c :: d :: r =>
      match hexValue? a, hexValue? b, hexValue? c, hexValue? d with
      | some a, some b, some c, some d => .ok (((a * 16 + b) * 16 + c) * 16 + d, r)
      | _, _, _, _ => .error ⟨.invalidEscape, s, 4⟩
    | _ => .error ⟨.invalidEscape, s, 4⟩

def isLeading (n : Nat) : Bool := 0xD800 ≤ n && n ≤ 0xDBFF

def isTrailing (n : Nat) : Bool := 0xDC00 ≤ n && n ≤ 0xDFFF

def pairValue (leading trailing : Nat) : Nat :=
  0x10000 + (leading - 0xD800) * 0x400 + (trailing - 0xDC00)

def trailingQuad (leading : Nat) (s : List Char) : Reading Char :=
  match hexQuad s with
  | .error stop => .error stop
  | .ok (n, r) =>
    if isTrailing n then .ok (Char.ofNat (pairValue leading n), r) else stopBefore .loneSurrogate r

/-- The second half of a surrogate pair. -/
def trailingHalf (leading : Nat) : List Char → Reading Char
  | [] => stopBefore .eofString []
  | c :: r =>
    if c = '\\' then
      match r with
      | [] => stopBefore .eofString []
      | d :: r => if d = 'u' then trailingQuad leading r else stopAt .unpairedSurrogate (d :: r)
    else stopAt .unpairedSurrogate (c :: r)

def unicodeEscape (s : List Char) : Reading Char :=
  match hexQuad s with
  | .error stop => .error stop
  | .ok (n, r) =>
    if isTrailing n then stopBefore .loneSurrogate r
    else if isLeading n then trailingHalf n r
    else .ok (Char.ofNat n, r)

/-- What a letter after a backslash stands for. -/
def namedEscape? (c : Char) : Option Char :=
  if c = '"' || c = '\\' || c = '/' then some c
  else if c = 'b' then some '\x08'
  else if c = 'f' then some '\x0c'
  else if c = 'n' then some '\n'
  else if c = 'r' then some '\r'
  else if c = 't' then some '\t'
  else none

def escapeSequence : List Char → Reading Char
  | [] => stopBefore .eofString []
  | c :: r =>
    match namedEscape? c with
    | some d => .ok (d, r)
    | none => if c = 'u' then unicodeEscape r else stopAt .invalidEscape (c :: r)

theorem hexQuad_length {s r : List Char} {n : Nat} (h : hexQuad s = .ok (n, r)) :
    r.length < s.length := by
  unfold hexQuad stopBefore at h
  split at h
  · cases h
  · split at h
    · split at h
      · cases h; simp; omega
      · cases h
    · cases h

theorem trailingQuad_length {k : Nat} {s r : List Char} {c : Char}
    (h : trailingQuad k s = .ok (c, r)) : r.length < s.length := by
  unfold trailingQuad stopBefore at h
  split at h
  · cases h
  · rename_i q
    split at h
    · simp only [Except.ok.injEq, Prod.mk.injEq] at h
      exact h.2 ▸ hexQuad_length q
    · cases h

theorem trailingHalf_length {k : Nat} {s r : List Char} {c : Char}
    (h : trailingHalf k s = .ok (c, r)) : r.length < s.length := by
  unfold trailingHalf stopBefore stopAt at h
  split at h
  · cases h
  · split at h
    · split at h
      · cases h
      · split at h
        · have := trailingQuad_length h; simp; omega
        · cases h
    · cases h

theorem unicodeEscape_length {s r : List Char} {c : Char} (h : unicodeEscape s = .ok (c, r)) :
    r.length < s.length := by
  unfold unicodeEscape stopBefore at h
  split at h
  · cases h
  · rename_i q
    have := hexQuad_length q
    split at h
    · cases h
    · split at h
      · have := trailingHalf_length h; omega
      · cases h; exact this

theorem escapeSequence_length {s r : List Char} {c : Char} (h : escapeSequence s = .ok (c, r)) :
    r.length < s.length := by
  cases s with
  | nil => cases h
  | cons d s =>
    simp only [escapeSequence, stopAt] at h
    split at h
    · cases h; simp
    · split at h
      · have := unicodeEscape_length h; simp; omega
      · cases h

/-- The rest of a string whose opening quote has been taken, with what was read so far in
reverse. -/
def stringRest (read : List Char) (s : List Char) : Reading String :=
  match s with
  | [] => stopBefore .eofString []
  | c :: r =>
    if c = '"' then .ok (String.ofList read.reverse, r)
    else if c = '\\' then
      match h : escapeSequence r with
      | .error stop => .error stop
      | .ok (d, rest) =>
        have := escapeSequence_length h
        stringRest (d :: read) rest
    else if c.toNat < 32 then stopAt .controlCharacter (c :: r)
    else stringRest (c :: read) r
termination_by s.length
decreasing_by all_goals (simp; try omega)

/-! ### Values -/

/-- The items of a list up to its closing bracket. `budget` bounds their number; the length of
the text is always enough, because an item takes at least one character. -/
def items (item : List Char → Reading Json) (first : Bool) : Nat → List Char → Reading (List Json)
  | 0, _ => stopBefore .eofList []
  | budget + 1, s =>
    let more (s : List Char) : Reading (List Json) :=
      match item s with
      | .error stop => .error stop
      | .ok (v, r) => (items item false budget r).map fun (vs, r) => (v :: vs, r)
    match skipBlanks s with
    | [] => stopBefore .eofList []
    | c :: r =>
      if c = ']' then .ok ([], r)
      else if first then more (c :: r)
      else if c = ',' then
        match skipBlanks r with
        | [] => stopBefore .eofValue []
        | d :: r => if d = ']' then stopAt .trailingComma (d :: r) else more (d :: r)
      else stopAt .expectedListEnd (c :: r)

/-- The value of a member, after its name. -/
def memberValue (item : List Char → Reading Json) (s : List Char) : Reading Json :=
  match skipBlanks s with
  | [] => stopBefore .eofObject []
  | c :: r => if c = ':' then item r else stopAt .expectedColon (c :: r)

def members (item : List Char → Reading Json) (first : Bool) (read : Members) :
    Nat → List Char → Reading Members
  | 0, _ => stopBefore .eofObject []
  | budget + 1, s =>
    let more (s : List Char) : Reading Members :=
      match stringRest [] s with
      | .error stop => .error stop
      | .ok (name, r) =>
        match memberValue item r with
        | .error stop => .error stop
        | .ok (v, r) => members item false (read.insert name v) budget r
    match skipBlanks s with
    | [] => stopBefore .eofObject []
    | c :: r =>
      if c = '\x7d' then .ok (read, r)
      else if first then
        if c = '"' then more r else stopAt .keyNotString (c :: r)
      else if c = ',' then
        match skipBlanks r with
        | [] => stopBefore .eofValue []
        | d :: r =>
          if d = '"' then more r
          else if d = '\x7d' then stopAt .trailingComma (d :: r)
          else stopAt .keyNotString (d :: r)
      else stopAt .expectedObjectEnd (c :: r)

/-- A list or an object, from its opening bracket. -/
def container (item : List Char → Reading Json) (budget : Nat) : List Char → Reading Json
  | [] => stopBefore .eofValue []
  | c :: r =>
    if c = '[' then (items item true budget r).map fun (vs, r) => (.array vs, r)
    else (members item true [] budget r).map fun (ms, r) => (.object ms, r)

/-- A value, where `inner` reads what opens with a bracket. -/
def valueWith (inner : List Char → Reading Json) (s : List Char) : Reading Json :=
  match skipBlanks s with
  | [] => stopBefore .eofValue []
  | c :: r =>
    if c = 'n' then (word ['u', 'l', 'l'] r).map fun r => (.null, r)
    else if c = 't' then (word ['r', 'u', 'e'] r).map fun r => (.bool true, r)
    else if c = 'f' then (word ['a', 'l', 's', 'e'] r).map fun r => (.bool false, r)
    else if c = '-' then (number true r).map fun (n, r) => (.number n, r)
    else if c.isDigit then (number false (c :: r)).map fun (n, r) => (.number n, r)
    else if c = '"' then (stringRest [] r).map fun (t, r) => (.string t, r)
    else if c = '[' || c = '\x7b' then inner (c :: r)
    else stopAt .expectedValue (c :: r)

/-- A value with at most `depth` containers inside each other. -/
def value (budget : Nat) : Nat → List Char → Reading Json
  | 0 => valueWith (stopAt .tooDeep)
  | depth + 1 => valueWith (container (value budget depth) budget)

def maxDepth : Nat := 127

/-- A text that is one value and nothing else but blanks. -/
def document (s : List Char) : Except Stop Json :=
  match value s.length maxDepth s with
  | .error stop => .error stop
  | .ok (v, r) =>
    match skipBlanks r with
    | [] => .ok v
    | c :: r => stopAt .trailingCharacters (c :: r)

end HoverServer.Json.Reader

namespace HoverServer.Json

structure ReadError where
  cause : Reader.Cause
  position : Reader.Position
  deriving DecidableEq

def ReadError.message (e : ReadError) : String :=
  e.cause.message ++ " at line " ++ toString e.position.line ++
    " column " ++ toString e.position.column

def parse (text : String) : Except ReadError Json :=
  match Reader.document text.toList with
  | .ok v => .ok v
  | .error stop => .error ⟨stop.cause, stop.position text.toList⟩

end HoverServer.Json
