import HoverServer.Bytes

/-! UTF-8 read without refusal. Well-formed sequences give their characters, and every
longest prefix of a broken sequence gives one replacement character. -/
namespace HoverServer.Text.Lossy

/-- Between characters, or inside one that still needs `need + 1` bytes. The next byte of an
open character has to lie in `low .. high`; later ones are plain continuation bytes. -/
inductive State where
  | between
  | inside (need : Nat) (low high : UInt8) (value : Nat)
  deriving DecidableEq

def replacement : Char := Char.ofNat 0xFFFD

/-- Overlong forms, surrogates and values beyond the last code point are cut off by the range
of the second byte. -/
def start (b : UInt8) : List Char × State :=
  if b < 0x80 then ([Char.ofNat b.toNat], .between)
  else if 0xC2 ≤ b && b ≤ 0xDF then ([], .inside 0 0x80 0xBF (b.toNat - 0xC0))
  else if b == 0xE0 then ([], .inside 1 0xA0 0xBF 0)
  else if b == 0xED then ([], .inside 1 0x80 0x9F 13)
  else if 0xE1 ≤ b && b ≤ 0xEF then ([], .inside 1 0x80 0xBF (b.toNat - 0xE0))
  else if b == 0xF0 then ([], .inside 2 0x90 0xBF 0)
  else if 0xF1 ≤ b && b ≤ 0xF3 then ([], .inside 2 0x80 0xBF (b.toNat - 0xF0))
  else if b == 0xF4 then ([], .inside 2 0x80 0x8F 4)
  else ([replacement], .between)

def step : State → UInt8 → List Char × State
  | .between, b => start b
  | .inside need low high value, b =>
    if low ≤ b && b ≤ high then
      let value := 64 * value + (b.toNat - 0x80)
      match need with
      | 0 => ([Char.ofNat value], .between)
      | need + 1 => ([], .inside need 0x80 0xBF value)
    else
      let fresh := start b
      (replacement :: fresh.1, fresh.2)

def chars : State → Bytes → List Char
  | .between, [] => []
  | .inside .., [] => [replacement]
  | s, b :: r => (step s b).1 ++ chars (step s b).2 r

def decode (bs : Bytes) : String := String.ofList (chars .between bs)

end HoverServer.Text.Lossy

namespace HoverServer.Text

/-- Lossless reading: the bytes are UTF-8 exactly if the characters read give them back. -/
def decode? (bs : Bytes) : Option String :=
  let text := Lossy.decode bs
  if Bytes.ofString text = bs then some text else none

end HoverServer.Text
