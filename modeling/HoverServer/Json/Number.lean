import HoverServer.Decimal.Shortest

/-! The numbers of JSON and their one written form. -/
namespace HoverServer

/-- The integers that a number keeps exactly. -/
structure Whole where
  value : Int
  lower : -0x8000000000000000 ≤ value
  upper : value < 0x10000000000000000
  deriving DecidableEq

def Whole.ofInt? (n : Int) : Option Whole :=
  if h : -0x8000000000000000 ≤ n ∧ n < 0x10000000000000000 then some ⟨n, h.1, h.2⟩ else none

def Whole.ofInt64 (n : Int64) : Whole :=
  ⟨n.toInt, by have := n.le_toInt; omega, by have := n.toInt_lt; omega⟩

/-- A JSON number: an integer of 64 bits with or without sign, or else a finite double. -/
inductive Number where
  | whole (n : Whole)
  | real (x : Float)
  deriving DecidableEq

instance : Inhabited Number := ⟨.real 0⟩

namespace Number

/-- Doubles from 10⁻⁵ up to 10¹⁶ are written in full. -/
def isPositional (exponent : Int) : Bool := -5 ≤ exponent && exponent ≤ 15

def zeros (n : Int) : List Char := List.replicate n.toNat '0'

/-- All digits around the point, with at least one on either side. -/
def positional (digits : List Char) (exponent : Int) : List Char :=
  if exponent < 0 then '0' :: '.' :: (zeros (-exponent - 1) ++ digits)
  else
    let whole := digits.take (exponent.toNat + 1)
    let fraction := digits.drop (exponent.toNat + 1)
    whole ++ zeros (exponent + 1 - digits.length) ++
      '.' :: (if fraction = [] then ['0'] else fraction)

/-- One digit before the point, and an exponent that shows its sign. -/
def scientific (digits : List Char) (exponent : Int) : List Char :=
  let fraction := digits.drop 1
  digits.take 1 ++ (if fraction = [] then [] else '.' :: fraction) ++
    'e' :: (if exponent < 0 then '-' else '+') :: Nat.toDigits 10 exponent.natAbs

def realChars (x : Float) : List Char :=
  let binary := Decimal.Binary.ofBits x.toBits
  let sign := if x.toBits.toNat < 0x8000000000000000 then [] else ['-']
  if binary.mantissa = 0 then sign ++ ['0', '.', '0']
  else
    let short := binary.shortest
    let digits := Nat.toDigits 10 short.digits
    let exponent := short.exponent + (digits.length - 1 : Nat)
    sign ++ if isPositional exponent then positional digits exponent else scientific digits exponent

def wholeChars (n : Int) : List Char :=
  if n < 0 then '-' :: Nat.toDigits 10 n.natAbs else Nat.toDigits 10 n.natAbs

def chars : Number → List Char
  | .whole n => wholeChars n.value
  | .real x => realChars x

def text (n : Number) : String := String.ofList n.chars

end Number
end HoverServer
