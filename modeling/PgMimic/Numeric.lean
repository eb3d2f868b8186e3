import PgMimic.Copy
import PgMimic.Lib.Positional
import PgMimic.WireLayout

/-!
# Numerics

A numeric is a Decimal in text and a row of base-10000 groups in binary. The encoder works
on the decimal digits of the coefficient alone; the decoder goes through operations of
Python's decimal, which round to 28 digits.
-/

namespace PgMimic.Numeric

open PgMimic.Copy (Text)
open Positional (numeral digits digitText)

/-! ## Python's decimal -/

/-- A finite Decimal. -/
structure Decimal where
  negative : Bool
  coefficient : Nat
  exponent : Int
deriving DecidableEq

inductive Value where
  | finite (d : Decimal)
  | nan
  | infinite (negative : Bool)

/-- The precision of the default context. -/
def prec : Nat := 28

/-- Without its last `k` digits, rounded half to even. -/
def roundHalfEven (n k : Nat) : Nat :=
  let kept := n / 10 ^ k
  let lost := n % 10 ^ k
  if 10 ^ k < 2 * lost ∨ 10 ^ k = 2 * lost ∧ kept % 2 = 1 then kept + 1 else kept

namespace Decimal

/-- `_fix`: what is kept of a result. -/
def fix (d : Decimal) : Decimal :=
  let length := (digits 10 d.coefficient).length
  if length ≤ prec then d
  else
    let coefficient := roundHalfEven d.coefficient (length - prec)
    let exponent := d.exponent + (length - prec : Nat)
    -- a carry through all digits leaves one digit too many, a zero
    if (digits 10 coefficient).length ≤ prec then ⟨d.negative, coefficient, exponent⟩
    else ⟨d.negative, coefficient / 10, exponent + 1⟩

/-- `scaleb`. -/
def scaleb (d : Decimal) (places : Int) : Decimal :=
  fix { d with exponent := d.exponent + places }

/-- The unary minus: a zero loses its sign. -/
def neg (d : Decimal) : Decimal :=
  if d.coefficient = 0 then { d with negative := false }
  else fix { d with negative := !d.negative }

/-- `_rescale`, to so many places behind the point. -/
def rescale (d : Decimal) (places : Nat) : Decimal :=
  if -(places : Int) ≤ d.exponent then
    ⟨d.negative, d.coefficient * 10 ^ (d.exponent + places).toNat, -places⟩
  else ⟨d.negative, roundHalfEven d.coefficient (-places - d.exponent).toNat, -places⟩

/-- The digits in front of the point and behind it. -/
def parts (ds : List Nat) (exponent : Int) : List Nat × List Nat :=
  let left := exponent + ds.length
  if left < 0 then ([0], List.replicate (-left).toNat 0 ++ ds)
  else if (ds.length : Int) < left then (ds ++ List.replicate (left - ds.length).toNat 0, [])
  else (if left = 0 then [0] else ds.take left.toNat, ds.drop left.toNat)

/-- `format(d, "f")`. -/
def format (d : Decimal) : Text :=
  let exponent := if d.coefficient = 0 ∧ 0 < d.exponent then 0 else d.exponent
  let (integer, fraction) := parts (digits 10 d.coefficient) exponent
  (if d.negative then ['-'] else []) ++ digitText integer ++
    (if fraction.isEmpty then [] else '.' :: digitText fraction)

/-- `format(d, ".{places}f")`. -/
def formatFixed (d : Decimal) (places : Nat) : Text := (d.rescale places).format

end Decimal

/-- `_decimal_out`. -/
def decimalOut : Value → Text
  | .finite d => d.format
  | .nan => "NaN".toList
  | .infinite negative => if negative then "-Infinity".toList else "Infinity".toList

/-! ## The binary format -/

def numericPos : Nat := 0x0000
def numericNeg : Nat := 0x4000
def numericNan : Nat := 0xC000
def numericPinf : Nat := 0xD000
def numericNinf : Nat := 0xF000

/-- `struct.pack("!H", n)`. -/
def packUInt16 (n : Nat) : Option (List UInt8) :=
  if n < 2 ^ 16 then some (Wire.packInt16 n) else none

/-- `struct.pack("!h", value)`. -/
def packSigned (value : Int) : Option (List UInt8) :=
  if -2 ^ 15 ≤ value ∧ value < 2 ^ 15 then some (Wire.packInt16 value) else none

/-- What is written of a numeric. -/
structure Header where
  weight : Int
  sign : Nat
  dscale : Nat
  groups : List Nat

def Header.pack (h : Header) : Option (List UInt8) := do
  let ndigits ← packUInt16 h.groups.length
  let weight ← packSigned h.weight
  let sign ← packUInt16 h.sign
  let dscale ← packUInt16 h.dscale
  let groups ← h.groups.mapM packUInt16
  some (ndigits ++ (weight ++ (sign ++ (dscale ++ groups.flatten))))

/-- `rjust(width, "0")`. -/
def rjust (width : Nat) (ds : List Nat) : List Nat := List.replicate (width - ds.length) 0 ++ ds

/-- `ljust(width, "0")`. -/
def ljust (width : Nat) (ds : List Nat) : List Nat := ds ++ List.replicate (width - ds.length) 0

/-- The next multiple of four. -/
def whole (n : Nat) : Nat := (n + 3) / 4 * 4

/-- The numbers of four digits each. -/
def fours (ds : List Nat) : List Nat := (Chunks.chunks 4 ((ds.length + 3) / 4) ds).map (numeral 10)

/-- The digits in front of the point and behind it, as the encoder splits them. -/
def split (text : List Nat) (exponent : Int) : List Nat × List Nat :=
  if 0 ≤ exponent then (text ++ List.replicate exponent.toNat 0, [])
  else
    let scale := (-exponent).toNat
    let text := rjust (scale + 1) text
    (text.take (text.length - scale), text.drop (text.length - scale))

/-- The groups without zeros at their ends, and the weight of the first. -/
def strip (groups : List Nat) (weight : Int) : List Nat × Int :=
  let leading := groups.takeWhile (· = 0)
  let kept := (groups.dropWhile (· = 0)).rdropWhile (· = 0)
  (kept, if kept.isEmpty then 0 else weight - leading.length)

/-- What `_encode_numeric_bin` writes of a finite Decimal. -/
def header (d : Decimal) : Header :=
  let dscale := if d.exponent < 0 then (-d.exponent).toNat else 0
  let (integer, fraction) := split (digits 10 d.coefficient) d.exponent
  let integer := rjust (whole integer.length) integer
  let fraction := ljust (whole fraction.length) fraction
  let front := fours integer
  let (groups, weight) := strip (front ++ fours fraction) (front.length - 1)
  ⟨weight, if d.negative then numericNeg else numericPos, dscale, groups⟩

/-- `_encode_numeric_bin`. -/
def encodeNumericBin : Value → Option (List UInt8)
  | .finite d => (header d).pack
  | .nan => Header.pack ⟨0, numericNan, 0, []⟩
  | .infinite negative => Header.pack ⟨0, if negative then numericNinf else numericPinf, 0, []⟩

/-- `struct.unpack_from("!H", data, offset)`. -/
def unpackUInt16 (data : List UInt8) (offset : Int) : Option Nat :=
  (Wire.unpackInt16 data offset).map fun value => (value % 2 ^ 16).toNat

/-- So many groups from an offset on. -/
def unpackGroups (data : List UInt8) : Nat → Int → Option (List Nat)
  | 0, _ => some []
  | n + 1, offset => do
    let group ← unpackUInt16 data offset
    let groups ← unpackGroups data n (offset + 2)
    some (group :: groups)

/-- `_decode_numeric`. -/
def decodeNumeric (data : List UInt8) : Option Text := do
  let ndigits ← unpackUInt16 data 0
  let weight ← Wire.unpackInt16 data 2
  let sign ← unpackUInt16 data 4
  let dscale ← unpackUInt16 data 6
  if sign = numericNan then some "NaN".toList
  else if sign = numericPinf then some "Infinity".toList
  else if sign = numericNinf then some "-Infinity".toList
  else
    let groups ← unpackGroups data ndigits 8
    let text := groups.flatMap fun group => rjust 4 (digits 10 group)
    let text := if text.isEmpty then [0] else text
    let value := Decimal.scaleb ⟨false, numeral 10 text, 0⟩ ((weight + 1 - ndigits) * 4)
    let value := if sign = numericNeg then value.neg else value
    some (value.formatFixed dscale)

end PgMimic.Numeric
