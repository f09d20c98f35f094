/-!
# 64-bit floating-point numbers by their bit pattern

* `Double`: a number is its 64 bits, so equality is equality of bits;
* `Double.digits`: the fewest decimal digits that read back as the same number;
* `Double.ofSignificand`: the value of `significand · 10 ^ exponent` as the reader computes it.

No arithmetic is done on these numbers beyond reading and writing them.
-/

namespace Switchboard

/-- A 64-bit floating-point number, named by its bit pattern. -/
structure Double where
  bits : UInt64
deriving DecidableEq, Repr, Inhabited

namespace Double

/-! ## Bit fields -/

/-- The number a machine float stands for. -/
def ofFloat (f : Float) : Double := ⟨f.toBits⟩

/-- The machine float of a number. -/
def toFloat (d : Double) : Float := Float.ofBits d.bits

/-- The sign bit is set, also for `-0.0`. -/
def isNegative (d : Double) : Bool := 0x8000000000000000 ≤ d.bits.toNat

/-- The eleven exponent bits. -/
def exponentField (d : Double) : Nat := d.bits.toNat / 0x10000000000000 % 0x800

/-- The fifty-two fraction bits. -/
def fractionField (d : Double) : Nat := d.bits.toNat % 0x10000000000000

/-- Neither an infinity nor a NaN. -/
def isFinite (d : Double) : Bool := d.exponentField ≠ 2047

/-- The magnitude of a finite number is `mantissa · 2 ^ (scale - 1074)`. -/
def mantissa (d : Double) : Nat :=
  if d.exponentField = 0 then d.fractionField else 0x10000000000000 + d.fractionField

/-- See `mantissa`. -/
def scale (d : Double) : Nat := d.exponentField - 1

/-- `0.0` or `-0.0`. -/
def isZero (d : Double) : Bool := d.mantissa = 0

/-! ## Fewest digits

In quarters of a unit in the last place the magnitude is `4 · mantissa` and the reals that round to it
reach from `lowQuarters` to `highQuarters`, ends included exactly when the mantissa is even. -/

/-- Lower end of the rounding interval, in quarter units. -/
def lowQuarters (d : Double) : Nat :=
  if d.fractionField = 0 ∧ 1 < d.exponentField then 4 * d.mantissa - 1 else 4 * d.mantissa - 2

/-- Upper end of the rounding interval, in quarter units. -/
def highQuarters (d : Double) : Nat := 4 * d.mantissa + 2

/-- A quarter unit is `2 ^ (scale - 1076)`; as a fraction over the grid `10 ^ exponent` it is this pair. -/
def quarterOver (d : Double) (exponent : Int) : Nat × Nat :=
  let two : Int := (d.scale : Int) - 1076
  (Nat.pow 2 two.toNat * Nat.pow 10 (-exponent).toNat, Nat.pow 2 (-two).toNat * Nat.pow 10 exponent.toNat)

/-- The multiple of `10 ^ exponent` nearest to the number, if it rounds back to it. -/
def onGrid? (d : Double) (exponent : Int) : Option Nat :=
  let (num, den) := d.quarterOver exponent
  let value := 4 * d.mantissa * num
  let inside (n : Nat) : Bool :=
    if d.mantissa % 2 = 0 then d.lowQuarters * num ≤ n * den ∧ n * den ≤ d.highQuarters * num
    else d.lowQuarters * num < n * den ∧ n * den < d.highQuarters * num
  let low := value / den
  let below := value - low * den
  let above := (low + 1) * den - value
  match inside low, inside (low + 1) with
  | true, true => some (if below < above ∨ (below = above ∧ low % 2 = 0) then low else low + 1)
  | true, false => some low
  | false, true => some (low + 1)
  | false, false => none

/-- The exponent `k` with `10 ^ k ≤ magnitude < 10 ^ (k + 1)`, searched down from `k`. -/
def leadingExponent (d : Double) : Nat → Int → Int
  | 0, k => k
  | fuel + 1, k =>
    let (num, den) := d.quarterOver k
    if den ≤ 4 * d.mantissa * num then k else leadingExponent d fuel (k - 1)

/-- The first grid, from coarse to fine, that holds a number that reads back. -/
def firstGrid (d : Double) : Nat → Int → Nat × Int
  | 0, e => ((d.onGrid? e).getD 0, e)
  | fuel + 1, e =>
    match d.onGrid? e with
    | some n => if n = 0 then firstGrid d fuel (e - 1) else (n, e)
    | none => firstGrid d fuel (e - 1)

/-- Digits without a trailing zero, with the exponent raised to match. -/
def dropZeros : Nat → Nat × Int → Nat × Int
  | 0, r => r
  | fuel + 1, (n, e) => if n ≠ 0 ∧ n % 10 = 0 then dropZeros fuel (n / 10, e + 1) else (n, e)

/-- The fewest digits that read back, as an integer and a power of ten. -/
def digits (d : Double) : Nat × Int :=
  if d.isZero then (0, 0)
  else dropZeros 20 (d.firstGrid 17 (d.leadingExponent 640 309))

/-! ## Text -/

/-- Zeros in a row. -/
def zeros (n : Nat) : String := String.ofList (List.replicate n '0')

/-- Positional from `1e-5` up to sixteen integer digits, always with a point; else scientific without
a plus sign, with a point only between digits. -/
def text (d : Double) : String :=
  let sign := if d.isNegative then "-" else ""
  if d.isZero then sign ++ "0.0"
  else
    let (n, k) := d.digits
    let ds := toString n
    let point : Int := ds.length + k
    if 0 ≤ k ∧ point ≤ 16 then sign ++ ds ++ zeros k.toNat ++ ".0"
    else if 0 < point ∧ point ≤ 16 then
      sign ++ String.ofList (ds.toList.take point.toNat) ++ "."
        ++ String.ofList (ds.toList.drop point.toNat)
    else if -5 < point ∧ point ≤ 0 then sign ++ "0." ++ zeros (-point).toNat ++ ds
    else
      let body := match ds.toList with
        | c :: rest@(_ :: _) => String.ofList (c :: '.' :: rest)
        | cs => String.ofList cs
      sign ++ body ++ "e" ++ toString (point - 1)

/-! ## Reading -/

/-- Negation flips the sign bit. -/
def neg (d : Double) : Double := ⟨d.bits ^^^ 0x8000000000000000⟩

/-- The nearest number to an integer. -/
def ofNat (n : Nat) : Double := ofFloat (Float.ofScientific n false 0)

/-- The nearest number to `10 ^ n`. -/
def powerOfTen (n : Nat) : Float := Float.ofScientific 1 false n

/-- Division by `1e308` until the remaining negative exponent fits one power of ten. -/
def divideDown : Nat → Float → Nat → Float
  | 0, f, _ => f
  | fuel + 1, f, n =>
    if n ≤ 308 then f / powerOfTen n
    else if f == 0.0 then f
    else divideDown fuel (f / powerOfTen 308) (n - 308)

/-- `significand · 10 ^ exponent`, by one multiplication or by division in steps of `1e308`; nothing when it
overflows. Each step rounds, so this is not always the nearest number. -/
def ofSignificand (significand : Nat) (exponent : Int) : Option Double :=
  let f := (ofNat significand).toFloat
  if 0 ≤ exponent then
    if exponent ≤ 308 then
      let g := f * powerOfTen exponent.toNat
      if g.isInf then none else some (ofFloat g)
    else if significand = 0 then some (ofFloat f) else none
  else some (ofFloat (divideDown 16 f (-exponent).toNat))

/-- The number nearest to `digits · 10 ^ exponent`. -/
def nearest (digits : Nat) (exponent : Int) : Double :=
  if 0 ≤ exponent then ofFloat (Float.ofScientific digits false exponent.toNat)
  else ofFloat (Float.ofScientific digits true (-exponent).toNat)

end Double

end Switchboard
