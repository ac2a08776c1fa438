import TemplateMarkup.Text.Basic

/-!
Binary floating-point numbers of 64 bits, as a sign and `mantissa * 2 ^ exponent`. Results are rounded
to the nearest number, a tie to the even mantissa, and are written with the fewest digits that read
back.
-/
namespace TemplateMarkup

structure Binary64 where
  negative : Bool
  mantissa : Nat
  exponent : Int
deriving DecidableEq, Repr

namespace Binary64

/-- The smallest mantissa with all digits, `2 ^ 52`. -/
def leastFull : Nat := 0x10000000000000

/-- The smallest exponent; numbers below `leastFull` times its power have fewer digits. -/
def minExponent : Int := -1074

def maxExponent : Int := 971

/-- The fraction `num / den` times `2 ^ k`, as a fraction. -/
def scale (num den : Nat) (k : Int) : Nat × Nat :=
  if 0 ≤ k then (num <<< k.toNat, den) else (num, den <<< (-k).toNat)

/-- The nearest whole number, a tie to the even one. -/
def roundDiv (num den : Nat) : Nat :=
  let q := num / den
  let twice := 2 * (num % den)
  if den < twice || (twice == den && q % 2 == 1) then q + 1 else q

/-- The largest `e` with `2 ^ e ≤ num / den`, for positive numbers. -/
def log2Ratio (num den : Nat) : Int :=
  let e : Int := (Nat.log2 num : Int) - Nat.log2 den
  let (n, d) := scale num den (-e)
  if n < d then e - 1 else e

/-- The number nearest to `num / den`; nothing if that is too large. -/
def ofRatio (negative : Bool) (num den : Nat) : Option Binary64 :=
  if num = 0 then some ⟨negative, 0, minExponent⟩
  else
    let exponent := max (log2Ratio num den - 52) minExponent
    let (n, d) := scale num den (-exponent)
    let m := roundDiv n d
    let (m, exponent) := if m = 2 * leastFull then (leastFull, exponent + 1) else (m, exponent)
    if maxExponent < exponent then none else some ⟨negative, m, exponent⟩

def ofNat (n : Nat) : Option Binary64 := ofRatio false n 1

def ratio (x : Binary64) : Nat × Nat := scale x.mantissa 1 x.exponent

def mul (x y : Binary64) : Option Binary64 :=
  let (a, b) := x.ratio
  let (c, d) := y.ratio
  ofRatio (x.negative != y.negative) (a * c) (b * d)

def div (x y : Binary64) : Option Binary64 :=
  let (a, b) := x.ratio
  let (c, d) := y.ratio
  ofRatio (x.negative != y.negative) (a * d) (b * c)

/-- The fractions between which all numbers round to this one, both over one denominator. -/
def interval (x : Binary64) : Nat × Nat × Nat × Nat :=
  let (_, d) := scale 1 1 x.exponent
  let (u, _) := scale 1 1 x.exponent
  let low := if x.mantissa = leastFull ∧ minExponent < x.exponent then 4 * x.mantissa - 1
    else 4 * x.mantissa - 2
  (low * u, 4 * x.mantissa * u, (4 * x.mantissa + 2) * u, 4 * d)

/-- The largest `k` with `10 ^ k ≤ num / den`, found downwards from an upper bound. -/
def log10From (num den : Nat) : (fuel : Nat) → Int → Int
  | 0, k => k
  | fuel + 1, k =>
    let fits := if 0 ≤ k then Nat.pow 10 k.toNat * den ≤ num else den ≤ num * Nat.pow 10 (-k).toNat
    if fits then k else log10From num den fuel (k - 1)

/-- A decimal of the given number of digits that rounds to the number: its digits as a whole number
and the power of ten of the last digit. -/
def decimalOf? (x : Binary64) (top : Int) (digits : Nat) : Option (Nat × Int) :=
  let (low, value, high, den) := x.interval
  let power := top - digits + 1
  -- all fractions in units of `10 ^ power`
  let (num, unit) : (Nat → Nat) × Nat :=
    if 0 ≤ power then (fun n => n, den * Nat.pow 10 power.toNat)
    else (fun n => n * Nat.pow 10 (-power).toNat, den)
  let inside (n : Nat) : Bool :=
    let v := n * unit
    if x.mantissa % 2 == 0 then num low ≤ v && v ≤ num high else num low < v && v < num high
  let below := num value / unit
  let above := below + 1
  match inside below, inside above with
  | true, true =>
    let left := num value - below * unit
    let right := above * unit - num value
    if left < right || (left == right && below % 2 == 0) then some (below, power)
    else some (above, power)
  | true, false => some (below, power)
  | false, true => some (above, power)
  | false, false => none

def dropZeros : (fuel : Nat) → Nat → Int → Nat × Int
  | 0, n, power => (n, power)
  | fuel + 1, n, power =>
    if n % 10 = 0 ∧ n ≠ 0 then dropZeros fuel (n / 10) (power + 1) else (n, power)

/-- The fewest digits that read back as the number, the nearest to it if there are several. -/
def shortest (x : Binary64) : Nat × Int :=
  let (num, den) := x.ratio
  let top := log10From num den 700 310
  let found := (List.range 17).findSome? fun i => x.decimalOf? top (i + 1)
  let (n, power) := found.getD (0, 0)
  dropZeros 20 n power

/-- The text of a number: positional from `10 ^ -5` up to `10 ^ 16`, with an exponent outside. -/
def text (x : Binary64) : Text :=
  let sign : Text := if x.negative then ['-'] else []
  if x.mantissa = 0 then sign ++ "0.0".toList
  else
    let (n, power) := x.shortest
    let digits := Text.decimal n
    let length : Int := digits.length
    let point := length + power
    let body : Text :=
      if 0 ≤ power ∧ point ≤ 16 then digits ++ List.replicate power.toNat '0' ++ ".0".toList
      else if 0 < point ∧ point ≤ 16 then
        digits.take point.toNat ++ '.' :: digits.drop point.toNat
      else if -5 < point ∧ point ≤ 0 then
        "0.".toList ++ List.replicate (-point).toNat '0' ++ digits
      else
        let e := point - 1
        let mark : Text := if e < 0 then ['e', '-'] else ['e', '+']
        let lead := match digits with
          | d :: [] => [d]
          | d :: ds => d :: '.' :: ds
          | [] => []
        lead ++ mark ++ Text.decimal e.natAbs
    sign ++ body

end Binary64

end TemplateMarkup
