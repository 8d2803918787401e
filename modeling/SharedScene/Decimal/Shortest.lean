import SharedScene.Text

/-!
# The fewest digits that read back

A finite double stands for the reals between the two midpoints to its neighbours; the midpoints
belong to it when its mantissa is even, because reading rounds a tie to even. Of the decimals in
that interval the **shortest** are those with the fewest digits, and of these the nearest one is
written. Everything is exact arithmetic on natural numbers: a double is `m · 2^q`, the interval is
`(4m - δ) · 2^(q-2)` to `(4m + 2) · 2^(q-2)` with `δ = 1` at a power of two and `2` elsewhere, and
on a decimal grid only the two neighbours of the value need a look, since a grid point in the
interval puts one of them there too.
-/

namespace SharedScene

/-- A positive decimal number `digits · 10^exponent`. -/
structure Decimal where
  digits : Nat
  exponent : Int
deriving DecidableEq, Repr

namespace Decimal

/-- The mantissa and the binary exponent of a finite double's magnitude. -/
def mantissa (x : Float) : Nat × Int :=
  let bits := x.toBits.toNat
  let fraction : Nat := bits % Nat.pow 2 52
  let exponent : Nat := bits / Nat.pow 2 52 % Nat.pow 2 11
  if exponent = 0 then (fraction, -1074) else (fraction + Nat.pow 2 52, (exponent : Int) - 1075)

def isNegative (x : Float) : Bool :=
  x.toBits.toNat / Nat.pow 2 63 = 1

/-- The reals that read as one double: numerators over a common denominator, and whether the two
ends belong to it. -/
structure Interval where
  low : Nat
  value : Nat
  high : Nat
  denominator : Nat
  closed : Bool

/-- The interval of `m · 2^q`. -/
def interval (m : Nat) (q : Int) : Interval :=
  let below := if m = Nat.pow 2 52 ∧ q > -1074 then 1 else 2
  let scale := Nat.pow 2 (q - 2).toNat
  { low := (4 * m - below) * scale
    value := 4 * m * scale
    high := (4 * m + 2) * scale
    denominator := Nat.pow 2 (2 - q).toNat
    closed := m % 2 = 0 }

/-- Whether the decimal `d · 10^e` lies in the interval. -/
def Interval.holds (i : Interval) (d : Nat) (e : Int) : Bool :=
  let up := Nat.pow 10 e.toNat * i.denominator
  let down := Nat.pow 10 (-e).toNat
  if i.closed then i.low * down ≤ d * up && d * up ≤ i.high * down
  else i.low * down < d * up && d * up < i.high * down

/-- Of the two neighbours of the value on the grid of `10^e`, the nearer one that lies in the
interval; a tie goes to the even one. -/
def Interval.onGrid? (i : Interval) (e : Int) : Option Nat :=
  let up := Nat.pow 10 e.toNat * i.denominator
  let scaled := i.value * Nat.pow 10 (-e).toNat
  let floor := scaled / up
  let rest := scaled % up
  let upper := decide (rest * 2 > up) || (decide (rest * 2 = up) && floor % 2 == 1)
  match i.holds floor e && floor != 0, i.holds (floor + 1) e with
  | true, true => some (if upper then floor + 1 else floor)
  | true, false => some floor
  | false, true => some (floor + 1)
  | false, false => none

/-- The exponent `k` with `10^(k-1) ≤ v < 10^k` for the fraction `v = value / denominator`, looked
for upwards from `k`. -/
def magnitude (value denominator : Nat) : Nat → Int → Int
  | 0, k => k
  | fuel + 1, k =>
    if value * Nat.pow 10 (-k).toNat < denominator * Nat.pow 10 k.toNat then k
    else magnitude value denominator fuel (k + 1)

/-- The first grid with a hit, from the coarsest on. -/
def firstHit (i : Interval) (k : Int) : Nat → Nat → Option Decimal
  | 0, _ => none
  | fuel + 1, places =>
    match i.onGrid? (k - places) with
    | some d => some ⟨d, k - places⟩
    | none => firstHit i k fuel (places + 1)

/-- A decimal without zeros at its end. -/
def trimZeros : Nat → Decimal → Decimal
  | 0, d => d
  | fuel + 1, d =>
    if d.digits % 10 = 0 ∧ d.digits ≠ 0 then trimZeros fuel ⟨d.digits / 10, d.exponent + 1⟩ else d

/-- The shortest decimal that reads back as the magnitude of a finite double other than zero. -/
def shortest (x : Float) : Decimal :=
  let (m, q) := mantissa x
  let i := interval m q
  let k := magnitude i.value i.denominator 700 (-324)
  match firstHit i k 18 1 with
  | some d => trimZeros 20 d
  | none => ⟨i.value / i.denominator, 0⟩

/-- The digits of a decimal as characters. -/
def digitChars (d : Decimal) : List Char :=
  (toString d.digits).toList

/-- A decimal in positional notation, `point` digits before the point. -/
def positional (d : Decimal) : String :=
  let ds := d.digitChars
  let point := (ds.length : Int) + d.exponent
  if d.exponent ≥ 0 then String.ofList (ds ++ List.replicate d.exponent.toNat '0')
  else if point > 0 then
    String.ofList (ds.take point.toNat ++ '.' :: ds.drop point.toNat)
  else String.ofList ('0' :: '.' :: List.replicate (-point).toNat '0' ++ ds)

/-- A decimal in exponent notation, one digit before the point. -/
def scientific (d : Decimal) : String :=
  let ds := d.digitChars
  let power := (ds.length : Int) + d.exponent - 1
  let mantissa := match ds with
    | [] => []
    | [c] => [c]
    | c :: rest => c :: '.' :: rest
  String.ofList mantissa ++ "e" ++ toString power

end Decimal

end SharedScene
