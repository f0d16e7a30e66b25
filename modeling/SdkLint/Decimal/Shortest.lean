/-!
# Decimal texts of floating-point numbers

A finite double is `m · 2^q` for a natural number `m`; the reals that round to it form an interval
around it, which includes its ends exactly if `m` is even.  `Binary.shortest` finds the decimal with
the fewest digits in that interval, and of several the one nearest to the number.  `print` writes a
number that way, and `toFloat` rounds a decimal to the nearest double.

Exact arithmetic on natural numbers is used throughout; no digits are lost on the way.
-/

namespace SdkLint.Decimal

/-! ## Binary form -/

/-- The magnitude of a finite double: `mantissa · 2^exponent`. -/
structure Binary where
  mantissa : Nat
  exponent : Int
  /-- Whether the next double below is only half as far away as the next one above. -/
  isLowEdge : Bool
deriving DecidableEq, Repr, Inhabited

/-- The magnitude of a double, none for infinities and what is no number. -/
def Binary.ofFloat? (x : Float) : Option Binary :=
  let bits := x.toBits.toNat
  let fraction : Nat := bits % Nat.pow 2 52
  let biased : Nat := bits / Nat.pow 2 52 % Nat.pow 2 11
  if biased = 2047 then none
  else if biased = 0 then some ⟨fraction, -1074, false⟩
  else some ⟨Nat.pow 2 52 + fraction, Int.ofNat biased - 1075, fraction == 0 && biased != 1⟩

/-- A positive rational number as a fraction. -/
structure Ratio where
  num : Nat
  den : Nat
deriving DecidableEq, Repr, Inhabited

/-- The fraction `n · 2^q`. -/
def Ratio.ofScaled (n : Nat) (q : Int) : Ratio :=
  if 0 ≤ q then ⟨n * Nat.pow 2 q.toNat, 1⟩ else ⟨n, Nat.pow 2 (-q).toNat⟩

/-- A fraction times a power of ten. -/
def Ratio.timesTen (r : Ratio) (k : Int) : Ratio :=
  if 0 ≤ k then ⟨r.num * Nat.pow 10 k.toNat, r.den⟩ else ⟨r.num, r.den * Nat.pow 10 (-k).toNat⟩

def Ratio.lt (r s : Ratio) : Bool :=
  r.num * s.den < s.num * r.den

/-- Four times the number and the ends of its interval, so that all three are integral multiples of
one power of two. -/
structure Interval where
  low : Ratio
  value : Ratio
  high : Ratio
  /-- Whether the ends belong to it. -/
  closed : Bool

/-- The reals that round to a double. -/
def Binary.interval (b : Binary) : Interval :=
  let scaled (n : Nat) := Ratio.ofScaled n (b.exponent - 2)
  { low := scaled (4 * b.mantissa - if b.isLowEdge then 1 else 2)
    value := scaled (4 * b.mantissa)
    high := scaled (4 * b.mantissa + 2)
    closed := b.mantissa % 2 == 0 }

/-- Whether `n · 10^k` lies in an interval. -/
def Interval.has (i : Interval) (n : Nat) (k : Int) : Bool :=
  let r := Ratio.timesTen ⟨n, 1⟩ k
  if i.closed then !r.lt i.low && !i.high.lt r else i.low.lt r && r.lt i.high

/-! ## Shortest digits -/

/-- A decimal `digits · 10^exponent`. -/
structure Scaled where
  digits : Nat
  exponent : Int
deriving DecidableEq, Repr, Inhabited

/-- The decimal point of a fraction: the least `e` with `r < 10^e`, searched upwards from `e`. -/
def pointFrom (r : Ratio) : (fuel : Nat) → (e : Int) → Int
  | 0, e => e
  | fuel + 1, e => if r.lt (Ratio.timesTen ⟨1, 1⟩ e) then e else pointFrom r fuel (e + 1)

/-- The nearest multiple of `10^k` inside an interval, of those next to the number. -/
def nearestOn (i : Interval) (k : Int) : Option Scaled :=
  let r := i.value.timesTen (-k)
  let below := r.num / r.den
  let above := below + 1
  let downIsNearer := 2 * (r.num - below * r.den) < r.den
  match i.has below k && below != 0, i.has above k with
  | true, true => some ⟨if downIsNearer then below else above, k⟩
  | true, false => some ⟨below, k⟩
  | false, true => some ⟨above, k⟩
  | false, false => none

/-- The first grid of at least `n` digits with a point inside the interval. -/
def shortestFrom (i : Interval) (point : Int) : (fuel n : Nat) → Scaled
  | 0, n => (nearestOn i (point - n)).getD ⟨0, 0⟩
  | fuel + 1, n =>
    match nearestOn i (point - n) with
    | some d => d
    | none => shortestFrom i point fuel (n + 1)

/-- The decimal with the fewest digits that rounds to a positive double, the nearest of those. -/
def Binary.shortest (b : Binary) : Scaled :=
  let i := b.interval
  shortestFrom i (pointFrom i.value 700 (-330)) 17 1

/-! ## Writing -/

/-- The text of a natural number, without the zeros at its end, and the number of these zeros. -/
def significant (n : Nat) : List Char × Nat :=
  let text := (toString n).toList
  let kept := (text.reverse.dropWhile (· == '0')).reverse
  (kept, text.length - kept.length)

/-- Digits with the decimal point after the first `point` of them; a point outside of them is
reached by zeros.  There is always a digit on either side of the point. -/
def positional (digits : List Char) (point : Int) : List Char :=
  if point ≤ 0 then "0.".toList ++ List.replicate (-point).toNat '0' ++ digits
  else
    let whole := digits.take point.toNat
    let rest := digits.drop point.toNat
    whole ++ List.replicate (point.toNat - whole.length) '0' ++ ['.'] ++
      (if rest.isEmpty then ['0'] else rest)

/-- Digits with the decimal point after the first one, and the exponent of ten. -/
def scientific (digits : List Char) (point : Int) : List Char :=
  let mantissa := match digits with
    | [] => []
    | [d] => [d]
    | d :: rest => d :: '.' :: rest
  mantissa ++ ['e'] ++ (toString (point - 1)).toList

/-- The text of a double: the fewest digits that read back as it, positional from 10^-4 to below
10^16 and with an exponent outside of that range. -/
def print (x : Float) : String :=
  match Binary.ofFloat? x with
  | none => if x.isNaN then "NaN" else if x < 0 then "-inf" else "inf"
  | some b =>
    let sign := if x.toBits.toNat ≥ Nat.pow 2 63 then "-" else ""
    if b.mantissa = 0 then sign ++ "0.0"
    else
      let d := b.shortest
      let (digits, zeros) := significant d.digits
      let point : Int := d.exponent + digits.length + zeros
      let text :=
        if -3 ≤ point ∧ point ≤ 16 then positional digits point else scientific digits point
      sign ++ String.ofList text

/-! ## Reading -/

/-- The double nearest to `digits · 10^exponent`.  Far outside of the range of doubles the result is
infinite or zero. -/
def toFloat (digits : Nat) (exponent : Int) : Float :=
  if digits = 0 then 0.0
  else
    let top : Int := exponent + (toString digits).length
    if top > 400 then 1.0 / 0.0
    else if top < -400 then 0.0
    else if exponent < 0 then Float.ofScientific digits true (-exponent).toNat
    else Float.ofScientific digits false exponent.toNat

end SdkLint.Decimal
