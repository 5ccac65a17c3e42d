/-!
# Doubles in decimal

A positive double is a natural number times a power of two, and every real number near
enough rounds to it: up to half way to its neighbours, the ends included when the natural
number is even. Its shortest decimals are the points of the coarsest decimal grid that
meets this interval. If a point of a grid does, so does one of the two points next to the
number, so only these are tried; of two that fit the nearer is taken.
-/

namespace SqlTemplate.Decimal

/-- The positive number `mantissa * 2 ^ exponent`. -/
structure Binary where
  mantissa : Nat
  exponent : Int
  /-- The neighbour below is only half as far away as the neighbour above. -/
  narrow : Bool
deriving Repr, DecidableEq

/-- The number `coefficient * 10 ^ exponent`. -/
structure Scaled where
  coefficient : Nat
  exponent : Int
deriving Repr, DecidableEq

inductive Tie where
  | up
  | even
deriving Repr, DecidableEq

inductive Double where
  | nan
  | infinite (negative : Bool)
  | zero (negative : Bool)
  | finite (negative : Bool) (magnitude : Binary)
deriving Repr, DecidableEq

/-- Eleven bits of exponent follow the sign, and fifty-two of fraction follow the exponent. -/
def Double.ofBits (bits : Nat) : Double :=
  let negative := bits >>> 63 % 2 == 1
  let exponent : Nat := bits >>> 52 % (1 <<< 11)
  let fraction := bits % (1 <<< 52)
  if exponent == 2047 then
    if fraction == 0 then .infinite negative else .nan
  else if exponent == 0 then
    if fraction == 0 then .zero negative else .finite negative ⟨fraction, -1074, false⟩
  else
    let narrow := fraction == 0 && exponent != 1
    .finite negative ⟨1 <<< 52 + fraction, (exponent : Int) - 1075, narrow⟩

def Double.ofFloat (x : Float) : Double := .ofBits x.toBits.toNat

namespace Binary

/-- The numbers `c * 10 ^ k` and `x * 2 ^ (exponent - 2)` compare as `c * a` and `x * b`,
where `(a, b)` are these factors. -/
def factors (n : Binary) (k : Int) : Nat × Nat :=
  let unit := n.exponent - 2
  (Nat.pow 10 k.toNat * Nat.pow 2 (-unit).toNat, Nat.pow 2 unit.toNat * Nat.pow 10 (-k).toNat)

def accepts (n : Binary) (k : Int) (c : Nat) : Bool :=
  let (a, b) := n.factors k
  let low := (4 * n.mantissa - if n.narrow then 1 else 2) * b
  let high := (4 * n.mantissa + 2) * b
  if n.mantissa % 2 == 0 then low ≤ c * a && c * a ≤ high else low < c * a && c * a < high

/-- The multiple of `10 ^ k` that rounds to the number and is nearest to it. -/
def onGrid (n : Binary) (tie : Tie) (k : Int) : Option Scaled :=
  let (a, b) := n.factors k
  let value := 4 * n.mantissa * b
  let below := value / a
  let nearer : Nat :=
    match compare (2 * (value % a)) a with
    | .lt => below
    | .gt => below + 1
    | .eq => if tie == .even && below % 2 == 0 then below else below + 1
  let farther := if nearer == below then below + 1 else below
  if n.accepts k nearer then some ⟨nearer, k⟩
  else if n.accepts k farther then some ⟨farther, k⟩
  else none

/-- A power of ten above the number, and not far above it. -/
def ceiling (n : Binary) : Int :=
  let size : Int := n.mantissa.log2 + n.exponent
  if size < 0 then -(size.natAbs * 301 / 1000 : Nat) + 1 else (size.toNat * 302 / 1000 : Nat) + 2

/-- The decimal of fewest digits that rounds to the number. Seventeen digits always do, and
the ceiling is at most a few powers of ten too high. -/
def shortest (n : Binary) (tie : Tie) : Scaled :=
  ((List.range 24).findSome? fun (i : Nat) => n.onGrid tie (n.ceiling - i)).getD ⟨n.mantissa, 0⟩

end Binary

structure Layout where
  /-- The powers of the first digit that are written in full. -/
  inFull : Int → Bool
  wholeSuffix : String
  tie : Tie
  nan : String
  infinity : String
  negativeInfinity : String

/-- Digits with a point after as many of them as `before` says. -/
def positional (digits : String) (before : Int) (wholeSuffix : String) : String :=
  let length : Int := digits.length
  if before ≤ 0 then "0." ++ String.ofList (List.replicate (-before).toNat '0') ++ digits
  else if length ≤ before then
    digits ++ String.ofList (List.replicate (before - length).toNat '0') ++ wholeSuffix
  else
    String.ofList (digits.toList.take before.toNat) ++ "." ++
      String.ofList (digits.toList.drop before.toNat)

def scientific (digits : String) (power : Int) : String :=
  let first := String.ofList (digits.toList.take 1)
  let others := String.ofList (digits.toList.drop 1)
  let point := if others.isEmpty then "" else "."
  let sign := if power < 0 then "-" else "+"
  first ++ point ++ others ++ "e" ++ sign ++ toString power.natAbs

def Layout.magnitude (layout : Layout) (n : Scaled) : String :=
  let digits := toString n.coefficient
  let power := n.exponent + digits.length - 1
  if layout.inFull power then positional digits (power + 1) layout.wholeSuffix
  else scientific digits power

/-- A double in a layout, with the fewest digits that read back. -/
def Layout.text (layout : Layout) (x : Float) : String :=
  let sign (negative : Bool) := if negative then "-" else ""
  match Double.ofFloat x with
  | .nan => layout.nan
  | .infinite false => layout.infinity
  | .infinite true => layout.negativeInfinity
  | .zero negative => sign negative ++ "0" ++ layout.wholeSuffix
  | .finite negative n => sign negative ++ layout.magnitude (n.shortest layout.tie)

end SqlTemplate.Decimal
