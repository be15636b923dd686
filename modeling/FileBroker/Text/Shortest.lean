/-
Numbers in double precision as decimal text.

The text of a number has the fewest digits that read back as that number, and of those the
nearest ones; of two that are equally near, those with the even last digit. Small exponents are
written out, all others with an `e` and a sign.

* `Double.Parts`, `Double.parts`: a finite number as a natural mantissa times a power of two.
* `Double.shortest?`: the digits and the decimal exponent of the shortest text.
* `Double.text`: the text itself.
-/
namespace FileBroker.Double

/-- A finite number: its sign, and its size `mantissa * 2 ^ exponent`. The flag tells that the
number below is only half as far away as the one above. -/
structure Parts where
  negative : Bool
  mantissa : Nat
  exponent : Int
  nearerBelow : Bool
  deriving DecidableEq, Repr

/-- The leading bit of a mantissa, which is not stored. -/
def hiddenBit : Nat := 0x10000000000000

/-- The bit that tells the sign. -/
def signBit : Nat := 0x8000000000000000

/-- The parts of a finite number, given by its 64 bits. -/
def parts (bits : UInt64) : Parts :=
  let field : Nat := bits.toNat / hiddenBit % 2048
  let fraction : Nat := bits.toNat % hiddenBit
  let negative : Bool := bits.toNat / signBit = 1
  if field = 0 then ⟨negative, fraction, -1074, false⟩
  else ⟨negative, hiddenBit + fraction, (field : Int) - 1075, fraction = 0 && 1 < field⟩

/-- The natural number `m * base ^ e`, for `e` cut off at zero. -/
def scaled (m base : Nat) (e : Int) : Nat := m * Nat.pow base e.toNat

/-- The number `c * 10 ^ k` lies among the reals that round to `p`; the two ends belong to them
if the mantissa is even. All sides are multiplied by powers that make them natural. -/
def roundsTo (p : Parts) (c : Nat) (k : Int) : Bool :=
  let unit := p.exponent - 2
  let candidate := scaled (scaled c 10 k) 2 (-unit)
  let low := scaled (scaled (4 * p.mantissa - if p.nearerBelow then 1 else 2) 10 (-k)) 2 unit
  let high := scaled (scaled (4 * p.mantissa + 2) 10 (-k)) 2 unit
  if p.mantissa % 2 = 0 then low ≤ candidate && candidate ≤ high
  else low < candidate && candidate < high

/-- The multiple of `10 ^ k` that is not above `p`, as a count. -/
def floorCount (p : Parts) (k : Int) : Nat :=
  scaled (scaled p.mantissa 2 p.exponent) 10 (-k) / scaled (scaled 1 2 (-p.exponent)) 10 k

/-- The nearer of the counts `c` and `c + 1` on the grid, between which `p` lies; of two that are
equally near, the even one. -/
def nearer (p : Parts) (c : Nat) (k : Int) : Nat :=
  let double := scaled (scaled (2 * p.mantissa) 2 p.exponent) 10 (-k)
  let middle := scaled (scaled (2 * c + 1) 2 (-p.exponent)) 10 k
  if double < middle then c
  else if middle < double then c + 1
  else if c % 2 = 0 then c else c + 1

/-- The count on the grid of multiples of `10 ^ k` that reads back as `p`, if there is one. -/
def onGrid? (p : Parts) (k : Int) : Option Nat :=
  let c := floorCount p k
  match roundsTo p c k, roundsTo p (c + 1) k with
  | true, true => some (nearer p c k)
  | true, false => some c
  | false, true => some (c + 1)
  | false, false => none

/-- The coarsest of the `steps` grids from `10 ^ k` downwards on which some count reads back. -/
def coarsest? (p : Parts) : Nat → Int → Option (Nat × Int)
  | 0, _ => none
  | steps + 1, k =>
    match onGrid? p k with
    | some c => some (c, k)
    | none => coarsest? p steps (k - 1)

/-- The shortest digits of a positive number, as a count of `10 ^ k`. -/
def shortest? (p : Parts) : Option (Nat × Int) := coarsest? p 660 310

/-- The digits of a count, most significant first. -/
def digits (n : Nat) : List Char := Nat.toDigits 10 n

/-- A run of zeros. -/
def zeros (n : Int) : List Char := List.replicate n.toNat '0'

/-- An exponent with its sign. -/
def exponentText (e : Int) : List Char :=
  (if e < 0 then '-' else '+') :: digits e.natAbs

/-- The text of `count * 10 ^ k`: written out when the number has at most sixteen digits before the
point or at most four zeros behind it, and with an exponent otherwise. -/
def decimal (count : Nat) (k : Int) : List Char :=
  let ds := digits count
  let point := ds.length + k
  if 0 ≤ k && point ≤ 16 then ds ++ zeros k ++ ['.', '0']
  else if 0 < point && point ≤ 16 then ds.take point.toNat ++ ['.'] ++ ds.drop point.toNat
  else if -5 < point && point ≤ 0 then ['0', '.'] ++ zeros (-point) ++ ds
  else
    let fraction := if ds.length = 1 then [] else '.' :: ds.drop 1
    ds.take 1 ++ fraction ++ ['e'] ++ exponentText (point - 1)

/-- The text of a finite number, given by its 64 bits. -/
def text (bits : UInt64) : String :=
  let p := parts bits
  let size := if p.mantissa = 0 then ['0', '.', '0'] else
    match shortest? p with
    | some (count, k) => decimal count k
    | none => []
  String.ofList (if p.negative then '-' :: size else size)

end FileBroker.Double
