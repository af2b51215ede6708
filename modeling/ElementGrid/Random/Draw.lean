import ElementGrid.Random.Generator
import ElementGrid.Double.Exponential
import ElementGrid.Double.Text
import ElementGrid.Word
/-!
# Draws

Random numbers of ten families, drawn from one stream. Parameters are checked before a word of the
stream is read, so a refused draw leaves the stream where it was.

## Main definitions

* `DrawError` — why a draw is refused, with its wording
* `Draw` — a draw: it may be refused, and it moves the stream
* `Samplers` — the interchangeable methods behind five of the families
* `Draw.unit`, `Draw.below`, `Draw.uniformInt`, `Draw.uniformReal`, `Draw.poisson`, … — the families

## Design notes

A draw that has to try again tries at most `retryLimit` times, once for each value of the stream's
counter. Each value gives a block of eight words, so no word has been read twice by then.
-/

namespace ElementGrid

/-- Why a draw is refused. -/
inductive DrawError where
  /-- The lower bound of integers exceeds the upper one. -/
  | disordered (low high : Nat)
  /-- The bounds of reals are not finite and ascending. -/
  | noInterval (low high : Double)
  /-- No number lies below zero. -/
  | nothingBelowZero
  /-- The spread of a normal distribution is negative or not finite. -/
  | normalSpread (deviation : Double)
  /-- The spread of a lognormal distribution is negative or not finite. -/
  | lognormalSpread (sigma : Double)
  /-- The rate of an exponential distribution is negative or no number. -/
  | exponentialRate
  /-- The mean of a Poisson distribution is not positive. -/
  | poissonMean
  /-- The chance of a trial is negative or no number. -/
  | chanceTooSmall
  /-- The chance of a trial exceeds one. -/
  | chanceTooLarge
  /-- The shape of a gamma distribution is not positive. -/
  | gammaShape
  /-- The scale of a gamma distribution is not positive. -/
  | gammaScale
  /-- The bounds of reals are finite, but so far apart that their difference is not. This breaks what
  the sampler asks of its caller. -/
  | spanOverflow
  deriving DecidableEq, Repr

namespace DrawError

/-- The family whose parameters are refused. -/
def family : DrawError → String
  | disordered .. => "uniform_int"
  | noInterval .. => "uniform_real"
  | nothingBelowZero => "ulrand"
  | normalSpread _ => "normal"
  | lognormalSpread _ => "lognormal"
  | exponentialRate => "exponential"
  | poissonMean => "poisson"
  | chanceTooSmall => "binomial"
  | chanceTooLarge => "binomial"
  | gammaShape => "gamma"
  | gammaScale => "gamma"
  | spanOverflow => "uniform_real"

/-- What is wrong with the parameters. -/
def reason : DrawError → String
  | disordered low high => s!"low {low} exceeds high {high}"
  | noInterval low high =>
    s!"need finite low < high, got [{low.write .alone}, {high.write .alone})"
  | nothingBelowZero => "n must be positive"
  | normalSpread x => s!"std_dev must be finite and non-negative, got {x.write .alone}"
  | lognormalSpread x => s!"sigma must be finite and non-negative, got {x.write .alone}"
  | exponentialRate => "lambda is negative or NaN in exponential distribution"
  | poissonMean => "lambda is not positive in Poisson distribution"
  | chanceTooSmall => "p < 0 or is NaN in binomial distribution"
  | chanceTooLarge => "p > 1 in binomial distribution"
  | gammaShape => "shape is not positive in gamma distribution"
  | gammaScale => "scale is not positive in gamma distribution"
  | spanOverflow => "range overflow"

/-- The parameters are refused by a check, and not by the sampler itself. -/
def isRefusal : DrawError → Bool
  | spanOverflow => false
  | _ => true

/-- The wording of a refused draw. -/
def message (e : DrawError) : String := s!"invalid {e.family} parameters: {e.reason}"

end DrawError

/-- A draw: it may be refused, and it moves the stream. -/
abbrev Draw := ExceptT DrawError (StateM Generator)

/-- How often a draw tries again. -/
def retryLimit : Nat := Word.modulus

namespace Generator

/-- The next word that is accepted, as what it is accepted for. -/
def firstAccepted (accept : UInt64 → Option α) (fallback : α) : Nat → Generator → α × Generator
  | 0, g => (fallback, g)
  | tries + 1, g =>
    let (w, g') := g.next
    match accept w with
    | some a => (a, g')
    | none => firstAccepted accept fallback tries g'

/-- A real of `[0, 1)` with 53 random bits. -/
def unit (g : Generator) : Float × Generator :=
  let (w, g') := g.next
  ((w >>> 11).toFloat * 1.1102230246251565e-16, g')

/-- An integer of `low … high`. The words that would make some integers likelier than others are
passed over. -/
def uniformInt (low high : Nat) : Generator → Nat × Generator :=
  let range := Word.wrap (high - low + 1)
  let zone := range * Nat.pow 2 (63 - range.log2) - 1
  let accept (w : UInt64) : Option Nat :=
    if range = 0 then some w.toNat
    else
      let m := w.toNat * range
      if Word.wrap m ≤ zone then some (low + m / Word.modulus) else none
  firstAccepted accept low retryLimit

/-- A real of `[low, high)`: 52 random bits between one and two, scaled and shifted. -/
def uniformReal (low high : Float) : Generator → Float × Generator :=
  let accept (w : UInt64) : Option Float :=
    let r := (Float.ofBits ((w >>> 12) ||| ((1023 : UInt64) <<< 52)) - 1) * (high - low) + low
    if r < high then some r else none
  firstAccepted accept low retryLimit

/-- How many unit draws it takes until their product no longer exceeds `threshold`. -/
def countProduct (threshold : Float) : Nat → Float → Nat → Generator → Nat × Generator
  | 0, _, k, g => (k, g)
  | tries + 1, p, k, g =>
    if threshold < p then
      let (u, g') := g.unit
      countProduct threshold tries (p * u) (k + 1) g'
    else (k, g)

end Generator

/-- The power with a natural exponent by repeated squaring, multiplying `acc`. -/
def floatPower (acc base : Float) (n : Nat) : Float :=
  if h : n = 0 then acc
  else
    let acc := if n % 2 = 1 then acc * base else acc
    if n / 2 = 0 then acc else floatPower acc (base * base) (n / 2)
termination_by n
decreasing_by omega

/-- The place in a binomial distribution at which the probabilities `r`, … add up to `u`. Each is the
one before it times `a / x - s`. -/
def binomialPlace (a s : Float) : Nat → Float → Float → Nat → Nat
  | 0, _, _, x => x
  | tries + 1, u, r, x =>
    if r < u then
      binomialPlace a s tries (u - r) (r * (a / Float.ofNat (x + 1) - s)) (x + 1)
    else x

/-- The methods by which five families are sampled. Any method will do for the grid, as long as it
reads its words from the stream. -/
structure Samplers where
  /-- A number of the normal distribution with mean zero and deviation one. -/
  standardNormal : Generator → Float × Generator
  /-- A number of the exponential distribution with mean one. -/
  standardExponential : Generator → Float × Generator
  /-- A number of the gamma distribution of a shape with scale one. -/
  standardGamma : Float → Generator → Float × Generator
  /-- A number of a Poisson distribution with a large mean. -/
  largePoisson : Float → Generator → Nat × Generator
  /-- The number of successes among many trials. -/
  largeBinomial : Nat → Float → Generator → Nat × Generator

namespace Samplers

/-- A real strictly between zero and one. -/
def openUnit (g : Generator) : Float × Generator :=
  let (w, g') := g.next
  (((w >>> 11).toFloat + 0.5) * 1.1102230246251565e-16, g')

/-- A real strictly between zero and one with the 32 bits of a half word. -/
def ofHalf (w : UInt64) : Float := (w.toFloat + 0.5) * 2.3283064365386963e-10

/-- By the sine of a random angle between `-π` and `π`, which the upper half of a word gives, and a
radius, which the lower half gives. The first bit is the sign. -/
def normalByAngle (g : Generator) : Float × Generator :=
  let (w, g) := g.next
  let angle := 6.283185307179586 * (ofHalf (w >>> 32) - 0.5)
  (Float.sqrt (-2 * Float.log (ofHalf (w &&& 0xffffffff))) * Float.sin angle, g)

/-- By inversion. -/
def exponentialByLog (g : Generator) : Float × Generator :=
  let (u, g) := openUnit g
  (-Float.log u, g)

/-- By the cube of a shifted normal number, which is accepted or tried again. -/
def gammaByCube (d c : Float) : Nat → Generator → Float × Generator
  | 0, g => (d, g)
  | tries + 1, g =>
    let (x, g) := normalByAngle g
    let (u, g) := openUnit g
    let y := 1 + c * x
    let v := y * y * y
    if 0 < v && Float.log u < 0.5 * x * x + d * (1 - v + Float.log v) then (d * v, g)
    else if c == 0 then (d, g)
    else gammaByCube d c tries g

/-- The gamma distribution; a shape below one is taken from the next shape up. -/
def gamma (shape : Float) (g : Generator) : Float × Generator :=
  let lift := if shape < 1 then shape + 1 else shape
  let d := lift - 1 / 3
  let (x, g) := gammaByCube d (1 / Float.sqrt (9 * d)) retryLimit g
  if shape < 1 then
    let (u, g) := openUnit g
    (x * Float.pow u (1 / shape), g)
  else (x, g)

/-- The nearest integer of a normal number with the given mean and deviation. -/
def roundedNormal (mean deviation : Float) (g : Generator) : Nat × Generator :=
  let (z, g) := normalByAngle g
  ((Float.floor (mean + deviation * z + 0.5)).toUInt64.toNat, g)

/-- Methods of a few lines each. -/
def plain : Samplers where
  standardNormal := normalByAngle
  standardExponential := exponentialByLog
  standardGamma := gamma
  largePoisson mean := roundedNormal mean (Float.sqrt mean)
  largeBinomial n p g :=
    let (k, g) := roundedNormal (Float.ofNat n * p) (Float.sqrt (Float.ofNat n * p * (1 - p))) g
    (min k n, g)

end Samplers

namespace Draw

/-- A draw that cannot be refused. -/
def ofSampler (f : Generator → α × Generator) : Draw α := fun g =>
  let (a, g') := f g
  (.ok a, g')

/-- A real of `[0, 1)`. -/
def unit : Draw Double := Double.ofFloat <$> ofSampler Generator.unit

/-- An integer of `low … high`. -/
def uniformInt (low high : Nat) : Draw Nat :=
  if high < low then throw (.disordered low high) else ofSampler (Generator.uniformInt low high)

/-- An integer below `n`. -/
def below (n : Nat) : Draw Nat :=
  if n = 0 then throw .nothingBelowZero else ofSampler (Generator.uniformInt 0 (n - 1))

/-- A real of `[low, high)`. The bounds are checked one by one, their difference is not. -/
def uniformReal (low high : Double) : Draw Double :=
  if !(low.isFinite && high.isFinite && low.toFloat < high.toFloat) then
    throw (.noInterval low high)
  else if !(Double.ofFloat (high.toFloat - low.toFloat)).isFinite then
    throw .spanOverflow
  else Double.ofFloat <$> ofSampler (Generator.uniformReal low.toFloat high.toFloat)

/-- A spread is finite and not negative. -/
def isSpread (x : Double) : Bool := x.isFinite && 0 ≤ x.toFloat

/-- A number of a normal distribution. -/
def normal (samplers : Samplers) (mean deviation : Double) : Draw Double := do
  if !isSpread deviation then throw (.normalSpread deviation)
  let z ← ofSampler samplers.standardNormal
  return mean.map fun m => m + deviation.toFloat * z

/-- A number whose logarithm is normal. -/
def lognormal (samplers : Samplers) (mu sigma : Double) : Draw Double := do
  if !isSpread sigma then throw (.lognormalSpread sigma)
  let z ← ofSampler samplers.standardNormal
  return mu.map fun m => Exponential.exp (m + sigma.toFloat * z)

/-- A number of an exponential distribution. -/
def exponential (samplers : Samplers) (rate : Double) : Draw Double := do
  if !(0 ≤ rate.toFloat) then throw .exponentialRate
  let x ← ofSampler samplers.standardExponential
  return .ofFloat (x * (1 / rate.toFloat))

/-- A number of a gamma distribution. With shape one it is exponential, and its rate is the inverse of
the scale. -/
def gamma (samplers : Samplers) (shape scale : Double) : Draw Double := do
  if !(0 < shape.toFloat) then throw .gammaShape
  if !(0 < scale.toFloat) then throw .gammaScale
  if shape.toFloat == 1 then exponential samplers (.ofFloat (1 / scale.toFloat))
  else
    let x ← ofSampler (samplers.standardGamma shape.toFloat)
    return .ofFloat (x * scale.toFloat)

/-- A number of a Poisson distribution. A small mean is sampled by multiplying unit draws. -/
def poisson (samplers : Samplers) (mean : Double) : Draw Nat := do
  let m := mean.toFloat
  if !(0 < m) then throw .poissonMean
  if m < 12 then
    let k ← ofSampler (Generator.countProduct (Exponential.exp (-m)) retryLimit 1 0)
    return k - 1
  else
    ofSampler (samplers.largePoisson m)

/-- The number of successes among `trials`. What succeeds more often than not is counted by its
failures; few expected ones are sampled by inversion. -/
def binomial (samplers : Samplers) (trials : Nat) (chance : Double) : Draw Nat := do
  let p := chance.toFloat
  if !(0 ≤ p) then throw .chanceTooSmall
  if !(p ≤ 1) then throw .chanceTooLarge
  if p == 0 then return 0
  if p == 1 then return trials
  let rare := if p ≤ 0.5 then p else 1 - p
  let n := Float.ofNat trials
  let count ←
    if n * rare < 10 && trials < 2147483648 then do
      let s := rare / (1 - rare)
      let u ← ofSampler Generator.unit
      pure (binomialPlace ((n + 1) * s) s retryLimit u (floatPower 1 (1 - rare) trials) 0)
    else
      ofSampler (samplers.largeBinomial trials rare)
  return if p ≤ 0.5 then count else trials - count

end Draw

end ElementGrid
