import ElementGrid.Proofs.Placement.Partition
/-!
# The arithmetic of the placement rule

The rule multiplies, adds and divides words. Here it is told once more in an arithmetic that answers
only where a word holds the result and nothing is divided by zero, and once more in the arithmetic of
the natural numbers. On a grid with threads, the three agree if and only if a word holds the number of
virtual processes.

## Main definitions

* `Word.mul?`, `Word.add?`, `Word.mod?`, `Word.div?` — operations on words, where they have an answer
* `GridShape.place?` and the functions before it — the rule told with them
* `GridShape.rule` — the rule told with natural numbers
* `GridShape.Unhindered` — the rule always has an answer
* `GridShape.Exact` — the answers are those of the natural numbers

## Main results

* `GridShape.unhindered_of_fits`, `GridShape.exact_iff` — when this is so
* `GridShape.stops_or_misplaces` — what becomes of the turns otherwise
-/

namespace ElementGrid

namespace Word

/-- The product of two words, if a word holds it. -/
def mul? (a b : Nat) : Option Nat := if Fits (a * b) then some (a * b) else none

/-- The sum of two words, if a word holds it. -/
def add? (a b : Nat) : Option Nat := if Fits (a + b) then some (a + b) else none

/-- The remainder of a division of words, unless it is by zero. -/
def mod? (a b : Nat) : Option Nat := if b = 0 then none else some (a % b)

/-- The quotient of two words, unless the division is by zero. -/
def div? (a b : Nat) : Option Nat := if b = 0 then none else some (a / b)

variable {a b : Nat}

theorem mul?_of_fits (h : Fits (a * b)) : mul? a b = some (a * b) := if_pos h

theorem mul?_of_not_fits (h : ¬ Fits (a * b)) : mul? a b = none := if_neg h

theorem add?_of_fits (h : Fits (a + b)) : add? a b = some (a + b) := if_pos h

theorem mod?_of_pos (h : 0 < b) : mod? a b = some (a % b) := if_neg (Nat.ne_of_gt h)

theorem div?_of_pos (h : 0 < b) : div? a b = some (a / b) := if_neg (Nat.ne_of_gt h)

end Word

/-- The threads of a process that hold an element with the given place. -/
def Placement.verdict (rank : Nat) : Placement → Hosting
  | .single vp => if vp.rank = rank then .one vp.thread else .nowhere
  | .replicated => .everywhere

namespace GridShape

variable (g : GridShape)

/-! ## The rule where it has an answer -/

/-- `numVps`, if no word overflows. -/
def numVps? : Option Nat := Word.mul? g.processes g.threads

/-- `vpForOrdinal`, if no word overflows and nothing is divided by zero. -/
def vpForOrdinal? (ordinal : Nat) : Option Nat := do Word.mod? ordinal (← g.numVps?)

/-- `toVp`, if nothing is divided by zero. -/
def toVp? (i : Nat) : Option Vp := do
  return ⟨← Word.mod? i g.processes, ← Word.div? i g.processes⟩

/-- `toIndex`, if no word overflows. -/
def toIndex? (v : Vp) : Option Nat := do
  Word.add? (← Word.mul? v.thread g.processes) v.rank

/-- The virtual process whose turn it is, if there is an answer. -/
def turn? (ordinal : Nat) : Option Vp := do g.toVp? (← g.vpForOrdinal? ordinal)

/-- `place`, where it has an answer. -/
def place? (ordinal : Nat) : Category → Option Placement
  | .normal => do return .single (← g.turn? ordinal)
  | .device => some .replicated
  | .external => some (.single Vp.origin)

/-- `home`, where it has an answer. -/
def home? (ordinal : Nat) (category : Category) : Option Vp := do
  match ← g.place? ordinal category with
  | .single vp => return vp
  | .replicated => g.turn? ordinal

/-- `hosting`, where it has an answer. -/
def hosting? (ordinal : Nat) (category : Category) (rank : Nat) : Option Hosting := do
  return (← g.place? ordinal category).verdict rank

/-- The rule has an answer wherever it is asked, and what it answers is computed without overflow. -/
structure Unhindered : Prop where
  numVps : g.numVps? = some g.numVps
  vpForOrdinal : ∀ ordinal, g.vpForOrdinal? ordinal = some (g.vpForOrdinal ordinal)
  toVp : ∀ i, g.toVp? i = some (g.toVp i)
  toIndex : ∀ v, g.OnGrid v → g.toIndex? v = some (g.toIndex v)
  place : ∀ ordinal category, g.place? ordinal category = some (g.place ordinal category)
  home : ∀ ordinal category, g.home? ordinal category = some (g.home ordinal category)
  hosting : ∀ ordinal category rank,
    g.hosting? ordinal category rank = some (g.hosting ordinal category rank)

/-! ## The rule among the natural numbers -/

/-- The place of the element with the given ordinal, by the true number of virtual processes. -/
def rule (ordinal : Nat) : Category → Placement
  | .normal =>
    let turn := ordinal % (g.processes * g.threads)
    .single ⟨turn % g.processes, turn / g.processes⟩
  | .device => .replicated
  | .external => .single Vp.origin

/-- What the rule answers is what the same operations come to among the natural numbers. -/
structure Exact : Prop where
  numVps : g.numVps = g.processes * g.threads
  vpForOrdinal : ∀ ordinal, g.vpForOrdinal ordinal = ordinal % (g.processes * g.threads)
  toIndex : ∀ v, g.OnGrid v → g.toIndex v = v.thread * g.processes + v.rank
  place : ∀ ordinal category, g.place ordinal category = g.rule ordinal category
  hosting : ∀ ordinal category rank,
    g.hosting ordinal category rank = (g.rule ordinal category).verdict rank

variable {g}

theorem hosting_eq_verdict (ordinal : Nat) (category : Category) (rank : Nat) :
    g.hosting ordinal category rank = (g.place ordinal category).verdict rank := by
  rw [hosting]
  cases g.place ordinal category <;> rfl

/-! ## When the three agree -/

theorem exact_of_fits (hfits : Word.Fits (g.processes * g.threads)) : g.Exact := by
  have hturn : ∀ ordinal, g.vpForOrdinal ordinal = ordinal % (g.processes * g.threads) := by
    intro ordinal
    rw [vpForOrdinal, g.numVps_of_fits hfits]
  have hplace : ∀ ordinal category, g.place ordinal category = g.rule ordinal category := by
    intro ordinal category
    cases category with
    | normal => rw [place, rule, hturn]; rfl
    | device => rfl
    | external => rfl
  refine ⟨g.numVps_of_fits hfits, hturn, fun v hv => toIndex_eq hfits hv, hplace,
    fun ordinal category rank => ?_⟩
  rw [hosting_eq_verdict, hplace]

theorem exact_iff : g.Exact ↔ Word.Fits (g.processes * g.threads) :=
  ⟨fun h => h.numVps ▸ Word.fits_wrap _, exact_of_fits⟩

/-- With a process and a thread at least, and a word to count the virtual processes, no operation of the
rule is without an answer. -/
theorem unhindered_of_fits (hprocesses : 0 < g.processes) (hthreads : 0 < g.threads)
    (hfits : Word.Fits (g.processes * g.threads)) : g.Unhindered := by
  have hnum : g.numVps? = some g.numVps := by
    rw [numVps?, Word.mul?_of_fits hfits, g.numVps_of_fits hfits]
  have hpos : 0 < g.numVps := by
    rw [g.numVps_of_fits hfits]
    exact Nat.mul_pos hprocesses hthreads
  have hordinal : ∀ ordinal, g.vpForOrdinal? ordinal = some (g.vpForOrdinal ordinal) := by
    intro ordinal
    rw [vpForOrdinal?, hnum]
    exact Word.mod?_of_pos hpos
  have htoVp : ∀ i, g.toVp? i = some (g.toVp i) := by
    intro i
    rw [toVp?, Word.mod?_of_pos hprocesses, Word.div?_of_pos hprocesses]
    rfl
  have hturn : ∀ ordinal, g.turn? ordinal = some (g.toVp (g.vpForOrdinal ordinal)) := by
    intro ordinal
    rw [turn?, hordinal]
    exact htoVp (g.vpForOrdinal ordinal)
  have hplace : ∀ ordinal category,
      g.place? ordinal category = some (g.place ordinal category) := by
    intro ordinal category
    cases category with
    | normal => rw [place?, hturn]; rfl
    | device => rfl
    | external => rfl
  refine ⟨hnum, hordinal, htoVp, fun v hv => ?index, hplace, fun ordinal category => ?home,
    fun ordinal category rank => ?hosting⟩
  case index =>
    have hlinear : Word.Fits (v.thread * g.processes + v.rank) :=
      Nat.lt_trans (linear_lt hv.1 hv.2) hfits
    have hproduct : Word.Fits (v.thread * g.processes) :=
      Nat.lt_of_le_of_lt (Nat.le_add_right _ _) hlinear
    rw [toIndex?, Word.mul?_of_fits hproduct, toIndex_eq hfits hv]
    exact Word.add?_of_fits hlinear
  case home =>
    rw [home?, hplace]
    cases category with
    | normal => rfl
    | device => exact hturn ordinal
    | external => rfl
  case hosting =>
    rw [hosting?, hplace, hosting_eq_verdict]
    rfl

/-! ## When they do not -/

section Overflow

variable (hfits : ¬ Word.Fits (g.processes * g.threads))
include hfits

theorem numVps?_of_not_fits : g.numVps? = none := Word.mul?_of_not_fits hfits

theorem vpForOrdinal?_of_not_fits (ordinal : Nat) : g.vpForOrdinal? ordinal = none := by
  rw [vpForOrdinal?, numVps?_of_not_fits hfits]
  rfl

/-- Where a word does not hold the number of virtual processes, either there are no turns to take, or
some ordinal does not get its turn. -/
theorem stops_or_misplaces : g.hasTurns = false ∨ ∃ ordinal, Word.Fits ordinal ∧
    g.vpForOrdinal ordinal ≠ ordinal % (g.processes * g.threads) := by
  by_cases hzero : g.numVps = 0
  · exact .inl (by rw [hasTurns, hzero]; rfl)
  · -- The number to which the product wraps is less than the product, so its turn is not the first.
    have hword : Word.Fits g.numVps := Word.fits_wrap _
    have hlt : g.numVps < g.processes * g.threads := Nat.lt_of_lt_of_le hword (Nat.not_lt.1 hfits)
    refine .inr ⟨g.numVps, hword, ?_⟩
    rw [vpForOrdinal, Nat.mod_self, Nat.mod_eq_of_lt hlt]
    exact Ne.symm hzero

end Overflow

end GridShape

end ElementGrid
