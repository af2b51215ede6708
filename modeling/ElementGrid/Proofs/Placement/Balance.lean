import Mathlib.Algebra.BigOperators.Group.Finset.Sigma
import Mathlib.Data.Int.CardIntervalMod
import ElementGrid.Proofs.Placement.Partition
/-!
# Ordinals go round in turn

Consecutive ordinals go round the virtual processes, so a window of them is spread over the grid as
evenly as can be, wherever it begins: each virtual process gets the window's length divided by the
number of virtual processes, rounded down or up.

## Main definitions

* `GridShape.share` — how many ordinals of a window lead to a virtual process
* `GridShape.IsEvenShare` — an even share of so many, rounded down or up

## Main results

* `GridShape.share_eq` — the exact share, from where the window begins
* `GridShape.isEvenShare_share` — every share is even
* `GridShape.sum_share`, `GridShape.sum_share_ranks` — the shares add up to the window
-/

namespace ElementGrid

/-! ## Remainders in a window -/

/-- A number of a window that begins at `first` leaves the remainder `i` just if its place in the window
leaves what is missing from `first` up to the next number that does. -/
theorem add_mod_eq_iff {k first i j : Nat} (hi : i < k) :
    (first + j) % k = i ↔ j ≡ i + (k - first % k) [MOD k] := by
  have hround : first + (i + (k - first % k)) ≡ i [MOD k] := by
    have hmod : first % k < k := Nat.mod_lt _ (Nat.zero_lt_of_lt hi)
    have hquot := Nat.div_add_mod first k
    have hsum : first + (i + (k - first % k)) = i + k * (first / k + 1) := by
      rw [Nat.mul_add]
      omega
    rw [hsum]
    exact Nat.add_mul_mod_self_left i k _
  have hmod : (first + j) % k = i ↔ first + j ≡ i [MOD k] := by
    rw [Nat.ModEq, Nat.mod_eq_of_lt hi]
  rw [hmod]
  constructor
  · intro h
    exact Nat.ModEq.add_left_cancel' first (h.trans hround.symm)
  · intro h
    exact (h.add_left first).trans hround

/-- A window has each remainder as often as `k` goes into its length, and once more if the way from
`first` up to the next number that leaves it is shorter than what is left over. -/
theorem countP_range'_mod {k i : Nat} (hi : i < k) (first n : Nat) :
    ((List.range' first n).countP fun ordinal => ordinal % k = i) =
      n / k + if (i + (k - first % k)) % k < n % k then 1 else 0 := by
  rw [List.range'_eq_map_range, List.countP_map]
  have hcount : (List.range n).countP ((fun ordinal => decide (ordinal % k = i)) ∘ fun j => first + j) =
      n.count (· ≡ i + (k - first % k) [MOD k]) :=
    List.countP_congr fun j _ => by simp [add_mod_eq_iff hi]
  rw [hcount]
  exact Nat.count_modEq_card n (Nat.zero_lt_of_lt hi) _

/-- What is left over is rounded up to one. -/
theorem add_sub_one_div {n k : Nat} (hk : 0 < k) (h : 0 < n % k) : (n + k - 1) / k = n / k + 1 := by
  have hquot := Nat.div_add_mod n k
  have hlt := Nat.mod_lt n hk
  refine Nat.div_eq_of_lt_le ?_ ?_
  · rw [Nat.add_mul, Nat.mul_comm]
    omega
  · rw [Nat.add_mul, Nat.add_mul, Nat.mul_comm]
    omega

namespace GridShape

/-- How many of the `n` ordinals from `first` on lead to the virtual process with number `i`. -/
def share (g : GridShape) (first n i : Nat) : Nat :=
  (List.range' first n).countP fun ordinal => g.vpForOrdinal ordinal = i

/-- As many as each virtual process gets of `n`, rounded down or up. -/
def IsEvenShare (g : GridShape) (n share : Nat) : Prop :=
  share = n / (g.processes * g.threads) ∨
    share = (n + g.processes * g.threads - 1) / (g.processes * g.threads)

variable {g : GridShape} (hfits : Word.Fits (g.processes * g.threads))
include hfits

theorem share_eq {i : Nat} (hi : i < g.processes * g.threads) (first n : Nat) :
    g.share first n i = n / (g.processes * g.threads) +
      if (i + (g.processes * g.threads - first % (g.processes * g.threads))) %
        (g.processes * g.threads) < n % (g.processes * g.threads) then 1 else 0 := by
  simp only [share, vpForOrdinal, g.numVps_of_fits hfits]
  exact countP_range'_mod hi first n

/-- Each virtual process gets an even share of a window, wherever it begins. -/
theorem isEvenShare_share {i : Nat} (hi : i < g.processes * g.threads) (first n : Nat) :
    g.IsEvenShare n (g.share first n i) := by
  rw [share_eq hfits hi]
  split
  · rename_i hover
    exact .inr (add_sub_one_div (Nat.zero_lt_of_lt hi) (Nat.zero_lt_of_lt hover)).symm
  · exact .inl rfl

variable (hprocesses : 0 < g.processes) (hthreads : 0 < g.threads)
include hprocesses hthreads

/-- Every ordinal of a window leads to one virtual process. -/
theorem sum_share (first n : Nat) :
    ∑ i ∈ Finset.range (g.processes * g.threads), g.share first n i = n := by
  have hturns : ∀ i ∈ ((List.range' first n).map g.vpForOrdinal : Multiset Nat),
      i ∈ Finset.range (g.processes * g.threads) := by
    intro i hi
    obtain ⟨ordinal, -, rfl⟩ := List.mem_map.1 (Multiset.mem_coe.1 hi)
    exact Finset.mem_range.2 (vpForOrdinal_lt (Nat.mul_pos hprocesses hthreads) hfits ordinal)
  have hcount : ∀ i, g.share first n i =
      Multiset.count i ((List.range' first n).map g.vpForOrdinal : Multiset Nat) := by
    intro i
    rw [Multiset.coe_count, List.count_eq_countP, List.countP_map]
    exact List.countP_congr fun ordinal _ => by simp
  simp only [hcount, Multiset.sum_count_eq_card hturns, Multiset.coe_card, List.length_map,
    List.length_range']

omit hfits hprocesses hthreads in
/-- Numbers counted rank by rank and thread by thread are all numbers. -/
theorem sum_linear (g : GridShape) (f : Nat → Nat) :
    ∑ rank ∈ Finset.range g.processes, ∑ thread ∈ Finset.range g.threads,
      f (thread * g.processes + rank) = ∑ i ∈ Finset.range (g.processes * g.threads), f i := by
  rw [Finset.sum_comm]
  induction g.threads with
  | zero => simp
  | succ threads ih =>
    rw [Finset.sum_range_succ, ih, Nat.mul_succ, Finset.sum_range_add, Nat.mul_comm threads]

/-- The shares of the threads of all processes add up to the window. -/
theorem sum_share_ranks (first n : Nat) :
    ∑ rank ∈ Finset.range g.processes, ∑ thread ∈ Finset.range g.threads,
      g.share first n (thread * g.processes + rank) = n := by
  rw [g.sum_linear, sum_share hfits hprocesses hthreads]

end GridShape

end ElementGrid
