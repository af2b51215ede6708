import ElementGrid.Proofs.Placement
/-!
# The grid is parted by its placement rule

Six functions tell where an element lives, each from a side of its own: linear numbers, pairs of rank
and thread, the threads of one process, a test for one virtual process, the one that answers, and the
list of all. On a grid whose virtual processes can be counted in a word they tell the same.

## Main definitions

* `GridShape.OnGrid` — the virtual processes that exist
* `Hosting.named` — the threads that a process is told of

## Main results

* `GridShape.toVp_toIndex` — the pair of rank and thread from its linear number
* `GridShape.hosts_normal_iff`, `GridShape.hosts_external_iff` — the one virtual process that holds
* `GridShape.named_hosting` — a process is told of the threads that hold, and of no other
* `GridShape.map_toIndex_allVps` — all virtual processes, each told once, in linear order
* `GridShape.partitions_grid` — all of it together
-/

namespace ElementGrid

/-- The threads of a process with so many of them that a verdict names. -/
def Hosting.named (threads : Nat) : Hosting → List Nat
  | nowhere => []
  | one thread => [thread]
  | everywhere => List.range threads

namespace GridShape

variable {g : GridShape}

/-- The virtual process is a thread of a process of the grid. -/
def OnGrid (g : GridShape) (v : Vp) : Prop := v.rank < g.processes ∧ v.thread < g.threads

theorem OnGrid.origin (hprocesses : 0 < g.processes) (hthreads : 0 < g.threads) :
    g.OnGrid Vp.origin :=
  ⟨hprocesses, hthreads⟩

/-! ## Linear numbers and pairs -/

theorem onGrid_toVp {i : Nat} (hi : i < g.processes * g.threads) : g.OnGrid (g.toVp i) := by
  have hpos : 0 < g.processes := Nat.pos_of_mul_pos_right (Nat.zero_lt_of_lt hi)
  exact ⟨Nat.mod_lt i hpos, threadOf_lt hi⟩

section Word

variable (hfits : Word.Fits (g.processes * g.threads))
include hfits

theorem toIndex_eq {v : Vp} (hv : g.OnGrid v) :
    g.toIndex v = v.thread * g.processes + v.rank :=
  Word.wrap_of_fits (Nat.lt_trans (linear_lt hv.1 hv.2) hfits)

theorem toIndex_lt {v : Vp} (hv : g.OnGrid v) : g.toIndex v < g.processes * g.threads := by
  rw [toIndex_eq hfits hv]
  exact linear_lt hv.1 hv.2

theorem toVp_toIndex {v : Vp} (hv : g.OnGrid v) : g.toVp (g.toIndex v) = v :=
  (toVp_eq_iff hv.1).2 (toIndex_eq hfits hv)

/-- A virtual process of the grid is known by its linear number. -/
theorem toVp_eq_iff_toIndex {i : Nat} (hi : i < g.processes * g.threads) {v : Vp} :
    g.toVp i = v ↔ g.OnGrid v ∧ g.toIndex v = i := by
  constructor
  · rintro rfl
    exact ⟨onGrid_toVp hi, toIndex_toVp hfits hi⟩
  · rintro ⟨hv, rfl⟩
    exact toVp_toIndex hfits hv

theorem map_toIndex_allVps :
    g.allVps.map g.toIndex = List.range (g.processes * g.threads) := by
  rw [allVps_eq hfits, List.map_map]
  have hid : ∀ i ∈ List.range (g.processes * g.threads), (g.toIndex ∘ g.toVp) i = id i :=
    fun i hi => toIndex_toVp hfits (List.mem_range.1 hi)
  rw [List.map_congr_left hid, List.map_id]

/-! ## Who holds, and who answers -/

variable (hprocesses : 0 < g.processes) (hthreads : 0 < g.threads)
include hprocesses hthreads

theorem onGrid_home (ordinal : Nat) (category : Category) :
    g.OnGrid (g.home ordinal category) :=
  (mem_allVps_iff hfits).1 (home_mem_allVps hfits hprocesses hthreads ordinal category)

/-- An element of a normal model is held by the virtual process that its ordinal leads to. -/
theorem hosts_normal_iff (ordinal : Nat) (v : Vp) :
    g.hosts ordinal .normal v = true ↔
      g.OnGrid v ∧ g.toIndex v = ordinal % (g.processes * g.threads) := by
  have hturn : g.vpForOrdinal ordinal = ordinal % (g.processes * g.threads) := by
    rw [vpForOrdinal, g.numVps_of_fits hfits]
  have hlt := vpForOrdinal_lt (Nat.mul_pos hprocesses hthreads) hfits ordinal
  rw [hosts_eq_home (by decide), decide_eq_true_eq, ← hturn]
  exact toVp_eq_iff_toIndex hfits hlt

omit hfits hprocesses hthreads in
theorem hosts_external_iff (ordinal : Nat) (v : Vp) :
    g.hosts ordinal .external v = true ↔ v = Vp.origin := by
  rw [hosts_eq_home (by decide), decide_eq_true_eq, eq_comm]
  rfl

/-- A process is told of the threads that hold the element. -/
theorem named_hosting (ordinal : Nat) (category : Category) (rank : Nat) :
    (g.hosting ordinal category rank).named g.threads =
      (List.range g.threads).filter fun thread => g.hosts ordinal category ⟨rank, thread⟩ := by
  show _ = (List.range g.threads).filter (g.hosting ordinal category rank).includes
  cases hhosting : g.hosting ordinal category rank with
  | nowhere => exact (List.filter_eq_nil_iff.2 fun thread _ => Bool.false_ne_true).symm
  | one thread =>
    have hlt := lt_threads_of_hosting hprocesses hthreads hfits hhosting
    have hrule : (Hosting.one thread).includes = fun t => decide (t = thread) := by
      funext t
      simp [Hosting.includes, Bool.beq_eq_decide_eq, eq_comm]
    rw [hrule, List.filter_eq,
      List.count_eq_one_of_mem List.nodup_range (List.mem_range.2 hlt)]
    rfl
  | everywhere => exact (List.filter_eq_self.2 fun thread _ => rfl).symm

end Word

/-- All functions of the placement rule tell the same. The linear numbers below the number of virtual
processes and the pairs of the grid are told from each other; an element of a normal model is held
by the one virtual process whose number its ordinal leaves as a remainder, a replicated one by all
and an external one by the first; a process is told of the threads that hold; the virtual process
that answers for an element holds it; and the list of all has each pair of the grid once, in linear
order. -/
theorem partitions_grid (hprocesses : 0 < g.processes) (hthreads : 0 < g.threads)
    (hfits : Word.Fits (g.processes * g.threads)) :
    (∀ i < g.processes * g.threads, g.OnGrid (g.toVp i) ∧ g.toIndex (g.toVp i) = i) ∧
    (∀ v, g.OnGrid v → g.toIndex v < g.processes * g.threads ∧ g.toVp (g.toIndex v) = v) ∧
    (∀ ordinal v, g.hosts ordinal .normal v = true ↔
      g.OnGrid v ∧ g.toIndex v = ordinal % (g.processes * g.threads)) ∧
    (∀ ordinal v, g.hosts ordinal .device v = true) ∧
    (∀ ordinal v, g.hosts ordinal .external v = true ↔ v = ⟨0, 0⟩) ∧
    (∀ ordinal category rank, (g.hosting ordinal category rank).named g.threads =
      (List.range g.threads).filter fun thread => g.hosts ordinal category ⟨rank, thread⟩) ∧
    (∀ ordinal category, g.OnGrid (g.home ordinal category) ∧
      g.hosts ordinal category (g.home ordinal category) = true) ∧
    (∀ v, v ∈ g.allVps ↔ g.OnGrid v) ∧ g.allVps.Nodup ∧
    g.allVps.map g.toIndex = List.range (g.processes * g.threads) := by
  refine ⟨fun i hi => ?pairs, fun v hv => ?numbers, ?normal, fun ordinal v => rfl,
    hosts_external_iff, ?threads, fun ordinal category => ?home, fun v => mem_allVps_iff hfits,
    nodup_allVps hfits, map_toIndex_allVps hfits⟩
  case pairs => exact ⟨onGrid_toVp hi, toIndex_toVp hfits hi⟩
  case numbers => exact ⟨toIndex_lt hfits hv, toVp_toIndex hfits hv⟩
  case normal => exact hosts_normal_iff hfits hprocesses hthreads
  case threads => exact named_hosting hfits hprocesses hthreads
  case home =>
    exact ⟨onGrid_home hfits hprocesses hthreads ordinal category,
      hosts_home g ordinal category⟩

/-- Three processes with two threads each. The hundredth ordinal is four more than a multiple of six. -/
theorem partitions_grid_three_by_two :
    let g : GridShape := ⟨3, 2⟩
    Word.Fits (3 * 2) ∧ g.toVp (g.toIndex ⟨1, 1⟩) = ⟨1, 1⟩ ∧
      (∀ v, g.hosts 100 .normal v = true ↔ g.OnGrid v ∧ g.toIndex v = 4) ∧
      (g.hosting 100 .normal 1).named 2 = [1] ∧ (g.hosting 100 .device 1).named 2 = [0, 1] ∧
      (g.hosting 100 .external 1).named 2 = [] ∧
      g.hosts 100 .device (g.home 100 .device) = true ∧
      ⟨2, 1⟩ ∈ g.allVps ∧ ⟨1, 2⟩ ∉ g.allVps := by
  intro g
  have hfits : Word.Fits (3 * 2) := by decide
  obtain ⟨-, hnumbers, hnormal, -, -, hnamed, hhome, hall, -, -⟩ :=
    partitions_grid (g := g) (by decide) (by decide) hfits
  have hturn : 100 % (g.processes * g.threads) = 4 := by decide
  have houtside : ¬ g.OnGrid ⟨1, 2⟩ := fun h => absurd h.2 (by decide)
  refine ⟨hfits, (hnumbers ⟨1, 1⟩ ⟨by decide, by decide⟩).2, fun v => ?_,
    (hnamed 100 .normal 1).trans (by decide), (hnamed 100 .device 1).trans (by decide),
    (hnamed 100 .external 1).trans (by decide), (hhome 100 .device).2,
    (hall ⟨2, 1⟩).2 ⟨by decide, by decide⟩, mt (hall ⟨1, 2⟩).1 houtside⟩
  rw [← hturn]
  exact hnormal 100 v

end GridShape

end ElementGrid
