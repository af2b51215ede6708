import Mathlib.Data.List.Nodup
import ElementGrid.Config
import ElementGrid.Placement
/-!
# The placement rule

On a grid whose virtual processes can be counted in a word, the rule names threads that exist.

## Main results

* `GridShape.lt_threads_of_hosting` — a thread that holds an element is one of the process
* `GridShape.toVp_eq_iff` — the numbering of the virtual processes and its inverse
* `GridShape.hosts_eq` — who holds an element is a matter of numbers
* `GridShape.filter_hosts_allVps` — only its home holds an element that is not replicated
* `GridShape.eq_of_perm` — the linear order of virtual processes
-/

namespace ElementGrid.GridShape

variable {g : GridShape}

theorem vpForOrdinal_lt (hpos : 0 < g.processes * g.threads)
    (hfits : Word.Fits (g.processes * g.threads)) (ordinal : Nat) :
    g.vpForOrdinal ordinal < g.processes * g.threads := by
  rw [vpForOrdinal, g.numVps_of_fits hfits]
  exact Nat.mod_lt _ hpos

theorem threadOf_lt {i : Nat} (h : i < g.processes * g.threads) : g.threadOf i < g.threads :=
  Nat.div_lt_of_lt_mul h

/-- The thread on which a process holds an element is one of its threads. -/
theorem lt_threads_of_hosting (hprocesses : 0 < g.processes) (hthreads : 0 < g.threads)
    (hfits : Word.Fits (g.processes * g.threads)) {ordinal rank thread : Nat} {category : Category}
    (h : g.hosting ordinal category rank = .one thread) : thread < g.threads := by
  have hpos : 0 < g.processes * g.threads := Nat.mul_pos hprocesses hthreads
  cases category with
  | normal =>
    simp only [hosting, place] at h
    split at h
    · cases h
      exact threadOf_lt (vpForOrdinal_lt hpos hfits ordinal)
    · cases h
  | device => cases h
  | external =>
    simp only [hosting, place, Vp.origin] at h
    split at h
    · cases h
      exact hthreads
    · cases h

/-! ## Which virtual process holds an element -/

theorem threadOf_mul_add_rankOf (g : GridShape) (i : Nat) :
    g.threadOf i * g.processes + g.rankOf i = i := by
  rw [threadOf, rankOf, Nat.mul_comm]
  exact Nat.div_add_mod i g.processes

theorem toVp_eq_iff {v : Vp} (hrank : v.rank < g.processes) {i : Nat} :
    g.toVp i = v ↔ i = v.thread * g.processes + v.rank := by
  obtain ⟨rank, thread⟩ := v
  have hpos : 0 < g.processes := Nat.zero_lt_of_lt hrank
  simp only [toVp, Vp.mk.injEq]
  constructor
  · rintro ⟨rfl, rfl⟩
    exact (g.threadOf_mul_add_rankOf i).symm
  · rintro rfl
    refine ⟨Nat.mul_add_mod_of_lt hrank, ?_⟩
    rw [threadOf, Nat.add_comm, Nat.add_mul_div_right _ _ hpos, Nat.div_eq_of_lt hrank,
      Nat.zero_add]

/-- The linear number of a virtual process of the grid is less than their number. -/
theorem linear_lt {v : Vp} (hrank : v.rank < g.processes) (hthread : v.thread < g.threads) :
    v.thread * g.processes + v.rank < g.processes * g.threads :=
  calc v.thread * g.processes + v.rank < (v.thread + 1) * g.processes := by
        rw [Nat.add_mul]
        omega
    _ ≤ g.threads * g.processes := Nat.mul_le_mul_right _ hthread
    _ = g.processes * g.threads := Nat.mul_comm _ _

theorem includes_single (vp v : Vp) :
    (if vp.rank = v.rank then Hosting.one vp.thread else .nowhere).includes v.thread =
      decide (vp = v) := by
  obtain ⟨rank, thread⟩ := vp
  obtain ⟨rank', thread'⟩ := v
  by_cases hrank : rank = rank'
  · simp [hrank, Hosting.includes, Bool.beq_eq_decide_eq]
  · simp [hrank, Hosting.includes]

/-- Whether a virtual process holds an element follows from their numbers. -/
theorem hosts_eq {v : Vp} (hrank : v.rank < g.processes) (ordinal : Nat) (category : Category) :
    g.hosts ordinal category v =
      match category with
      | .normal => decide (g.vpForOrdinal ordinal = v.thread * g.processes + v.rank)
      | .device => true
      | .external => decide (0 = v.thread * g.processes + v.rank) := by
  cases category with
  | normal =>
    simp only [hosts, hosting, place, includes_single, toVp_eq_iff hrank]
  | device => rfl
  | external =>
    have horigin : g.toVp 0 = Vp.origin := by
      simp [toVp, rankOf, threadOf, Vp.origin]
    simp only [hosts, hosting, place, includes_single, ← horigin, toVp_eq_iff hrank]

/-- An element that is not replicated is held by one virtual process at most. -/
theorem index_eq_of_hosts {v v' : Vp} (hrank : v.rank < g.processes) (hrank' : v'.rank < g.processes)
    {ordinal : Nat} {category : Category} (hcategory : category ≠ .device)
    (h : g.hosts ordinal category v = true) (h' : g.hosts ordinal category v' = true) :
    v.thread * g.processes + v.rank = v'.thread * g.processes + v'.rank := by
  rw [hosts_eq hrank] at h
  rw [hosts_eq hrank'] at h'
  cases category with
  | normal => exact (decide_eq_true_iff.1 h).symm.trans (decide_eq_true_iff.1 h')
  | device => exact absurd rfl hcategory
  | external => exact (decide_eq_true_iff.1 h).symm.trans (decide_eq_true_iff.1 h')

/-- An element that is not replicated is held by its home. -/
theorem hosts_eq_home {category : Category} (hcategory : category ≠ .device) (ordinal : Nat) (v : Vp) :
    g.hosts ordinal category v = decide (g.home ordinal category = v) := by
  cases category with
  | normal => exact includes_single (g.toVp (g.vpForOrdinal ordinal)) v
  | device => exact absurd rfl hcategory
  | external => exact includes_single Vp.origin v

/-- The home of an element is among those that hold it. -/
theorem hosts_home (g : GridShape) (ordinal : Nat) (category : Category) :
    g.hosts ordinal category (g.home ordinal category) = true := by
  by_cases hcategory : category = .device
  · subst hcategory
    rfl
  · rw [hosts_eq_home hcategory, decide_eq_true_eq]

/-! ## The linear order -/

section Linear

variable (hfits : Word.Fits (g.processes * g.threads))
include hfits

theorem toIndex_toVp {i : Nat} (hi : i < g.processes * g.threads) : g.toIndex (g.toVp i) = i := by
  have hword : Word.Fits i := Nat.lt_trans hi hfits
  show Word.wrap (g.threadOf i * g.processes + g.rankOf i) = i
  rw [threadOf_mul_add_rankOf, Word.wrap_of_fits hword]

theorem allVps_eq : g.allVps = (List.range (g.processes * g.threads)).map g.toVp := by
  rw [allVps, g.numVps_of_fits hfits]

theorem pairwise_allVps : g.allVps.Pairwise fun a b => g.toIndex a < g.toIndex b := by
  rw [allVps_eq hfits, List.pairwise_map]
  refine List.pairwise_lt_range.imp_of_mem fun {i j} hi hj hij => ?_
  rwa [toIndex_toVp hfits (List.mem_range.1 hi), toIndex_toVp hfits (List.mem_range.1 hj)]

theorem nodup_allVps : g.allVps.Nodup :=
  (pairwise_allVps hfits).imp fun hlt heq => by simp [heq] at hlt

theorem mem_allVps_iff {v : Vp} : v ∈ g.allVps ↔ v.rank < g.processes ∧ v.thread < g.threads := by
  rw [allVps_eq hfits, List.mem_map]
  constructor
  · rintro ⟨i, hi, rfl⟩
    have hi := List.mem_range.1 hi
    have hpos : 0 < g.processes := Nat.pos_of_mul_pos_right (Nat.zero_lt_of_lt hi)
    exact ⟨Nat.mod_lt i hpos, threadOf_lt hi⟩
  · rintro ⟨hrank, hthread⟩
    exact ⟨v.thread * g.processes + v.rank, List.mem_range.2 (linear_lt hrank hthread),
      (toVp_eq_iff hrank).2 rfl⟩

theorem home_mem_allVps (hprocesses : 0 < g.processes) (hthreads : 0 < g.threads) (ordinal : Nat)
    (category : Category) : g.home ordinal category ∈ g.allVps := by
  have hturn : g.toVp (g.vpForOrdinal ordinal) ∈ g.allVps := by
    rw [allVps_eq hfits]
    exact List.mem_map_of_mem
      (List.mem_range.2 (vpForOrdinal_lt (Nat.mul_pos hprocesses hthreads) hfits ordinal))
  cases category with
  | normal => exact hturn
  | device => exact hturn
  | external => exact (mem_allVps_iff hfits).2 ⟨hprocesses, hthreads⟩

/-- Of all virtual processes, only its home holds an element that is not replicated. -/
theorem filter_hosts_allVps (hprocesses : 0 < g.processes) (hthreads : 0 < g.threads) (ordinal : Nat)
    {category : Category} (hcategory : category ≠ .device) :
    g.allVps.filter (g.hosts ordinal category) = [g.home ordinal category] := by
  have hhome := home_mem_allVps hfits hprocesses hthreads ordinal category
  have hrule : g.allVps.filter (g.hosts ordinal category) =
      g.allVps.filter fun v => v = g.home ordinal category :=
    List.filter_congr fun v _ => by simp only [hosts_eq_home hcategory, eq_comm]
  rw [hrule, List.filter_eq, List.count_eq_one_of_mem (nodup_allVps hfits) hhome]
  rfl

/-- Virtual processes in linear order are a matter of which of them they are. -/
theorem eq_of_perm {l l' : List Vp} (hperm : l.Perm l')
    (h : l.Pairwise fun a b => g.toIndex a ≤ g.toIndex b) (h' : l'.Sublist g.allVps) : l = l' := by
  have hstrict := (pairwise_allVps hfits).sublist h'
  -- None is told twice in `l'`, so none is in `l`, and its order is strict.
  have hdistinct : l.Pairwise fun a b => g.toIndex a ≠ g.toIndex b :=
    (hperm.pairwise_iff Ne.symm).2 (hstrict.imp Nat.ne_of_lt)
  have hlt : l.Pairwise fun a b => g.toIndex a < g.toIndex b :=
    (h.and hdistinct).imp fun hab => Nat.lt_of_le_of_ne hab.1 hab.2
  exact hperm.eq_of_pairwise (fun a b _ _ hab hba => by omega) hlt hstrict

/-- The virtual processes rank by rank are all of them, though not in linear order. -/
theorem perm_allVps : ((List.range g.processes).flatMap fun rank =>
    (List.range g.threads).map (Vp.mk rank)).Perm g.allVps := by
  refine (List.perm_ext_iff_of_nodup ?nodup (nodup_allVps hfits)).2 fun v => ?mem
  case nodup =>
    refine List.pairwise_flatMap.2 ⟨fun rank _ => ?_, ?_⟩
    · exact List.pairwise_map.2 (List.pairwise_lt_range.imp fun hlt heq => by
        cases heq
        exact Nat.lt_irrefl _ hlt)
    · refine List.pairwise_lt_range.imp fun hlt v hv v' hv' heq => ?_
      obtain ⟨_, -, rfl⟩ := List.mem_map.1 hv
      obtain ⟨_, -, rfl⟩ := List.mem_map.1 hv'
      cases heq
      exact Nat.lt_irrefl _ hlt
  case mem =>
    rw [mem_allVps_iff hfits]
    simp only [List.mem_flatMap, List.mem_map, List.mem_range]
    constructor
    · rintro ⟨rank, hrank, thread, hthread, rfl⟩
      exact ⟨hrank, hthread⟩
    · rintro ⟨hrank, hthread⟩
      exact ⟨v.rank, hrank, v.thread, hthread, rfl⟩

end Linear

end ElementGrid.GridShape
