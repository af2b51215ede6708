import ElementGrid.Proofs.Placement.Balance
import ElementGrid.Proofs.Registry.Lookups
/-!
# Creations spread evenly

Processes that are asked for the same elements give them the same numbers, whatever else each of them
is told. The elements of a normal model then spread over all threads of all processes as evenly as can
be, wherever the numbers begin, and each of them has one instance in the whole grid.

## Main definitions

* `Command.renumbers` — the commands that give out numbers or take them back
* `Registry.NumbersAlike` — two registries that give out the same numbers from now on
* `Registry.Gains` — what a creation puts behind the instances of a thread
* `Registry.Balanced` — a creation on all processes, spread evenly

## Main results

* `Registry.NumbersAlike.run` — numbers follow from creations and resets alone
* `Registry.Sound.exists_gains` — a creation adds to a thread what the placement rule gives it
* `Registry.Sound.localCount_call` — and to a process the shares of its threads
* `Registry.creations_balanced` — creations of normal elements are spread evenly
-/

namespace ElementGrid

variable {E : Type}

/-- The command gives out numbers, or it takes all of them back. -/
def Command.renumbers : Command E → Bool
  | .create .. | .createById .. | .reset => true
  | _ => false

theorem Command.renumbers_iff {command : Command E} :
    command.renumbers = true ↔ command = .reset ∨ ∃ c, command.creation? = some c := by
  cases command <;> simp [renumbers, creation?]

namespace Registry

variable {r r' : Registry E} {config : GridConfig} {catalog : Catalog E}

/-! ## The same numbers on every process -/

/-- The registries have the same models and go on with the same number. -/
structure NumbersAlike (r r' : Registry E) : Prop where
  catalog : r'.catalog = r.catalog
  nextGid : r'.nextGid = r.nextGid

theorem NumbersAlike.trans {r'' : Registry E} (h : r.NumbersAlike r') (h' : r'.NumbersAlike r'') :
    r.NumbersAlike r'' :=
  ⟨h'.catalog.trans h.catalog, h'.nextGid.trans h.nextGid⟩

theorem NumbersAlike.symm (h : r.NumbersAlike r') : r'.NumbersAlike r :=
  ⟨h.catalog.symm, h.nextGid.symm⟩

theorem numbersAlike_of_start {config' : GridConfig} {dispatch dispatch' : Dispatch}
    (h : start config catalog dispatch = .ok r) (h' : start config' catalog dispatch' = .ok r') :
    r.NumbersAlike r' := by
  obtain ⟨-, rfl⟩ := start_eq_ok_iff.1 h
  obtain ⟨-, rfl⟩ := start_eq_ok_iff.1 h'
  exact ⟨rfl, rfl⟩

section Histories

variable [Element E]

/-- Most commands have nothing to do with numbers. -/
theorem numbersAlike_apply {command : Command E} (h : command.renumbers = false) :
    r.NumbersAlike (r.apply command) := by
  have hnot : ¬ (command = .reset ∨ ∃ c, command.creation? = some c) := by
    rw [← Command.renumbers_iff, h]
    exact Bool.false_ne_true
  obtain ⟨hreset, hcreation⟩ := not_or.1 hnot
  have hnone : command.creation? = none :=
    Option.eq_none_iff_forall_ne_some.2 fun c hc => hcreation ⟨c, hc⟩
  have hsame := sameSeats_of_creation? (r := r) hnone hreset
  exact ⟨hsame.catalog, hsame.nextGid⟩

theorem NumbersAlike.apply (h : r.NumbersAlike r') (command : Command E) :
    (r.apply command).NumbersAlike (r'.apply command) := by
  cases hrenumbers : command.renumbers with
  | false => exact ((numbersAlike_apply hrenumbers).symm.trans h).trans (numbersAlike_apply hrenumbers)
  | true =>
    obtain rfl | ⟨c, hc⟩ := Command.renumbers_iff.1 hrenumbers
    · exact ⟨h.catalog, rfl⟩
    · obtain ⟨-, hcatalog, hnext⟩ := call_congr h.catalog h.nextGid c
      rw [apply_of_creation? hc, apply_of_creation? hc]
      exact ⟨hcatalog, hnext⟩

/-- A history has the same numbers to follow without the commands that have nothing to do with them. -/
theorem NumbersAlike.run_filter (h : r.NumbersAlike r') (commands : List (Command E)) :
    (r.run commands).NumbersAlike (r'.run (commands.filter Command.renumbers)) := by
  induction commands generalizing r r' with
  | nil => exact h
  | cons command commands ih =>
    cases hrenumbers : command.renumbers with
    | true =>
      rw [List.filter_cons_of_pos hrenumbers]
      exact ih (h.apply command)
    | false =>
      rw [List.filter_cons_of_neg (by simp [hrenumbers])]
      exact ih ((numbersAlike_apply hrenumbers).symm.trans h)

/-- Which numbers follow is up to the creations and resets of a history. -/
theorem NumbersAlike.run (h : r.NumbersAlike r') {commands commands' : List (Command E)}
    (hcommands : commands'.filter Command.renumbers = commands.filter Command.renumbers) :
    (r.run commands).NumbersAlike (r'.run commands') := by
  have hself : r'.NumbersAlike r' := ⟨rfl, rfl⟩
  have hleft := h.run_filter commands
  have hright := hself.run_filter commands'
  rw [hcommands] at hright
  exact hleft.trans hright.symm

end Histories

/-! ## What a creation adds to a thread -/

/-- The creation puts the new instances behind those that the thread has. -/
def Gains (r : Registry E) (c : Creation) (thread : Nat) (new : List (Node E)) : Prop :=
  ∃ nodes, r.localNodes thread = .ok nodes ∧
    (r.call c).registry.localNodes thread = .ok (nodes ++ new)

/-- How many instances a thread holds. -/
def held (r : Registry E) (thread : Nat) : Nat :=
  (r.workers[thread]?).elim 0 fun w => w.store.size

theorem Gains.held_eq {c : Creation} {t : Nat} {new : List (Node E)} (h : r.Gains c t new) :
    (r.call c).registry.held t = r.held t + new.length := by
  obtain ⟨nodes, hbefore, hafter⟩ := h
  obtain ⟨w, hw, rfl⟩ := localNodes_eq_ok_iff.1 hbefore
  obtain ⟨w', hw', hnodes⟩ := localNodes_eq_ok_iff.1 hafter
  simp only [held, hw, hw', Option.elim_some, Store.size, hnodes, List.length_append]

/-- The instances of a process are those of its threads. -/
theorem localCount_eq_sum (r : Registry E) :
    r.localCount = ∑ t ∈ Finset.range r.workers.length, r.held t := by
  simp only [localCount, held]
  induction r.workers with
  | nil => rfl
  | cons w ws ih =>
    rw [List.foldr_cons, ih, List.length_cons, Finset.sum_range_succ', Nat.add_comm]
    rfl

section Call

variable (hr : Sound config catalog r) (hcatalog : catalog.Numbered) {c : Creation} {m : Model E}
  {made : Collection} (hm : c.model? catalog = some m) (hmade : (r.call c).result = .ok made)
include hr hcatalog hm hmade

/-- A creation that is carried out gives out the next numbers, as many as are asked for. -/
theorem Sound.call_eq : made.gids = List.range' r.nextGid c.count ∧
    made.gids = (Run.ofCount r.nextGid c.count m.id).gids ∧
    (r.call c).registry = r.withBatch m (.ofCount r.nextGid c.count m.id) := by
  obtain ⟨m', hm', -, hcount, -, hresult, hregistry⟩ | ⟨-, e, hrefused⟩ :=
    call_cases (hr.catalog_eq ▸ hcatalog) c
  · rw [hr.catalog_eq, hm] at hm'
    cases hm'
    rw [hmade] at hresult
    cases hresult
    rw [Collection.gids_ofRun]
    exact ⟨Run.gids_ofCount _ _ hcount, rfl, hregistry⟩
  · rw [hrefused] at hmade
    cases hmade

/-- A creation adds to a thread the elements that the placement rule gives it. -/
theorem Sound.exists_gains {t : Nat} (ht : t < config.threads) : ∃ new, r.Gains c t new ∧
    new.map Node.gid =
      made.gids.filter fun gid => config.shape.hosts gid m.category ⟨config.rank, t⟩ := by
  obtain ⟨-, hgids, hregistry⟩ := hr.call_eq hcatalog hm hmade
  obtain ⟨w, hw⟩ := hr.exists_worker ht
  let batch := Run.ofCount r.nextGid c.count m.id
  let here := batch.gids.filter fun gid => r.shape.hosts gid m.category ⟨r.config.rank, t⟩
  have hworker : (r.call c).registry.workers[t]? = some (r.populate m batch t w) := by
    rw [hregistry, withBatch, List.getElem?_mapIdx, hw, Option.map_some]
  refine ⟨(here.map (r.newNode m t)).mapIdx fun i n => { n with localId := i + w.store.size },
    ⟨_, localNodes_eq hw, ?added⟩, ?numbers⟩
  case added => rw [localNodes_eq hworker, populate, Store.nodes_appendAll]
  case numbers =>
    have hshape : r.shape = config.shape := congrArg GridConfig.shape hr.config_eq
    rw [hgids, ← hshape, ← hr.config_eq]
    -- Places do not matter for the numbers.
    refine List.ext_getElem? fun i => ?_
    simp only [List.getElem?_map, List.getElem?_mapIdx, Option.map_map]
    exact Option.map_id'

/-! ## What a creation of normal elements adds to a process -/

variable (hnormal : m.category = .normal) (hrank : config.rank < config.processes)
  (hfits : Word.Fits (config.processes * config.threads))
include hnormal hrank hfits

/-- Of a normal model a thread gets the elements whose turn it is. -/
theorem Sound.exists_gains_normal {t : Nat} (ht : t < config.threads) : ∃ new, r.Gains c t new ∧
    new.map Node.gid = made.gids.filter (fun gid =>
      config.shape.vpForOrdinal gid = config.shape.toIndex ⟨config.rank, t⟩) ∧
    new.length = config.shape.share r.nextGid c.count (t * config.processes + config.rank) := by
  obtain ⟨hwindow, -, -⟩ := hr.call_eq hcatalog hm hmade
  obtain ⟨new, hgains, hnew⟩ := hr.exists_gains hcatalog hm hmade ht
  have hindex : config.shape.toIndex ⟨config.rank, t⟩ = t * config.processes + config.rank :=
    GridShape.toIndex_eq hfits ⟨hrank, ht⟩
  have hturn : ∀ gid, config.shape.hosts gid m.category ⟨config.rank, t⟩ =
      decide (config.shape.vpForOrdinal gid = config.shape.toIndex ⟨config.rank, t⟩) := by
    intro gid
    rw [GridShape.hosts_eq (g := config.shape) hrank, hnormal, hindex]
    rfl
  simp only [hturn] at hnew
  refine ⟨new, hgains, hnew, ?_⟩
  rw [← List.length_map Node.gid, hnew, hwindow, hindex, ← List.countP_eq_length_filter]
  rfl

/-- A creation of normal elements adds to a process the shares of its threads. -/
theorem Sound.localCount_call : (r.call c).registry.localCount =
    r.localCount + ∑ t ∈ Finset.range config.threads,
      config.shape.share r.nextGid c.count (t * config.processes + config.rank) := by
  obtain ⟨-, -, hregistry⟩ := hr.call_eq hcatalog hm hmade
  have hlength : (r.call c).registry.workers.length = config.threads := by
    rw [hregistry]
    exact List.length_mapIdx.trans hr.length_workers
  rw [localCount_eq_sum, localCount_eq_sum, hlength, hr.length_workers, ← Finset.sum_add_distrib]
  refine Finset.sum_congr rfl fun t ht => ?_
  obtain ⟨new, hgains, -, hshare⟩ :=
    hr.exists_gains_normal hcatalog hm hmade hnormal hrank hfits (Finset.mem_range.1 ht)
  rw [hgains.held_eq, hshare]

end Call

/-! ## A creation on all processes -/

/-- A creation on all processes, the registries of which are given by rank, is spread evenly. -/
structure Balanced (config : GridConfig) (r : Nat → Registry E) (c : Creation) (made : Collection) :
    Prop where
  /-- Every process carries it out and gives out the same numbers. -/
  agreed : ∀ rank < config.processes, ((r rank).call c).result = .ok made
  /-- The numbers are a window of as many as are asked for. -/
  window : ∃ first, made.gids = List.range' first c.count
  /-- Each thread of each process gets the elements whose turn it is, and these are an even share. -/
  shares : ∀ rank < config.processes, ∀ t < config.threads, ∃ new, (r rank).Gains c t new ∧
    new.map Node.gid = made.gids.filter (fun gid =>
      config.shape.vpForOrdinal gid = config.shape.toIndex ⟨rank, t⟩) ∧
    config.shape.IsEvenShare c.count new.length
  /-- All processes together get as many instances as elements are asked for. -/
  total : ∑ rank ∈ Finset.range config.processes, ((r rank).call c).registry.localCount =
    ∑ rank ∈ Finset.range config.processes, (r rank).localCount + c.count

/-- Registries of all ranks that go on with the same number spread normal elements evenly. -/
theorem balanced_of_numbersAlike {r : Nat → Registry E} (hprocesses : 0 < config.processes)
    (hthreads : 0 < config.threads) (hfits : Word.Fits (config.processes * config.threads))
    (hcatalog : catalog.Numbered)
    (hr : ∀ rank < config.processes, Sound (config.forRank rank) catalog (r rank)) {first : Registry E}
    (halike : ∀ rank < config.processes, first.NumbersAlike (r rank)) {c : Creation} {m : Model E}
    (hm : c.model? catalog = some m) (hnormal : m.category = .normal) {made : Collection}
    (hmade : (first.call c).result = .ok made) : Balanced config r c made := by
  have hagreed : ∀ rank < config.processes, ((r rank).call c).result = .ok made := by
    intro rank hrank
    rw [(call_congr (halike rank hrank).catalog (halike rank hrank).nextGid c).1, hmade]
  refine { agreed := hagreed, window := ?window, shares := ?shares, total := ?total }
  case window =>
    exact ⟨_, ((hr 0 hprocesses).call_eq hcatalog hm (hagreed 0 hprocesses)).1⟩
  case shares =>
    intro rank hrank t ht
    obtain ⟨new, hgains, hnew, hshare⟩ := (hr rank hrank).exists_gains_normal hcatalog hm
      (hagreed rank hrank) hnormal hrank hfits ht
    refine ⟨new, hgains, hnew, ?_⟩
    rw [hshare]
    exact GridShape.isEvenShare_share hfits (GridShape.linear_lt (v := ⟨rank, t⟩) hrank ht) _ _
  case total =>
    have hrank : ∀ rank ∈ Finset.range config.processes, ((r rank).call c).registry.localCount =
        (r rank).localCount + ∑ t ∈ Finset.range config.threads,
          config.shape.share first.nextGid c.count (t * config.processes + rank) := by
      intro rank hmem
      have hrank := Finset.mem_range.1 hmem
      rw [← (halike rank hrank).nextGid]
      exact (hr rank hrank).localCount_call hcatalog hm (hagreed rank hrank) hnormal hrank hfits
    rw [Finset.sum_congr rfl hrank, Finset.sum_add_distrib]
    exact congrArg _ (GridShape.sum_share_ranks (g := config.shape) hfits hprocesses hthreads _ _)

/-- Round robin is balanced. Any window of ordinals, wherever it begins, gives each virtual process its
length divided by the number of virtual processes, rounded down or up, and nothing is lost. After any
histories of the processes, alike in creations and resets and otherwise different, a creation of elements
of a normal model that one process carries out all of them carry out: each thread of each process gets
the number of elements divided by that of the virtual processes, rounded down or up, and together the
processes get one instance for each element. -/
theorem creations_balanced [Element E] {dispatch : Nat → Dispatch} {fresh : Nat → Registry E}
    {histories : Nat → List (Command E)} {told : List (Command E)}
    (hprocesses : 0 < config.processes) (hthreads : 0 < config.threads)
    (hfits : Word.Fits (config.processes * config.threads)) (hcatalog : catalog.Formed)
    (hstart : ∀ rank < config.processes,
      start (config.forRank rank) catalog (dispatch rank) = .ok (fresh rank))
    (htold : ∀ rank < config.processes, (histories rank).filter Command.renumbers = told) :
    (∀ first n,
      (∀ i < config.processes * config.threads,
        config.shape.IsEvenShare n (config.shape.share first n i)) ∧
      ∑ i ∈ Finset.range (config.processes * config.threads), config.shape.share first n i = n) ∧
    let r := fun rank => (fresh rank).run (histories rank)
    ∀ (c : Creation) (m : Model E), c.model? catalog = some m → m.category = .normal →
      ∀ rank < config.processes, ∀ made, ((r rank).call c).result = .ok made →
        Balanced config r c made := by
  refine ⟨fun first n => ⟨fun i hi => ?even, ?sum⟩, fun c m hm hnormal rank hrank made hmade => ?made⟩
  case even => exact GridShape.isEvenShare_share hfits hi first n
  case sum => exact GridShape.sum_share (g := config.shape) hfits hprocesses hthreads first n
  case made =>
    have hsound : ∀ rank < config.processes,
        Sound (config.forRank rank) catalog ((fresh rank).run (histories rank)) := fun rank hrank =>
      Reachable.sound hcatalog.numbered ⟨_, _, hstart rank hrank, rfl⟩
    refine balanced_of_numbersAlike hprocesses hthreads hfits hcatalog.numbered hsound
      (fun rank' hrank' => ?_) hm hnormal hmade
    have hfresh := numbersAlike_of_start (hstart rank hrank) (hstart rank' hrank')
    exact hfresh.run ((htold rank' hrank').trans (htold rank hrank).symm)

/-- Two processes with two threads each that have three elements, on one of them prepared, and create six
more. The threads whose turn it is first get two of them, the others one. -/
theorem creations_balanced_offset :
    let config : GridConfig := { processes := 2, threads := 2 }
    let fresh : Nat → Registry StandardElement := fun rank =>
      { config := config.forRank rank, catalog := StandardElement.catalog,
        workers := freshWorkers (config.forRank rank) }
    let histories : Nat → List (Command StandardElement) := fun rank =>
      if rank = 0 then [.create "counter" 3, .prepare] else [.create "counter" 3]
    let r := fun rank => (fresh rank).run (histories rank)
    Word.Fits (2 * 2) ∧ StandardElement.catalog.Formed ∧
      (∀ rank < 2, start (config.forRank rank) StandardElement.catalog = .ok (fresh rank)) ∧
      (∀ rank < 2, (histories rank).filter Command.renumbers = [.create "counter" 3]) ∧
      Balanced config r (.byName "counter" 6) (.ofRun ⟨4, 9, 0⟩) ∧
      (∃ new, (r 0).Gains (.byName "counter" 6) 0 new ∧ new.map Node.gid = [4, 8]) ∧
      ∃ new, (r 1).Gains (.byName "counter" 6) 1 new ∧ new.map Node.gid = [7] := by
  intro config fresh histories r
  have hfits : Word.Fits (config.processes * config.threads) := by decide
  have hcatalog : StandardElement.catalog.Formed := Catalog.formed_ofEntries (by decide)
  have hstart : ∀ rank < 2, start (config.forRank rank) StandardElement.catalog = .ok (fresh rank) := by
    intro rank hrank
    obtain rfl | rfl : rank = 0 ∨ rank = 1 := by omega
    · rfl
    · rfl
  have htold : ∀ rank < 2, (histories rank).filter Command.renumbers = [.create "counter" 3] := by
    intro rank hrank
    obtain rfl | rfl : rank = 0 ∨ rank = 1 := by omega
    · rfl
    · rfl
  obtain ⟨-, hcreations⟩ :=
    creations_balanced (by decide) (by decide) hfits hcatalog hstart htold
  have hbalanced : Balanced config r (.byName "counter" 6) (.ofRun ⟨4, 9, 0⟩) :=
    hcreations (.byName "counter" 6) _ rfl rfl 0 (by decide) _ rfl
  refine ⟨hfits, hcatalog, hstart, htold, hbalanced, ?_, ?_⟩
  · obtain ⟨new, hgains, hnew, -⟩ := hbalanced.shares 0 (by decide) 0 (by decide)
    exact ⟨new, hgains, hnew.trans (by decide)⟩
  · obtain ⟨new, hgains, hnew, -⟩ := hbalanced.shares 1 (by decide) 1 (by decide)
    exact ⟨new, hgains, hnew.trans (by decide)⟩

end Registry

end ElementGrid
