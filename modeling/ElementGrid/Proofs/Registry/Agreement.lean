import ElementGrid.Element.Catalogs
import ElementGrid.Proofs.Exchange.Succession
import ElementGrid.Proofs.Registry.Seats
/-!
# Agreement on waveform relaxation

Each process looks only at its own instances, and yet all come to the same answer, which is also what
each registry remembers from then on: a process that finds nothing itself does not keep what it found.
The round in which they agree may follow any others, from which some processes are back before the rest.

## Main definitions

* `Registry.Relaxes` — some instance of the process takes part

## Main results

* `Exchange.anySet_of_flags` — some flag is set in a round if some process has set its own
* `Registry.checkRelaxation_iff` — what a process finds itself
* `Registry.relaxation_agreed` — what all processes agree on
-/

namespace ElementGrid

/-- What a process contributes for its flag. -/
def Exchange.flagPart (flag : Bool) : Bytes := [if flag then 1 else 0]

/-- Some flag is set in a round if some process has set its own. -/
theorem Exchange.anySet_of_flags {flags : List Bool} {g : Gathered}
    (h : Gathered.ofContributions (flags.map flagPart) = .ok g) : anySet g = flags.any id := by
  have hparts := Gathered.map_snd_of_ofContributions h
  have hflag : ∀ flag, (flagPart flag).any (· != 0) = flag := by decide
  calc anySet g
    _ = (g.contributions.map Prod.snd).any fun part => part.any (· != 0) := by
      rw [List.any_map]
      rfl
    _ = (flags.map flagPart).any fun part => part.any (· != 0) := by rw [hparts]
    _ = flags.any id := by
      rw [List.any_map]
      congr 1
      funext flag
      exact hflag flag

namespace Registry

variable {E : Type} [Element E]

/-- Some instance of the process takes part. -/
def Relaxes (r : Registry E) : Prop :=
  ∃ w ∈ r.workers, ∃ n ∈ w.store.nodes, Element.usesRelaxation n.element = true

theorem checkRelaxation_iff (r : Registry E) : r.checkRelaxation.1 = true ↔ r.Relaxes := by
  have hflags : r.dispatch.mapPartitions (fun _ w => w.usesRelaxation) r.workers =
      r.workers.map Worker.usesRelaxation := by
    refine List.ext_getElem? fun t => ?_
    rw [Dispatch.mapPartitions, List.getElem?_mapIdx, List.getElem?_map]
  show (r.dispatch.mapPartitions (fun _ w => w.usesRelaxation) r.workers).any id = true ↔ _
  rw [hflags, List.any_map, List.any_eq_true]
  exact exists_congr fun w => and_congr_right fun _ => List.any_eq_true

/-- What a registry comes to if all processes agree. -/
def agreeing (agreed : Bool) (r : Registry E) : Change E Bool :=
  ⟨.ok agreed, { r with relaxationUsed := agreed }, []⟩

/-- Whoever asks takes part in one round and takes over what the others say. -/
theorem attends_checkRelaxationGlobal (r : Registry E) (g : Gathered) :
    Attends (.ok g) (Exchange.flagPart r.checkRelaxation.1) (agreeing (Exchange.anySet g) r)
      r.checkRelaxationGlobal :=
  ⟨_, rfl, rfl⟩

/-! ## All processes -/

section Grid

variable (registries : List (Registry E)) (earlier : List (Nat → Bytes))

/-- What each process contributes to the earlier rounds and then for its flag. -/
def contributions : List (List Bytes) :=
  registries.mapIdx fun rank r =>
    earlier.map (· rank) ++ [Exchange.flagPart r.checkRelaxation.1]

/-- What comes of the last round is made of the flags. -/
theorem comes_contributions : comes (contributions registries earlier) earlier.length =
    Gathered.ofContributions ((registries.map fun r => r.checkRelaxation.1).map Exchange.flagPart) := by
  refine congrArg Gathered.ofContributions (List.ext_getElem? fun rank => ?_)
  rw [contributions, List.getElem?_map, List.getElem?_mapIdx, List.getElem?_map, List.getElem?_map,
    Option.map_map, Option.map_map]
  refine congrArg (Option.map · registries[rank]?) (funext fun r => ?_)
  simp

/-- All processes go through the earlier rounds and then through the one in which they agree. -/
theorem succession_checkRelaxationGlobal {agreed : Bool}
    (hagreed : agreed = registries.any fun r => r.checkRelaxation.1) :
    Succession (contributions registries earlier)
      ((List.range (earlier.length + 1)).map (comes (contributions registries earlier)))
      (registries.map (agreeing agreed)) []
      (Session.ofPrograms (.ofSize registries.length)
        (registries.mapIdx fun rank r =>
          r.checkRelaxationGlobal.following (earlier.map (· rank)))) := by
  have hlength : registries.length = (contributions registries earlier).length := by
    rw [contributions, List.length_mapIdx]
  rw [hlength]
  refine Succession.start (by rw [List.length_mapIdx, hlength]) ?_ ?_
  · intro round x hx
    rw [List.getElem?_map, Option.map_eq_some_iff] at hx
    obtain ⟨_, hround, rfl⟩ := hx
    obtain ⟨_, rfl⟩ := List.getElem?_eq_some_iff.1 hround
    rw [List.getElem_range]
  · intro rank program hprogram
    rw [List.getElem?_mapIdx, Option.map_eq_some_iff] at hprogram
    obtain ⟨r, hr, rfl⟩ := hprogram
    have hne : (registries.map fun r => r.checkRelaxation.1).map Exchange.flagPart ≠ [] := by
      have hmem := List.mem_of_getElem? hr
      simp [List.ne_nil_of_mem hmem]
    have hg := Gathered.ofContributions_eq_ok hne
    have hany := Exchange.anySet_of_flags hg
    rw [List.any_map, Function.id_comp] at hany
    rw [← comes_contributions registries earlier] at hg
    refine ⟨_, agreeing agreed r, by rw [contributions, List.getElem?_mapIdx, hr]; rfl,
      by rw [List.getElem?_map, hr]; rfl, ?_⟩
    rw [List.range_succ, List.map_append, List.map_singleton, hg, hagreed, ← hany]
    exact (Follows.of_attends (attends_checkRelaxationGlobal r _)).following (by simp)

end Grid

/-- Whatever the processes went through, and however their turns are mixed with one another and with
those of earlier rounds: who comes to its end has the same answer as all others, remembers it and has
changed nothing else, and the answer is whether an instance on some process takes part. Nobody tears the
group down, and all are over after two passes over all processes for each round. -/
theorem relaxation_agreed (registries : List (Registry E)) (earlier : List (Nat → Bytes)) :
    let session := Session.ofPrograms (.ofSize registries.length)
      (registries.mapIdx fun rank r =>
        r.checkRelaxationGlobal.following (earlier.map (· rank)))
    ∃ agreed : Bool, (agreed = true ↔ ∃ r ∈ registries, r.Relaxes) ∧
      (∀ schedule, (session.run schedule).group.aborted = none ∧
        ∀ (rank : Nat) p o, (session.run schedule).participants[rank]? = some p →
          Session.result? p = some o → ∃ r, registries[rank]? = some r ∧
            o = ⟨.ok agreed, { r with relaxationUsed := agreed }, []⟩) ∧
      ∀ passes : List (List Nat), 2 * (earlier.length + 1) ≤ passes.length →
        (∀ pass ∈ passes, ∀ rank < registries.length, rank ∈ pass) →
        (session.run passes.flatten).results? = some (registries.map fun r =>
          ⟨.ok agreed, { r with relaxationUsed := agreed }, []⟩) := by
  intro session
  have hsize : registries.length = (contributions registries earlier).length := by
    rw [contributions, List.length_mapIdx]
  have hstart := succession_checkRelaxationGlobal registries earlier rfl
  refine ⟨registries.any fun r => r.checkRelaxation.1, ?_,
    fun schedule => ⟨(hstart.run schedule).aborted_eq, fun rank p o hp ho => ?_⟩,
    fun passes hlength hpasses => ?_⟩
  · rw [List.any_eq_true]
    exact exists_congr fun r => and_congr_right fun _ => r.checkRelaxation_iff
  · have hvalue := (hstart.run schedule).result_eq hp ho
    rw [List.getElem?_map, Option.map_eq_some_iff] at hvalue
    obtain ⟨r, hr, rfl⟩ := hvalue
    exact ⟨r, hr, rfl⟩
  · refine hstart.results (by rw [List.length_map, hsize]) (hsize ▸ hpasses) ?_
    rw [List.length_map, List.length_range]
    exact hlength

/-- Of three processes only the second one hosts an instance that takes part. They have met before, and
the third one comes to the last round before the first one has woken up. -/
theorem relaxation_agreed_three :
    ∃ registries : List (Registry StandardElement), registries.length = 3 ∧
      (∀ (rank : Nat) r, registries[rank]? = some r → Reachable
        (({ processes := 3, threads := 1 } : GridConfig).forRank rank) StandardElement.catalog
        .inTurn r) ∧
      registries.map (fun r => r.checkRelaxation.1) = [false, true, false] ∧
      let session := Session.ofPrograms (.ofSize 3) (registries.mapIdx fun rank r =>
        r.checkRelaxationGlobal.following [[UInt8.ofNat rank, 7]])
      (session.run [0, 1, 2, 2, 1, 0, 0, 1, 2, 1, 0, 2]).results? =
        some (registries.map fun r => ⟨.ok true, { r with relaxationUsed := true }, []⟩) := by
  obtain ⟨r, hr, hused⟩ : ∃ r, Reachable { processes := 3, threads := 1, rank := 0 }
      StandardElement.catalog .inTurn r ∧ r.checkRelaxation.1 = false :=
    ⟨_, ⟨_, [.create "relaxing" 1, .create "counter" 1], rfl, rfl⟩, rfl⟩
  obtain ⟨r', hr', hused'⟩ : ∃ r, Reachable { processes := 3, threads := 1, rank := 1 }
      StandardElement.catalog .inTurn r ∧ r.checkRelaxation.1 = true :=
    ⟨_, ⟨_, [.create "relaxing" 1, .create "counter" 1], rfl, rfl⟩, rfl⟩
  obtain ⟨r'', hr'', hused''⟩ : ∃ r, Reachable { processes := 3, threads := 1, rank := 2 }
      StandardElement.catalog .inTurn r ∧ r.checkRelaxation.1 = false :=
    ⟨_, ⟨_, [.create "relaxing" 1, .create "counter" 1], rfl, rfl⟩, rfl⟩
  have hpasses : ∀ pass ∈ [[0, 1, 2], [2, 1, 0], [0, 1, 2], [1, 0, 2]], ∀ rank < 3, rank ∈ pass := by
    decide
  obtain ⟨agreed, hagreed, -, hover⟩ := relaxation_agreed [r, r', r''] [fun rank => [UInt8.ofNat rank, 7]]
  obtain rfl : agreed = true := hagreed.2 ⟨r', by simp, r'.checkRelaxation_iff.1 hused'⟩
  refine ⟨[r, r', r''], rfl, fun rank s hs => ?_, by simp [hused, hused', hused''], ?_⟩
  · match rank, hs with
    | 0, rfl => exact hr
    | 1, rfl => exact hr'
    | 2, rfl => exact hr''
  · exact hover [[0, 1, 2], [2, 1, 0], [0, 1, 2], [1, 0, 2]] (by decide) hpasses

end Registry

end ElementGrid
