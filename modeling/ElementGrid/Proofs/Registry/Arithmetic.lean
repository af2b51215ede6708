import ElementGrid.Proofs.Placement.Arithmetic
import ElementGrid.Proofs.Registry.Allocation
/-!
# The arithmetic of a registry

A registry is begun, and elements are created, with the placement rule and a few sums of its own. Told
in the arithmetic that answers only where it can, both have an answer whenever a word holds the number
of virtual processes. The check of a configuration does not ask for this.

## Main definitions

* `Registry.start?`, `Registry.createById?` — beginnings and creations where they have an answer

## Main results

* `Registry.start?_eq`, `Registry.Sound.createById?_eq` — where the grid can be counted they have one
* `Registry.createById?_eq_none` — elsewhere no normal element can be created
* `Registry.grid_arithmetic` — a valid grid computes exactly if and only if it can be counted
* `Registry.grid_arithmetic_uncounted` — a valid grid that cannot
-/

namespace ElementGrid

/-- A thread that is named is one of the threads of the process. -/
def Hosting.within (threads : Nat) : Hosting → Bool
  | .nowhere => true
  | .one thread => thread < threads
  | .everywhere => true

namespace Registry

variable {E : Type} (r : Registry E)

/-! ## Beginnings and creations where they have an answer -/

/-- `freshWorkers`, if no word overflows. -/
def freshWorkers? (c : GridConfig) : Option (List (Worker E)) :=
  (List.range c.threads).mapM fun t => do
    return { generator := .ofSeed c.seed (← c.shape.toIndex? ⟨c.rank, t⟩) }

/-- `start`, if no word overflows. -/
def start? (config : GridConfig) (catalog : Catalog E) (dispatch : Dispatch) :
    Option (Except RegistryError (Registry E)) :=
  match config.check with
  | .error e => some (.error (.config e))
  | .ok () => do return .ok { config, catalog, dispatch, workers := ← freshWorkers? config }

/-- The threads that get the element, if the rule has an answer and names threads that exist. -/
def verdict? (category : Category) (gid : Nat) : Option (Nat × Hosting) := do
  let hosting ← r.shape.hosting? gid category r.config.rank
  if hosting.within r.threads then return (gid, hosting) else none

/-- A worker with the instances of those elements that its thread gets. -/
def settle (m : Model E) (verdicts : List (Nat × Hosting)) (thread : Nat) (w : Worker E) : Worker E :=
  let here := verdicts.filter fun verdict => verdict.2.includes thread
  { w with store := w.store.appendAll (here.map fun verdict => r.newNode m thread verdict.1) }

/-- `createById`, if no word overflows, the rule has a place for every element, and the thread of this
place exists. -/
def createById? (id count : Nat) : Option (Change E Collection) :=
  match r.catalog.get? id with
  | none => some ⟨.error (.unknownModelId id), r, []⟩
  | some m =>
    if count = 0 ∨ ¬ Word.Fits (r.nextGid + count) then some ⟨.error (.invalidCount count), r, []⟩
    else do
      let batch : Run := ⟨r.nextGid, ← Word.add? r.nextGid (count - 1), id⟩
      let verdicts ← batch.gids.mapM (r.verdict? m.category)
      let r' : Registry E :=
        { r with
          workers := r.workers.mapIdx (r.settle m verdicts)
          batches := r.batches ++ [batch]
          nextGid := ← Word.add? batch.last 1
          stale := true }
      return ⟨.ok (.ofRun batch), r', [.created m.name count, .localNodes r'.localCount]⟩

/-! ## Where the grid can be counted -/

variable {r} {config : GridConfig} {catalog : Catalog E}

/-- The instances that the verdicts settle are those that the rule gives to the thread. -/
theorem settle_map_hosting (r : Registry E) (m : Model E) (gids : List Nat) :
    r.settle m (gids.map fun gid => (gid, r.shape.hosting gid m.category r.config.rank)) =
      fun thread w =>
        let here := gids.filter fun gid => r.shape.hosts gid m.category ⟨r.config.rank, thread⟩
        { w with store := w.store.appendAll (here.map (r.newNode m thread)) } := by
  funext thread w
  rw [settle, List.filter_map, List.map_map]
  rfl

section Counted

variable (hfits : Word.Fits (config.processes * config.threads))
include hfits

theorem unhindered_of_valid (hconfig : config.Valid) : config.shape.Unhindered :=
  GridShape.unhindered_of_fits (g := config.shape) hconfig.1 hconfig.2.1 hfits

theorem freshWorkers?_eq (hconfig : config.Valid) :
    freshWorkers? config = some (freshWorkers (E := E) config) := by
  refine List.mapM_eq_pure_map fun t ht => ?_
  have hon : config.shape.OnGrid ⟨config.rank, t⟩ := ⟨hconfig.2.2, List.mem_range.1 ht⟩
  rw [(unhindered_of_valid hfits hconfig).toIndex _ hon]
  rfl

/-- A registry begins without overflow. -/
theorem start?_eq (dispatch : Dispatch) :
    start? config catalog dispatch = some (start config catalog dispatch) := by
  rw [start?, start]
  cases hcheck : config.check with
  | error e => rfl
  | ok _ =>
    rw [freshWorkers?_eq hfits (config.check_eq_ok_iff.1 hcheck)]
    rfl

variable (hconfig : config.Valid) (hr : Sound config catalog r)
include hconfig hr

theorem Sound.verdict?_eq (category : Category) (gid : Nat) :
    r.verdict? category gid = some (gid, r.shape.hosting gid category r.config.rank) := by
  have hshape : r.shape = config.shape := congrArg GridConfig.shape hr.config_eq
  have hwithin : (config.shape.hosting gid category r.config.rank).within r.threads = true := by
    cases hhosting : config.shape.hosting gid category r.config.rank with
    | nowhere => rfl
    | everywhere => rfl
    | one thread =>
      have hlt := GridShape.lt_threads_of_hosting hconfig.1 hconfig.2.1 hfits hhosting
      rw [Hosting.within, threads, hr.length_workers]
      exact decide_eq_true hlt
  rw [verdict?, hshape, (unhindered_of_valid hfits hconfig).hosting]
  exact if_pos hwithin

/-- A creation is carried out without overflow, and every thread that the rule names is there. -/
theorem Sound.createById?_eq (id count : Nat) :
    r.createById? id count = some (r.createById id count) := by
  rw [createById?, Registry.createById]
  cases r.catalog.get? id with
  | none => rfl
  | some m =>
    by_cases hcount : count = 0 ∨ ¬ Word.Fits (r.nextGid + count)
    · simp only [if_pos hcount]
    · obtain ⟨hpos, hnext⟩ := not_or.1 hcount
      have hnext : Word.Fits (r.nextGid + count) := not_not.1 hnext
      have hlast : Word.Fits (r.nextGid + (count - 1)) :=
        Nat.lt_of_le_of_lt (Nat.add_le_add_left (Nat.sub_le count 1) _) hnext
      have hafter : Word.Fits (r.nextGid + (count - 1) + 1) := by
        rwa [Nat.add_assoc, Nat.sub_add_cancel (Nat.one_le_iff_ne_zero.2 hpos)]
      have hverdicts : (Run.ofCount r.nextGid count id).gids.mapM (r.verdict? m.category) =
          some ((Run.ofCount r.nextGid count id).gids.map fun gid =>
            (gid, r.shape.hosting gid m.category r.config.rank)) :=
        List.mapM_eq_pure_map fun gid _ => hr.verdict?_eq hfits hconfig m.category gid
      simp only [if_neg hcount, Word.add?_of_fits hlast, Option.bind_eq_bind, Option.bind_some]
      rw [← Run.ofCount, hverdicts, Option.bind_some, Word.add?_of_fits hafter,
        settle_map_hosting]
      rfl

/-- Nothing that asks for a place comes to no answer. -/
theorem Sound.not_stops : (∀ name count, r.createStops name count = false) ∧
    ∀ gid, r.getStops gid = false := by
  have hshape : r.shape = config.shape := congrArg GridConfig.shape hr.config_eq
  have hturns : r.shape.hasTurns = true := by
    have hpos : 0 < config.processes * config.threads := Nat.mul_pos hconfig.1 hconfig.2.1
    rw [hshape, GridShape.hasTurns, config.shape.numVps_of_fits hfits]
    exact bne_iff_ne.2 (Nat.ne_of_gt hpos)
  have hplace : ∀ category, r.shape.tellsPlace category = true := by
    rintro (_ | _ | _) <;> first | exact hturns | rfl
  have hhome : ∀ category, r.shape.tellsHome category = true := by
    rintro (_ | _ | _) <;> first | exact hturns | rfl
  constructor
  · intro name count
    rw [createStops]
    cases r.catalog.lookup? name with
    | none => rfl
    | some id =>
      show r.createByIdStops id count = false
      rw [createByIdStops]
      cases r.catalog.get? id with
      | none => rfl
      | some m => simp only [hplace, Bool.not_true, Bool.and_false]
  · intro gid
    rw [getStops]
    cases r.categoryOf gid with
    | error e => rfl
    | ok category => simp only [hhome, Bool.not_true]

end Counted

/-! ## Where it cannot -/

/-- Creating normal elements overflows. -/
theorem createById?_eq_none (hfits : ¬ Word.Fits (r.config.processes * r.config.threads)) {id : Nat}
    {m : Model E} (hm : r.catalog.get? id = some m) (hnormal : m.category = .normal) {count : Nat}
    (hcount : count ≠ 0) (hnext : Word.Fits (r.nextGid + count)) : r.createById? id count = none := by
  have hverdict : ∀ gid, r.verdict? m.category gid = none := by
    intro gid
    rw [hnormal, verdict?, GridShape.hosting?, GridShape.place?, GridShape.turn?]
    rw [GridShape.vpForOrdinal?_of_not_fits (g := r.shape) hfits]
    rfl
  have hlast : Word.Fits (r.nextGid + (count - 1)) :=
    Nat.lt_of_le_of_lt (Nat.add_le_add_left (Nat.sub_le count 1) _) hnext
  have hgids : (Run.ofCount r.nextGid count id).gids =
      r.nextGid :: List.range' (r.nextGid + 1) (count - 1) := by
    rw [Run.gids_ofCount _ _ hcount]
    obtain ⟨n, rfl⟩ := Nat.exists_eq_succ_of_ne_zero hcount
    rfl
  have hnot : ¬ (count = 0 ∨ ¬ Word.Fits (r.nextGid + count)) :=
    not_or.2 ⟨hcount, not_not.2 hnext⟩
  rw [createById?, hm]
  simp only [if_neg hnot, Word.add?_of_fits hlast, Option.bind_eq_bind, Option.bind_some]
  rw [← Run.ofCount, hgids, List.mapM_cons, hverdict]
  rfl

/-! ## Valid grids -/

/-- A valid configuration computes exactly if and only if a word holds the number of virtual processes.
If it does, no operation of the placement rule overflows or divides by zero, and the rule, told with
words, is the rule of the natural numbers; so registries begin, and create elements, without overflow
and on threads that are there. If it does not, then either there are no turns to take or some
ordinal is placed wrongly, and the creation of a normal element overflows. -/
theorem grid_arithmetic [Element E] {config : GridConfig} (hcheck : config.check = .ok ()) :
    let g := config.shape
    let counted := Word.Fits (config.processes * config.threads)
    (g.Exact ↔ counted) ∧ (g.Unhindered ↔ counted) ∧
    (counted → ∀ (catalog : Catalog E) (dispatch : Dispatch),
      start? config catalog dispatch = some (start config catalog dispatch) ∧
      (catalog.Formed → ∀ r, Reachable config catalog dispatch r →
        (∀ id count, r.createById? id count = some (r.createById id count)) ∧
        (∀ name count, r.createStops name count = false) ∧ ∀ gid, r.getStops gid = false)) ∧
    (¬ counted →
      (g.hasTurns = false ∨ ∃ ordinal, Word.Fits ordinal ∧
        g.vpForOrdinal ordinal ≠ ordinal % (config.processes * config.threads)) ∧
      ∀ r : Registry E, r.config = config → ∀ id m, r.catalog.get? id = some m →
        m.category = .normal → ∀ count, count ≠ 0 → Word.Fits (r.nextGid + count) →
          r.createById? id count = none) := by
  intro g counted
  have hconfig : config.Valid := config.check_eq_ok_iff.1 hcheck
  refine ⟨GridShape.exact_iff, ⟨fun h => ?counted, fun hfits => unhindered_of_valid hfits hconfig⟩,
    fun hfits catalog dispatch => ⟨start?_eq hfits dispatch, fun hformed r hr => ?created⟩,
    fun hfits => ⟨GridShape.stops_or_misplaces hfits, fun r hr id m hm hnormal count => ?refused⟩⟩
  case counted =>
    by_contra hfits
    have hnone := GridShape.numVps?_of_not_fits (g := g) hfits
    rw [h.numVps] at hnone
    cases hnone
  case created =>
    have hsound := hr.sound hformed.numbered
    exact ⟨hsound.createById?_eq hfits hconfig, hsound.not_stops hfits hconfig⟩
  case refused =>
    subst hr
    exact createById?_eq_none hfits hm hnormal

/-- A grid of three processes with as many threads as can be counted. The last of its virtual processes
has the last number but one, and the last ordinal takes the first turn again. -/
theorem grid_arithmetic_largest :
    let config : GridConfig := { processes := 3, threads := 6148914691236517205, rank := 2 }
    config.check = .ok () ∧ config.processes * config.threads + 1 = Word.modulus ∧
      config.shape.numVps? = some 18446744073709551615 ∧
      config.shape.toIndex? ⟨2, 6148914691236517204⟩ = some 18446744073709551614 ∧
      config.shape.place? 18446744073709551615 .normal = some (.single ⟨0, 0⟩) := by
  intro config
  have hcheck : config.check = .ok () := config.check_eq_ok_iff.2 (by decide)
  have hcounted : Word.Fits (config.processes * config.threads) := by decide
  obtain ⟨-, hunhindered, -, -⟩ := grid_arithmetic (E := StandardElement) hcheck
  have h := hunhindered.2 hcounted
  have hon : config.shape.OnGrid ⟨2, 6148914691236517204⟩ := ⟨by decide, by decide⟩
  exact ⟨hcheck, by decide, h.numVps.trans (by decide), (h.toIndex _ hon).trans (by decide),
    (h.place 18446744073709551615 .normal).trans (by decide)⟩

/-- A valid grid of two to the power of sixty-three processes with two threads each: as a word, the
number of its virtual processes is zero. Its registries begin, and the first element that is created
stops them. -/
theorem grid_arithmetic_uncounted :
    let config : GridConfig := { processes := 9223372036854775808, threads := 2, rank := 1 }
    config.check = .ok () ∧ ¬ config.shape.Exact ∧ ¬ config.shape.Unhindered ∧
      config.shape.numVps = 0 ∧
      ∃ r, start config StandardElement.catalog = .ok r ∧ r.createStops "counter" 1 = true := by
  intro config
  have hcounted : ¬ Word.Fits (config.processes * config.threads) := by decide
  have hvalid : config.Valid := by decide
  refine ⟨config.check_eq_ok_iff.2 hvalid, mt GridShape.exact_iff.1 hcounted, fun h => ?_, by decide,
    _, start_eq_ok_iff.2 ⟨hvalid, rfl⟩, ?_⟩
  · cases h.numVps.symm.trans (GridShape.numVps?_of_not_fits hcounted)
  · decide

end Registry

end ElementGrid
