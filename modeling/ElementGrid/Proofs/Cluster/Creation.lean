import ElementGrid.Cluster
import ElementGrid.Proofs.Registry.Allocation
/-!
# Creations on all processes

The processes of a cluster differ in their ranks only. Whether a creation is carried out, and which numbers
it gives out, does not depend on the rank, so all processes carry out the same creations, give out the same
numbers, and agree.

## Main definitions

* `Cluster.Uniform` — what holds of a cluster at any time
* `Cluster.createAll` — a list of creations, each carried out or refused
* `Cluster.Given` — one of the creations gave out a number, to an element of a category

## Main results

* `Cluster.Uniform.create` — a creation is carried out by all processes alike, or by none
* `Cluster.Uniform.createAll` — the numbers that a list of creations gives out
-/

namespace ElementGrid

variable {E : Type} {catalog : Catalog E}

/-! ## Names of models -/

theorem Catalog.Formed.distinct (h : catalog.Formed) : catalog.Distinct := by
  induction h with
  | empty => exact List.nodup_nil
  | @register c c' name category prototype _ hregister ih =>
    rw [Catalog.register] at hregister
    split at hregister
    · cases hregister
    · rename_i hfree
      cases hregister
      rw [Distinct, List.map_append, List.nodup_append]
      refine ⟨ih, by simp, ?_⟩
      intro a ha b hb heq
      obtain ⟨m, hm, rfl⟩ := List.mem_map.1 ha
      obtain rfl : b = name := by simpa using hb
      simp only [Catalog.lookup?, Option.isSome_map, Bool.not_eq_true, Option.isSome_eq_false_iff,
        Option.isNone_iff_eq_none, List.find?_eq_none] at hfree
      exact absurd heq (beq_eq_false_iff_ne.1 (hfree m hm))

/-- The number of a name is that of the one model with the name. -/
theorem Catalog.Formed.get?_of_lookup? (h : catalog.Formed) {name : String} {id : Nat}
    (hid : catalog.lookup? name = some id) :
    ∃ m ∈ catalog.models, m.name = name ∧ m.id = id ∧ catalog.get? id = some m := by
  obtain ⟨m, hm, rfl⟩ := Option.map_eq_some_iff.1 hid
  have hmem := List.mem_of_find?_eq_some hm
  obtain ⟨i, hi⟩ := List.getElem?_of_mem hmem
  exact ⟨m, hmem, by simpa using List.find?_some hm, rfl, by rwa [h.numbered i m hi]⟩

theorem Catalog.Formed.eq_of_name (h : catalog.Formed) {m m' : Model E} (hm : m ∈ catalog.models)
    (hm' : m' ∈ catalog.models) (hname : m.name = m'.name) : m = m' :=
  List.inj_on_of_nodup_map h.distinct hm hm' hname

/-! ## One process -/

/-- Whether a creation is carried out, and what it gives out, is up to the catalog and the next number. -/
theorem Registry.create_cases (hcatalog : catalog.Formed) (next : Nat) (name : String) (count : Nat) :
    (∃ e, ∀ r : Registry E, r.catalog = catalog → r.nextGid = next →
      r.create name count = ⟨.error e, r, []⟩) ∨
    ∃ m ∈ catalog.models, m.name = name ∧ catalog.get? m.id = some m ∧
      ∀ r : Registry E, r.catalog = catalog → r.nextGid = next →
        (r.create name count).result = .ok (.ofRun (.ofCount next count m.id)) ∧
        (r.create name count).registry = r.withBatch m (.ofCount next count m.id) := by
  cases hid : catalog.lookup? name with
  | none =>
    refine .inl ⟨.unknownModel name, ?_⟩
    rintro r rfl rfl
    rw [create, hid]
  | some id =>
    obtain ⟨m, hm, hname, rfl, hget⟩ := hcatalog.get?_of_lookup? hid
    -- Neither the count nor the room that is left for numbers depends on the rank.
    by_cases hcount : count = 0 ∨ ¬ Word.Fits (next + count)
    · refine .inl ⟨.invalidCount count, ?_⟩
      rintro r rfl rfl
      rw [create, hid]
      simp only [createById, hget, if_pos hcount]
    · refine .inr ⟨m, hm, hname, hget, ?_⟩
      rintro r rfl rfl
      rw [create, hid]
      simp only [createById, hget, if_neg hcount, and_self]

namespace Cluster

/-! ## All processes -/

theorem createEach_of_refused {name : String} {count : Nat} {rs : List (Registry E)} {e : RegistryError}
    (hne : rs ≠ []) (h : ∀ r ∈ rs, r.create name count = ⟨.error e, r, []⟩) :
    createEach name count rs = (rs, .error e, []) := by
  cases rs with
  | nil => exact absurd rfl hne
  | cons r rs =>
    rw [createEach, h r List.mem_cons_self]

theorem createEach_of_made {name : String} {count : Nat} {rs : List (Registry E)} {made : Collection}
    (h : ∀ r ∈ rs, (r.create name count).result = .ok made) :
    (createEach name count rs).1 = rs.map (fun r => (r.create name count).registry) ∧
      (createEach name count rs).2.1 = .ok (rs.map fun _ => made) := by
  induction rs with
  | nil => exact ⟨rfl, rfl⟩
  | cons r rs ih =>
    obtain ⟨hr, hrs⟩ := List.forall_mem_cons.1 h
    obtain ⟨hregistries, hmade⟩ := ih hrs
    simp only [createEach, hr, hregistries, hmade, List.map_cons]
    exact ⟨trivial, rfl⟩

theorem agreed_of_same {α : Type} {l : List α} (hne : l ≠ []) (made : Collection) :
    agreed (l.map fun _ => made) = .ok made := by
  cases l with
  | nil => exact absurd rfl hne
  | cons a l => simp [agreed]

/-- What holds of a cluster at any time: its processes are sound and have carried out the same creations. -/
structure Uniform (config : GridConfig) (catalog : Catalog E) (batches : List Run) (next : Nat)
    (c : Cluster E) : Prop where
  length : c.registries.length = config.processes
  sound : ∀ (rank : Nat) (r : Registry E), c.registries[rank]? = some r →
    Registry.Sound (config.forRank rank) catalog r
  batches_eq : ∀ r ∈ c.registries, r.batches = batches
  next_eq : ∀ r ∈ c.registries, r.nextGid = next

/-- The cluster after a list of creations, each carried out or refused. -/
def createAll (c : Cluster E) (creations : List (String × Nat)) : Cluster E :=
  creations.foldl (fun c creation => (c.create creation.1 creation.2).cluster) c

/-- A creation gives out the number, to an element of the category. -/
def Gives (c : Cluster E) (catalog : Catalog E) (creation : String × Nat) (gid : Nat)
    (category : Category) : Prop :=
  ∃ made m, (c.create creation.1 creation.2).result = .ok made ∧ gid ∈ made.gids ∧
    m ∈ catalog.models ∧ m.name = creation.1 ∧ m.category = category

/-- One of a list of creations gives out the number, to an element of the category. -/
def Given (c : Cluster E) (catalog : Catalog E) (creations : List (String × Nat)) (gid : Nat)
    (category : Category) : Prop :=
  ∃ pre creation post, creations = pre ++ creation :: post ∧
    (c.createAll pre).Gives catalog creation gid category

variable {c : Cluster E} {gid : Nat} {category : Category}

theorem given_nil : ¬ c.Given catalog [] gid category := by
  rintro ⟨pre, creation, post, heq, -⟩
  simp at heq

theorem given_cons {creation : String × Nat} {rest : List (String × Nat)} :
    c.Given catalog (creation :: rest) gid category ↔ c.Gives catalog creation gid category ∨
      (c.create creation.1 creation.2).cluster.Given catalog rest gid category := by
  constructor
  · rintro ⟨_ | ⟨first, pre⟩, creation', post, heq, hgives⟩
    · cases heq
      exact .inl hgives
    · cases heq
      exact .inr ⟨pre, creation', post, rfl, hgives⟩
  · rintro (hgives | ⟨pre, creation', post, rfl, hgives⟩)
    · exact ⟨[], creation, rest, rfl, hgives⟩
    · exact ⟨creation :: pre, creation', post, rfl, hgives⟩

/-- One of the runs holds the number, and its model is of the category. -/
def Belongs (catalog : Catalog E) (batches : List Run) (gid : Nat) (category : Category) : Prop :=
  ∃ b ∈ batches, b.contains gid = true ∧ ∃ m, catalog.get? b.model = some m ∧ m.category = category

theorem belongs_cons {b : Run} {bs : List Run} : Belongs catalog (b :: bs) gid category ↔
    (b.contains gid = true ∧ ∃ m, catalog.get? b.model = some m ∧ m.category = category) ∨
      Belongs catalog bs gid category :=
  List.exists_mem_cons_iff _ _ _

/-- A creation that is carried out gives out the numbers of its run, to elements of its model. -/
theorem gives_of_made (hcatalog : catalog.Formed) {creation : String × Nat} {m : Model E} {b : Run}
    (hm : m ∈ catalog.models) (hname : m.name = creation.1) (hget : catalog.get? b.model = some m)
    (hresult : (c.create creation.1 creation.2).result = .ok (.ofRun b)) :
    c.Gives catalog creation gid category ↔
      b.contains gid = true ∧ ∃ m, catalog.get? b.model = some m ∧ m.category = category := by
  have hmem : gid ∈ (Collection.ofRun b).gids ↔ b.contains gid = true := by
    rw [Collection.gids_ofRun, Run.mem_gids]
  constructor
  · rintro ⟨made, m', hmade, hgid, hm', hname', rfl⟩
    rw [hresult] at hmade
    cases hmade
    obtain rfl := hcatalog.eq_of_name hm hm' (hname.trans hname'.symm)
    exact ⟨hmem.1 hgid, m, hget, rfl⟩
  · rintro ⟨hgid, m', hm', rfl⟩
    rw [hget] at hm'
    cases hm'
    exact ⟨_, m, hresult, hmem.2 hgid, hm, hname, rfl⟩

namespace Uniform

variable {config : GridConfig} {batches : List Run} {next : Nat}

theorem catalog_eq (hc : Uniform config catalog batches next c) {r : Registry E}
    (hr : r ∈ c.registries) : r.catalog = catalog := by
  obtain ⟨rank, hrank⟩ := List.getElem?_of_mem hr
  exact (hc.sound rank r hrank).catalog_eq

theorem registries_ne_nil (hc : Uniform config catalog batches next c) (hpos : 0 < config.processes) :
    c.registries ≠ [] :=
  List.ne_nil_of_length_pos (hc.length ▸ hpos)

/-- A creation is carried out by all processes alike, or by none of them. -/
theorem create (hc : Uniform config catalog batches next c) (hcatalog : catalog.Formed)
    (hpos : 0 < config.processes) (name : String) (count : Nat) :
    (∃ e, (c.create name count).result = .error (.registry e) ∧ (c.create name count).cluster = c) ∨
    ∃ m ∈ catalog.models, m.name = name ∧ catalog.get? m.id = some m ∧
      (c.create name count).result = .ok (.ofRun (.ofCount next count m.id)) ∧
      Uniform config catalog (batches ++ [.ofCount next count m.id])
        ((Run.ofCount next count m.id).last + 1) (c.create name count).cluster := by
  have hne := hc.registries_ne_nil hpos
  rcases Registry.create_cases hcatalog next name count with ⟨e, he⟩ | ⟨m, hm, hname, hget, hmade⟩
  · have heach : createEach name count c.registries = (c.registries, .error e, []) :=
      createEach_of_refused hne fun r hr => he r (hc.catalog_eq hr) (hc.next_eq r hr)
    refine .inl ⟨e, ?_, ?_⟩
    · rw [Cluster.create, heach]
      rfl
    · rw [Cluster.create, heach]
  · have hmade : ∀ r ∈ c.registries, _ := fun r hr => hmade r (hc.catalog_eq hr) (hc.next_eq r hr)
    obtain ⟨hregistries, hresult⟩ := createEach_of_made fun r hr => (hmade r hr).1
    have hcluster : (c.create name count).cluster.registries =
        c.registries.map fun r => (r.create name count).registry := hregistries
    refine .inr ⟨m, hm, hname, hget, ?result, ?length, ?sound, ?batches, ?next⟩
    case result =>
      simp only [Cluster.create, hresult]
      exact agreed_of_same hne _
    case length => rw [hcluster, List.length_map, hc.length]
    case sound =>
      intro rank r' hr'
      rw [hcluster, List.getElem?_map] at hr'
      obtain ⟨r, hr, rfl⟩ := Option.map_eq_some_iff.1 hr'
      exact (hc.sound rank r hr).create hcatalog.numbered name count
    case batches =>
      intro r' hr'
      rw [hcluster] at hr'
      obtain ⟨r, hr, rfl⟩ := List.mem_map.1 hr'
      rw [(hmade r hr).2, ← hc.batches_eq r hr]
      rfl
    case next =>
      intro r' hr'
      rw [hcluster] at hr'
      obtain ⟨r, hr, rfl⟩ := List.mem_map.1 hr'
      rw [(hmade r hr).2]
      rfl

/-- The numbers that a list of creations gives out are those of the runs that it adds on every process. -/
theorem createAll (hc : Uniform config catalog batches next c) (hcatalog : catalog.Formed)
    (hpos : 0 < config.processes) (creations : List (String × Nat)) :
    ∃ added next', Uniform config catalog (batches ++ added) next' (c.createAll creations) ∧
      ∀ gid category, c.Given catalog creations gid category ↔ Belongs catalog added gid category := by
  induction creations generalizing c batches next with
  | nil =>
    refine ⟨[], next, by rwa [List.append_nil], fun gid category => ?_⟩
    exact ⟨fun h => absurd h given_nil, by rintro ⟨b, hb, -⟩; cases hb⟩
  | cons creation rest ih =>
    obtain ⟨name, count⟩ := creation
    rcases hc.create hcatalog hpos name count with
      ⟨e, hresult, hcluster⟩ | ⟨m, hm, hname, hget, hresult, hcluster⟩
    · obtain ⟨added, next', huniform, hgiven⟩ := ih hc
      refine ⟨added, next', ?_, fun gid category => ?_⟩
      · show Uniform _ _ _ _ (Cluster.createAll (c.create name count).cluster rest)
        rwa [hcluster]
      -- What is refused leaves the cluster as it is and gives nothing out.
      · rw [given_cons, ← hgiven, hcluster]
        refine or_iff_right ?_
        rintro ⟨made, m, hmade, -⟩
        rw [hresult] at hmade
        cases hmade
    · obtain ⟨added, next', huniform, hgiven⟩ := ih hcluster
      refine ⟨.ofCount next count m.id :: added, next', ?_, fun gid category => ?_⟩
      · rwa [List.append_assoc] at huniform
      · rw [given_cons, gives_of_made hcatalog hm hname hget hresult, hgiven]
        exact belongs_cons.symm

end Uniform

/-- A cluster of a valid shape starts without elements. -/
theorem exists_start {processes threads : Nat} (hprocesses : 0 < processes) (hthreads : 0 < threads)
    (catalog : Catalog E) :
    ∃ fresh, start processes threads catalog = .ok fresh ∧
      Uniform { processes, threads } catalog [] Gid.first fresh := by
  let config : GridConfig := { processes, threads }
  let registry (rank : Nat) : Registry E :=
    { config := config.forRank rank, catalog, workers := Registry.freshWorkers (config.forRank rank) }
  have hcheck : ∀ rank < processes, (config.forRank rank).check = .ok () :=
    fun rank hrank => (config.forRank rank).check_eq_ok_iff.2 ⟨hprocesses, hthreads, hrank⟩
  have hconfig : config.check = .ok () := hcheck 0 hprocesses
  have hregistries : ((List.range processes).mapM fun rank =>
      Registry.start (config.forRank rank) catalog) = .ok ((List.range processes).map registry) := by
    refine List.mapM_eq_pure_map fun rank hrank => ?_
    rw [Registry.start, hcheck rank (List.mem_range.1 hrank)]
    rfl
  refine ⟨⟨(List.range processes).map registry, .ofSize processes⟩,
    Except.bind_eq_ok_iff.2 ⟨(), Except.mapError_eq_ok_iff.2 hconfig,
      Except.bind_eq_ok_iff.2 ⟨_, hregistries, rfl⟩⟩, ?length, ?sound, ?batches, ?next⟩
  case length => rw [List.length_map, List.length_range]
  case sound =>
    intro rank r hr
    obtain ⟨hrank, rfl⟩ := List.getElem?_eq_some_iff.1 hr
    rw [List.getElem_map, List.getElem_range]
    exact Registry.sound_fresh _ catalog .inTurn
  case batches =>
    intro r hr
    obtain ⟨_, -, rfl⟩ := List.mem_map.1 hr
    rfl
  case next =>
    intro r hr
    obtain ⟨_, -, rfl⟩ := List.mem_map.1 hr
    rfl

end Cluster

end ElementGrid
