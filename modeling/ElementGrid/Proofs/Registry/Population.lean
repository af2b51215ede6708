import ElementGrid.Element.Catalogs
import ElementGrid.Proofs.Registry.Instances
import ElementGrid.Proofs.Registry.Numbering
/-!
# What threads know of the population

A thread hears of an element when it is given an instance, or when all threads are brought up to date. So
it never knows of more elements than there are, but it may know of fewer; whether that can be is what the
registry remembers from a creation on until the threads are brought up to date. Places are trusted only
in between, though an instance keeps its place and its number all the time.

## Main definitions

* `Registry.known` — the greatest number that each thread knows of
* `Registry.CreatedSince` — elements were created since the threads were last brought up to date
* `Registry.Informed` — no thread knows of too much, nor of too little unless that is remembered

## Main results

* `Registry.stale_run_iff` — what the registry remembers is what happened
* `Registry.informed_run` — what the threads know in every state
* `Registry.known_le_run`, `Registry.seatAt?_run` — what no command but a reset takes back
* `Registry.population_exact` — what threads know, and when and to what places lead
-/

namespace ElementGrid

variable {E : Type}

/-! ## Threads that hear of nothing new -/

namespace Store

variable (s : Store E)

theorem maxGid_modify (gid : Nat) (f : Node E → Node E) : (s.modify gid f).maxGid = s.maxGid := by
  rw [modify]
  split <;> rfl

/-- A store forgets nothing when it is given instances, and hears of these alone. -/
theorem maxGid_le_appendAll (ns : List (Node E)) : s.maxGid ≤ (s.appendAll ns).maxGid := by
  induction ns generalizing s with
  | nil => exact Nat.le_refl _
  | cons n ns ih => exact Nat.le_trans (Nat.le_max_left _ _) (ih (s.append n))

theorem maxGid_appendAll_le {bound : Nat} (hs : s.maxGid ≤ bound) {ns : List (Node E)}
    (hns : ∀ n ∈ ns, n.gid ≤ bound) : (s.appendAll ns).maxGid ≤ bound := by
  induction ns generalizing s with
  | nil => exact hs
  | cons n ns ih =>
    rw [List.forall_mem_cons] at hns
    exact ih (s.append n) (Nat.max_le.2 ⟨hs, hns.1⟩) hns.2

end Store

namespace Worker

theorem maxGid_visitOne (visit : Visit E Unit) (gid : Nat) (tally : Tally) (w : Worker E) :
    (w.visitOne visit gid tally).2.store.maxGid = w.store.maxGid := by
  rw [visitOne]
  split
  · rfl
  · exact w.store.maxGid_modify gid _

theorem maxGid_repartition [Element E] (size : Nat) (w : Worker E) :
    (w.repartition size).2.store.maxGid = w.store.maxGid := by
  simp only [repartition]
  split <;> rfl

end Worker

namespace Registry

variable {r r' : Registry E}

/-- The greatest number that each thread knows of. -/
def known (r : Registry E) : List Nat := r.workers.map fun w => w.store.maxGid

/-- Threads that are changed one by one know what they knew if none hears of anything new. -/
theorem known_eq_of_getElem? {f : Nat → Worker E → Worker E}
    (hworkers : ∀ t, r'.workers[t]? = (r.workers[t]?).map (f t))
    (hf : ∀ t w, (f t w).store.maxGid = w.store.maxGid) : r'.known = r.known := by
  refine List.ext_getElem? fun t => ?_
  rw [known, known, List.getElem?_map, List.getElem?_map, hworkers, Option.map_map]
  exact congrArg (Option.map · r.workers[t]?) (funext (hf t))

theorem known_modifyLocal {α : Type} (r : Registry E) (gid thread : Nat) (f : Node E → α × Node E) :
    (r.modifyLocal gid thread f).registry.known = r.known := by
  by_cases hlocal : ∃ n, r.localNode gid thread = .ok n
  · obtain ⟨n, hn⟩ := hlocal
    refine known_eq_of_getElem? (getElem?_modifyLocal hn) fun t w => ?_
    split
    · exact w.store.maxGid_modify gid _
    · rfl
  · rw [modifyLocal_of_refused fun n hn => hlocal ⟨n, hn⟩]

variable [Element E]

theorem known_sweep (r : Registry E) (phase : Phase) : (r.sweep phase).2.known = r.known :=
  known_eq_of_getElem? (getElem?_sweep r phase) fun _ _ => rfl

theorem known_initState (r : Registry E) (gid : Nat) : (r.initState gid).registry.known = r.known := by
  rcases hid : r.modelOf gid with e | id
  · rw [initState, hid]
  · exact known_eq_of_getElem? (getElem?_initState hid) fun _ w => w.maxGid_visitOne _ gid {}

theorem known_repartition (r : Registry E) : r.repartition.1.known = r.known := by
  rw [repartition]
  split
  · rfl
  · refine known_eq_of_getElem? (f := fun _ w => (w.repartition r.size).2) (fun t => ?_)
      fun _ w => w.maxGid_repartition r.size
    simp only [Dispatch.updatePartitions, List.getElem?_map, List.getElem?_mapIdx, Option.map_map]
    rfl

theorem known_write (r : Registry E) (gid : Nat) (props : PropertyMap) :
    (r.write gid props).registry.known = r.known := by
  by_cases hplan : ∃ p, r.plan gid props = .ok p
  · obtain ⟨⟨frozen, staged⟩, hplan⟩ := hplan
    have hlength : (r.write gid props).registry.workers.length = r.workers.length := by
      simpa [seats] using congrArg List.length (sameSeats_write r gid props).seats
    refine List.ext_getElem (by rw [known, known, List.length_map, List.length_map, hlength]) ?_
    intro t ht ht'
    rw [known, List.length_map] at ht
    obtain ⟨w, hw, hcommitted⟩ := committed_write hplan (List.getElem?_eq_getElem ht)
    obtain ⟨hlt, rfl⟩ := List.getElem?_eq_some_iff.1 hw
    simp only [known, List.getElem_map]
    obtain ⟨-, hstore⟩ | ⟨n, e, -, -, hstore⟩ := hcommitted.store
    · rw [hstore]
    · rw [hstore]
      exact Store.maxGid_modify _ gid _
  · rw [write_of_refused fun p hp => hplan ⟨p, hp⟩]

/-- Nobody hears of anything new, nor of what there is, by a command that neither creates nor resets nor
brings the threads up to date. -/
theorem known_apply {c : Command E} (hcreation : c.creation? = none) (hreset : c ≠ .reset)
    (hensure : c ≠ .ensureLocalIds) :
    (r.apply c).known = r.known ∧ (r.apply c).stale = r.stale := by
  cases c with
  | create | createById => cases hcreation
  | reset => exact absurd rfl hreset
  | ensureLocalIds => exact absurd rfl hensure
  | write gid props =>
    refine ⟨known_write r gid props, ?_⟩
    rw [apply, write]
    split
    · rfl
    · split <;> rfl
  | edit gid thread change =>
    refine ⟨known_modifyLocal r gid thread _, ?_⟩
    rw [apply, edit, modifyLocal]
    split <;> rfl
  | activate gid thread =>
    refine ⟨known_modifyLocal r gid thread _, ?_⟩
    rw [apply, activate, modifyLocal]
    split <;> rfl
  | prepare => exact ⟨known_sweep r .prepare, rfl⟩
  | reinit => exact ⟨known_sweep r .initState, rfl⟩
  | finalize => exact ⟨known_sweep r .finalize, rfl⟩
  | postRunCleanup => exact ⟨known_sweep r .postRunCleanup, rfl⟩
  | initState gid =>
    refine ⟨known_initState r gid, ?_⟩
    rw [apply, initState]
    split <;> rfl
  | relaxingNodes thread =>
    rw [apply, relaxingNodes]
    split
    · exact ⟨rfl, rfl⟩
    · refine ⟨known_repartition r, ?_⟩
      simp only [repartition]
      split <;> rfl
  | checkRelaxation => exact ⟨rfl, rfl⟩
  | checkRelaxationGlobal reply => cases reply <;> exact ⟨rfl, rfl⟩

theorem known_ensureLocalIds (r : Registry E) :
    r.ensureLocalIds.registry.known = r.known.map (max · r.size) ∧
      r.ensureLocalIds.registry.stale = false := by
  have htold : ({ r with workers := r.workers.map (Worker.learnSize r.size), stale := false } :
      Registry E).known = r.known.map (max · r.size) := by
    simp only [known, List.map_map]
    rfl
  simp only [ensureLocalIds]
  split
  · refine ⟨(known_repartition _).trans htold, ?_⟩
    simp only [repartition]
    split <;> rfl
  · exact ⟨htold, rfl⟩

/-! ## What the registry remembers -/

/-- The command is a creation that is carried out. -/
def Creates (r : Registry E) (c : Command E) : Prop :=
  ∃ k made, c.creation? = some k ∧ (r.call k).result = .ok made

/-- Elements were created since the threads were last brought up to date or the elements released, or
since the start if neither has happened. -/
def CreatedSince (fresh : Registry E) (commands : List (Command E)) : Prop :=
  ∃ before c since, commands = before ++ c :: since ∧ (fresh.run before).Creates c ∧
    .ensureLocalIds ∉ since ∧ .reset ∉ since

variable {fresh : Registry E} {commands : List (Command E)} {c : Command E}

theorem not_createdSince_nil : ¬ fresh.CreatedSince [] := by
  rintro ⟨before, c, since, h, -⟩
  exact List.append_ne_nil_of_right_ne_nil before (List.cons_ne_nil _ _) h.symm

theorem createdSince_snoc : fresh.CreatedSince (commands ++ [c]) ↔
    (fresh.run commands).Creates c ∨
      fresh.CreatedSince commands ∧ c ≠ .ensureLocalIds ∧ c ≠ .reset := by
  constructor
  · rintro ⟨before, d, since, hcommands, hd, hensure, hreset⟩
    obtain rfl | ⟨since, last, rfl⟩ := since.eq_nil_or_concat
    · obtain ⟨rfl, hlast⟩ := List.append_inj' hcommands rfl
      obtain rfl : c = d := by simpa using hlast
      exact .inl hd
    · rw [List.concat_eq_append, ← List.cons_append, ← List.append_assoc] at hcommands
      obtain ⟨rfl, hlast⟩ := List.append_inj' hcommands rfl
      obtain rfl : c = last := by simpa using hlast
      simp only [List.concat_eq_append, List.mem_append, List.mem_singleton, not_or] at hensure hreset
      exact .inr ⟨⟨before, d, since, rfl, hd, hensure.1, hreset.1⟩, Ne.symm hensure.2,
        Ne.symm hreset.2⟩
  · rintro (hc | ⟨⟨before, d, since, rfl, hd, hensure, hreset⟩, hc, hc'⟩)
    · exact ⟨commands, c, [], rfl, hc, List.not_mem_nil, List.not_mem_nil⟩
    · refine ⟨before, d, since ++ [c], by simp, hd, ?_, ?_⟩
      · simp [hensure, Ne.symm hc]
      · simp [hreset, Ne.symm hc']

/-- What becomes of a registry by a creation that is carried out. -/
theorem Creates.eq_withBatch (hcatalog : r.catalog.Numbered) (h : r.Creates c) :
    ∃ m count, r.catalog.get? m.id = some m ∧ count ≠ 0 ∧
      r.apply c = r.withBatch m (.ofCount r.nextGid count m.id) := by
  obtain ⟨k, made, hk, hmade⟩ := h
  obtain ⟨m, -, hm, hcount, -, -, hregistry⟩ | ⟨-, e, hrefused⟩ := call_cases hcatalog k
  · exact ⟨m, k.count, hm, hcount, (apply_of_creation? hk).trans hregistry⟩
  · rw [hrefused] at hmade
    cases hmade

/-- A creation that is not carried out changes nothing. -/
theorem apply_of_not_creates {k : Creation} (hk : c.creation? = some k) (h : ¬ r.Creates c) :
    r.apply c = r := by
  cases hresult : (r.call k).result with
  | ok made => exact absurd ⟨k, made, hk, hresult⟩ h
  | error e => rw [apply_of_creation? hk, call_of_error hresult]

/-- What a command does to what the threads know: a creation adds to it, a reset and bringing the threads
up to date are told apart, and nothing else matters. -/
theorem apply_cases (hcatalog : r.catalog.Numbered) (c : Command E) :
    (r.Creates c ∧ ∃ m count, r.catalog.get? m.id = some m ∧ count ≠ 0 ∧
      r.apply c = r.withBatch m (.ofCount r.nextGid count m.id)) ∨
    (¬ r.Creates c ∧ c = .reset) ∨ (¬ r.Creates c ∧ c = .ensureLocalIds) ∨
      (¬ r.Creates c ∧ c ≠ .reset ∧ c ≠ .ensureLocalIds ∧ (r.apply c).known = r.known ∧
        (r.apply c).stale = r.stale ∧ r.SameSeats (r.apply c)) := by
  by_cases hcreates : r.Creates c
  · exact .inl ⟨hcreates, hcreates.eq_withBatch hcatalog⟩
  by_cases hreset : c = .reset
  · exact .inr (.inl ⟨hcreates, hreset⟩)
  by_cases hensure : c = .ensureLocalIds
  · exact .inr (.inr (.inl ⟨hcreates, hensure⟩))
  refine .inr (.inr (.inr ⟨hcreates, hreset, hensure, ?_⟩))
  cases hcreation : c.creation? with
  | none =>
    obtain ⟨hknown, hstale⟩ := known_apply (r := r) hcreation hreset hensure
    exact ⟨hknown, hstale, sameSeats_of_creation? hcreation hreset⟩
  | some k =>
    rw [apply_of_not_creates hcreation hcreates]
    exact ⟨rfl, rfl, .refl r⟩

theorem stale_apply_iff (hcatalog : r.catalog.Numbered) (c : Command E) :
    (r.apply c).stale = true ↔
      r.Creates c ∨ r.stale = true ∧ c ≠ .ensureLocalIds ∧ c ≠ .reset := by
  obtain ⟨hcreates, m, count, -, -, happly⟩ | ⟨hcreates, rfl⟩ | ⟨hcreates, rfl⟩ |
    ⟨hcreates, hreset, hensure, -, hstale, -⟩ := apply_cases hcatalog c
  · simp [happly, withBatch, hcreates]
  · simp [apply, reset, hcreates]
  · simp [apply, (known_ensureLocalIds r).2, hcreates]
  · simp [hstale, hcreates, hreset, hensure]

/-- The registry remembers that elements were created exactly until the threads are brought up to date. -/
theorem stale_run_iff {config : GridConfig} {catalog : Catalog E} (hcatalog : catalog.Numbered)
    (hfresh : Sound config catalog fresh) (hstale : fresh.stale = false) (commands : List (Command E)) :
    (fresh.run commands).stale = true ↔ fresh.CreatedSince commands := by
  induction commands using List.reverseRecOn with
  | nil => simp [hstale, not_createdSince_nil]
  | append_singleton commands c ih =>
    have hnumbered : (fresh.run commands).catalog.Numbered := by
      rw [(hfresh.run hcatalog commands).catalog_eq]
      exact hcatalog
    rw [run_append, run_cons, run_nil, stale_apply_iff hnumbered, createdSince_snoc, ih]

/-! ## What the threads know -/

/-- No thread knows of more elements than there are, nor of fewer unless that is remembered. -/
def Informed (r : Registry E) : Prop :=
  ∀ g ∈ r.known, g ≤ r.size ∧ (r.stale = false → g = r.size)

omit [Element E] in
theorem informed_fresh (config : GridConfig) (catalog : Catalog E) (dispatch : Dispatch) :
    Informed { config, catalog, dispatch, workers := freshWorkers config } := by
  intro g hg
  obtain ⟨w, hw, rfl⟩ := List.mem_map.1 hg
  obtain ⟨_, -, rfl⟩ := List.mem_map.1 hw
  exact ⟨Nat.zero_le _, fun _ => rfl⟩

omit [Element E] in
/-- A thread that is given instances of new elements knows of no others. -/
theorem maxGid_populate_le {m : Model E} {batch : Run} {bound thread : Nat} {w : Worker E}
    (hbatch : batch.last ≤ bound) (hw : w.store.maxGid ≤ bound) :
    (r.populate m batch thread w).store.maxGid ≤ bound := by
  refine Store.maxGid_appendAll_le _ hw fun n hn => ?_
  obtain ⟨gid, hgid, rfl⟩ := List.mem_map.1 hn
  have hcontains := (Run.mem_gids _).1 (List.mem_filter.1 hgid).1
  rw [Run.contains_eq_true] at hcontains
  exact Nat.le_trans hcontains.2 hbatch

theorem Informed.apply (hcatalog : r.catalog.Numbered) (h : r.Informed) (c : Command E) :
    (r.apply c).Informed := by
  intro g hg
  obtain ⟨-, m, count, -, hcount, happly⟩ | ⟨-, rfl⟩ | ⟨-, rfl⟩ | ⟨-, -, -, hknown, hstale, hsame⟩ :=
    apply_cases hcatalog c
  · rw [happly] at hg ⊢
    obtain ⟨w', hw', rfl⟩ := List.mem_map.1 hg
    obtain ⟨t, ht⟩ := List.getElem?_of_mem hw'
    obtain ⟨w, hw, rfl⟩ := Option.map_eq_some_iff.1 (List.getElem?_mapIdx.symm.trans ht)
    have hle := (h _ (List.mem_map_of_mem (List.mem_of_getElem? hw))).1
    refine ⟨maxGid_populate_le (Nat.le_refl _) ?_, nofun⟩
    simp only [size, withBatch, Run.ofCount] at hle ⊢
    omega
  · exact informed_fresh _ _ _ g hg
  · have hsize : (r.apply .ensureLocalIds).size = r.size :=
      congrArg (· - 1) (sameSeats_ensureLocalIds r).nextGid
    rw [Registry.apply, (known_ensureLocalIds r).1] at hg
    obtain ⟨g', hg', rfl⟩ := List.mem_map.1 hg
    have hle := (h g' hg').1
    rw [hsize, Nat.max_eq_right hle]
    exact ⟨Nat.le_refl _, fun _ => rfl⟩
  · rw [hknown] at hg
    rw [hstale, size, hsame.nextGid]
    exact h g hg

/-- In every state the threads know of no more than there is, and of all that there is unless elements
were created since they were last brought up to date. -/
theorem informed_run {config : GridConfig} {catalog : Catalog E} (hcatalog : catalog.Numbered)
    (hr : Sound config catalog r) (h : r.Informed) (commands : List (Command E)) :
    (r.run commands).Informed := by
  induction commands generalizing r with
  | nil => exact h
  | cons c commands ih =>
    exact ih (hr.apply hcatalog c) (h.apply (hr.catalog_eq ▸ hcatalog) c)

/-! ## What is not taken back -/

/-- The seat at a place of a thread. -/
def seatAt? (r : Registry E) (t i : Nat) : Option Seat := (r.seats[t]?).bind (·[i]?)

omit [Element E] in
theorem map_seat_node? (t i : Nat) : (r.node? t i).map Node.seat = r.seatAt? t i := by
  rw [node?, seatAt?, seats, List.getElem?_map]
  cases r.workers[t]? with
  | none => rfl
  | some w => exact List.getElem?_map.symm

omit [Element E] in
theorem seatAt?_eq_some_iff {t i : Nat} {seat : Seat} :
    r.seatAt? t i = some seat ↔ ∃ n, r.node? t i = some n ∧ n.seat = seat := by
  rw [← map_seat_node?, Option.map_eq_some_iff]

/-- No thread forgets of an element unless all are released. -/
theorem known_le_apply (hcatalog : r.catalog.Numbered) (hreset : c ≠ .reset) {t g : Nat}
    (hg : r.known[t]? = some g) : ∃ g', (r.apply c).known[t]? = some g' ∧ g ≤ g' := by
  obtain ⟨-, m, count, -, -, happly⟩ | ⟨-, hreset'⟩ | ⟨-, rfl⟩ | ⟨-, -, -, hknown, -, -⟩ :=
    apply_cases hcatalog c
  · obtain ⟨w, hw, rfl⟩ := Option.map_eq_some_iff.1 (List.getElem?_map.symm.trans hg)
    rw [happly, known, withBatch, List.getElem?_map, List.getElem?_mapIdx, hw]
    exact ⟨_, rfl, Store.maxGid_le_appendAll _ _⟩
  · exact absurd hreset' hreset
  · rw [apply, (known_ensureLocalIds r).1, List.getElem?_map, hg]
    exact ⟨_, rfl, Nat.le_max_left _ _⟩
  · rw [hknown]
    exact ⟨g, hg, Nat.le_refl g⟩

/-- An instance keeps its seat unless all are released. -/
theorem seatAt?_apply (hcatalog : r.catalog.Numbered) (hreset : c ≠ .reset) {t i : Nat} {seat : Seat}
    (hseat : r.seatAt? t i = some seat) : (r.apply c).seatAt? t i = some seat := by
  have hkeeps : r.SameSeats (r.apply c) → (r.apply c).seatAt? t i = some seat := fun hsame => by
    rw [seatAt?, hsame.seats]
    exact hseat
  obtain ⟨-, m, count, -, -, happly⟩ | ⟨-, hreset'⟩ | ⟨-, rfl⟩ | ⟨-, -, -, -, -, hsame⟩ :=
    apply_cases hcatalog c
  · obtain ⟨seats, hseats, hi⟩ := Option.bind_eq_some_iff.1 hseat
    obtain ⟨w, hw, rfl⟩ := Option.map_eq_some_iff.1 (List.getElem?_map.symm.trans hseats)
    rw [happly, seatAt?, Registry.seats, withBatch, List.getElem?_map, List.getElem?_mapIdx, hw]
    show ((w.store.appendAll _).seats)[i]? = some seat
    rw [Store.seats_appendAll, List.getElem?_append_left (List.getElem?_eq_some_iff.1 hi).1]
    exact hi
  · exact absurd hreset' hreset
  · exact hkeeps (sameSeats_ensureLocalIds r)
  · exact hkeeps hsame

section Run

variable {config : GridConfig} {catalog : Catalog E} (hcatalog : catalog.Numbered)
  (hr : Sound config catalog r) (hreset : .reset ∉ commands)

include hcatalog hr hreset

theorem known_le_run {t g : Nat} (hg : r.known[t]? = some g) :
    ∃ g', (r.run commands).known[t]? = some g' ∧ g ≤ g' := by
  induction commands generalizing r g with
  | nil => exact ⟨g, hg, Nat.le_refl g⟩
  | cons c commands ih =>
    obtain ⟨hhere, hlater⟩ := not_or.1 (mt List.mem_cons.2 hreset)
    obtain ⟨g', hg', hle⟩ := known_le_apply (hr.catalog_eq ▸ hcatalog) (Ne.symm hhere) hg
    obtain ⟨g'', hg'', hle'⟩ := ih (hr.apply hcatalog c) hlater hg'
    exact ⟨g'', hg'', Nat.le_trans hle hle'⟩

theorem seatAt?_run {t i : Nat} {seat : Seat} (hseat : r.seatAt? t i = some seat) :
    (r.run commands).seatAt? t i = some seat := by
  induction commands generalizing r with
  | nil => exact hseat
  | cons c commands ih =>
    obtain ⟨hhere, hlater⟩ := not_or.1 (mt List.mem_cons.2 hreset)
    exact ih (hr.apply hcatalog c) hlater
      (seatAt?_apply (hr.catalog_eq ▸ hcatalog) (Ne.symm hhere) hseat)

end Run

/-! ## Places -/

omit [Element E] in
theorem maxGid_eq_ok_iff {thread g : Nat} : r.maxGid thread = .ok g ↔ r.known[thread]? = some g := by
  rw [maxGid, worker, known, List.getElem?_map]
  cases r.workers[thread]? with
  | none => exact iff_of_false (fun h => by cases h) fun h => by cases h
  | some w =>
    show (.ok w.store.maxGid : Except RegistryError Nat) = .ok g ↔ some w.store.maxGid = some g
    rw [Except.ok.injEq, Option.some_inj]

omit [Element E] in
theorem nodeAt_of_stale (h : r.stale = true) (thread localId : Nat) :
    r.nodeAt thread localId = .error .staleLocalIds := by
  simp only [nodeAt, h, if_true]
  rfl

omit [Element E] in
/-- A place that is trusted leads to the instance that is there, if there is one. -/
theorem nodeAt_of_trusted (h : r.stale = false) {thread : Nat} {w : Worker E}
    (hw : r.workers[thread]? = some w) (localId : Nat) : r.nodeAt thread localId =
      match w.store.nodes[localId]? with
      | some n => .ok n
      | none => .error (.outOfRange localId w.store.nodes.length) := by
  rw [nodeAt, if_neg (by simp [h]), worker, hw]
  show (match w.store.nodes[localId]? with
    | some n => .ok n
    | none => .error (.outOfRange localId w.store.nodes.length) : Except RegistryError (Node E)) = _
  split <;> rfl

omit [Element E] in
theorem nodeAt_eq_stale_iff {thread localId : Nat} :
    r.nodeAt thread localId = .error .staleLocalIds ↔ r.stale = true := by
  refine ⟨fun hnode => ?_, fun h => nodeAt_of_stale h thread localId⟩
  by_contra h
  rw [Bool.not_eq_true] at h
  cases hw : r.workers[thread]? with
  | none =>
    simp only [nodeAt, h, worker, hw] at hnode
    cases hnode
  | some w =>
    rw [nodeAt_of_trusted h hw] at hnode
    split at hnode <;> cases hnode

/-- In every state to which a registry comes: no thread knows of more elements than there are, and
nothing but a reset lets a thread know of fewer or gives a place to another element. Unless elements were
created since the threads were last brought up to date, each of them knows of all, and each place up to
the number of its instances leads to the one instance that has it; otherwise no place leads anywhere. -/
theorem population_exact {config : GridConfig} {catalog : Catalog E} {dispatch : Dispatch}
    (hcatalog : catalog.Formed) (hstart : start config catalog dispatch = .ok fresh) :
    let r := fresh.run commands
    (∀ thread g, r.maxGid thread = .ok g → g ≤ r.size) ∧
    (∀ later, .reset ∉ later →
      (∀ thread g, r.maxGid thread = .ok g → ∃ g', (r.run later).maxGid thread = .ok g' ∧ g ≤ g') ∧
      ∀ thread i n, r.node? thread i = some n →
        ∃ n', (r.run later).node? thread i = some n' ∧ n'.gid = n.gid ∧ n'.localId = i) ∧
    (∀ thread localId, r.nodeAt thread localId = .error .staleLocalIds ↔
      fresh.CreatedSince commands) ∧
    (¬ fresh.CreatedSince commands → ∀ thread < config.threads, r.maxGid thread = .ok r.size ∧
      ∃ nodes, r.localNodes thread = .ok nodes ∧
        (∀ localId < nodes.length, ∃ n ∈ nodes, r.nodeAt thread localId = .ok n ∧
          n.localId = localId ∧ ∀ m ∈ nodes, m.localId = localId → m = n) ∧
        ∀ localId, r.nodeAt thread localId = .error (.outOfRange localId nodes.length) ↔
          nodes.length ≤ localId) := by
  intro r
  have hnumbered := hcatalog.numbered
  obtain ⟨_, -, hfresh⟩ := Except.bind_eq_ok_iff.1 hstart
  cases hfresh
  have hsound := sound_fresh config catalog dispatch
  have hr : Sound config catalog r := hsound.run hnumbered commands
  have hinformed : r.Informed :=
    informed_run hnumbered hsound (informed_fresh config catalog dispatch) commands
  have hstale := stale_run_iff hnumbered hsound rfl commands
  refine ⟨fun thread g hg => ?_, fun later hlater => ⟨fun thread g hg => ?_, fun thread i n hn => ?_⟩,
    fun thread localId => nodeAt_eq_stale_iff.trans hstale, fun hnone thread hthread => ?_⟩
  · exact (hinformed g (List.mem_of_getElem? (maxGid_eq_ok_iff.1 hg))).1
  · simp only [maxGid_eq_ok_iff] at hg ⊢
    exact known_le_run hnumbered hr hlater hg
  · have hseat := seatAt?_eq_some_iff.2 ⟨n, hn, rfl⟩
    obtain ⟨n', hn', hsame⟩ := seatAt?_eq_some_iff.1 (seatAt?_run hnumbered hr hlater hseat)
    obtain ⟨w, hw, hi⟩ := node?_eq_some_iff.1 hn'
    exact ⟨n', hn', congrArg Seat.gid hsame, ((hr.run hnumbered later).seat_eq hw hi).1⟩
  · have htrusted : r.stale = false := by
      rw [← Bool.not_eq_true]
      exact mt hstale.1 hnone
    obtain ⟨w, hw⟩ := hr.exists_worker hthread
    have hknown : r.known[thread]? = some w.store.maxGid := by rw [known, List.getElem?_map, hw]; rfl
    have hall := (hinformed _ (List.mem_of_getElem? hknown)).2 htrusted
    refine ⟨maxGid_eq_ok_iff.2 (hall ▸ hknown), w.store.nodes, ?_, fun localId hlt => ?_,
      fun localId => ?_⟩
    · rw [localNodes, worker, hw]
      rfl
    · have hn := List.getElem?_eq_getElem hlt
      refine ⟨w.store.nodes[localId], List.getElem_mem hlt, ?_, (hr.seat_eq hw hn).1,
        fun m hm hplace => ?_⟩
      · rw [nodeAt_of_trusted htrusted hw, hn]
      · obtain ⟨i, hi⟩ := List.getElem?_of_mem hm
        rw [(hr.seat_eq hw hi).1] at hplace
        rw [hplace, hn] at hi
        exact (Option.some.inj hi).symm
    · rw [nodeAt_of_trusted htrusted hw]
      refine ⟨fun hout => ?_, fun hle => by rw [List.getElem?_eq_none hle]⟩
      by_contra hlt
      rw [List.getElem?_eq_getElem (Nat.not_le.1 hlt)] at hout
      cases hout

/-- Creations that are refused leave the threads up to date, and one that is carried out does not, even
where none of its elements lives. -/
theorem population_exact_refused :
    let commands : List (Command StandardElement) :=
      [.create "counter" 3, .ensureLocalIds, .create "nobody" 1, .create "counter" 0]
    ∃ fresh, StandardElement.catalog.Formed ∧
      start { processes := 2, threads := 2, rank := 0 } StandardElement.catalog .inTurn = .ok fresh ∧
      ¬ fresh.CreatedSince commands ∧ (fresh.run commands).maxGid 0 = .ok 3 ∧
      (fresh.run commands).maxGid 1 = .ok 3 ∧
      fresh.CreatedSince (commands ++ [.create "relaxing" 1]) ∧
      (fresh.run (commands ++ [.create "relaxing" 1])).nodeAt 1 0 = .error .staleLocalIds := by
  intro commands
  have hcatalog : StandardElement.catalog.Formed := Catalog.formed_ofEntries (by decide)
  obtain ⟨fresh, hstart, htrusted, hsize, hstale⟩ : ∃ fresh,
      start { processes := 2, threads := 2, rank := 0 } StandardElement.catalog .inTurn = .ok fresh ∧
      (fresh.run commands).nodeAt 1 0 ≠ .error .staleLocalIds ∧ (fresh.run commands).size = 3 ∧
      (fresh.run (commands ++ [.create "relaxing" 1])).nodeAt 1 0 = .error .staleLocalIds :=
    ⟨_, rfl, nofun, rfl, rfl⟩
  obtain ⟨-, -, hiff, hknown⟩ := population_exact hcatalog hstart
  obtain ⟨-, -, hiff', -⟩ :=
    population_exact hcatalog hstart
  have hnone : ¬ fresh.CreatedSince commands := mt (hiff 1 0).2 htrusted
  exact ⟨fresh, hcatalog, hstart, hnone, hsize ▸ (hknown hnone 0 (by decide)).1,
    hsize ▸ (hknown hnone 1 (by decide)).1, (hiff' 1 0).1 hstale, hstale⟩

end Registry

end ElementGrid
