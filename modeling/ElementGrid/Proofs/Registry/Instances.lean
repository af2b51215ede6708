import ElementGrid.Proofs.Registry.Threads
import ElementGrid.Proofs.Registry.Writing
/-!
# What becomes of an instance

An instance keeps its place, and each command does one of a few things to it. What holds of new instances
and survives all of these holds of every instance at any time.

## Main definitions

* `Registry.node?` — the instance at a place of a thread, if there is one
* `Node.After` — what a command may make of an instance
* `Node.New` — an instance as a creation makes it

## Main results

* `Registry.node?_apply` — an instance was there before the command, or is new
* `Registry.after_apply` — what stands at a place before and after is the same instance
* `Node.After.map_eq` — what visits, edits and writes leave alone is left alone by every command
* `Registry.node?_run` — what holds of new instances and survives every command holds of all instances
-/

namespace ElementGrid

variable {E : Type}

/-- The instance at a place of a thread, if there is one. -/
def Registry.node? (r : Registry E) (t i : Nat) : Option (Node E) :=
  (r.workers[t]?).bind fun w => w.store.nodes[i]?

theorem Registry.node?_eq_some_iff {r : Registry E} {t i : Nat} {n : Node E} :
    r.node? t i = some n ↔ ∃ w, r.workers[t]? = some w ∧ w.store.nodes[i]? = some n :=
  Option.bind_eq_some_iff

/-- An instance of a model on which nothing was done. -/
def Node.New (catalog : Catalog E) (n : Node E) : Prop :=
  n.state = .created ∧ ∃ m ∈ catalog.models, n.element = m.prototype

variable [Element E]

/-- An instance after a visit that found the stream of its thread somewhere. -/
def Node.Visited (phase : Phase) (n n' : Node E) : Prop :=
  ∃ g, ((Visit.ofPhase phase : Visit E Unit).run.run (n, g)).2.1 = n'

/-- What a command may make of an instance. A sweep visits every instance; what goes to one element or to
one thread leaves all others as they are. -/
def Node.After (n n' : Node E) : Command E → Prop
  | .write _ props =>
    n' = n ∨ ∃ frozen e, Registry.stage props n = .ok e ∧ n' = Registry.commitNode frozen e n
  | .edit _ _ change => n' = n ∨ n' = { n with element := change n.element }
  | .activate _ _ => n' = n ∨ n' = n.activate.2
  | .prepare => n.Visited .prepare n'
  | .reinit => n.Visited .initState n'
  | .finalize => n.Visited .finalize n'
  | .postRunCleanup => n.Visited .postRunCleanup n'
  | .initState _ => n' = n ∨ n.Visited .initState n'
  | .reset => False
  | _ => n' = n

/-- What the visits, the writes, the edits and an activation show of an instance before as after is not changed
by any command. -/
theorem Node.After.map_eq {β : Type} {f : Node E → β} {c : Command E} {n n' : Node E} (h : n.After n' c)
    (hvisit : ∀ phase, n.Visited phase n' → f n' = f n) (hactivate : f n.activate.2 = f n)
    (hedit : ∀ gid thread change, c = .edit gid thread change →
      f { n with element := change n.element } = f n)
    (hwrite : ∀ gid props, c = .write gid props → ∀ frozen e, Registry.stage props n = .ok e →
      f (Registry.commitNode frozen e n) = f n) : f n' = f n := by
  cases c with
  | write gid props =>
    obtain rfl | ⟨frozen, e, he, rfl⟩ := h
    · rfl
    · exact hwrite gid props rfl frozen e he
  | edit gid thread change =>
    obtain rfl | rfl := h
    · rfl
    · exact hedit gid thread change rfl
  | activate gid thread =>
    obtain rfl | rfl := h
    · rfl
    · exact hactivate
  | prepare | reinit | finalize | postRunCleanup => exact hvisit _ h
  | initState gid =>
    obtain rfl | h := h
    · rfl
    · exact hvisit _ h
  | reset => cases h
  | create | createById | ensureLocalIds | relaxingNodes | checkRelaxation | checkRelaxationGlobal =>
    cases h
    rfl

/-! ## Stores -/

omit [Element E] in
theorem Store.of_getElem?_modify {s : Store E} {gid i : Nat} {f : Node E → Node E} {n' : Node E}
    (h : (s.modify gid f).nodes[i]? = some n') :
    ∃ n, s.nodes[i]? = some n ∧ (n' = n ∨ s.find? gid = some n ∧ n' = f n) := by
  rw [modify] at h
  split at h
  · rename_i j hj
    rw [modifyAt, List.getElem?_modify] at h
    obtain ⟨n, hn, rfl⟩ := Option.map_eq_some_iff.1 h
    refine ⟨n, hn, ?_⟩
    split
    · rename_i hij
      subst hij
      exact .inr ⟨by rw [find?, hj]; exact hn, rfl⟩
    · exact .inl rfl
  · exact ⟨n', h, .inl rfl⟩

omit [Element E] in
theorem of_getElem?_sweepNodes {visit : Visit E Unit} {ns : List (Node E)} {g : Generator}
    {tally : Tally} {i : Nat} {n' : Node E} (h : (sweepNodes visit ns g tally).1[i]? = some n') :
    ∃ n g', ns[i]? = some n ∧ (visit.run.run (n, g')).2.1 = n' := by
  induction ns generalizing g tally i with
  | nil => simp [sweepNodes] at h
  | cons n ns ih =>
    rw [sweepNodes] at h
    rcases hrun : visit.run.run (n, g) with ⟨result, n₁, g₁⟩
    rw [hrun] at h
    cases i with
    | zero =>
      cases h
      exact ⟨n, g, rfl, by rw [hrun]⟩
    | succ i => simpa using ih (by simpa using h)

namespace Registry

variable {r : Registry E} {t i : Nat} {n' : Node E}

/-! ## Commands -/

theorem node?_sweep {phase : Phase} (h : (r.sweep phase).2.node? t i = some n') :
    ∃ n, r.node? t i = some n ∧ n.Visited phase n' := by
  obtain ⟨w', hw', hn'⟩ := node?_eq_some_iff.1 h
  rw [getElem?_sweep] at hw'
  obtain ⟨w, hw, rfl⟩ := Option.map_eq_some_iff.1 hw'
  obtain ⟨n, g, hn, hvisit⟩ := of_getElem?_sweepNodes hn'
  exact ⟨n, node?_eq_some_iff.2 ⟨w, hw, hn⟩, g, hvisit⟩

theorem node?_initState {gid : Nat} (h : (r.initState gid).registry.node? t i = some n') :
    ∃ n, r.node? t i = some n ∧ (n' = n ∨ n.Visited .initState n') := by
  rcases hid : r.modelOf gid with e | id
  · rw [initState, hid] at h
    exact ⟨n', h, .inl rfl⟩
  · obtain ⟨w', hw', hn'⟩ := node?_eq_some_iff.1 h
    rw [getElem?_initState hid] at hw'
    obtain ⟨w, hw, rfl⟩ := Option.map_eq_some_iff.1 hw'
    rw [Worker.visitOne] at hn'
    split at hn'
    · exact ⟨n', node?_eq_some_iff.2 ⟨w, hw, hn'⟩, .inl rfl⟩
    · rename_i m hfind
      obtain ⟨n, hn, hcase⟩ := Store.of_getElem?_modify hn'
      refine ⟨n, node?_eq_some_iff.2 ⟨w, hw, hn⟩, hcase.imp_right ?_⟩
      rintro ⟨hfind', rfl⟩
      rw [hfind] at hfind'
      cases hfind'
      exact ⟨w.generator, rfl⟩

omit [Element E] in
theorem node?_modifyLocal {α : Type} {gid thread : Nat} {f : Node E → α × Node E}
    (h : (r.modifyLocal gid thread f).registry.node? t i = some n') :
    ∃ n, r.node? t i = some n ∧ (n' = n ∨ n' = (f n).2) := by
  -- A change in place reaches what is found on its own thread, if anything is.
  by_cases hlocal : ∃ n, r.localNode gid thread = .ok n
  · obtain ⟨m, hm⟩ := hlocal
    obtain ⟨-, w₀, hw₀, hfind⟩ := localNode_eq_ok_iff.1 hm
    obtain ⟨w', hw', hn'⟩ := node?_eq_some_iff.1 h
    rw [getElem?_modifyLocal hm] at hw'
    obtain ⟨w, hw, rfl⟩ := Option.map_eq_some_iff.1 hw'
    split at hn'
    · rename_i hthread
      obtain ⟨n, hn, hcase⟩ := Store.of_getElem?_modify hn'
      refine ⟨n, node?_eq_some_iff.2 ⟨w, hw, hn⟩, hcase.imp_right ?_⟩
      rintro ⟨hfind', rfl⟩
      rw [← hthread, hw₀] at hw
      cases hw
      rw [hfind] at hfind'
      cases hfind'
      rfl
    · exact ⟨n', node?_eq_some_iff.2 ⟨w, hw, hn'⟩, .inl rfl⟩
  · rw [modifyLocal_of_refused fun n hn => hlocal ⟨n, hn⟩] at h
    exact ⟨n', h, .inl rfl⟩

theorem node?_write {gid : Nat} {props : PropertyMap}
    (h : (r.write gid props).registry.node? t i = some n') :
    ∃ n, r.node? t i = some n ∧
      (n' = n ∨ ∃ frozen e, stage props n = .ok e ∧ n' = commitNode frozen e n) := by
  by_cases hplan : ∃ p, r.plan gid props = .ok p
  · obtain ⟨⟨frozen, staged⟩, hplan⟩ := hplan
    obtain ⟨w', hw', hn'⟩ := node?_eq_some_iff.1 h
    obtain ⟨w, hw, hcommitted⟩ := committed_write hplan hw'
    obtain ⟨-, hstore⟩ | ⟨m, e, hfind, he, hstore⟩ := hcommitted.store
    · rw [hstore] at hn'
      exact ⟨n', node?_eq_some_iff.2 ⟨w, hw, hn'⟩, .inl rfl⟩
    · rw [hstore] at hn'
      obtain ⟨n, hn, hcase⟩ := Store.of_getElem?_modify hn'
      refine ⟨n, node?_eq_some_iff.2 ⟨w, hw, hn⟩, hcase.imp_right ?_⟩
      rintro ⟨hfind', rfl⟩
      rw [hfind] at hfind'
      cases hfind'
      exact ⟨frozen, e, he, rfl⟩
  · rw [write_of_refused fun p hp => hplan ⟨p, hp⟩] at h
    exact ⟨n', h, .inl rfl⟩

omit [Element E] in
theorem SameThreads.node? {r' : Registry E} (hr : r.SameThreads r') (h : r'.node? t i = some n') :
    r.node? t i = some n' := by
  obtain ⟨w', hw', hn'⟩ := node?_eq_some_iff.1 h
  obtain ⟨w, hw, hsame⟩ := hr.workers t w' hw'
  rw [hsame.nodes] at hn'
  exact node?_eq_some_iff.2 ⟨w, hw, hn'⟩

omit [Element E] in
/-- A registry without elements has no instances. -/
theorem node?_of_fresh {config : GridConfig} (h : r.workers = freshWorkers config) (t i : Nat) :
    r.node? t i = none := by
  rw [Option.eq_none_iff_forall_ne_some]
  intro n hn
  obtain ⟨w, hw, hi⟩ := node?_eq_some_iff.1 hn
  rw [h] at hw
  obtain ⟨_, -, rfl⟩ := List.mem_map.1 (List.mem_of_getElem? hw)
  cases hi

omit [Element E] in
/-- New instances of a model take their places on a thread behind those that are there. -/
theorem node?_withBatch {m : Model E} {batch : Run} (h : (r.withBatch m batch).node? t i = some n') :
    r.node? t i = some n' ∨
      r.node? t i = none ∧ ∃ gid localId, n' = { r.newNode m t gid with localId } := by
  obtain ⟨w', hw', hn'⟩ := node?_eq_some_iff.1 h
  obtain ⟨w, hw, rfl⟩ := Option.map_eq_some_iff.1 (List.getElem?_mapIdx.symm.trans hw')
  simp only [populate, Store.nodes_appendAll, List.getElem?_append] at hn'
  split at hn'
  · exact .inl (node?_eq_some_iff.2 ⟨w, hw, hn'⟩)
  · rename_i hlt
    refine .inr ⟨?_, ?_⟩
    · rw [node?, hw]
      exact List.getElem?_eq_none (Nat.not_lt.1 hlt)
    · rw [List.getElem?_mapIdx, List.getElem?_map] at hn'
      obtain ⟨n, hn, rfl⟩ := Option.map_eq_some_iff.1 hn'
      obtain ⟨gid, -, rfl⟩ := Option.map_eq_some_iff.1 hn
      exact ⟨gid, _, rfl⟩

omit [Element E] in
/-- A creation leaves the instances of a thread in their places and puts new ones behind them. -/
theorem node?_createById {id count : Nat}
    (h : (r.createById id count).registry.node? t i = some n') :
    r.node? t i = some n' ∨ r.node? t i = none ∧ n'.New r.catalog := by
  rw [createById] at h
  split at h
  · exact .inl h
  · rename_i m hm
    split at h
    · exact .inl h
    · obtain hn | ⟨hnone, gid, localId, rfl⟩ := node?_withBatch h
      · exact .inl hn
      · exact .inr ⟨hnone, rfl, m, List.mem_of_getElem? hm, rfl⟩

/-- An instance was there before a command, which has made of it what it may, or it is new. -/
theorem node?_apply {c : Command E} (h : (r.apply c).node? t i = some n') :
    (∃ n, r.node? t i = some n ∧ n.After n' c) ∨ r.node? t i = none ∧ n'.New r.catalog := by
  have hsame : r.SameThreads (r.apply c) → ∃ n, r.node? t i = some n ∧ n' = n :=
    fun hr => ⟨n', hr.node? h, rfl⟩
  cases c with
  | create name count =>
    simp only [apply, create] at h
    split at h
    · exact .inl ⟨n', h, rfl⟩
    · exact (node?_createById h).imp_left fun hn => ⟨n', hn, rfl⟩
  | createById id count => exact (node?_createById h).imp_left fun hn => ⟨n', hn, rfl⟩
  | write gid props => exact .inl (node?_write h)
  | edit gid thread change => exact .inl (node?_modifyLocal h)
  | activate gid thread => exact .inl (node?_modifyLocal h)
  | prepare => exact .inl (node?_sweep h)
  | reinit => exact .inl (node?_sweep h)
  | finalize => exact .inl (node?_sweep h)
  | postRunCleanup => exact .inl (node?_sweep h)
  | initState gid => exact .inl (node?_initState h)
  | ensureLocalIds => exact .inl (hsame (sameThreads_ensureLocalIds r))
  | relaxingNodes thread => exact .inl (hsame (sameThreads_relaxingNodes r thread))
  | checkRelaxation => exact .inl (hsame (sameThreads_checkRelaxation r))
  | checkRelaxationGlobal reply => exact .inl (hsame (sameThreads_checkRelaxationGlobal r reply))
  | reset => cases (node?_of_fresh rfl t i).symm.trans h

/-- An instance that is there before and after a command is what the command may make of it. -/
theorem after_apply {c : Command E} {n : Node E} (hn : r.node? t i = some n)
    (hn' : (r.apply c).node? t i = some n') : n.After n' c := by
  rcases node?_apply hn' with ⟨m, hm, hafter⟩ | ⟨hnone, -⟩
  · cases hm.symm.trans hn
    exact hafter
  · cases hnone.symm.trans hn

/-- No command changes the catalog, and each leaves as many threads as there ought to be. -/
theorem frame_apply (r : Registry E) (c : Command E) :
    (r.apply c).config = r.config ∧ (r.apply c).catalog = r.catalog ∧
      (r.workers.length = r.config.threads → (r.apply c).workers.length = r.config.threads) := by
  have hid : ∀ id count, let r' := (r.createById id count).registry
      r'.config = r.config ∧ r'.catalog = r.catalog ∧
        (r.workers.length = r.config.threads → r'.workers.length = r.config.threads) := by
    intro id count
    simp only [createById]
    split
    · exact ⟨rfl, rfl, fun h => h⟩
    · split
      · exact ⟨rfl, rfl, fun h => h⟩
      · exact ⟨rfl, rfl, fun h => List.length_mapIdx.trans h⟩
  by_cases hcreate : ∃ name count, c = .create name count
  · obtain ⟨name, count, rfl⟩ := hcreate
    simp only [apply, create]
    split
    · exact ⟨rfl, rfl, fun h => h⟩
    · exact hid _ count
  by_cases hcreateById : ∃ id count, c = .createById id count
  · obtain ⟨id, count, rfl⟩ := hcreateById
    exact hid id count
  by_cases hreset : c = .reset
  · subst hreset
    exact ⟨rfl, rfl, fun _ => by simp [apply, reset, freshWorkers]⟩
  -- All other commands keep the seats, and with them the threads.
  · have hsame := sameSeats_apply r c (fun name n h => hcreate ⟨name, n, h⟩)
      (fun id n h => hcreateById ⟨id, n, h⟩) hreset
    refine ⟨hsame.config, hsame.catalog, fun h => ?_⟩
    have hlength := congrArg List.length hsame.seats
    simp only [seats, List.length_map] at hlength
    exact hlength.trans h

/-- What holds of new instances and survives every command holds of all instances at any time. -/
theorem node?_run {P : Node E → Prop} {commands : List (Command E)}
    (hnew : ∀ n : Node E, n.New r.catalog → P n)
    (hafter : ∀ c ∈ commands, ∀ n n' : Node E, P n → n.After n' c → P n')
    (hstart : ∀ t i n, r.node? t i = some n → P n) {t i : Nat} {n : Node E}
    (h : (r.run commands).node? t i = some n) : P n := by
  induction commands generalizing r with
  | nil => exact hstart t i n h
  | cons c cs ih =>
    refine ih (fun n hn => hnew n ((frame_apply r c).2.1 ▸ hn))
      (fun c' hc' => hafter c' (List.mem_cons_of_mem c hc')) (fun t i n' hn' => ?_) h
    rcases node?_apply hn' with ⟨m, hm, hafter'⟩ | ⟨-, hnew'⟩
    · exact hafter c List.mem_cons_self m n' (hstart t i m hm) hafter'
    · exact hnew n' hnew'

end Registry

end ElementGrid
