import ElementGrid.Element.Catalogs
import ElementGrid.Proofs.Exchange.Meeting
import ElementGrid.Proofs.Registry.Allocation
import ElementGrid.Proofs.View.Source
/-!
# All processes see the same

When every process of a grid makes the view of its instances, all of them come to the same: the view of
what all instances say, if they agree on every element, and otherwise the same conflict.

## Main definitions

* `View.GridSays` — some instance on a process of the grid says something of an element

## Main results

* `View.gatherFrom_agrees` — a view with a rejecting policy is the same on every process
-/

namespace ElementGrid.View

variable {E P : Type} [Payload P]

/-! ## One round of a view -/

/-- A process whose records can be contributed takes part in one round. -/
theorem gather_eq {config : ViewConfig} {participants : Nat} {records : List (ViewRecord P)}
    {bytes : Bytes} (h : Contribution.encode records = .ok bytes) :
    gather config participants records =
      .gather bytes fun reply => conclude (receive config.policy participants bytes reply) := by
  rw [gather, h]
  rfl

omit [Payload P] in
theorem conclude_eq {o : Canonical.Outcome P}
    (h : ∀ e, o.result = .error e → e.isViolation = false) : conclude o = .done o := by
  rw [conclude]
  split
  · rename_i e he
    rw [h e he]
    rfl
  · rfl

/-- What a process makes of a round is the canonical view of what all contributed. -/
theorem result_receive {policy : ConflictPolicy} {participants : Nat} {sent : Bytes} {g : Gathered}
    (h : g.size = participants) :
    (receive policy participants sent (.ok g) : Canonical.Outcome P).result =
      (Canonical.resolve P policy g).result := by
  rw [receive, checkParticipants, if_pos h]

/-- A process whose records can be contributed takes part in one round and makes of it what all
contributed, if that does not break the protocol. -/
theorem attends_gather {config : ViewConfig} {participants : Nat} {records : List (ViewRecord P)}
    {bytes : Bytes} {g : Gathered} (hencode : Contribution.encode records = .ok bytes)
    (hsize : g.size = participants)
    (hquiet : ∀ e, (Canonical.resolve P config.policy g).result = .error e → e.isViolation = false) :
    Attends (.ok g) bytes (receive config.policy participants bytes (.ok g))
      (gather config participants records) := by
  refine ⟨_, gather_eq hencode, conclude_eq fun e he => hquiet e ?_⟩
  rw [← he]
  exact (result_receive hsize).symm

/-! ## What the processes contribute -/

/-- Some instance on the process `rank` says `raw` of the element `gid`. -/
def GridSays (registries : List (Registry E)) (only : Option Collection)
    (accessor : Node E → Option P) (rank gid : Nat) (raw : Bytes) : Prop :=
  ∃ r, registries[rank]? = some r ∧ r.Says only accessor gid raw

/-- The records of a process as they are written. -/
def said (only : Option Collection) (accessor : Node E → Option P) (r : Registry E) :
    List RawRecord :=
  (r.localRecords only accessor).map RawRecord.ofRecord

/-- What a process contributes; nothing if its records cannot be contributed. -/
def part (only : Option Collection) (accessor : Node E → Option P) (r : Registry E) : Bytes :=
  (Contribution.encode (r.localRecords only accessor)).toOption.getD []

theorem sent_said (registries : List (Registry E)) (only : Option Collection)
    (accessor : Node E → Option P) :
    Canonical.Sent (registries.map (said only accessor)) = GridSays registries only accessor := by
  funext rank gid raw
  simp only [Canonical.Sent, GridSays, List.getElem?_map, Option.map_eq_some_iff, eq_iff_iff]
  constructor
  · rintro ⟨_, ⟨r, hr, rfl⟩, hmem⟩
    exact ⟨r, hr, Registry.mem_localRecords_iff.1 hmem⟩
  · rintro ⟨r, hr, hsays⟩
    exact ⟨_, ⟨r, hr, rfl⟩, Registry.mem_localRecords_iff.2 hsays⟩

/-- The records of a sound registry can be contributed, as long as their number can be announced. -/
theorem carries_part {config : GridConfig} {catalog : Catalog E} {r : Registry E}
    (hr : Registry.Sound config catalog r) {only : Option Collection} {accessor : Node E → Option P}
    (hwidth : Contribution.recordWidth P < Word.halfModulus)
    (hcount : (r.localRecords only accessor).length < Word.halfModulus) :
    Contribution.encode (r.localRecords only accessor) = .ok (part only accessor r) ∧
      Contribution.Carries P (part only accessor r) (said only accessor r) := by
  have hgids : ∀ v ∈ r.localRecords only accessor, v.gid ≠ Gid.reserved ∧ Word.Fits v.gid := by
    intro v hv
    have hmem : RawRecord.ofRecord v ∈ (r.localRecords only accessor).map RawRecord.ofRecord :=
      List.mem_map_of_mem hv
    obtain ⟨w, hw, n, hn, hgid, -⟩ := Registry.mem_localRecords_iff.1 hmem
    have hgid : n.gid = v.gid := hgid
    obtain ⟨hfirst, hnext⟩ := hr.gid_bounds hw hn
    have hfits := hr.fits
    simp only [Gid.first, Gid.reserved, Word.Fits] at hfirst hfits ⊢
    omega
  obtain ⟨bytes, hencode, hcarries⟩ := Contribution.carries_encode hwidth hcount hgids
  have hpart : part only accessor r = bytes := by
    rw [part, hencode]
    rfl
  rw [hpart]
  exact ⟨hencode, hcarries⟩

/-! ## What comes of it -/

section Grid

variable {config : GridConfig} {catalog : Catalog E} {registries : List (Registry E)}
  {only : Option Collection} {accessor : Node E → Option P}

/-- What comes of the contributions of all processes: the view of what their instances say, or its first
conflict. -/
theorem resolve_parts (hne : registries ≠ [])
    (hcarries : ∀ r ∈ registries,
      Contribution.Carries P (part only accessor r) (said only accessor r)) :
    ∃ g, Gathered.ofContributions (registries.map (part only accessor)) = .ok g ∧
      ((Canonical.Unanimous (GridSays registries only accessor) ∧
        ∃ view, (Canonical.resolve P .reject g).result = .ok view ∧
          Canonical.IsView (GridSays registries only accessor) view) ∨
      ∃ gid first second, (Canonical.resolve P .reject g).result =
          .error (.conflict gid first second) ∧
        Canonical.FirstConflict (GridSays registries only accessor) gid first second) := by
  have hall : List.Forall₂ (Contribution.Carries P) (registries.map (part only accessor))
      (registries.map (said only accessor)) := by
    rw [List.forall₂_map_left_iff, List.forall₂_map_right_iff, List.forall₂_same]
    exact hcarries
  have hparts : registries.map (part only accessor) ≠ [] := by simpa using hne
  have hg := Gathered.ofContributions_eq_ok hparts
  have hcases := Canonical.resolve_reject_cases hall hg
  rw [sent_said] at hcases
  exact ⟨_, hg, hcases⟩

/-- A view of all processes is a meeting, in which every process comes to what was contributed. -/
theorem meeting_gatherFrom {g : Gathered}
    (hg : Gathered.ofContributions (registries.map (part only accessor)) = .ok g)
    (hquiet : ∀ e, (Canonical.resolve P .reject g).result = .error e → e.isViolation = false)
    (hprocesses : ∀ r ∈ registries, r.config.processes = registries.length)
    (hencode : ∀ r ∈ registries,
      Contribution.encode (r.localRecords only accessor) = .ok (part only accessor r)) :
    Meeting (registries.map (part only accessor))
      (registries.map fun r => receive .reject r.config.processes (part only accessor r) (.ok g)) []
      (Session.ofPrograms (.ofSize registries.length)
        (registries.map fun r => r.gatherFrom { policy := .reject } only accessor)) := by
  have hlength : registries.length = (registries.map (part only accessor)).length := by
    rw [List.length_map]
  rw [hlength]
  refine Meeting.start (by simp) fun i program hprogram => ?_
  rw [List.getElem?_map, Option.map_eq_some_iff] at hprogram
  obtain ⟨r, hr, rfl⟩ := hprogram
  have hmem := List.mem_of_getElem? hr
  refine ⟨_, _, by rw [List.getElem?_map, hr]; rfl, by rw [List.getElem?_map, hr]; rfl, ?_⟩
  rw [hg]
  refine attends_gather (hencode r hmem) ?_ hquiet
  rw [Gathered.size_of_ofContributions hg, List.length_map, hprocesses r hmem]

/-- On every grid, whatever its processes went through, a view with a rejecting policy comes to the same
on every process: if the instances agree on each element it is exactly what they say, by ascending
number, and otherwise the conflict about the least element on which they do not. Nobody tears the group
down, and all are over when all have had a turn and then another one. The length and the number of the
records must fit the fields of a header that announce them. -/
theorem gatherFrom_agrees [Element E] (hcatalog : catalog.Formed) (hprocesses : 0 < config.processes)
    (hlength : registries.length = config.processes)
    (hreachable : ∀ (rank : Nat) r, registries[rank]? = some r →
      ∃ dispatch, Registry.Reachable (config.forRank rank) catalog dispatch r)
    (hwidth : Contribution.recordWidth P < Word.halfModulus)
    (hcount : ∀ r ∈ registries, (r.localRecords only accessor).length < Word.halfModulus) :
    let session := Session.ofPrograms (.ofSize config.processes)
      (registries.map fun r => r.gatherFrom { policy := .reject } only accessor)
    ∃ result,
      (Canonical.Unanimous (GridSays registries only accessor) →
        ∃ view, result = .ok view ∧
          Canonical.IsView (GridSays registries only accessor) view) ∧
      (¬ Canonical.Unanimous (GridSays registries only accessor) →
        ∃ gid first second, result = .error (.conflict gid first second) ∧
          Canonical.FirstConflict (GridSays registries only accessor) gid first second) ∧
      (∀ schedule, (session.run schedule).group.aborted = none ∧
        ∀ p ∈ (session.run schedule).participants, ∀ o, Session.result? p = some o →
          o.result = result) ∧
      ∀ first second, (∀ rank < config.processes, rank ∈ first) →
        (∀ rank < config.processes, rank ∈ second) →
        ∃ outcomes, (session.run (first ++ second)).results? = some outcomes ∧
          outcomes.length = config.processes ∧ ∀ o ∈ outcomes, o.result = result := by
  intro session
  have hsound : ∀ r ∈ registries, ∃ rank, Registry.Sound (config.forRank rank) catalog r := by
    intro r hr
    obtain ⟨rank, hrank⟩ := List.getElem?_of_mem hr
    obtain ⟨dispatch, hreach⟩ := hreachable rank r hrank
    exact ⟨rank, hreach.sound hcatalog.numbered⟩
  have hcarries : ∀ r ∈ registries,
      Contribution.encode (r.localRecords only accessor) = .ok (part only accessor r) ∧
        Contribution.Carries P (part only accessor r) (said only accessor r) := by
    intro r hr
    obtain ⟨rank, hr'⟩ := hsound r hr
    exact carries_part hr' hwidth (hcount r hr)
  have hsize : ∀ r ∈ registries, r.config.processes = registries.length := by
    intro r hr
    obtain ⟨rank, hr'⟩ := hsound r hr
    rw [hr'.config_eq, hlength]
    rfl
  have hne : registries ≠ [] := by
    rintro rfl
    rw [List.length_nil] at hlength
    omega
  obtain ⟨g, hg, hcases⟩ := resolve_parts hne fun r hr => (hcarries r hr).2
  have hquiet : ∀ e, (Canonical.resolve P .reject g).result = .error e → e.isViolation = false := by
    intro e he
    rcases hcases with ⟨-, view, hview, -⟩ | ⟨gid, first, second, herror, -⟩
    · rw [hview] at he
      cases he
    · rw [herror] at he
      cases he
      rfl
  have hmeeting := meeting_gatherFrom hg hquiet hsize fun r hr => (hcarries r hr).1
  rw [hlength] at hmeeting
  change Meeting _ _ [] session at hmeeting
  -- What a process makes of the round does not depend on its own part.
  have hvalue : ∀ o ∈ registries.map fun r =>
      receive .reject r.config.processes (part only accessor r) (.ok g),
      o.result = (Canonical.resolve P .reject g).result := by
    intro o ho
    obtain ⟨r, hr, rfl⟩ := List.mem_map.1 ho
    refine result_receive ?_
    rw [Gathered.size_of_ofContributions hg, List.length_map, hsize r hr]
  refine ⟨(Canonical.resolve P .reject g).result, fun hall => ?_, fun hnot => ?_,
    fun schedule => ⟨?_, fun p hp o ho => ?_⟩, fun first second hfirst hsecond => ?_⟩
  · rcases hcases with ⟨-, hview⟩ | ⟨gid, first, second, -, hconflict⟩
    · exact hview
    · exact absurd hall hconflict.not_unanimous
  · rcases hcases with ⟨hall, -⟩ | hconflict
    · exact absurd hall hnot
    · exact hconflict
  · exact (hmeeting.run schedule).aborted_eq
  · obtain ⟨i, hi⟩ := List.getElem?_of_mem hp
    exact hvalue o (List.mem_of_getElem? ((hmeeting.run schedule).result_eq hi ho))
  · refine ⟨_, hmeeting.results (by simp) ?_ ?_, by simp [hlength], hvalue⟩
    · intro rank hrank
      rw [List.length_map, hlength] at hrank
      exact hfirst rank hrank
    · intro rank hrank
      rw [List.length_map, hlength] at hrank
      exact hsecond rank hrank

end Grid

/-- Two processes with an element on both of them and another one on one of them. -/
theorem gatherFrom_agrees_pair :
    ∃ registries : List (Registry StandardElement), registries.length = 2 ∧
      (∀ (rank : Nat) r, registries[rank]? = some r → ∃ dispatch, Registry.Reachable
        (({ processes := 2, threads := 1 } : GridConfig).forRank rank) StandardElement.catalog
        dispatch r) ∧
      (∀ r ∈ registries,
        (r.localRecords none fun n => some (UInt64.ofNat n.gid)).length < Word.halfModulus) ∧
      let session := Session.ofPrograms (.ofSize 2)
        (registries.map fun r =>
          r.gatherFrom { policy := .reject } none fun n => some (UInt64.ofNat n.gid))
      ∃ outcomes, (session.run [0, 1, 1, 0]).results? = some outcomes ∧ outcomes.length = 2 := by
  obtain ⟨r, hr, hrcount⟩ : ∃ r, Registry.Reachable { processes := 2, threads := 1, rank := 0 }
      StandardElement.catalog .inTurn r ∧
      (r.localRecords none fun n => some (UInt64.ofNat n.gid)).length < Word.halfModulus := by
    refine ⟨_, ⟨_, [.create "recorder" 1, .create "counter" 1], rfl, rfl⟩, ?_⟩
    decide +kernel
  obtain ⟨r', hr', hrcount'⟩ : ∃ r, Registry.Reachable { processes := 2, threads := 1, rank := 1 }
      StandardElement.catalog .inTurn r ∧
      (r.localRecords none fun n => some (UInt64.ofNat n.gid)).length < Word.halfModulus := by
    refine ⟨_, ⟨_, [.create "recorder" 1, .create "counter" 1], rfl, rfl⟩, ?_⟩
    decide +kernel
  have hreachable : ∀ (rank : Nat) s, [r, r'][rank]? = some s → ∃ dispatch, Registry.Reachable
      (({ processes := 2, threads := 1 } : GridConfig).forRank rank) StandardElement.catalog
      dispatch s := by
    intro rank s hs
    match rank, hs with
    | 0, rfl => exact ⟨.inTurn, hr⟩
    | 1, rfl => exact ⟨.inTurn, hr'⟩
  have hcount : ∀ s ∈ [r, r'],
      (s.localRecords none fun n => some (UInt64.ofNat n.gid)).length < Word.halfModulus := by
    simp only [List.mem_cons, List.not_mem_nil, or_false]
    rintro s (rfl | rfl)
    · exact hrcount
    · exact hrcount'
  obtain ⟨result, -, -, -, hover⟩ := gatherFrom_agrees (Catalog.formed_ofEntries (by decide))
    (by decide) rfl hreachable (by decide) hcount
  obtain ⟨outcomes, hresults, hlength, -⟩ := hover [0, 1] [1, 0] (by decide) (by decide)
  exact ⟨[r, r'], rfl, hreachable, hcount, outcomes, hresults, hlength⟩

end ElementGrid.View
