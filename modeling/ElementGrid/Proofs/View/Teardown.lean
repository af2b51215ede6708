import ElementGrid.Proofs.Exchange.Resumption
import ElementGrid.Proofs.Exchange.Teardown
import ElementGrid.Proofs.View.Agreement
import ElementGrid.Proofs.View.Failure
/-!
# Agreement or teardown

If every process reads what the others contribute, a round of a view leads all of them to the same, and
the group is ready for the next round. If the processes do not speak the same protocol, whoever finds
out tears the group down and the others are told so. A contradiction between records is no reason to do
that, nor is it that somebody else has done it.

## Main definitions

* `ViewError.isFatal` — the failures for which a view tears the group down
* `View.Caller` — a process that makes a view, with its own type of payloads

## Main results

* `View.careful_gather` — a view tears the group down for fatal failures only, and for all of them
* `View.gather_agrees_or_tears_down` — all come to the same, or the group is torn down
-/

namespace ElementGrid

/-- The failures for which a view tears the group down: there are too many records to contribute, or the
processes disagree on the protocol itself. -/
def ViewError.isFatal : ViewError → Bool
  | tooManyRecords _ => true
  | e => e.isViolation

theorem ViewError.isFatal_of_isViolation {e : ViewError} (h : e.isViolation = true) :
    e.isFatal = true := by
  cases e with
  | tooManyRecords => rfl
  | _ => exact h

namespace View

/-! ## Processes that agree -/

section Uniform

variable {P : Type} [Payload P] {config : ViewConfig} {records : List (List (ViewRecord P))}

/-- Every process can contribute its records, and its contribution can be read by all. -/
def Readable (records : List (List (ViewRecord P))) : Prop :=
  ∀ (rank : Nat) rs, records[rank]? = some rs → ∃ bytes said,
    Contribution.encode rs = .ok bytes ∧ Contribution.decode P rank bytes = .ok said

/-- Records of elements can be read by all, as long as their length and their number can be announced. -/
theorem readable_of_lt (hwidth : Contribution.recordWidth P < Word.halfModulus)
    (hcount : ∀ rs ∈ records, rs.length < Word.halfModulus)
    (hgids : ∀ rs ∈ records, ∀ r ∈ rs, r.gid ≠ Gid.reserved ∧ Word.Fits r.gid) : Readable records := by
  intro rank rs hrs
  have hmem := List.mem_of_getElem? hrs
  obtain ⟨bytes, hencode, hcarries⟩ :=
    Contribution.carries_encode hwidth (hcount rs hmem) (hgids rs hmem)
  exact ⟨bytes, _, hencode, Contribution.decode_of_carries rank hcarries⟩

theorem Readable.exists_decodeAll {parts : List Bytes} {g : Gathered} (h : Readable records)
    (hparts : records.mapM Contribution.encode = .ok parts)
    (hg : Gathered.ofContributions parts = .ok g) :
    ∃ said, Canonical.decodeAll P g = .ok said := by
  have hread : ∀ part ∈ parts.zipIdx.map Prod.swap,
      ∃ said, Contribution.decode P part.1 part.2 = .ok said := by
    intro part hpart
    obtain ⟨⟨bytes, rank⟩, hmem, rfl⟩ := List.mem_map.1 hpart
    have hbytes := List.mem_zipIdx_iff_getElem?.1 hmem
    have hlength := Except.length_of_mapM_eq_ok hparts
    have hrank : rank < records.length := by
      rw [← hlength]
      exact (List.getElem?_eq_some_iff.1 hbytes).1
    obtain ⟨bytes', said, hencode, hdecode⟩ := h rank _ (List.getElem?_eq_getElem hrank)
    obtain ⟨bytes'', hbytes'', hencode'⟩ :=
      Except.getElem?_of_mapM_eq_ok hparts (List.getElem?_eq_getElem hrank)
    rw [hencode] at hencode'
    cases hencode'
    rw [hbytes] at hbytes''
    cases hbytes''
    exact ⟨said, hdecode⟩
  obtain ⟨said, hsaid⟩ := Except.exists_mapM_eq_ok hread
  refine ⟨said.flatten, ?_⟩
  rw [Canonical.decodeAll, Gathered.contributions_of_ofContributions hg]
  exact congrArg (List.flatten <$> ·) hsaid

theorem Readable.resolve_cases {parts : List Bytes} {g : Gathered} (h : Readable records)
    (hparts : records.mapM Contribution.encode = .ok parts)
    (hg : Gathered.ofContributions parts = .ok g) (policy : ConflictPolicy) :
    (∃ view, (Canonical.resolve P policy g).result = .ok view) ∨
      ∃ gid first second, (Canonical.resolve P policy g).result =
        .error (.conflict gid first second) := by
  obtain ⟨said, hsaid⟩ := h.exists_decodeAll hparts hg
  rw [Canonical.resolve, hsaid]
  cases hresult : (Canonical.canonicalize policy said).result with
  | ok view => exact .inl ⟨view, rfl⟩
  | error e =>
    obtain ⟨gid, first, second, rfl⟩ := Canonical.exists_of_canonicalize_eq_error hresult
    exact .inr ⟨gid, first, second, rfl⟩

/-- Processes whose records can be contributed meet, as long as nobody finds the protocol broken. -/
theorem meeting_gather {config : ViewConfig} {parts : List Bytes} {g : Gathered}
    (hparts : records.mapM Contribution.encode = .ok parts)
    (hg : Gathered.ofContributions parts = .ok g)
    (hquiet : ∀ e, (Canonical.resolve P config.policy g).result = .error e → e.isViolation = false) :
    Meeting parts (parts.map fun part => receive config.policy records.length part (.ok g)) []
      (Session.ofPrograms (.ofSize records.length)
        (records.map (gather config records.length))) := by
  have hlength := Except.length_of_mapM_eq_ok hparts
  rw [← hlength]
  refine Meeting.start (by rw [List.length_map, hlength]) fun i program hprogram => ?_
  rw [List.getElem?_map, Option.map_eq_some_iff] at hprogram
  obtain ⟨rs, hrs, rfl⟩ := hprogram
  obtain ⟨part, hpart, hencode⟩ := Except.getElem?_of_mapM_eq_ok hparts hrs
  refine ⟨part, _, hpart, by rw [List.getElem?_map, hpart]; rfl, ?_⟩
  rw [hg]
  exact attends_gather hencode (Gathered.size_of_ofContributions hg) hquiet

/-- Processes that can read each other meet, and all come to the same. -/
theorem Readable.exists_meeting (h : Readable records) (config : ViewConfig) :
    ∃ (parts : List Bytes) (values : List (Canonical.Outcome P))
      (result : Except ViewError (List (ViewRecord P))),
      ((∃ view, result = .ok view) ∨ ∃ gid first second, result = .error (.conflict gid first second)) ∧
      parts.length = records.length ∧ values.length = records.length ∧
      (∀ o ∈ values, o.result = result) ∧
      Meeting parts values [] (Session.ofPrograms (.ofSize records.length)
        (records.map (gather config records.length))) := by
  obtain ⟨parts, hparts⟩ : ∃ parts, records.mapM Contribution.encode = .ok parts := by
    refine Except.exists_mapM_eq_ok fun rs hrs => ?_
    obtain ⟨rank, hrank⟩ := List.getElem?_of_mem hrs
    obtain ⟨bytes, -, hencode, -⟩ := h rank rs hrank
    exact ⟨bytes, hencode⟩
  have hlength := Except.length_of_mapM_eq_ok hparts
  -- Where nobody takes part nothing can be joined, but then nobody is to come to anything either.
  by_cases hnobody : parts = []
  · subst hnobody
    obtain rfl : records = [] := List.length_eq_zero_iff.1 hlength.symm
    refine ⟨[], [], .ok [], .inl ⟨[], rfl⟩, rfl, rfl, by simp, Meeting.start rfl ?_⟩
    intro i program hprogram
    cases hprogram
  · have hg := Gathered.ofContributions_eq_ok hnobody
    have hcases := h.resolve_cases hparts hg config.policy
    refine ⟨parts, _, _, hcases, hlength, (List.length_map _).trans hlength, fun o ho => ?_,
      meeting_gather hparts hg fun e he => ?_⟩
    · obtain ⟨part, -, rfl⟩ := List.mem_map.1 ho
      exact result_receive ((Gathered.size_of_ofContributions hg).trans hlength)
    · rcases hcases with ⟨view, hview⟩ | ⟨gid, first, second, hconflict⟩
      · rw [hview] at he
        cases he
      · rw [hconflict] at he
        cases he
        rfl

end Uniform

/-! ## Processes that may disagree -/

/-- A process that makes a view, with its own type of payloads. -/
structure Caller where
  P : Type
  [payload : Payload P]
  records : List (ViewRecord P)

attribute [instance] Caller.payload

/-- One round of a view, of which the caller is told whether and how it failed. -/
def Caller.program (config : ViewConfig) (participants : Nat) (c : Caller) :
    Exchange (Except ViewError Unit) :=
  (fun o => o.result.map fun _ => ()) <$> gather config participants c.records

/-- The reason for which a view tears the group down that comes to a result. -/
def cause? : Except ViewError Unit → Option String
  | .ok _ => none
  | .error e => if e.isFatal then some e.message else none

theorem cause?_eq_some {r : Except ViewError Unit} {reason : String} (h : cause? r = some reason) :
    ∃ e, r = .error e ∧ e.isFatal = true ∧ reason = e.message := by
  cases r with
  | ok _ => cases h
  | error e =>
    rw [cause?] at h
    split at h
    · rename_i hfatal
      cases h
      exact ⟨e, rfl, hfatal, rfl⟩
    · cases h

theorem cause?_of_isFatal {e : ViewError} (h : e.isFatal = true) :
    cause? (.error e) = some e.message := by
  rw [cause?, if_pos h]

/-- What a process makes of a round tears the group down if the protocol is broken, and only then. -/
theorem careful_conclude {P : Type} {o : Canonical.Outcome P}
    (h : ∀ e, o.result = .error e → e.isViolation = true ∨
      (∃ gid first second, e = .conflict gid first second) ∨
        ∃ reason, e = .exchange (.aborted reason)) :
    ((fun o : Canonical.Outcome P => o.result.map fun _ => ()) <$> conclude o).Careful cause? := by
  cases hresult : o.result with
  | ok view =>
    have hcause : cause? (o.result.map fun _ => ()) = none := by
      rw [hresult]
      rfl
    rw [conclude_eq fun e he => by rw [hresult] at he; cases he]
    exact .ended _ hcause
  | error e =>
    -- Of the ways in which a round fails, a broken protocol is the one that tears the group down.
    cases hviolation : e.isViolation with
    | true =>
      have hcause : cause? (o.result.map fun _ => ()) = some e.message := by
        rw [hresult]
        exact cause?_of_isFatal (ViewError.isFatal_of_isViolation hviolation)
      simp only [conclude, hresult, hviolation, if_true]
      exact .tearing _ _ hcause
    | false =>
      have hcause : cause? (o.result.map fun _ => ()) = none := by
        rw [hresult]
        rcases h e hresult with hyes | ⟨gid, first, second, rfl⟩ | ⟨reason, rfl⟩
        · rw [hviolation] at hyes
          cases hyes
        · rfl
        · rfl
      rw [conclude_eq fun e' he' => by rw [hresult] at he'; cases he'; exact hviolation]
      exact .ended _ hcause

/-- A view tears the group down for the fatal failure that it comes to, and for nothing else. -/
theorem careful_gather (config : ViewConfig) (participants : Nat) (c : Caller) :
    (c.program config participants).Careful cause? := by
  rw [Caller.program]
  cases hencode : Contribution.encode c.records with
  | error e =>
    obtain rfl := Contribution.eq_of_encode_eq_error hencode
    have hcause := cause?_of_isFatal (e := .tooManyRecords c.records.length) rfl
    rw [gather, hencode]
    exact .tearing _ _ hcause
  | ok bytes =>
    rw [gather_eq hencode]
    exact .round bytes _ fun reply => careful_conclude fun e => cases_of_receive_eq_error

theorem guarded_gather (config : ViewConfig) (callers : List Caller) :
    (Session.ofPrograms (.ofSize callers.length)
      (callers.map (·.program config callers.length))).Guarded cause? := by
  refine Session.Guarded.start rfl fun program hprogram => ?_
  obtain ⟨⟨program, rank⟩, hmem, rfl⟩ := List.mem_map.1 hprogram
  obtain ⟨c, -, rfl⟩ := List.mem_map.1 (List.fst_mem_of_mem_zipIdx hmem)
  exact careful_gather config callers.length c

/-- In a round of a view with the same settings on all processes, however the turns are mixed:

If every process can read what the others contribute, all come to the same view or the same conflict,
nobody tears the group down, all are over when all have had a turn and then another one, and the group
they leave completes a further round.

Whatever the processes contribute, the group has been torn down when one of them comes to a fatal
failure, and all calls from then on are turned away. A process tears the group down only for the fatal
failure that it comes to itself, which is neither a conflict nor that another one has torn it down. -/
theorem gather_agrees_or_tears_down (config : ViewConfig) :
    (∀ (P : Type) [Payload P] (records : List (List (ViewRecord P))), Readable records →
      let session := Session.ofPrograms (.ofSize records.length)
        (records.map (gather config records.length))
      ∃ result,
        ((∃ view, result = .ok view) ∨
          ∃ gid first second, result = .error (.conflict gid first second)) ∧
        (∀ schedule, (session.run schedule).group.aborted = none ∧
          ∀ p ∈ (session.run schedule).participants, ∀ o, Session.result? p = some o →
            o.result = result) ∧
        (∀ first second, (∀ rank < records.length, rank ∈ first) →
          (∀ rank < records.length, rank ∈ second) →
          ∃ outcomes, (session.run (first ++ second)).results? = some outcomes ∧
            outcomes.length = records.length ∧ ∀ o ∈ outcomes, o.result = result) ∧
        ∀ schedule outcomes, (session.run schedule).results? = some outcomes →
          ∀ parts : List Bytes, parts.length = records.length →
          ∀ first second, (∀ rank < records.length, rank ∈ first) →
            (∀ rank < records.length, rank ∈ second) →
            ((Session.ofPrograms (session.run schedule).group
              (parts.map Exchange.allGather)).run (first ++ second)).results? =
                some (parts.map fun _ => Gathered.ofContributions parts)) ∧
    ∀ (callers : List Caller) schedule,
      let session := (Session.ofPrograms (.ofSize callers.length)
        (callers.map (·.program config callers.length))).run schedule
      (∀ p ∈ session.participants, ∀ e, Session.result? p = some (.error e) → e.isFatal = true →
        ∃ reason, session.group.aborted = some reason ∧
          ∀ (α : Type) (later : Session α), later.group = session.group → ∀ schedule',
            (later.run schedule').group.aborted = some reason ∧
            ∀ rank part, (later.run schedule').group.enter rank part =
              (.answered (.error (.aborted reason)), (later.run schedule').group)) ∧
      (∀ reason, session.group.aborted = some reason →
        ∃ p ∈ session.participants, ∃ e, Session.result? p = some (.error e) ∧
          e.isFatal = true ∧ reason = e.message) ∧
      ∀ p ∈ session.participants, ∀ reason next, p.program = .abort reason next →
        ∃ e, next = .done (.error e) ∧ e.isFatal = true ∧ reason = e.message ∧
          (∀ gid first second, e ≠ .conflict gid first second) ∧
          ∀ why, e ≠ .exchange (.aborted why) := by
  refine ⟨fun P _ records hreadable => ?_, fun callers schedule => ?_⟩
  · intro session
    obtain ⟨parts, values, result, hcases, hparts, hvalues, hsame, hmeeting⟩ :=
      hreadable.exists_meeting config
    change Meeting parts values [] session at hmeeting
    rw [← hparts] at hvalues ⊢
    refine ⟨result, hcases, fun schedule => ⟨(hmeeting.run schedule).aborted_eq, fun p hp o ho => ?_⟩,
      fun first second hfirst hsecond => ?_, fun schedule outcomes hover parts' hlength => ?_⟩
    · obtain ⟨i, hi⟩ := List.getElem?_of_mem hp
      exact hsame o (List.mem_of_getElem? ((hmeeting.run schedule).result_eq hi ho))
    · exact ⟨values, hmeeting.results hvalues hfirst hsecond, hvalues, hsame⟩
    · intro first second hfirst hsecond
      rw [← hlength] at hfirst hsecond
      exact (hmeeting.run schedule).results_again hover hlength (List.length_map _)
        (Meeting.start_allGather parts') hfirst hsecond
  -- What a process comes to, and what it is about to do, tells whether the group stands.
  · intro session
    have hguarded := (guarded_gather config callers).run schedule
    change session.Guarded cause? at hguarded
    refine ⟨fun p hp e hover hfatal => ?_, fun reason hreason => ?_, fun p hp reason next habort => ?_⟩
    · obtain ⟨reason, haborted⟩ :=
        hguarded.aborted_of_cause hp hover (cause?_of_isFatal hfatal)
      refine ⟨reason, haborted, fun α later hlater schedule' => ?_⟩
      have hremains := Session.aborted_run (hlater ▸ haborted) schedule'
      exact ⟨hremains, Group.enter_of_aborted hremains⟩
    · obtain ⟨p, hp, r, hover, hcause⟩ := hguarded.caused reason hreason
      obtain ⟨e, rfl, hfatal, hmessage⟩ := cause?_eq_some hcause
      exact ⟨p, hp, e, hover, hfatal, hmessage⟩
    · obtain ⟨r, rfl, hcause⟩ := hguarded.result_of_abort hp habort
      obtain ⟨e, rfl, hfatal, hmessage⟩ := cause?_eq_some hcause
      refine ⟨e, rfl, hfatal, hmessage, ?_, ?_⟩
      · rintro gid first second rfl
        cases hfatal
      · rintro why rfl
        cases hfatal

/-- Two processes that contradict each other come to an end and meet again. If one of them sends
payloads of another length, the one that finds out first tears the group down. -/
theorem gather_agrees_or_tears_down_two :
    let records : List (List (ViewRecord UInt64)) := [[⟨5, 1⟩], [⟨5, 2⟩]]
    let session := (Session.ofPrograms (.ofSize records.length)
      (records.map (gather {} records.length))).run ([0, 1] ++ [1, 0])
    let callers : List Caller :=
      [{ P := UInt64, records := [⟨5, 1⟩] }, { P := Unit, records := [⟨5, ()⟩] }]
    let torn := (Session.ofPrograms (.ofSize callers.length)
      (callers.map (·.program {} callers.length))).run [0, 1, 1]
    Readable records ∧
      (∃ outcomes, session.results? = some outcomes ∧ outcomes.length = 2 ∧
        ((Session.ofPrograms session.group ([[7], [8]].map Exchange.allGather)).run
          ([1, 0] ++ [0, 1])).results? = some [Gathered.ofContributions [[7], [8]],
            Gathered.ofContributions [[7], [8]]]) ∧
      ∃ p ∈ torn.participants, Session.result? p = some (.error (.recordSize 0 8 16)) ∧
        ∃ reason, torn.group.aborted = some reason ∧ ∀ schedule rank part,
          (torn.run schedule).group.enter rank part =
            (.answered (.error (.aborted reason)), (torn.run schedule).group) := by
  intro records session callers torn
  have hreadable : Readable records := readable_of_lt (by decide) (by decide) (by decide)
  obtain ⟨hagree, htear⟩ := gather_agrees_or_tears_down {}
  obtain ⟨result, -, -, hover, hagain⟩ := hagree UInt64 records hreadable
  obtain ⟨outcomes, hresults, hlength, -⟩ := hover [0, 1] [1, 0] (by decide) (by decide)
  refine ⟨hreadable, ⟨outcomes, hresults, hlength, ?_⟩, ?_⟩
  · exact hagain _ outcomes hresults [[7], [8]] rfl [1, 0] [0, 1] (by decide) (by decide)
  · have hresult : torn.participants[1]?.bind Session.result? =
        some (.error (.recordSize 0 8 16)) := by
      decide +kernel
    obtain ⟨p, hp, hfailed⟩ := Option.bind_eq_some_iff.1 hresult
    have hmem := List.mem_of_getElem? hp
    obtain ⟨reason, haborted, hlater⟩ := (htear callers [0, 1, 1]).1 p hmem _ hfailed rfl
    have hturned := fun schedule => (hlater _ _ rfl schedule).2
    simp only [torn]
    exact ⟨p, hmem, hfailed, reason, haborted, hturned⟩

end View

end ElementGrid
