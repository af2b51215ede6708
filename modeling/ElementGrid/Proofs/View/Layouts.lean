import ElementGrid.Proofs.Exchange.Collapse
import ElementGrid.Proofs.View.Teardown
/-!
# Records of different lengths

Two contributions whose records have different lengths cannot both be read as records of one length. So if
they come together in a round of a view, the protocol is broken for every rank, whatever its own records
look like and whether it has any: each tears the group down when it wakes up, and comes to a failure.

## Main definitions

* `View.Mixed` — two callers contribute records of different lengths
* `View.Caller.call` — a caller that gathers a view and goes on with what it comes to

## Main results

* `View.Mixed.exists_decodeAll_eq_error` — what mixed callers contribute can be read by nobody
* `View.mixed_layouts_break` — a complete round of mixed callers fails for every rank
-/

namespace ElementGrid

variable {α : Type}

/-! ## Contributions -/

section Contributions

variable {P Q : Type} [Payload P] [Payload Q]

/-- Who knows of records of another length does not take them for its own. -/
theorem Contribution.otherWidth_of_encode {records : List (ViewRecord Q)} {bytes : Bytes}
    (hencode : encode records = .ok bytes) (hne : records ≠ [])
    (hwidth : recordWidth Q < Word.halfModulus) (hother : recordWidth Q ≠ recordWidth P) :
    OtherWidth P bytes := by
  obtain rfl : header Q records.length ++ records.flatMap encodeRecord = bytes := by
    rw [encode, if_neg (by simpa using hne)] at hencode
    split at hencode
    · cases hencode
    · exact Except.ok.inj hencode
  obtain ⟨htag, hlength, -, -⟩ :=
    fields_header_append (P := Q) records.length (records.flatMap encodeRecord)
  refine ⟨?_, ?_, ?_⟩
  · rw [List.length_append, length_header]
    exact Nat.le_add_right _ _
  · rw [Bytes.numberAt, List.drop_zero, htag, Bytes.toNat_ofNat (by decide)]
  · rw [Bytes.numberAt, hlength, Bytes.toNat_ofNat hwidth]
    exact hother

theorem Canonical.exists_decodeAll_eq_error {parts : List Bytes} {g : Gathered} {rank : Nat}
    {part : Bytes} (hg : Gathered.ofContributions parts = .ok g) (hpart : parts[rank]? = some part)
    (hother : Contribution.OtherWidth P part) : ∃ e, decodeAll P g = .error e := by
  cases hread : decodeAll P g with
  | error e => exact ⟨e, rfl⟩
  | ok records =>
    rw [decodeAll, Gathered.contributions_of_ofContributions hg] at hread
    obtain ⟨said, hsaid, -⟩ := Except.map_eq_ok_iff.1 hread
    have hplace : (parts.zipIdx.map Prod.swap)[rank]? = some (rank, part) := by
      rw [List.getElem?_map, List.getElem?_zipIdx, hpart]
      simp
    obtain ⟨_, -, hdecode⟩ := Except.getElem?_of_mapM_eq_ok hsaid hplace
    have hrefused := (Contribution.decode_eq_recordSize_iff rank part).2 ⟨hother, rfl, rfl, rfl⟩
    cases hrefused.symm.trans hdecode

end Contributions

namespace View

/-! ## Callers -/

/-- The length of the records that a caller contributes. -/
def Caller.width (c : Caller) : Nat := Contribution.recordWidth c.P

/-- Two of the callers contribute records of different lengths, which can be announced. -/
def Mixed (callers : List Caller) : Prop :=
  ∃ c ∈ callers, ∃ d ∈ callers, c.records ≠ [] ∧ d.records ≠ [] ∧ c.width < Word.halfModulus ∧
    d.width < Word.halfModulus ∧ c.width ≠ d.width

/-- What mixed callers contribute can be read by nobody. -/
theorem Mixed.exists_decodeAll_eq_error {callers : List Caller} (h : Mixed callers)
    {parts : List Bytes} {g : Gathered}
    (hparts : ∀ (i : Nat) c, callers[i]? = some c →
      ∃ part, parts[i]? = some part ∧ Contribution.encode c.records = .ok part)
    (hg : Gathered.ofContributions parts = .ok g) (P : Type) [Payload P] :
    ∃ e, Canonical.decodeAll P g = .error e := by
  have hrefused : ∀ c ∈ callers, c.records ≠ [] → c.width < Word.halfModulus →
      c.width ≠ Contribution.recordWidth P → ∃ e, Canonical.decodeAll P g = .error e := by
    intro c hc hne hwidth hother
    obtain ⟨i, hi⟩ := List.getElem?_of_mem hc
    obtain ⟨part, hpart, hencode⟩ := hparts i c hi
    exact Canonical.exists_decodeAll_eq_error hg hpart
      (Contribution.otherWidth_of_encode hencode hne hwidth hother)
  -- A length that is the one of the first is not the one of the second.
  obtain ⟨c, hc, d, hd, hcne, hdne, hcwidth, hdwidth, hne⟩ := h
  by_cases hsame : c.width = Contribution.recordWidth P
  · exact hrefused d hd hdne hdwidth (hsame ▸ hne.symm)
  · exact hrefused c hc hcne hcwidth hsame

/-- A caller that gathers a view and goes on with whether and how it failed. -/
def Caller.call (config : ViewConfig) (participants : Nat) (goOn : Except ViewError Unit → Exchange α)
    (c : Caller) : Exchange α :=
  (c.program config participants).bind goOn

/-- A rank is about to go on after its view has failed for a broken protocol. -/
def Violated (goOn : Except ViewError Unit → Exchange α) (reason : String) (rest : Exchange α) : Prop :=
  ∃ e : ViewError, e.isViolation = true ∧ reason = e.message ∧ rest = goOn (.error e)

section Calls

variable {config : ViewConfig} {participants : Nat} {goOn : Except ViewError Unit → Exchange α}
  {c : Caller}

theorem Caller.call_of_encode_error {e : ViewError} (h : Contribution.encode c.records = .error e) :
    c.call config participants goOn = .abort e.message (goOn (.error e)) := by
  rw [call, program, gather, h]
  rfl

theorem conclude_of_isViolation {P : Type} {o : Canonical.Outcome P} {e : ViewError}
    (h : o.result = .error e) (hviolation : e.isViolation = true) :
    conclude o = .abort e.message (.done o) := by
  rw [conclude, h]
  simp only [hviolation, if_true]
  rfl

theorem Caller.call_of_encode {bytes : Bytes} (h : Contribution.encode c.records = .ok bytes) :
    c.call config participants goOn = .gather bytes fun reply =>
      ((fun o => o.result.map fun _ => ()) <$>
        conclude (receive (P := c.P) config.policy participants bytes reply)).bind goOn := by
  rw [call, program, gather_eq h]
  rfl

/-- Who cannot read what comes back tears the group down and goes on with that. -/
theorem Caller.recoils {bytes : Bytes} {g : Gathered} {e : ViewError}
    (h : Contribution.encode c.records = .ok bytes) (hsize : g.size = participants)
    (hread : Canonical.decodeAll c.P g = .error e) :
    (c.call config participants goOn).Recoils (.ok g) (Violated goOn) := by
  have hresult : (receive config.policy participants bytes (.ok g) : Canonical.Outcome c.P).result =
      .error e := by
    rw [result_receive hsize, Canonical.resolve, hread]
  have hviolation := Canonical.isViolation_of_decodeAll_eq_error hread
  refine ⟨_, _, _, _, call_of_encode h, ?_, e, hviolation, rfl, rfl⟩
  rw [conclude_of_isViolation hresult hviolation]
  show Exchange.abort e.message (goOn (Except.map _ (receive config.policy participants bytes (.ok g) :
    Canonical.Outcome c.P).result)) = _
  rw [hresult]
  rfl

end Calls

/-- The programs of callers with their settings. -/
def allCalls (configs : Nat → ViewConfig) (goOn : Nat → Except ViewError Unit → Exchange α)
    (callers : List Caller) : List (Exchange α) :=
  callers.mapIdx fun i c => c.call (configs i) callers.length (goOn i)

section Rounds

variable {configs : Nat → ViewConfig} {goOn : Nat → Except ViewError Unit → Exchange α}
  {callers : List Caller}

theorem getElem?_allCalls {i : Nat} {program : Exchange α} :
    (allCalls configs goOn callers)[i]? = some program ↔
      ∃ c, callers[i]? = some c ∧ program = c.call (configs i) callers.length (goOn i) := by
  rw [allCalls, List.getElem?_mapIdx, Option.map_eq_some_iff]
  exact ⟨fun ⟨c, hc, h⟩ => ⟨c, hc, h.symm⟩, fun ⟨c, hc, h⟩ => ⟨c, hc, h.symm⟩⟩

theorem punctual_allCalls : Punctual (allCalls configs goOn callers) := by
  intro program hprogram
  obtain ⟨i, hi⟩ := List.getElem?_of_mem hprogram
  obtain ⟨c, -, rfl⟩ := getElem?_allCalls.1 hi
  cases hencode : Contribution.encode c.records with
  | error e => exact .inr ⟨_, _, Caller.call_of_encode_error hencode⟩
  | ok bytes => exact .inl ⟨_, _, Caller.call_of_encode hencode⟩

theorem Mixed.incompatible (h : Mixed callers) :
    Incompatible (allCalls configs goOn callers) fun i => Violated (goOn i) := by
  intro parts ⟨hlength, hcontribute⟩ i program hprogram
  have hparts : ∀ (j : Nat) d, callers[j]? = some d →
      ∃ part, parts[j]? = some part ∧ Contribution.encode d.records = .ok part := by
    intro j d hd
    obtain ⟨part, next, hpart, hcall⟩ := hcontribute j _ (getElem?_allCalls.2 ⟨d, hd, rfl⟩)
    refine ⟨part, hpart, ?_⟩
    cases hencode : Contribution.encode d.records with
    | error e =>
      rw [Caller.call_of_encode_error hencode] at hcall
      cases hcall
    | ok bytes =>
      rw [Caller.call_of_encode hencode] at hcall
      cases hcall
      rfl
  obtain ⟨c, hc, rfl⟩ := getElem?_allCalls.1 hprogram
  obtain ⟨part, hpart, hencode⟩ := hparts i c hc
  have hne : parts ≠ [] := by
    rintro rfl
    cases hpart
  have hg := Gathered.ofContributions_eq_ok hne
  obtain ⟨e, hread⟩ := h.exists_decodeAll_eq_error hparts hg c.P
  rw [hg]
  refine Caller.recoils hencode ?_ hread
  rw [Gathered.size_of_ofContributions hg, hlength, allCalls, List.length_mapIdx]

/-- Wherever a session has come, the callers are in a round if all members are at their calls. -/
theorem exists_gathering {past : List (Exchange α)} (hpast : past.length = callers.length)
    {before : List Nat} {s : Session α}
    (hs : s = (Session.ofPrograms (.ofSize callers.length) past).run before)
    (hstands : s.group.aborted = none)
    (hmember : ∀ (i : Nat) p, s.participants[i]? = some p →
      (∃ c, callers[i]? = some c ∧ p.program = c.call (configs i) callers.length (goOn i)) ∧
        (p.awaited = none ∨ p.awaited = some s.group.generation)) :
    ∃ log, Gathering (allCalls configs goOn callers) s.group.generation log s := by
  subst hs
  have hlength : (allCalls configs goOn callers).length = callers.length := List.length_mapIdx
  have hstart := Gathering.of_run past (allCalls configs goOn callers) before
    (hpast.trans hlength.symm)
  rw [hlength] at hstart
  exact hstart hstands fun i p hi =>
    ⟨getElem?_allCalls.2 (hmember i p hi).1, (hmember i p hi).2⟩

/-- With two turns for each rank all have torn the group down. -/
theorem violated_of_collapse {round : Nat} {reply : Except ExchangeError Gathered} {turns : List Nat}
    {s : Session α} (h : Collapse round reply (fun i => Violated (goOn i)) turns s)
    (hranks : s.OnePerRank callers.length) (hsome : callers ≠ [])
    (hturns : ∀ i < callers.length, 2 ≤ turns.count i) :
    s.group.aborted.isSome = true ∧ ∀ (i : Nat) p, s.participants[i]? = some p →
      ∃ e : ViewError, e.isViolation = true ∧ (goOn i (.error e)).LeadsTo p.program := by
  have htold : ∀ (i : Nat) p, s.participants[i]? = some p → s.group.aborted.isSome = true ∧
      ∃ e : ViewError, e.isViolation = true ∧ (goOn i (.error e)).LeadsTo p.program := by
    intro i p hi
    have hlt : i < callers.length := by
      rw [← hranks.length_eq]
      exact (List.getElem?_eq_some_iff.1 hi).1
    obtain ⟨htorn, _, _, ⟨e, hviolation, -, rfl⟩, hleads⟩ := h.told hi (hturns i hlt)
    exact ⟨htorn, e, hviolation, hleads⟩
  have hfirst : 0 < s.participants.length := by
    rw [hranks.length_eq]
    exact List.length_pos_iff.2 hsome
  exact ⟨(htold 0 _ (List.getElem?_eq_getElem hfirst)).1, fun i p hi => (htold i p hi).2⟩

end Rounds

/-- In every session with one member for each rank, whatever its members have done before: let the group
stand, and let each rank be about to gather a view or already wait for it, with its own settings and its own
type of payloads, where two ranks contribute records of different lengths. If the round is ever over, it has
broken the protocol for every rank, also for those that contribute nothing: a rank still sleeps, or it tears
the group down and goes on with the violation that it has found. With two more turns for each rank, in
whatever order, all go on with a violation, and the group has been torn down. -/
theorem mixed_layouts_break {callers : List Caller} (hmixed : Mixed callers)
    (configs : Nat → ViewConfig) (goOn : Nat → Except ViewError Unit → Exchange α)
    (past : List (Exchange α)) (hpast : past.length = callers.length) (before : List Nat) :
    let s := (Session.ofPrograms (.ofSize callers.length) past).run before
    s.group.aborted = none →
    (∀ (i : Nat) p, s.participants[i]? = some p →
      (∃ c, callers[i]? = some c ∧ p.program = c.call (configs i) callers.length (goOn i)) ∧
        (p.awaited = none ∨ p.awaited = some s.group.generation)) →
    ∀ schedule, s.group.generation < (s.run schedule).group.generation →
      (∀ (i : Nat) p, (s.run schedule).participants[i]? = some p →
        p.awaited = some s.group.generation ∨
        ∃ e : ViewError, e.isViolation = true ∧
          (p.program = .abort e.message (goOn i (.error e)) ∨
            (s.run schedule).group.aborted.isSome = true ∧
              (goOn i (.error e)).LeadsTo p.program)) ∧
      ∀ later, (∀ i < callers.length, 2 ≤ later.count i) →
        ((s.run schedule).run later).group.aborted.isSome = true ∧
          ∀ (i : Nat) p, ((s.run schedule).run later).participants[i]? = some p →
            ∃ e : ViewError, e.isViolation = true ∧ (goOn i (.error e)).LeadsTo p.program := by
  intro s hstands hmember schedule hover
  obtain ⟨log, hgathering⟩ := exists_gathering hpast (s := s) rfl hstands hmember
  obtain ⟨reply, hcollapse⟩ :=
    hgathering.exists_collapse punctual_allCalls hmixed.incompatible hover
  refine ⟨fun i p hi => ?_, fun later hlater => ?_⟩
  · obtain hasleep | ⟨reason, rest, ⟨e, hviolation, rfl, rfl⟩, hraises⟩ := hcollapse.cases hi
    · exact .inl hasleep
    · exact .inr ⟨e, hviolation, hraises⟩
  · have hlength : (allCalls configs goOn callers).length = callers.length := List.length_mapIdx
    have hranks : ((s.run schedule).run later).OnePerRank callers.length :=
      hlength ▸ (hgathering.ranks.run schedule).run later
    obtain ⟨c, hc, -⟩ := hmixed
    exact violated_of_collapse (hcollapse.run later) hranks (List.ne_nil_of_mem hc) hlater

/-- A rank contributes nothing and has payloads of yet another length. -/
theorem mixed_layouts_break_bystander :
    let callers : List Caller :=
      [{ P := UInt64, records := [⟨5, 1⟩] }, { P := Unit, records := [⟨7, ()⟩] },
        { P := Vector Double 2, records := [] }]
    let programs : List (Exchange (Except ViewError Unit)) := callers.map (·.call {} 3 .done)
    let s := (Session.ofPrograms (.ofSize callers.length) programs).run []
    Mixed callers ∧ s.group.generation < (s.run [2, 0, 1]).group.generation ∧
      ((s.run [2, 0, 1]).run [0, 0, 1, 2, 1, 2]).group.aborted.isSome = true ∧
      ∀ (i : Nat) p, ((s.run [2, 0, 1]).run [0, 0, 1, 2, 1, 2]).participants[i]? = some p →
        ∃ e : ViewError, e.isViolation = true ∧ Session.result? p = some (.error e) := by
  intro callers programs s
  have hmixed : Mixed callers :=
    ⟨_, List.mem_cons_self, _, List.mem_cons_of_mem _ List.mem_cons_self, by decide, by decide,
      by decide, by decide, by decide⟩
  have hover : s.group.generation < (s.run [2, 0, 1]).group.generation := by decide +kernel
  have hmember : ∀ (i : Nat) p, s.participants[i]? = some p →
      (∃ c, callers[i]? = some c ∧ p.program = c.call {} callers.length .done) ∧
        (p.awaited = none ∨ p.awaited = some s.group.generation) := by
    intro i p hi
    match i, hi with
    | 0, rfl => exact ⟨⟨_, rfl, rfl⟩, .inl rfl⟩
    | 1, rfl => exact ⟨⟨_, rfl, rfl⟩, .inl rfl⟩
    | 2, rfl => exact ⟨⟨_, rfl, rfl⟩, .inl rfl⟩
  obtain ⟨-, hlast⟩ := mixed_layouts_break hmixed (fun _ => {}) (fun _ => .done) programs rfl [] rfl
    hmember [2, 0, 1] hover
  obtain ⟨htorn, hall⟩ := hlast [0, 0, 1, 2, 1, 2] (by decide)
  simp only [s] at hover ⊢
  refine ⟨hmixed, hover, htorn, fun i p hi => ?_⟩
  obtain ⟨e, hviolation, hleads⟩ := hall i p hi
  exact ⟨e, hviolation, by rw [Session.result?, hleads.eq_of_done]⟩

end View

end ElementGrid
