import ElementGrid.Proofs.Exchange.Rounds
import ElementGrid.Proofs.Exchange.Teardown
/-!
# Members that wait

A rank may have several members, which act for it at the same time. While one of them waits the slot of
its rank is taken, but only until its round is over: from then on, and before it has woken up, another
member can contribute for the rank to the next round. The group keeps the latest result only. So who wakes
up gets the result of the latest complete round, which is its own if no other call of its rank was accepted
meanwhile.

## Main definitions

* `Rounds.Filled` — a rank that has contributed to the round under way has a member that waits
* `Rounds.Underway` — who waits has a call under way
* `Session.Faithful` — who gets a result finds in it what it has contributed

## Main results

* `Rounds.Underway.run` — whatever the members do and whomever they act for, who waits has a call under way
* `Rounds.Underway.exists_latest` — who gets a result gets that of the latest complete round
* `Rounds.result_is_latest` — a result is that of the latest complete round, and when it is the caller's own
* `Rounds.not_faithful_overtaken` — a member that is overtaken by another one of its rank gets its result
-/

namespace ElementGrid

variable {α : Type}

/-- Who gets a result finds in the place of its rank what it has contributed. -/
def Session.Faithful (s : Session α) : Prop :=
  ∀ schedule i p contribution next g, (s.run schedule).participants[i]? = some p →
    p.program = .gather contribution next →
    ((s.run schedule).turn i).answered? = some (p.rank, .ok g) →
    g.contribution? p.rank = some contribution

/-! ## Turns of a member -/

namespace Group.Move

variable {g g' : Group} {rank : Nat} {awaited awaited' : Option Nat} {t : Turn}

theorem generation_le (h : g.Move rank awaited t g' awaited') : g.generation ≤ g'.generation := by
  cases h with
  | completed => exact Nat.le_succ _
  | _ => exact Nat.le_refl _

end Group.Move

/-- Who waits after its turn has been waiting in the same round and goes on to, or has just made a call that
has to wait for the round under way. -/
theorem Participant.waits_step {g : Group} {p : Participant α} {round : Nat}
    (hgather : p.awaited.isSome = true → ∃ contribution next, p.program = .gather contribution next)
    (hwaits : (p.step g).2.awaited = some round) :
    p.awaited = some round ∧ p.step g = (g, p) ∨
    ∃ contribution next, p.program = .gather contribution next ∧ round = g.generation ∧
      g.accepts p.rank = true ∧ (p.step g).2 = { p with awaited := some round } ∧
      p.turn g = .entered p.rank contribution := by
  obtain ⟨rank, program, awaited⟩ := p
  cases awaited with
  | some generation =>
    obtain ⟨contribution, next, rfl⟩ := hgather rfl
    left
    cases hwake : g.wake generation with
    | none =>
      simp only [step, hwake] at hwaits ⊢
      exact ⟨hwaits, trivial⟩
    | some reply =>
      simp only [step, hwake] at hwaits
      cases hwaits
  | none =>
    right
    cases program with
    | done | abort | poll => cases hwaits
    | gather contribution next =>
      cases haccepts : g.accepts rank with
      | false =>
        obtain ⟨e, henter⟩ := Group.enter_of_not_accepts haccepts contribution
        simp only [step, henter] at hwaits
        cases hwaits
      | true =>
        have henter := Group.enter_of_accepts haccepts contribution
        by_cases hlast : g.arrived + 1 = g.size
        · rw [if_pos hlast] at henter
          simp only [step, henter] at hwaits
          cases hwaits
        · rw [if_neg hlast] at henter
          simp only [step, henter] at hwaits
          cases hwaits
          refine ⟨contribution, next, rfl, rfl, rfl, ?_, ?_⟩
          · simp only [step, henter]
          · simp only [Participant.turn, haccepts, henter, if_true]

namespace Rounds

/-! ## Slots -/

/-- As long as the group stands, a rank that has contributed to the round under way has a member that waits
for it. -/
def Filled (g : Group) (members : List (Nat × Option Nat)) : Prop :=
  g.aborted = none → ∀ rank contribution, g.slots[rank]? = some (some contribution) →
    (rank, some g.generation) ∈ members

theorem filled_start (size : Nat) (members : List (Nat × Option Nat)) :
    Filled (.ofSize size) members := by
  intro _ rank contribution hslot
  simp [Group.ofSize, List.getElem?_replicate] at hslot

theorem mem_set_of_ne {members : List (Nat × Option Nat)} {i : Nat} {m old new : Nat × Option Nat}
    (hm : m ∈ members) (hi : members[i]? = some old) (hne : m ≠ old) : m ∈ members.set i new := by
  obtain ⟨j, hj⟩ := List.getElem?_of_mem hm
  by_cases hij : i = j
  · subst hij
    rw [hi] at hj
    cases hj
    exact absurd rfl hne
  · exact List.mem_of_getElem? ((List.getElem?_set_ne hij).trans hj)

theorem Filled.move {g g' : Group} {members : List (Nat × Option Nat)} {i rank : Nat}
    {awaited awaited' : Option Nat} {t : Turn} (h : Filled g members)
    (hi : members[i]? = some (rank, awaited)) (hmove : g.Move rank awaited t g' awaited') :
    Filled g' (members.set i (rank, awaited')) := by
  have hsame : members.set i (rank, awaited) = members := by
    obtain ⟨hlt, hmember⟩ := List.getElem?_eq_some_iff.1 hi
    rw [← hmember, List.set_getElem_self]
  cases hmove with
  | idle | refused =>
    rw [hsame]
    exact h
  | abort _ reason =>
    intro hstands
    cases hstands
  | entered contribution haccepts hwaits =>
    intro hstands q part hslot
    show (q, some g.generation) ∈ _
    by_cases hq : q = rank
    · subst hq
      exact List.mem_set (List.getElem?_eq_some_iff.1 hi).1 _
    · have hslot : (g.slots.set rank (some contribution))[q]? = some (some part) := hslot
      rw [List.getElem?_set_ne (Ne.symm hq)] at hslot
      exact mem_set_of_ne (h hstands q part hslot) hi fun heq => hq (congrArg Prod.fst heq)
  | completed contribution haccepts hlast =>
    -- The slots have been emptied for the next round.
    intro _ q part hslot
    have hslot : ((g.withCall rank contribution).slots.map fun _ => none)[q]? = some (some part) := hslot
    rw [List.getElem?_map] at hslot
    obtain ⟨_, _, hpart⟩ := Option.map_eq_some_iff.1 hslot
    cases hpart
  | returned round reply hwake =>
    intro hstands q part hslot
    refine mem_set_of_ne (h hstands q part hslot) hi fun heq => ?_
    -- As the group stands, who wakes up has waited for a round that is over.
    obtain rfl : g.generation = round := by simpa using congrArg Prod.snd heq
    rw [Group.wake, if_pos rfl, hstands] at hwake
    cases hwake

/-! ## Calls -/

theorem getElem?_calls_append {log : List Turn} {rank round : Nat} {contribution : Bytes}
    (h : (calls log rank)[round]? = some contribution) (later : List Turn) :
    (calls (log ++ later) rank)[round]? = some contribution := by
  obtain ⟨hlt, rfl⟩ := List.getElem?_eq_some_iff.1 h
  exact List.prefix_iff_getElem?.1 (shown_mono _ log later rank) round hlt

/-- What holds of a session whose members act for ranks of the group, several of them maybe for the same
rank: who waits does so in a call that its rank has contributed to the round it waits for. -/
structure Underway (size : Nat) (log : List Turn) (s : Session α) : Prop where
  minutes : Minutes size (calls log) s.group
  filled : Filled s.group (members s)
  rank_lt : ∀ p ∈ s.participants, p.rank < size
  waiting : ∀ p ∈ s.participants, ∀ round, p.awaited = some round → round ≤ s.group.generation ∧
    ∃ contribution next, p.program = .gather contribution next ∧
      (calls log p.rank)[round]? = some contribution

namespace Underway

variable {size : Nat} {log : List Turn} {s : Session α}

theorem start {programs : List (Nat × Exchange α)} (hranks : ∀ m ∈ programs, m.1 < size) :
    Underway size [] (Session.start (.ofSize size) programs) where
  minutes := Minutes.start size
  filled := filled_start size _
  rank_lt := by
    intro p hp
    obtain ⟨program, hprogram, rfl⟩ := List.mem_map.1 hp
    exact hranks program hprogram
  waiting := by
    intro p hp round hround
    obtain ⟨program, -, rfl⟩ := List.mem_map.1 hp
    cases hround

theorem ofPrograms (programs : List (Exchange α)) :
    Underway programs.length [] (Session.ofPrograms (.ofSize programs.length) programs) := by
  refine Underway.start fun m hm => ?_
  obtain ⟨⟨program, rank⟩, hmem, rfl⟩ := List.mem_map.1 hm
  exact (List.getElem?_eq_some_iff.1 (List.mem_zipIdx_iff_getElem?.1 hmem)).1

theorem gathers (h : Underway size log s) {p : Participant α} (hp : p ∈ s.participants)
    (hwaits : p.awaited.isSome = true) : ∃ contribution next, p.program = .gather contribution next := by
  obtain ⟨round, hround⟩ := Option.isSome_iff_exists.1 hwaits
  obtain ⟨-, contribution, next, hprogram, -⟩ := h.waiting p hp round hround
  exact ⟨contribution, next, hprogram⟩

theorem step (h : Underway size log s) (i : Nat) :
    Underway size (log ++ [s.turn i]) (s.step i) := by
  cases hi : s.participants[i]? with
  | none =>
    rw [Session.turn, Session.step, hi]
    refine ⟨?_, h.filled, h.rank_lt, ?_⟩
    · rw [calls_append_of_none rfl]
      exact h.minutes
    · rw [calls_append_of_none rfl]
      exact h.waiting
  | some p =>
    have hp := List.mem_of_getElem? hi
    have hrank := h.rank_lt p hp
    rw [Session.turn_eq hi, Session.step_eq hi]
    have hmembers : members (⟨(p.step s.group).1, s.participants.set i (p.step s.group).2⟩ : Session α)
        = (members s).set i (p.rank, (p.step s.group).2.awaited) := by
      simp only [members, List.map_set, Participant.rank_step]
    refine ⟨h.minutes.move hrank (p.move s.group), ?filled, fun q hq => ?rankLt,
      fun q hq round hround => ?waiting⟩
    case filled =>
      rw [hmembers]
      exact h.filled.move (getElem?_members hi) (p.move s.group)
    case rankLt =>
      rcases List.mem_or_eq_of_mem_set hq with hq | rfl
      · exact h.rank_lt q hq
      · rw [Participant.rank_step]
        exact hrank
    case waiting =>
      have hup := (p.move s.group).generation_le
      have hold : ∀ q ∈ s.participants, q.awaited = some round →
          round ≤ (p.step s.group).1.generation ∧ ∃ contribution next,
            q.program = .gather contribution next ∧
              (calls (log ++ [p.turn s.group]) q.rank)[round]? = some contribution := by
        intro q hq hround
        obtain ⟨hle, contribution, next, hprogram, hcall⟩ := h.waiting q hq round hround
        exact ⟨Nat.le_trans hle hup, contribution, next, hprogram, getElem?_calls_append hcall _⟩
      rcases List.mem_or_eq_of_mem_set hq with hq | rfl
      · exact hold q hq hround
      · obtain ⟨hwaits, hstep⟩ | ⟨contribution, next, hprogram, rfl, haccepts, hstep, hturn⟩ :=
          Participant.waits_step (h.gathers hp) hround
        · have hstays : (p.step s.group).2 = p := congrArg Prod.snd hstep
          rw [hstays]
          exact hold p hp hwaits
        · -- The call that has just been accepted is the one behind those of the rounds that are over.
          rw [hstep, hturn, calls_append_of_some rfl, extend_self]
          refine ⟨hup, contribution, next, hprogram, ?_⟩
          rw [← h.minutes.length_of_accepts hrank haccepts]
          simp

theorem run (h : Underway size log s) (schedule : List Nat) :
    Underway size (log ++ s.log schedule) (s.run schedule) :=
  Session.keeps_run (fun _ _ i h => h.step i) h schedule

/-- While the group stands, who has contributed to the round under way has a member that waits in this very
call. -/
theorem exists_waiting (h : Underway size log s) (hstands : s.group.aborted = none) {rank : Nat}
    (hrank : rank < size) {contribution : Bytes}
    (hcall : (calls log rank)[s.group.generation]? = some contribution) :
    ∃ p ∈ s.participants, p.rank = rank ∧ p.awaited = some s.group.generation ∧
      ∃ next, p.program = .gather contribution next := by
  have hslot := h.minutes.slot_eq rank hrank
  rw [hcall, eq_comm, Option.getD_eq_iff] at hslot
  obtain hslot | ⟨-, hnone⟩ := hslot
  · obtain ⟨p, hp, heq⟩ := List.mem_map.1 (h.filled hstands rank contribution hslot)
    obtain ⟨rfl, hwaits⟩ := Prod.mk.inj heq
    obtain ⟨-, contribution', next, hprogram, hcall'⟩ := h.waiting p hp _ hwaits
    obtain rfl := Option.some.inj (hcall.symm.trans hcall')
    exact ⟨p, hp, rfl, hwaits, next, hprogram⟩
  · cases hnone

end Underway

/-! ## Results -/

/-- What a rank finds in its place of what comes of a round that is over is what it contributed to it. -/
theorem Minutes.contribution?_eq {size : Nat} {sent : Nat → List Bytes} {group : Group} {g : Gathered}
    {round rank : Nat} (h : Minutes size sent group) (hrank : rank < size)
    (hover : round < group.generation) (hg : outcome size sent round = .ok g) :
    g.contribution? rank = (sent rank)[round]? := by
  have hlength := Nat.lt_of_lt_of_le hover (h.sent_ge rank hrank)
  rw [Gathered.contribution?_of_ofContributions hg, contributed, List.getElem?_map,
    List.getElem?_range hrank, Option.map_some, List.getElem?_eq_getElem hlength, Option.getD_some]

/-- Who wakes up with a result finds that of the latest complete round. -/
theorem Minutes.outcome_of_wake {size : Nat} {sent : Nat → List Bytes} {group : Group} {g : Gathered}
    {round : Nat} (h : Minutes size sent group) (hle : round ≤ group.generation)
    (hwake : group.wake round = some (.ok g)) :
    ∃ latest, round ≤ latest ∧ group.generation = latest + 1 ∧ outcome size sent latest = .ok g := by
  rw [Group.wake] at hwake
  split at hwake
  · obtain ⟨_, _, herror⟩ := Option.map_eq_some_iff.1 hwake
    cases herror
  · rename_i hother
    refine ⟨group.generation - 1, by omega, by omega, ?_⟩
    rw [h.result_eq (group.generation - 1) (by omega)] at hwake
    exact Option.some.inj hwake

/-- A call that is answered with a result at once has completed its round. -/
theorem completed_of_answered {size : Nat} {log : List Turn} {group : Group} {p : Participant α}
    {contribution : Bytes} {next : Reply → Exchange α} {g : Gathered}
    (h : Minutes size (calls log) group) (hrank : p.rank < size)
    (hprogram : p.program = .gather contribution next) (hawaited : p.awaited = none)
    (hanswer : (p.turn group).answered? = some (p.rank, .ok g)) :
    let sent := calls (log ++ [p.turn group])
    (p.step group).1.generation = group.generation + 1 ∧
      (sent p.rank)[group.generation]? = some contribution ∧
      outcome size sent group.generation = .ok g := by
  obtain ⟨rank, program, awaited⟩ := p
  obtain rfl : program = .gather contribution next := hprogram
  obtain rfl : awaited = none := hawaited
  cases haccepts : group.accepts rank with
  | false =>
    simp only [Participant.turn, haccepts] at hanswer
    cases hanswer
  | true =>
    have henter := Group.enter_of_accepts haccepts contribution
    by_cases hlast : group.arrived + 1 = group.size
    · rw [if_pos hlast] at henter
      simp only [Participant.turn, Participant.step, haccepts, henter, if_true] at hanswer ⊢
      have hreply : (group.complete (group.withCall rank contribution).slots).1 = .ok g :=
        congrArg Prod.snd (Option.some.inj hanswer)
      rw [h.reply_complete hrank haccepts hlast contribution] at hreply
      rw [calls_append_of_some rfl]
      refine ⟨rfl, ?_, hreply⟩
      rw [extend_self, ← h.length_of_accepts hrank haccepts]
      simp
    · rw [if_neg hlast] at henter
      simp only [Participant.turn, haccepts, henter] at hanswer
      cases hanswer

/-- A call that had to wait and returns makes no call and leaves the group as it is. -/
theorem returned_of_answered {group : Group} {p : Participant α} {contribution : Bytes}
    {next : Reply → Exchange α} {round : Nat} {reply : Reply}
    (hprogram : p.program = .gather contribution next) (hawaited : p.awaited = some round)
    (hanswer : (p.turn group).answered? = some (p.rank, reply)) :
    group.wake round = some reply ∧ (p.step group).1 = group ∧ (p.turn group).accepted? = none := by
  cases hwake : group.wake round with
  | none =>
    simp only [Participant.turn, hprogram, hawaited, hwake] at hanswer
    cases hanswer
  | some reply' =>
    simp only [Participant.turn, Participant.step, hprogram, hawaited, hwake] at hanswer ⊢
    cases hanswer
    exact ⟨rfl, trivial, rfl⟩

/-- Who gets a result gets that of the latest complete round, in which or before which its own call was made.
If its round is not the latest one, it has slept in the meantime. -/
theorem Underway.exists_latest {size : Nat} {log : List Turn} {s : Session α} {i : Nat}
    {p : Participant α} {contribution : Bytes} {next : Reply → Exchange α} {g : Gathered}
    (h : Underway size log s) (hi : s.participants[i]? = some p)
    (hprogram : p.program = .gather contribution next)
    (hanswer : (s.turn i).answered? = some (p.rank, .ok g)) :
    let sent := calls (log ++ [s.turn i])
    ∃ own latest, own ≤ latest ∧ (s.step i).group.generation = latest + 1 ∧
      (sent p.rank)[own]? = some contribution ∧ outcome size sent latest = .ok g ∧
      (own < latest → p.awaited = some own ∧ s.group.generation = latest + 1) := by
  intro sent
  have hp := List.mem_of_getElem? hi
  have hgroup : (s.step i).group = (p.step s.group).1 := by rw [Session.step_eq hi]
  have hturn : s.turn i = p.turn s.group := Session.turn_eq hi
  rw [hturn] at hanswer
  cases hawaited : p.awaited with
  | none =>
    obtain ⟨hgeneration, hcall, houtcome⟩ :=
      completed_of_answered h.minutes (h.rank_lt p hp) hprogram hawaited hanswer
    rw [← hturn] at hcall houtcome
    exact ⟨_, _, Nat.le_refl _, hgroup ▸ hgeneration, hcall, houtcome,
      fun hlt => absurd hlt (Nat.lt_irrefl _)⟩
  | some own =>
    obtain ⟨hle, _, _, hprogram', hcall⟩ := h.waiting p hp own hawaited
    obtain ⟨rfl, -⟩ := (Exchange.gather.injEq ..).mp (hprogram.symm.trans hprogram')
    obtain ⟨hwake, hstays, hsilent⟩ := returned_of_answered hprogram hawaited hanswer
    obtain ⟨latest, hle, hlatest, houtcome⟩ := h.minutes.outcome_of_wake hle hwake
    have hsent : sent = calls log := by
      show calls (log ++ [s.turn i]) = calls log
      rw [hturn, calls_append_of_none hsilent]
    rw [hsent, hgroup, hstays]
    exact ⟨own, latest, hle, hlatest, hcall, houtcome, fun _ => ⟨rfl, hlatest⟩⟩

/-- If each rank makes one call at a time, nobody sleeps while a further round is completed. -/
theorem generation_le_of_orderly {size : Nat} {programs : List (Nat × Exchange α)}
    (hranks : ∀ m ∈ programs, m.1 < size) {schedule : List Nat}
    (horderly : (Session.start (.ofSize size) programs).Orderly schedule) {p : Participant α}
    (hp : p ∈ ((Session.start (.ofSize size) programs).run schedule).participants) {round : Nat}
    (hround : p.awaited = some round) :
    ((Session.start (.ofSize size) programs).run schedule).group.generation ≤ round + 1 := by
  have hledger := ledger_run schedule (ledger_start hranks) horderly
  rw [List.nil_append] at hledger
  have hm : (p.rank, p.awaited) ∈ members ((Session.start (.ofSize size) programs).run schedule) :=
    List.mem_map_of_mem hp
  rw [← hledger.awaited_eq _ hm round hround]
  exact hledger.sent_ge p.rank (hledger.rank_lt _ hm)

/-- Whatever the members do, and however many of them act for one rank: a result is what all ranks have
contributed to the latest complete round, in which or before which the caller's own call was made. If its
rank has made no further call since, and so always if each rank makes one call at a time, the round is the
caller's own, and it finds in the place of its rank what it has contributed. -/
theorem result_is_latest {size : Nat} {programs : List (Nat × Exchange α)}
    (hranks : ∀ m ∈ programs, m.1 < size) :
    ∀ schedule i p contribution next g,
      let s := (Session.start (.ofSize size) programs).run schedule
      let sent := calls ((Session.start (.ofSize size) programs).log schedule ++ [s.turn i])
      s.participants[i]? = some p → p.program = .gather contribution next →
      (s.turn i).answered? = some (p.rank, .ok g) →
      ∃ own latest, own ≤ latest ∧ (s.step i).group.generation = latest + 1 ∧
        (sent p.rank)[own]? = some contribution ∧ outcome size sent latest = .ok g ∧
        g.contribution? p.rank = (sent p.rank)[latest]? ∧
        ((sent p.rank).length = own + 1 →
          own = latest ∧ g.contribution? p.rank = some contribution) ∧
        ((Session.start (.ofSize size) programs).Orderly schedule →
          own = latest ∧ g.contribution? p.rank = some contribution) := by
  intro schedule i p contribution next g s sent hi hprogram hanswer
  have hunder := (Underway.start hranks).run schedule
  rw [List.nil_append] at hunder
  change Underway size _ s at hunder
  have hp := List.mem_of_getElem? hi
  have hrank := hunder.rank_lt p hp
  have hminutes : Minutes size sent (s.step i).group := (hunder.step i).minutes
  obtain ⟨own, latest, hle, hlatest, hown, houtcome, hslept⟩ :=
    hunder.exists_latest hi hprogram hanswer
  have hcontribution := hminutes.contribution?_eq hrank (by omega) houtcome
  have hsame : own = latest → own = latest ∧ g.contribution? p.rank = some contribution := by
    rintro rfl
    exact ⟨rfl, hcontribution.trans hown⟩
  refine ⟨own, latest, hle, hlatest, hown, houtcome, hcontribution, fun hlength => hsame ?_,
    fun horderly => hsame ?_⟩
  · have hover := hminutes.sent_ge p.rank hrank
    omega
  · by_contra hother
    obtain ⟨hawaited, hgeneration⟩ := hslept (by omega)
    have hnext : s.group.generation ≤ own + 1 := generation_le_of_orderly hranks horderly hp hawaited
    omega

/-- Member 0 wakes up when another one of its rank has entered the next round, but before that is over. -/
theorem result_is_latest_accompanied :
    let programs : List (Nat × Exchange Unit) :=
      [(0, .gather [1] fun _ => .done ()), (0, .gather [3] fun _ => .done ()),
        (1, .gather [2] fun _ => .gather [4] fun _ => .done ())]
    let s := (Session.start (.ofSize 2) programs).run [0, 2, 1]
    let sent := calls ((Session.start (.ofSize 2) programs).log [0, 2, 1] ++ [s.turn 0])
    (∀ m ∈ programs, m.1 < 2) ∧
      (s.turn 0).answered? = some (0, .ok ⟨[1, 2], [0, 1]⟩) ∧ sent 0 = [[1], [3]] ∧
      ∃ own latest, own ≤ latest ∧ (s.step 0).group.generation = latest + 1 ∧
        (sent 0)[own]? = some [1] ∧ outcome 2 sent latest = .ok ⟨[1, 2], [0, 1]⟩ := by
  intro programs s sent
  have hranks : ∀ m ∈ programs, m.1 < 2 := by decide
  have hturn : (s.turn 0).answered? = some (0, .ok ⟨[1, 2], [0, 1]⟩) := by cbv
  obtain ⟨own, latest, hle, hlatest, hown, houtcome, -⟩ :=
    result_is_latest hranks [0, 2, 1] 0 _ [1] _ ⟨[1, 2], [0, 1]⟩ rfl rfl hturn
  have hsent : sent 0 = [[1], [3]] := by cbv
  exact ⟨hranks, hturn, hsent, own, latest, hle, hlatest, hown, houtcome⟩

/-- Member 0 acts for rank 0 and sleeps in the first round while member 1, which acts for rank 0 as well,
goes on to the second one. -/
theorem not_faithful_overtaken :
    let programs : List (Nat × Exchange Unit) :=
      [(0, .gather [1] fun _ => .done ()), (0, .gather [3] fun _ => .done ()),
        (1, .gather [2] fun _ => .gather [4] fun _ => .done ())]
    ¬ (Session.start (.ofSize 2) programs).Faithful := by
  intro programs hfaithful
  let s := (Session.start (.ofSize 2) programs).run [0, 2, 1, 2]
  have hturn : (s.turn 0).answered? = some (0, .ok ⟨[3, 4], [0, 1]⟩) := by cbv
  have hmember : s.participants[0]? =
      some { rank := 0, program := .gather [1] fun _ => .done (), awaited := some 0 } := by cbv
  have hcontribution := hfaithful [0, 2, 1, 2] 0 _ [1] _ _ hmember rfl hturn
  revert hcontribution
  decide

end Rounds

end ElementGrid
