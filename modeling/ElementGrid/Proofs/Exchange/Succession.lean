import ElementGrid.Proofs.Exchange.Meeting
/-!
# Rounds one after another

The members of a group take part in several rounds, and what one contributes may depend on what came of
the rounds before. A fast member enters the next round while a slow one still sleeps in the last, and yet
the turns do not matter: each round is over with the contributions that belong to it, and each member
comes to what it would come to if all went through the rounds in step.

## Main definitions

* `Exchange.following` — a program after earlier rounds
* `Follows` — what a program contributes and comes to if its rounds are answered in a given way
* `Pursues` — how far a member has come in such a program
* `Succession` — what holds of members in such programs after every turn

## Main results

* `Succession.run` — a schedule leaves a succession a succession
* `Succession.results` — two passes over all members for each round bring all to their end
-/

namespace ElementGrid

open Rounds

variable {α : Type}

/-! ## Programs in several rounds -/

/-- Contributes to earlier rounds, whatever comes of them, and goes on with the program. -/
def Exchange.following (earlier : List Bytes) (program : Exchange α) : Exchange α :=
  earlier.foldr (fun part next => .gather part fun _ => next) program

/-- Answered with `replies` in turn, the program contributes `parts` and comes to `value`. -/
inductive Follows (value : α) : List Bytes → List Reply → Exchange α → Prop
  | done : Follows value [] [] (.done value)
  | round {part : Bytes} {parts : List Bytes} {reply : Reply} {replies : List Reply}
    {next : Reply → Exchange α} : Follows value parts replies (next reply) →
    Follows value (part :: parts) (reply :: replies) (.gather part next)

namespace Follows

variable {value : α} {parts earlier : List Bytes} {replies before : List Reply} {program : Exchange α}

theorem length_eq (h : Follows value parts replies program) : parts.length = replies.length := by
  induction h with
  | done => rfl
  | round _ ih => rw [List.length_cons, List.length_cons, ih]

theorem of_attends {reply : Reply} {part : Bytes} (h : Attends reply part value program) :
    Follows value [part] [reply] program := by
  obtain ⟨next, rfl, hnext⟩ := h
  exact .round (hnext ▸ .done)

theorem following (h : Follows value parts replies program) (hlength : earlier.length = before.length) :
    Follows value (earlier ++ parts) (before ++ replies) (program.following earlier) := by
  induction earlier generalizing before with
  | nil =>
    rw [List.eq_nil_of_length_eq_zero hlength.symm]
    exact h
  | cons part earlier ih =>
    obtain ⟨reply, before, rfl⟩ := List.exists_cons_of_length_eq_add_one hlength.symm
    exact .round (ih (Nat.succ.inj hlength))

end Follows

/-! ## Turns of a member -/

/-- A member in the middle of such a program: what it has contributed and been answered is what belongs to
the rounds that it went through, and the rest of its program belongs to the others. -/
structure Pursues (value : α) (parts : List Bytes) (expected : List Reply) (p : Participant α)
    (called : List Bytes) (answered : List Reply) : Prop where
  ahead : Follows value (parts.drop answered.length) (expected.drop answered.length) p.program
  called_eq : called = parts.take (answered.length + if p.awaited.isSome then 1 else 0)
  waits : ∀ round, p.awaited = some round → round = answered.length ∧ round < parts.length

namespace Pursues

variable {value : α} {parts : List Bytes} {expected : List Reply} {p : Participant α} {g : Group}
  {log : List Turn} {called : List Bytes} {answered : List Reply}

/-- A member is at its end, or comes to the call behind those that it was answered. -/
theorem cases (h : Pursues value parts expected p called answered) :
    (parts.length ≤ answered.length ∧ p.program = .done value) ∨
      ∃ part reply next, p.program = .gather part next ∧ parts[answered.length]? = some part ∧
        expected[answered.length]? = some reply ∧
        Follows value (parts.drop (answered.length + 1)) (expected.drop (answered.length + 1))
          (next reply) := by
  have hahead := h.ahead
  rw [← List.tail_drop, ← List.tail_drop, ← Nat.add_zero answered.length, ← List.getElem?_drop,
    ← List.getElem?_drop, Nat.add_zero]
  generalize hparts : parts.drop answered.length = rest at hahead
  generalize expected.drop answered.length = others at hahead
  generalize p.program = program at hahead
  cases hahead with
  | done => exact .inl ⟨List.drop_eq_nil_iff.1 hparts, rfl⟩
  | round hnext => exact .inr ⟨_, _, _, rfl, rfl, rfl, hnext⟩

theorem called_prefix (h : Pursues value parts expected p called answered) : called <+: parts := by
  rw [h.called_eq]
  exact List.take_prefix _ _

/-- Who has been answered everything has come to its end. -/
theorem result_of_length (h : Pursues value parts expected p called answered)
    (hover : parts.length ≤ answered.length) : Session.result? p = some value := by
  obtain ⟨-, hprogram⟩ | ⟨part, _, _, -, hpart, -⟩ := h.cases
  · rw [Session.result?, hprogram]
  · rw [List.getElem?_eq_none hover] at hpart
    cases hpart

theorem result_eq (h : Pursues value parts expected p called answered) {a : α}
    (hover : Session.result? p = some a) : a = value := by
  rw [Session.result?] at hover
  obtain ⟨-, hprogram⟩ | ⟨_, _, _, hprogram, -⟩ := h.cases
  · rw [hprogram] at hover
    cases hover
    rfl
  · rw [hprogram] at hover
    cases hover

/-- Such a member does not tear the group down. -/
theorem aborted_step (h : Pursues value parts expected p called answered) :
    (p.step g).1.aborted = g.aborted := by
  have hraised : p.raised? = none := by
    rw [Participant.raised?]
    obtain ⟨-, hprogram⟩ | ⟨_, _, _, hprogram, -⟩ := h.cases <;> rw [hprogram]
  rw [p.aborted_step_eq, hraised, Option.or_none]

/-- What a member has contributed after its turn still belongs to its rounds. -/
theorem calls_turn (h : Pursues value parts expected p (calls log p.rank) answered) :
    calls (log ++ [p.turn g]) p.rank <+: parts := by
  cases hcall : (p.turn g).accepted? with
  | none =>
    rw [calls_append_of_none hcall]
    exact h.called_prefix
  | some call =>
    obtain ⟨rank, part⟩ := call
    obtain ⟨rfl, hawaited⟩ := (p.move g).eq_of_accepted hcall
    obtain ⟨next, hprogram⟩ := p.program_of_accepted hcall
    obtain ⟨-, hdone⟩ | ⟨part', _, _, hprogram', hpart, -⟩ := h.cases
    · rw [hdone] at hprogram
      cases hprogram
    · rw [hprogram'] at hprogram
      cases hprogram
      have htake : parts.take answered.length ++ [part] = parts.take (answered.length + 1) := by
        rw [List.take_add_one, hpart, Option.toList_some]
      rw [calls_append_of_some hcall, extend_self, h.called_eq, hawaited]
      exact htake ▸ List.take_prefix _ _

/-- A turn brings a member further or leaves it where it is, as long as it is answered what it expects. -/
theorem step (h : Pursues value parts expected p (calls log p.rank) (replies log p.rank))
    (hready : p.awaited = none →
      g.accepts p.rank = true ∧ g.generation = (replies log p.rank).length)
    (hanswer : ∀ x, (p.turn g).answered? = some (p.rank, x) →
      expected[(replies log p.rank).length]? = some x) :
    Pursues value parts expected (p.step g).2 (calls (log ++ [p.turn g]) p.rank)
      (replies (log ++ [p.turn g]) p.rank) := by
  obtain ⟨-, hprogram⟩ | ⟨part, reply, next, hprogram, hpart, hreply, hnext⟩ := h.cases
  case inl =>
    simp only [Participant.turn, Participant.step, hprogram]
    rw [calls_append_of_none rfl, replies_append_of_none rfl]
    exact h
  obtain ⟨rank, program, awaited⟩ := p
  obtain rfl : program = .gather part next := hprogram
  have hlt := (List.getElem?_eq_some_iff.1 hpart).1
  have hcalled := h.called_eq
  cases awaited with
  | some round =>
    cases hwake : g.wake round with
    | none =>
      simp only [Participant.turn, Participant.step, hwake]
      rw [calls_append_of_none rfl, replies_append_of_none rfl]
      exact h
    | some x =>
      simp only [Participant.turn, Participant.step, hwake] at hanswer ⊢
      obtain rfl : reply = x := Option.some.inj (hreply.symm.trans (hanswer x rfl))
      rw [calls_append_of_none rfl, replies_append_of_some rfl, extend_self]
      refine ⟨?_, ?_, fun _ h => by cases h⟩
      · rw [List.length_append]
        exact hnext
      · rw [List.length_append]
        exact hcalled
  | none =>
    obtain ⟨haccepts, hgeneration⟩ := hready rfl
    have henter := Group.enter_of_accepts haccepts part
    have htake : parts.take (replies log rank).length ++ [part] =
        parts.take ((replies log rank).length + 1) := by
      rw [List.take_add_one, hpart, Option.toList_some]
    by_cases hlast : g.arrived + 1 = g.size
    · rw [if_pos hlast] at henter
      simp only [Participant.turn, Participant.step, haccepts, henter, if_true] at hanswer ⊢
      obtain rfl := Option.some.inj (hreply.symm.trans (hanswer _ rfl))
      rw [calls_append_of_some rfl, replies_append_of_some rfl, extend_self, extend_self]
      refine ⟨?_, ?_, fun _ h => by cases h⟩
      · rw [List.length_append]
        exact hnext
      · rw [List.length_append, hcalled]
        exact htake
    · rw [if_neg hlast] at henter
      simp only [Participant.turn, Participant.step, haccepts, henter, if_true]
      rw [calls_append_of_some rfl, replies_append_of_none rfl, extend_self]
      refine ⟨h.ahead, ?_, ?_⟩
      · rw [hcalled]
        exact htake
      · rintro _ ⟨⟩
        exact ⟨hgeneration, hgeneration ▸ hlt⟩

/-- After its turn a member that is not at its end has made the call that it had come to. -/
theorem length_calls_turn (h : Pursues value parts expected p (calls log p.rank) answered)
    (haccepts : p.awaited = none → g.accepts p.rank = true) (hlt : answered.length < parts.length) :
    answered.length < (calls (log ++ [p.turn g]) p.rank).length := by
  obtain ⟨hle, -⟩ | ⟨part, _, next, hprogram, -⟩ := h.cases
  case inl => omega
  have hcalled := congrArg List.length h.called_eq
  rw [List.length_take] at hcalled
  cases hawaited : p.awaited with
  | some round =>
    rw [hawaited, Option.isSome_some, if_pos rfl] at hcalled
    rw [calls, shown_append, List.length_append, ← calls, hcalled]
    omega
  | none =>
    have hturn : (p.turn g).accepted? = some (p.rank, part) := by
      simp only [Participant.turn, hprogram, hawaited, haccepts hawaited, if_true]
      rw [Group.enter_of_accepts (haccepts hawaited)]
      by_cases hlast : g.arrived + 1 = g.size
      · rw [if_pos hlast]
        rfl
      · rw [if_neg hlast]
        rfl
    rw [calls_append_of_some hturn, extend_self, List.length_append, hcalled, List.length_singleton]
    omega

/-- After its turn a member whose round is over has been answered. -/
theorem length_replies_turn
    (h : Pursues value parts expected p called (replies log p.rank))
    (hcalled : (replies log p.rank).length < called.length)
    (hover : (replies log p.rank).length < g.generation) :
    (replies log p.rank).length < (replies (log ++ [p.turn g]) p.rank).length := by
  have hlength := congrArg List.length h.called_eq
  rw [List.length_take] at hlength
  obtain ⟨round, hround⟩ : ∃ round, p.awaited = some round := by
    rw [← Option.isSome_iff_exists]
    by_contra hnone
    rw [if_neg hnone] at hlength
    omega
  obtain ⟨rfl, hlt⟩ := h.waits round hround
  obtain ⟨hle, -⟩ | ⟨part, _, next, hprogram, -⟩ := h.cases
  case inl => omega
  have hturn : ∃ x, (p.turn g).answered? = some (p.rank, x) := by
    simp only [Participant.turn, hprogram, hround, Group.wake, if_neg (Nat.ne_of_gt hover)]
    exact ⟨_, rfl⟩
  obtain ⟨x, hturn⟩ := hturn
  rw [replies_append_of_some hturn, extend_self, List.length_append, List.length_singleton]
  omega

end Pursues

/-! ## Turns of all members -/

/-- As long as the group stands nobody is ahead of the rounds that are over. -/
theorem Rounds.Ledger.length_answered_le {size : Nat} {sent : Nat → List Bytes}
    {answered : Nat → List Reply} {g : Group} {members : List (Nat × Option Nat)} {rank : Nat}
    (h : Ledger size sent answered g members) (hstands : g.aborted = none) (hrank : rank < size) :
    (answered rank).length ≤ g.generation := by
  by_contra hahead
  rcases h.reply_eq rank hrank g.generation _ (List.getElem?_eq_getElem (by omega)) with
    ⟨hlt, -⟩ | ⟨-, haborted, -⟩
  · omega
  · rw [hstands] at haborted
    cases haborted

/-- What comes of a round if each member contributes what belongs to it. -/
def comes (scripts : List (List Bytes)) (round : Nat) : Reply :=
  Gathered.ofContributions (scripts.map fun parts => (parts[round]?).getD [])

/-- Members in such programs after some turns: the group keeps track and stands, and the member of each
rank follows its script and comes to its value. -/
structure Succession (scripts : List (List Bytes)) (expected : List Reply) (values : List α)
    (log : List Turn) (s : Session α) : Prop where
  ledger : Ledger scripts.length (calls log) (replies log) s.group (members s)
  aborted_eq : s.group.aborted = none
  ranks : s.OnePerRank scripts.length
  expected_eq : ∀ round x, expected[round]? = some x → x = comes scripts round
  member : ∀ (i : Nat) p, s.participants[i]? = some p → ∃ parts value, scripts[i]? = some parts ∧
    values[i]? = some value ∧ Pursues value parts expected p (calls log i) (replies log i)

namespace Succession

variable {scripts : List (List Bytes)} {expected : List Reply} {values : List α} {log : List Turn}
  {s : Session α} {i : Nat} {p : Participant α}

theorem start {programs : List (Exchange α)} (hlength : programs.length = scripts.length)
    (hexpected : ∀ round x, expected[round]? = some x → x = comes scripts round)
    (hfollows : ∀ (i : Nat) program, programs[i]? = some program → ∃ parts value,
      scripts[i]? = some parts ∧ values[i]? = some value ∧ Follows value parts expected program) :
    Succession scripts expected values []
      (Session.ofPrograms (.ofSize scripts.length) programs) := by
  have hranks : (Session.ofPrograms (.ofSize scripts.length) programs).OnePerRank scripts.length :=
    hlength ▸ Session.OnePerRank.ofPrograms _ programs
  have hmember : ∀ (i : Nat) p,
      (Session.ofPrograms (.ofSize scripts.length) programs).participants[i]? = some p →
      ∃ program, programs[i]? = some program ∧ p = { rank := i, program } := by
    intro i p hp
    simp only [Session.ofPrograms, Session.start, List.map_map, List.getElem?_map,
      List.getElem?_zipIdx, Option.map_eq_some_iff] at hp
    obtain ⟨_, ⟨program, hprogram, rfl⟩, rfl⟩ := hp
    exact ⟨program, hprogram, by simp⟩
  refine ⟨Ledger.start _ fun m hm => ?_, rfl, hranks, hexpected, fun i p hp => ?_⟩
  · obtain ⟨p, hp, rfl⟩ := List.mem_map.1 hm
    obtain ⟨i, hi⟩ := List.getElem?_of_mem hp
    obtain ⟨program, hprogram, rfl⟩ := hmember i p hi
    have := (List.getElem?_eq_some_iff.1 hprogram).1
    exact ⟨by simp only; omega, rfl⟩
  · obtain ⟨program, hprogram, rfl⟩ := hmember i p hp
    obtain ⟨parts, value, hparts, hvalue, hfollows⟩ := hfollows i program hprogram
    exact ⟨parts, value, hparts, hvalue, hfollows, rfl, fun _ h => by cases h⟩

theorem lt_size (h : Succession scripts expected values log s) (hi : s.participants[i]? = some p) :
    i < scripts.length := by
  rw [← h.ranks.length_eq]
  exact (List.getElem?_eq_some_iff.1 hi).1

theorem isBusy_eq (h : Succession scripts expected values log s) (hi : s.participants[i]? = some p)
    (hawaited : p.awaited = none) : s.isBusy i = false := by
  rw [Session.isBusy, List.any_eq_false]
  intro q hq
  by_cases hsame : q.rank = i
  · have hq' := h.ranks.getElem?_rank hq
    rw [hsame, hi] at hq'
    cases hq'
    simp [hawaited]
  · simp [hsame]

/-- A member that does not wait is not turned away, and has been answered in all rounds that are over. -/
theorem ready (h : Succession scripts expected values log s) (hi : s.participants[i]? = some p)
    (hawaited : p.awaited = none) :
    s.group.accepts i = true ∧ s.group.generation = (replies log i).length := by
  have hrank := h.lt_size hi
  have hbalance := h.ledger.balance i hrank
  rw [busy_of_isBusy (h.isBusy_eq hi hawaited)] at hbalance
  have hle := h.ledger.length_answered_le h.aborted_eq hrank
  have hge := h.ledger.sent_ge i hrank
  have hslot := h.ledger.slot_eq i hrank
  rw [List.getElem?_eq_none (by omega)] at hslot
  refine ⟨?_, by omega⟩
  rw [Group.accepts, h.aborted_eq, ← hslot]
  rfl

/-- Nobody else acts for a rank, so a call that is accepted is the only one. -/
theorem orderly_turn (h : Succession scripts expected values log s) (i : Nat) :
    ∀ call ∈ (s.turn i).accepted?, s.isBusy call.1 = false := by
  intro call hcall
  rw [Session.turn] at hcall
  split at hcall
  · cases hcall
  · rename_i p hi
    obtain ⟨hcaller, hidle⟩ := (p.move s.group).eq_of_accepted hcall
    rw [hcaller, h.ranks.rank_eq hi]
    exact h.isBusy_eq hi hidle

theorem ledger_turn (h : Succession scripts expected values log s) (i : Nat) :
    Ledger scripts.length (calls (log ++ [s.turn i])) (replies (log ++ [s.turn i])) (s.step i).group
      (members (s.step i)) :=
  ledger_step h.ledger i (h.orderly_turn i)

theorem aborted_step (h : Succession scripts expected values log s) (i : Nat) :
    (s.step i).group.aborted = none := by
  rw [Session.step]
  split
  · exact h.aborted_eq
  · rename_i p hi
    obtain ⟨parts, value, -, -, hpursues⟩ := h.member i p hi
    exact hpursues.aborted_step.trans h.aborted_eq

/-- What a rank has contributed after a turn, its own or another one's, still follows its script. -/
theorem calls_prefix_turn (h : Succession scripts expected values log s) (i : Nat) {q : Nat}
    {parts : List Bytes} (hparts : scripts[q]? = some parts) :
    calls (log ++ [s.turn i]) q <+: parts := by
  obtain ⟨p, hp⟩ : ∃ p, s.participants[q]? = some p := by
    have hq := (List.getElem?_eq_some_iff.1 hparts).1
    rw [← h.ranks.length_eq] at hq
    exact ⟨_, List.getElem?_eq_getElem hq⟩
  obtain ⟨parts', value, hparts', -, hpursues⟩ := h.member q p hp
  obtain rfl := Option.some.inj (hparts.symm.trans hparts')
  by_cases hsame : i = q
  · obtain rfl := hsame
    rw [Session.turn_eq hp]
    obtain rfl := h.ranks.rank_eq hp
    exact hpursues.calls_turn
  · have hstays : calls (log ++ [s.turn i]) q = calls log q := by
      rw [Session.turn]
      split
      · rw [calls_append_of_none rfl]
      · rename_i p' hi
        exact calls_turn_of_ne (h.ranks.rank_eq hi ▸ Ne.symm hsame)
    rw [hstays]
    exact hpursues.called_prefix

/-- What has come of a round that is over came of what belongs to it. -/
theorem outcome_eq (h : Succession scripts expected values log s) (i : Nat) {round : Nat}
    (hover : round < (s.step i).group.generation) :
    outcome scripts.length (calls (log ++ [s.turn i])) round = comes scripts round := by
  refine congrArg Gathered.ofContributions (List.ext_getElem (by simp [contributed]) ?_)
  intro q hq hq'
  rw [List.length_map] at hq'
  obtain ⟨rest, hrest⟩ := h.calls_prefix_turn i (List.getElem?_eq_getElem hq')
  have hlength := (h.ledger_turn i).sent_ge q hq'
  simp only [contributed, List.getElem_map, List.getElem_range]
  rw [← hrest, List.getElem?_append_left (by omega)]

/-- A member is answered with what comes of its round. -/
theorem reply_turn (h : Succession scripts expected values log s) (hi : s.participants[i]? = some p)
    {x : Reply} (hx : (s.turn i).answered? = some (i, x)) :
    expected[(replies log i).length]? = some x := by
  obtain ⟨parts, value, -, -, hpursues⟩ := h.member i p hi
  obtain ⟨-, hprogram⟩ | ⟨_, reply, _, _, _, hreply, _⟩ := hpursues.cases
  · rw [Session.turn_eq hi, Participant.turn, hprogram] at hx
    cases hx
  · rw [hreply, h.expected_eq _ reply hreply]
    have hlast : (replies (log ++ [s.turn i]) i)[(replies log i).length]? = some x := by
      rw [replies_append_of_some hx, extend_self]
      simp
    rcases (h.ledger_turn i).reply_eq i (h.lt_size hi) _ x hlast with ⟨hover, hx⟩ | ⟨-, haborted, -⟩
    · rw [hx, h.outcome_eq i hover]
    · rw [h.aborted_step i] at haborted
      cases haborted

/-- A turn leaves a succession a succession. -/
theorem step (h : Succession scripts expected values log s) (i : Nat) :
    Succession scripts expected values (log ++ [s.turn i]) (s.step i) := by
  refine ⟨h.ledger_turn i, h.aborted_step i, h.ranks.step i, h.expected_eq, fun j q hq => ?_⟩
  cases hi : s.participants[i]? with
  | none =>
    rw [Session.step, hi] at hq
    rw [Session.turn, hi, calls_append_of_none rfl, replies_append_of_none rfl]
    exact h.member j q hq
  | some p =>
    obtain rfl := h.ranks.rank_eq hi
    obtain ⟨rfl, rfl⟩ | ⟨hne, hstay⟩ := Session.getElem?_step hi hq
    · obtain ⟨parts, value, hparts, hvalue, hpursues⟩ := h.member p.rank p hi
      have hturn := Session.turn_eq hi
      refine ⟨parts, value, hparts, hvalue, ?_⟩
      rw [hturn]
      exact hpursues.step (h.ready hi) fun x hx => h.reply_turn hi (hturn ▸ hx)
    -- The other members stay as they are.
    · rw [Session.turn_eq hi, calls_turn_of_ne hne, replies_turn_of_ne hne]
      exact h.member j q hstay

/-- A schedule leaves a succession a succession. -/
theorem run (h : Succession scripts expected values log s) (schedule : List Nat) :
    Succession scripts expected values (log ++ s.log schedule) (s.run schedule) :=
  Session.keeps_run (fun _ _ i h => h.step i) h schedule

theorem result_eq (h : Succession scripts expected values log s) (hi : s.participants[i]? = some p)
    {a : α} (hover : Session.result? p = some a) : values[i]? = some a := by
  obtain ⟨parts, value, -, hvalue, hpursues⟩ := h.member i p hi
  rw [hpursues.result_eq hover]
  exact hvalue

/-! ## Coming to the end -/

/-- A member that has been answered in the rounds before has called for the next one after its turn. -/
theorem lt_calls_turn (h : Succession scripts expected values log s) {round : Nat}
    (hround : round < expected.length) (hbefore : ∀ q < scripts.length, round ≤ (replies log q).length)
    (hi : i < scripts.length) : round < (calls (log ++ [s.turn i]) i).length := by
  have hanswered := hbefore i hi
  rw [← h.ranks.length_eq] at hi
  have hp := List.getElem?_eq_getElem hi
  obtain ⟨parts, value, -, -, hpursues⟩ := h.member i _ hp
  have hlength := hpursues.ahead.length_eq
  rw [List.length_drop, List.length_drop] at hlength
  have hready := fun hawaited => (h.ready hp hawaited).1
  rw [Session.turn_eq hp]
  generalize s.participants[i] = p at hp hpursues hready
  obtain rfl := h.ranks.rank_eq hp
  by_cases hlast : (replies log p.rank).length < parts.length
  · exact Nat.lt_of_le_of_lt hanswered (hpursues.length_calls_turn hready hlast)
  · -- It is at its end, and has called in all rounds.
    have hbalance := h.ledger.balance p.rank (h.lt_size hp)
    have hcalled : round < (calls log p.rank).length := by omega
    exact Nat.lt_of_lt_of_le hcalled (shown_mono _ log _ p.rank).length_le

/-- When all have called for a round, a member has been answered after its turn. -/
theorem lt_replies_turn (h : Succession scripts expected values log s) {round : Nat}
    (hbefore : ∀ q < scripts.length, round < (calls log q).length) (hi : i < scripts.length) :
    round < (replies (log ++ [s.turn i]) i).length := by
  have hover := h.ledger.minutes.lt_generation (Nat.zero_lt_of_lt hi) hbefore
  have hcalled := hbefore i hi
  have hbalance := h.ledger.balance i hi
  have hbusy := h.ledger.busy_le i hi
  by_cases hahead : round < (replies log i).length
  · exact Nat.lt_of_lt_of_le hahead (shown_mono _ log _ i).length_le
  · rw [← h.ranks.length_eq] at hi
    have hp := List.getElem?_eq_getElem hi
    obtain ⟨parts, value, -, -, hpursues⟩ := h.member i _ hp
    rw [Session.turn_eq hp]
    generalize s.participants[i] = p at hp hpursues
    obtain rfl := h.ranks.rank_eq hp
    have := hpursues.length_replies_turn (g := s.group) (by omega) (by omega)
    omega

/-- A pass over all members brings each of them to where its own turn would have brought it. -/
theorem lt_pass (h : Succession scripts expected values log s) {β : Type}
    {f : Turn → Option (Nat × β)} {bound : Nat} {C : List Turn → Prop}
    (hkeeps : ∀ log t, C log → C (log ++ [t]))
    (hturn : ∀ {log s}, Succession scripts expected values log s → C log →
      ∀ i < scripts.length, bound < (shown f (log ++ [s.turn i]) i).length)
    (hbefore : C log) (hi : i < scripts.length) {pass : List Nat} (hmem : i ∈ pass) :
    bound < (shown f (log ++ s.log pass) i).length :=
  Session.holds_after_turn (K := fun log s => Succession scripts expected values log s ∧ C log)
    (L := fun log _ => bound < (shown f log i).length)
    (fun log _ j h => ⟨h.1.step j, hkeeps log _ h.2⟩) (fun _ _ h => hturn h.1 h.2 i hi)
    (fun log _ _ hbound => Nat.lt_of_lt_of_le hbound (shown_mono f log _ i).length_le)
    ⟨h, hbefore⟩ hmem

/-- Two passes bring all members through one more round. -/
theorem lt_replies_passes (h : Succession scripts expected values log s) {round : Nat}
    (hround : round < expected.length) (hbefore : ∀ q < scripts.length, round ≤ (replies log q).length)
    {first second : List Nat} (hfirst : ∀ i < scripts.length, i ∈ first)
    (hsecond : ∀ i < scripts.length, i ∈ second) (hi : i < scripts.length) :
    round < (replies (log ++ s.log first ++ (s.run first).log second) i).length := by
  have hcalled : ∀ q < scripts.length, round < (calls (log ++ s.log first) q).length := fun q hq =>
    h.lt_pass (f := Turn.accepted?)
      (C := fun log => ∀ q < scripts.length, round ≤ (replies log q).length)
      (fun log t hbefore q hq => Nat.le_trans (hbefore q hq) (shown_mono _ log [t] q).length_le)
      (fun h hbefore i hi => h.lt_calls_turn hround hbefore hi) hbefore hq (hfirst q hq)
  exact (h.run first).lt_pass (f := Turn.answered?)
    (C := fun log => ∀ q < scripts.length, round < (calls log q).length)
    (fun log t hbefore q hq => Nat.lt_of_lt_of_le (hbefore q hq) (shown_mono _ log [t] q).length_le)
    (fun h hbefore i hi => h.lt_replies_turn hbefore hi) hcalled hi (hsecond i hi)

/-- Twice as many passes as there are rounds bring all members through these rounds. -/
theorem le_replies_passes (h : Succession scripts expected values log s) {passes : List (List Nat)}
    (hpasses : ∀ pass ∈ passes, ∀ i < scripts.length, i ∈ pass) {before rounds : Nat}
    (hlength : 2 * rounds ≤ passes.length) (hrounds : before + rounds ≤ expected.length)
    (hbefore : ∀ q < scripts.length, before ≤ (replies log q).length) :
    ∀ q < scripts.length, before + rounds ≤ (replies (log ++ s.log passes.flatten) q).length := by
  induction rounds generalizing passes before log s with
  | zero =>
    intro q hq
    exact Nat.le_trans (hbefore q hq) (shown_mono _ log _ q).length_le
  | succ rounds ih =>
    rw [Nat.mul_add_one] at hlength
    obtain _ | ⟨first, _ | ⟨second, rest⟩⟩ := passes
    · rw [List.length_nil] at hlength
      omega
    · rw [List.length_singleton] at hlength
      omega
    rw [List.forall_mem_cons, List.forall_mem_cons] at hpasses
    obtain ⟨hfirst, hsecond, hrest⟩ := hpasses
    have hlength : 2 * rounds ≤ rest.length := Nat.le_of_add_le_add_right hlength
    have hround : ∀ q < scripts.length, before + 1 ≤
        (replies (log ++ s.log first ++ (s.run first).log second) q).length := fun q hq =>
      h.lt_replies_passes (by omega) hbefore hfirst hsecond hq
    have hlater := ih ((h.run first).run second) hrest hlength (by omega) hround
    rw [List.flatten_cons, List.flatten_cons, Session.log_append, Session.log_append]
    simp only [List.append_assoc, Nat.add_assoc, Nat.add_comm 1] at hlater ⊢
    exact hlater

/-- Two passes over all members for each round bring all to their end. -/
theorem results (h : Succession scripts expected values log s) (hvalues : values.length = scripts.length)
    {passes : List (List Nat)} (hpasses : ∀ pass ∈ passes, ∀ i < scripts.length, i ∈ pass)
    (hlength : 2 * expected.length ≤ passes.length) :
    (s.run passes.flatten).results? = some values := by
  have hend := h.run passes.flatten
  have hanswered : ∀ q < scripts.length,
      0 + expected.length ≤ (replies (log ++ s.log passes.flatten) q).length :=
    h.le_replies_passes hpasses hlength (Nat.le_of_eq (Nat.zero_add _)) fun _ _ => Nat.zero_le _
  rw [Session.results?]
  refine List.mapM_eq_pure (hvalues.trans hend.ranks.length_eq.symm) fun i p value hp hvalue => ?_
  obtain ⟨parts, value', hparts, hvalue', hpursues⟩ := hend.member i p hp
  obtain rfl : value' = value := Option.some.inj (hvalue'.symm.trans hvalue)
  have hover := hanswered i (List.getElem?_eq_some_iff.1 hparts).1
  have hrest := hpursues.ahead.length_eq
  rw [List.length_drop, List.length_drop] at hrest
  exact hpursues.result_of_length (by omega)

end Succession

end ElementGrid
