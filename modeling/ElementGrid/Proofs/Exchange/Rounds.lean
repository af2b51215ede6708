import Mathlib.Logic.Function.Basic
import ElementGrid.Proofs.Exchange.Gathered
import ElementGrid.Proofs.Exchange.Turn
/-!
# Rounds

The ranks of a group may be in different rounds: a fast one enters the next round while a slow one has
not woken up from the last. The group keeps one result only, and yet nobody gets the result of another
round, for the next round cannot be over before everybody has come back from the last.

## Main definitions

* `Rounds.calls`, `Rounds.replies` — the accepted calls of a rank and what they were answered
* `Rounds.contributed`, `Rounds.outcome` — what the ranks contribute to a round and what comes of it
* `Rounds.Minutes` — how the group keeps track of the calls, whoever makes them
* `Rounds.Ledger` — how it keeps track of calls and answers when each rank makes one call at a time

## Main results

* `Rounds.Minutes.move`, `Rounds.Ledger.move` — a step of the group keeps track
* `Rounds.replies_agree` — a rank is answered with what all ranks contributed to its round
-/

namespace ElementGrid.Rounds

/-- An answer to a call. -/
abbrev Reply := Except ExchangeError Gathered

/-- What the turns of a log show of a rank, in order. -/
def shown {β : Type} (f : Turn → Option (Nat × β)) (log : List Turn) (rank : Nat) : List β :=
  log.filterMap fun t => ((f t).filter fun entry => entry.1 == rank).map Prod.snd

/-- What a rank contributes in its accepted calls, in order. -/
def calls : List Turn → Nat → List Bytes := shown Turn.accepted?

/-- What a rank is answered to its accepted calls, in order. -/
def replies : List Turn → Nat → List Reply := shown Turn.answered?

/-- The results among the answers of a rank. -/
def results (log : List Turn) (rank : Nat) : List Gathered :=
  (replies log rank).filterMap Except.toOption

/-- What the ranks contribute to a round, by rank. -/
def contributed (size : Nat) (sent : Nat → List Bytes) (round : Nat) : List Bytes :=
  (List.range size).map fun rank => ((sent rank)[round]?).getD []

/-- What comes of a round. -/
def outcome (size : Nat) (sent : Nat → List Bytes) (round : Nat) : Reply :=
  Gathered.ofContributions (contributed size sent round)

/-- How many members wait for a rank, where a member is its rank and the round that it waits for. -/
def busy (members : List (Nat × Option Nat)) (rank : Nat) : Nat :=
  members.countP fun m => m.1 == rank && m.2.isSome

/-- The lists with one more item in that of a rank. -/
def extend {β : Type} (lists : Nat → List β) (rank : Nat) (item : β) : Nat → List β :=
  Function.update lists rank (lists rank ++ [item])

theorem extend_self {β : Type} (lists : Nat → List β) (rank : Nat) (item : β) :
    extend lists rank item rank = lists rank ++ [item] := Function.update_self ..

theorem extend_of_ne {β : Type} {lists : Nat → List β} {rank q : Nat} {item : β} (h : q ≠ rank) :
    extend lists rank item q = lists q := Function.update_of_ne h ..

theorem getElem?_concat {β : Type} {l : List β} {item b : β} {i : Nat}
    (h : (l ++ [item])[i]? = some b) : l[i]? = some b ∨ i = l.length ∧ item = b := by
  rw [List.getElem?_append] at h
  split at h
  · exact .inl h
  · rename_i hbehind
    obtain ⟨hlt, hitem⟩ := List.getElem?_eq_some_iff.1 h
    rw [List.getElem_singleton] at hitem
    simp only [List.length_singleton] at hlt
    exact .inr ⟨by omega, hitem⟩

/-! ## Histories -/

section Histories

variable {β : Type} {f : Turn → Option (Nat × β)} {log : List Turn} {t : Turn}

theorem shown_append (f : Turn → Option (Nat × β)) (log later : List Turn) (rank : Nat) :
    shown f (log ++ later) rank = shown f log rank ++ shown f later rank := List.filterMap_append

/-- What has been shown stays. -/
theorem shown_mono (f : Turn → Option (Nat × β)) (log later : List Turn) (rank : Nat) :
    shown f log rank <+: shown f (log ++ later) rank := ⟨_, (shown_append f log later rank).symm⟩

theorem shown_append_of_none (h : f t = none) : shown f (log ++ [t]) = shown f log := by
  funext rank
  simp [shown, h]

theorem shown_append_of_some {rank : Nat} {item : β} (h : f t = some (rank, item)) :
    shown f (log ++ [t]) = extend (shown f log) rank item := by
  funext q
  by_cases hq : q = rank
  · subst hq
    rw [extend_self, shown_append]
    simp [shown, h]
  · rw [extend_of_ne hq, shown_append]
    simp [shown, h, Ne.symm hq]

theorem calls_append_of_none (h : t.accepted? = none) : calls (log ++ [t]) = calls log :=
  shown_append_of_none h

theorem calls_append_of_some {rank : Nat} {contribution : Bytes}
    (h : t.accepted? = some (rank, contribution)) :
    calls (log ++ [t]) = extend (calls log) rank contribution :=
  shown_append_of_some h

theorem replies_append_of_none (h : t.answered? = none) : replies (log ++ [t]) = replies log :=
  shown_append_of_none h

theorem replies_append_of_some {rank : Nat} {reply : Reply} (h : t.answered? = some (rank, reply)) :
    replies (log ++ [t]) = extend (replies log) rank reply :=
  shown_append_of_some h

variable {α : Type} {g : Group} {p : Participant α}

/-- The turn of a member is no matter of other ranks. -/
theorem calls_turn_of_ne {q : Nat} (hq : q ≠ p.rank) :
    calls (log ++ [p.turn g]) q = calls log q := by
  cases hcall : (p.turn g).accepted? with
  | none => rw [calls_append_of_none hcall]
  | some call =>
    have hrank := ((p.move g).eq_of_accepted hcall).1
    rw [calls_append_of_some hcall, extend_of_ne (hrank ▸ hq)]

theorem replies_turn_of_ne {q : Nat} (hq : q ≠ p.rank) :
    replies (log ++ [p.turn g]) q = replies log q := by
  cases hanswer : (p.turn g).answered? with
  | none => rw [replies_append_of_none hanswer]
  | some answer =>
    have hrank := (p.move g).eq_of_answered hanswer
    rw [replies_append_of_some hanswer, extend_of_ne (hrank ▸ hq)]

end Histories

/-! ## Members -/

section Members

variable {members : List (Nat × Option Nat)} {i rank : Nat} {awaited : Option Nat}

/-- A turn changes how many members wait for its own rank only. -/
theorem busy_set_of_ne (h : members[i]? = some (rank, awaited)) (awaited' : Option Nat) {q : Nat}
    (hq : q ≠ rank) : busy (members.set i (rank, awaited')) q = busy members q := by
  obtain ⟨hi, hmember⟩ := List.getElem?_eq_some_iff.1 h
  simp [busy, List.countP_set hi, hmember, Ne.symm hq]

theorem busy_set_none (h : members[i]? = some (rank, none)) (awaited' : Option Nat) :
    busy (members.set i (rank, awaited')) rank =
      busy members rank + if awaited'.isSome then 1 else 0 := by
  obtain ⟨hi, hmember⟩ := List.getElem?_eq_some_iff.1 h
  simp [busy, List.countP_set hi, hmember]

theorem busy_set_some {round : Nat} (h : members[i]? = some (rank, some round)) :
    busy (members.set i (rank, none)) rank + 1 = busy members rank := by
  obtain ⟨hi, hmember⟩ := List.getElem?_eq_some_iff.1 h
  have hpos : 0 < busy members rank :=
    List.countP_pos_iff.2 ⟨_, List.mem_of_getElem? h, by simp⟩
  simp only [busy] at hpos
  simp only [busy, List.countP_set hi, hmember]
  simp
  omega

theorem busy_pos {m : Nat × Option Nat} (hm : m ∈ members) (hwaits : m.2.isSome = true) :
    0 < busy members m.1 :=
  List.countP_pos_iff.2 ⟨m, hm, by simp [hwaits]⟩

end Members

/-! ## What a group keeps track of -/

/-- How a group keeps track of what its ranks contribute in their accepted calls. A rank that has contributed
to the round under way is one call ahead of the rounds that are over. -/
structure Minutes (size : Nat) (sent : Nat → List Bytes) (g : Group) : Prop where
  size_eq : g.size = size
  length_slots : g.slots.length = size
  arrived_eq : g.arrived = g.slots.countP Option.isSome
  arrived_lt : 0 < size → g.arrived < size
  slot_eq : ∀ rank < size, (sent rank)[g.generation]? = (g.slots[rank]?).getD none
  sent_ge : ∀ rank < size, g.generation ≤ (sent rank).length
  sent_le : ∀ rank < size, (sent rank).length ≤ g.generation + 1
  result_eq : ∀ round, g.generation = round + 1 → g.result = some (outcome size sent round)

namespace Minutes

variable {size : Nat} {sent : Nat → List Bytes} {g : Group} {rank : Nat} {contribution : Bytes}

theorem start (size : Nat) : Minutes size (fun _ => []) (.ofSize size) where
  size_eq := rfl
  length_slots := List.length_replicate
  arrived_eq := by simp [Group.ofSize, List.countP_replicate]
  arrived_lt := id
  slot_eq := by
    intro rank hrank
    simp [Group.ofSize, hrank]
  sent_ge := fun _ _ => Nat.le_refl 0
  sent_le := fun _ _ => Nat.zero_le 1
  result_eq := by
    intro round hround
    cases hround

theorem abort (h : Minutes size sent g) (reason : String) : Minutes size sent (g.abort reason) :=
  { h with }

/-- A rank whose call is accepted has taken part in all rounds that are over and in no other. -/
theorem length_of_accepts (h : Minutes size sent g) (hrank : rank < size)
    (haccepts : g.accepts rank = true) : (sent rank).length = g.generation := by
  have hnone := h.slot_eq rank hrank
  rw [Group.slot_of_accepts haccepts, List.getElem?_eq_none_iff] at hnone
  exact Nat.le_antisymm hnone (h.sent_ge rank hrank)

/-- A further call does not change what was contributed to rounds that are over. -/
theorem outcome_update (h : Minutes size sent g) (rank : Nat) {round : Nat}
    (hround : round < g.generation) :
    outcome size (extend sent rank contribution) round =
      outcome size sent round := by
  refine congrArg Gathered.ofContributions (List.map_congr_left fun q hq => ?_)
  have hlength := h.sent_ge q (List.mem_range.1 hq)
  by_cases hq : q = rank
  · subst hq
    rw [extend_self, List.getElem?_append_left (by omega)]
  · rw [extend_of_ne hq]

/-- The slots of a group after an accepted call hold what the ranks contribute to its round. -/
theorem slot_withCall (h : Minutes size sent g) (hrank : rank < size)
    (haccepts : g.accepts rank = true) (contribution : Bytes) : ∀ q < size,
    (extend sent rank contribution q)[g.generation]? =
      ((g.withCall rank contribution).slots[q]?).getD none := by
  intro q hq
  have hlength := h.length_of_accepts hrank haccepts
  show _ = ((g.slots.set rank (some contribution))[q]?).getD none
  by_cases hqr : q = rank
  · subst hqr
    rw [extend_self, List.getElem?_set_self (by rw [h.length_slots]; exact hq), ← hlength]
    simp
  · rw [extend_of_ne hqr, List.getElem?_set_ne (Ne.symm hqr)]
    exact h.slot_eq q hq

theorem sent_withCall (h : Minutes size sent g) (hrank : rank < size)
    (haccepts : g.accepts rank = true) (contribution : Bytes) {q : Nat} (hq : q < size) :
    g.generation ≤ (extend sent rank contribution q).length ∧
      (extend sent rank contribution q).length ≤ g.generation + 1 := by
  by_cases hqr : q = rank
  · subst hqr
    rw [extend_self, List.length_append, h.length_of_accepts hrank haccepts]
    exact ⟨Nat.le_add_right _ _, Nat.le_refl _⟩
  · rw [extend_of_ne hqr]
    exact ⟨h.sent_ge q hq, h.sent_le q hq⟩

theorem arrived_withCall (h : Minutes size sent g) (hrank : rank < size)
    (haccepts : g.accepts rank = true) (contribution : Bytes) :
    (g.withCall rank contribution).arrived =
      (g.withCall rank contribution).slots.countP Option.isSome := by
  have hlt : rank < g.slots.length := by
    rw [h.length_slots]
    exact hrank
  have hfree : g.slots[rank] = none := by
    have hnone := Group.slot_of_accepts haccepts
    rwa [List.getElem?_eq_getElem hlt, Option.getD_some] at hnone
  simp [Group.withCall, List.countP_set hlt, hfree, h.arrived_eq]

theorem entered (h : Minutes size sent g) (hrank : rank < size) (haccepts : g.accepts rank = true)
    (hwaits : g.arrived + 1 ≠ g.size) (contribution : Bytes) :
    Minutes size (extend sent rank contribution) (g.withCall rank contribution) where
  size_eq := h.size_eq
  length_slots := List.length_set.trans h.length_slots
  arrived_eq := h.arrived_withCall hrank haccepts contribution
  arrived_lt := by
    intro hpos
    have hlt := h.arrived_lt hpos
    have hsize := h.size_eq
    show g.arrived + 1 < size
    omega
  slot_eq := h.slot_withCall hrank haccepts contribution
  sent_ge := fun q hq => (h.sent_withCall hrank haccepts contribution hq).1
  sent_le := fun q hq => (h.sent_withCall hrank haccepts contribution hq).2
  result_eq := by
    intro round hround
    have hover : round < g.generation := Nat.lt_of_succ_le (Nat.le_of_eq hround.symm)
    rw [h.outcome_update rank hover]
    exact h.result_eq round hround

/-- When the last slot is filled, the slots hold what all ranks contribute to the round. -/
theorem complete_slots (h : Minutes size sent g) (hrank : rank < size)
    (haccepts : g.accepts rank = true) (hlast : g.arrived + 1 = g.size) (contribution : Bytes) :
    (∀ q < size, (extend sent rank contribution q).length =
        g.generation + 1) ∧
      (g.withCall rank contribution).slots.map (·.getD []) =
        contributed size (extend sent rank contribution) g.generation := by
  have hslots := h.slot_withCall hrank haccepts contribution
  have hlength : (g.withCall rank contribution).slots.length = size :=
    List.length_set.trans h.length_slots
  have hall : ∀ slot ∈ (g.withCall rank contribution).slots, slot.isSome = true := by
    refine List.countP_eq_length.1 ?_
    rw [← h.arrived_withCall hrank haccepts contribution, hlength, ← h.size_eq]
    exact hlast
  refine ⟨fun q hq => ?_, ?_⟩
  · have hq' : q < (g.withCall rank contribution).slots.length := by omega
    obtain ⟨part, hpart⟩ := Option.isSome_iff_exists.1 (hall _ (List.getElem_mem hq'))
    have hslot := hslots q hq
    rw [List.getElem?_eq_getElem hq', Option.getD_some, hpart] at hslot
    obtain ⟨hlt, -⟩ := List.getElem?_eq_some_iff.1 hslot
    have := (h.sent_withCall hrank haccepts contribution hq).2
    omega
  · apply List.ext_getElem
    · simp [contributed, hlength]
    · intro q hq hq'
      have hqs : q < (g.withCall rank contribution).slots.length := by simpa using hq
      have hslot := hslots q (by omega)
      rw [List.getElem?_eq_getElem hqs, Option.getD_some] at hslot
      simp [contributed, hslot]

/-- The call that completes a round is answered with what comes of the round. -/
theorem reply_complete (h : Minutes size sent g) (hrank : rank < size)
    (haccepts : g.accepts rank = true) (hlast : g.arrived + 1 = g.size) (contribution : Bytes) :
    (g.complete (g.withCall rank contribution).slots).1 =
      outcome size (extend sent rank contribution) g.generation :=
  congrArg Gathered.ofContributions (h.complete_slots hrank haccepts hlast contribution).2

theorem completed (h : Minutes size sent g) (hrank : rank < size) (haccepts : g.accepts rank = true)
    (hlast : g.arrived + 1 = g.size) (contribution : Bytes) :
    Minutes size (extend sent rank contribution)
      (g.complete (g.withCall rank contribution).slots).2 := by
  obtain ⟨hall, -⟩ := h.complete_slots hrank haccepts hlast contribution
  refine
    { size_eq := h.size_eq
      length_slots := ?length_slots
      arrived_eq := ?arrived_eq
      arrived_lt := id
      slot_eq := ?slot_eq
      sent_ge := fun q hq => Nat.le_of_eq (hall q hq).symm
      sent_le := ?sent_le
      result_eq := ?result_eq }
  case length_slots =>
    show ((g.withCall rank contribution).slots.map fun _ => none).length = size
    rw [List.length_map]
    exact List.length_set.trans h.length_slots
  case arrived_eq =>
    show 0 = ((g.withCall rank contribution).slots.map fun _ => none).countP Option.isSome
    rw [List.countP_map, eq_comm, List.countP_eq_zero]
    exact fun _ _ => Bool.false_ne_true
  case slot_eq =>
    -- The slots are empty again, and nobody has called for the round that begins.
    intro q hq
    show _[g.generation + 1]? = (((g.withCall rank contribution).slots.map fun _ => none)[q]?).getD _
    rw [List.getElem?_eq_none (Nat.le_of_eq (hall q hq)), List.getElem?_map]
    cases (g.withCall rank contribution).slots[q]? <;> rfl
  case sent_le =>
    intro q hq
    rw [hall q hq]
    exact Nat.le_succ _
  case result_eq =>
    rintro round hround
    cases hround
    exact congrArg some (h.reply_complete hrank haccepts hlast contribution)

/-- A step of the group keeps track of the calls, however many of a rank are under way. -/
theorem move {log : List Turn} {t : Turn} {g' : Group} {awaited awaited' : Option Nat}
    (h : Minutes size (calls log) g) (hrank : rank < size)
    (hmove : g.Move rank awaited t g' awaited') : Minutes size (calls (log ++ [t])) g' := by
  cases hmove with
  | idle | refused | returned =>
    rw [calls_append_of_none rfl]
    exact h
  | abort _ reason =>
    rw [calls_append_of_none rfl]
    exact h.abort reason
  | entered contribution haccepts hwaits =>
    rw [calls_append_of_some rfl]
    exact h.entered hrank haccepts hwaits contribution
  | completed contribution haccepts hlast =>
    rw [calls_append_of_some rfl]
    exact h.completed hrank haccepts hlast contribution

/-- When every rank is one call ahead of the first rounds that are over, one more is over. -/
theorem lt_generation (h : Minutes size sent g) (hpos : 0 < size) {round : Nat}
    (hcalled : ∀ q < size, round < (sent q).length) : round < g.generation := by
  by_contra hnot
  have hlt := h.arrived_lt hpos
  have hfull : g.slots.countP Option.isSome = g.slots.length := by
    rw [List.countP_eq_length]
    intro slot hslot
    obtain ⟨q, hq, rfl⟩ := List.getElem_of_mem hslot
    have hqsize : q < size := by
      rw [← h.length_slots]
      exact hq
    have hslot := h.slot_eq q hqsize
    rw [List.getElem?_eq_getElem hq, Option.getD_some] at hslot
    have := hcalled q hqsize
    rw [← hslot, List.getElem?_eq_getElem (by omega)]
    rfl
  rw [← h.arrived_eq, h.length_slots] at hfull
  omega

end Minutes

/-! ## Ranks that make one call at a time -/

/-- How a group keeps track of what its ranks contribute in their accepted calls and of what they are
answered. A rank that has contributed to the round under way is one call ahead of the rounds that are
over, and a member that waits does so in the last call of its rank. -/
structure Ledger (size : Nat) (sent : Nat → List Bytes) (answered : Nat → List Reply) (g : Group)
    (members : List (Nat × Option Nat)) : Prop where
  size_eq : g.size = size
  length_slots : g.slots.length = size
  rank_lt : ∀ m ∈ members, m.1 < size
  arrived_eq : g.arrived = g.slots.countP Option.isSome
  arrived_lt : 0 < size → g.arrived < size
  slot_eq : ∀ rank < size, (sent rank)[g.generation]? = (g.slots[rank]?).getD none
  sent_ge : ∀ rank < size, g.generation ≤ (sent rank).length
  sent_le : ∀ rank < size, (sent rank).length ≤ g.generation + 1
  result_eq : ∀ round, g.generation = round + 1 → g.result = some (outcome size sent round)
  awaited_eq : ∀ m ∈ members, ∀ round, m.2 = some round → (sent m.1).length = round + 1
  balance : ∀ rank < size, (sent rank).length = (answered rank).length + busy members rank
  busy_le : ∀ rank < size, busy members rank ≤ 1
  reply_eq : ∀ rank < size, ∀ round reply, (answered rank)[round]? = some reply →
    (round < g.generation ∧ reply = outcome size sent round) ∨
      (round = g.generation ∧ g.aborted.isSome = true ∧ ∃ e, reply = .error e)

namespace Ledger

variable {size : Nat} {sent : Nat → List Bytes} {answered : Nat → List Reply} {g : Group}
  {members : List (Nat × Option Nat)} {i rank : Nat} {contribution : Bytes}

theorem start (size : Nat) {members : List (Nat × Option Nat)}
    (h : ∀ m ∈ members, m.1 < size ∧ m.2 = none) :
    Ledger size (fun _ => []) (fun _ => []) (.ofSize size) members := by
  have hbusy : ∀ rank, busy members rank = 0 := by
    intro rank
    refine List.countP_eq_zero.2 fun m hm => ?_
    simp [(h m hm).2]
  refine
    { Minutes.start size with
      rank_lt := fun m hm => (h m hm).1
      awaited_eq := ?awaited_eq
      balance := ?balance
      busy_le := ?busy_le
      reply_eq := ?reply_eq }
  case awaited_eq =>
    intro m hm round hround
    rw [(h m hm).2] at hround
    cases hround
  case balance =>
    intro rank _
    simp [hbusy]
  case busy_le =>
    intro rank _
    simp [hbusy]
  case reply_eq =>
    intro rank _ round reply hreply
    cases hreply

/-- A group that keeps track of calls and answers keeps track of the calls. -/
theorem minutes (h : Ledger size sent answered g members) : Minutes size sent g :=
  { h with }

theorem abort (h : Ledger size sent answered g members) (reason : String) :
    Ledger size sent answered (g.abort reason) members :=
  { h with reply_eq := fun rank hrank round reply hreply =>
      (h.reply_eq rank hrank round reply hreply).imp_right fun ⟨hround, _, herror⟩ =>
        ⟨hround, rfl, herror⟩ }

theorem rank_lt_set (h : Ledger size sent answered g members) {awaited : Option Nat}
    (hi : members[i]? = some (rank, awaited)) (awaited' : Option Nat) :
    ∀ m ∈ members.set i (rank, awaited'), m.1 < size := by
  intro m hm
  rcases List.mem_or_eq_of_mem_set hm with hm | rfl
  · exact h.rank_lt m hm
  · exact h.rank_lt (rank, awaited) (List.mem_of_getElem? hi)

theorem busy_le_set (h : Ledger size sent answered g members) {awaited awaited' : Option Nat}
    (hi : members[i]? = some (rank, awaited)) (hle : busy (members.set i (rank, awaited')) rank ≤ 1) :
    ∀ q < size, busy (members.set i (rank, awaited')) q ≤ 1 := by
  intro q hq
  by_cases hqr : q = rank
  · subst hqr
    exact hle
  · rw [busy_set_of_ne hi _ hqr]
    exact h.busy_le q hq

/-- The members that wait after an accepted call of a rank for which nobody waited. -/
theorem awaited_withCall (h : Ledger size sent answered g members) (hbusy : busy members rank = 0)
    (contribution : Bytes) {m : Nat × Option Nat} (hm : m ∈ members) {round : Nat}
    (hround : m.2 = some round) :
    (extend sent rank contribution m.1).length = round + 1 := by
  have hne : m.1 ≠ rank := by
    rintro rfl
    have := busy_pos hm (by rw [hround]; rfl)
    omega
  rw [extend_of_ne hne]
  exact h.awaited_eq m hm round hround

/-- As long as the group stands, all answers come from rounds that are over. -/
theorem reply_of_accepts (h : Ledger size sent answered g members)
    (haccepts : g.accepts rank = true) {q : Nat} (hq : q < size) {round : Nat} {reply : Reply}
    (hreply : (answered q)[round]? = some reply) :
    round < g.generation ∧ reply = outcome size sent round := by
  rcases h.reply_eq q hq round reply hreply with hover | ⟨-, haborted, -⟩
  · exact hover
  · rw [Group.aborted_of_accepts haccepts] at haborted
    cases haborted

/-- A rank for which nobody waits has been answered all its calls. -/
theorem length_answered_of_accepts (h : Ledger size sent answered g members) (hrank : rank < size)
    (haccepts : g.accepts rank = true) (hbusy : busy members rank = 0) :
    (answered rank).length = g.generation := by
  have hlength := h.minutes.length_of_accepts hrank haccepts
  have hbalance := h.balance rank hrank
  omega

/-- A rank for which a member waits has been answered all its calls but the last. -/
theorem length_answered_of_awaited (h : Ledger size sent answered g members) {round : Nat}
    (hm : (rank, some round) ∈ members) : (answered rank).length = round := by
  have hrank : rank < size := h.rank_lt _ hm
  have hlength : (sent rank).length = round + 1 := h.awaited_eq _ hm round rfl
  have hpos : 0 < busy members rank := busy_pos hm rfl
  have hbalance := h.balance rank hrank
  have hle := h.busy_le rank hrank
  omega

theorem entered (h : Ledger size sent answered g members) (hi : members[i]? = some (rank, none))
    (haccepts : g.accepts rank = true) (hbusy : busy members rank = 0)
    (hwaits : g.arrived + 1 ≠ g.size) (contribution : Bytes) :
    Ledger size (extend sent rank contribution) answered
      (g.withCall rank contribution) (members.set i (rank, some g.generation)) := by
  have hrank : rank < size := h.rank_lt _ (List.mem_of_getElem? hi)
  have hlength := h.minutes.length_of_accepts hrank haccepts
  have hself := busy_set_none hi (some g.generation)
  refine
    { h.minutes.entered hrank haccepts hwaits contribution with
      rank_lt := h.rank_lt_set hi _
      awaited_eq := ?awaited_eq
      balance := ?balance
      busy_le := h.busy_le_set hi ?busy_le
      reply_eq := ?reply_eq }
  case awaited_eq =>
    intro m hm round hround
    rcases List.mem_or_eq_of_mem_set hm with hm | rfl
    · exact h.awaited_withCall hbusy contribution hm hround
    · cases hround
      rw [extend_self, List.length_append, hlength, List.length_singleton]
  case balance =>
    intro q hq
    have hbalance := h.balance q hq
    by_cases hqr : q = rank
    · subst hqr
      rw [extend_self, List.length_append, hself, hbalance]
      rfl
    · rw [extend_of_ne hqr, busy_set_of_ne hi _ hqr, hbalance]
  case busy_le =>
    rw [hself, hbusy]
    exact Nat.le_refl 1
  case reply_eq =>
    intro q hq round reply hreply
    left
    obtain ⟨hround, houtcome⟩ := h.reply_of_accepts haccepts hq hreply
    exact ⟨hround, houtcome.trans (h.minutes.outcome_update rank hround).symm⟩

/-- The call that completes a round keeps track. -/
theorem completed (h : Ledger size sent answered g members) (hi : members[i]? = some (rank, none))
    (haccepts : g.accepts rank = true) (hbusy : busy members rank = 0)
    (hlast : g.arrived + 1 = g.size) (contribution : Bytes) :
    Ledger size (extend sent rank contribution)
      (extend answered rank (g.complete (g.withCall rank contribution).slots).1)
      (g.complete (g.withCall rank contribution).slots).2 (members.set i (rank, none)) := by
  have hrank : rank < size := h.rank_lt _ (List.mem_of_getElem? hi)
  have hself := busy_set_none hi none
  obtain ⟨hall, -⟩ := h.minutes.complete_slots hrank haccepts hlast contribution
  have hanswered := h.length_answered_of_accepts hrank haccepts hbusy
  rw [h.minutes.reply_complete hrank haccepts hlast contribution]
  refine
    { h.minutes.completed hrank haccepts hlast contribution with
      rank_lt := h.rank_lt_set hi _
      awaited_eq := ?awaited_eq
      balance := ?balance
      busy_le := h.busy_le_set hi ?busy_le
      reply_eq := ?reply_eq }
  case awaited_eq =>
    intro m hm round hround
    rcases List.mem_or_eq_of_mem_set hm with hm | rfl
    · exact h.awaited_withCall hbusy contribution hm hround
    · cases hround
  case balance =>
    intro q hq
    by_cases hqr : q = rank
    · subst hqr
      rw [hall q hq, extend_self, List.length_append, hanswered, hself, hbusy]
      rfl
    · rw [extend_of_ne hqr, extend_of_ne hqr, busy_set_of_ne hi _ hqr]
      exact h.balance q hq
  case busy_le =>
    rw [hself, hbusy]
    exact Nat.zero_le 1
  case reply_eq =>
    intro q hq round reply hround
    left
    have hold : (answered q)[round]? = some reply → round < g.generation + 1 ∧
        reply = outcome size (extend sent rank contribution) round := by
      intro hround
      obtain ⟨hover, houtcome⟩ := h.reply_of_accepts haccepts hq hround
      exact ⟨Nat.lt_succ_of_lt hover, houtcome.trans (h.minutes.outcome_update rank hover).symm⟩
    by_cases hqr : q = rank
    · subst hqr
      rw [extend_self] at hround
      rcases getElem?_concat hround with hround | ⟨rfl, rfl⟩
      · exact hold hround
      · -- The answer to the completing call itself is the one behind all others.
        rw [hanswered]
        exact ⟨Nat.lt_succ_self _, rfl⟩
    · rw [extend_of_ne hqr] at hround
      exact hold hround

/-- A member that waits comes back with the result of its own round, or with an error if the group was
torn down before the round was over. -/
theorem reply_of_wake (h : Ledger size sent answered g members) {round : Nat} {reply : Reply}
    (hm : (rank, some round) ∈ members) (hwake : g.wake round = some reply) :
    (round < g.generation ∧ reply = outcome size sent round) ∨
      (round = g.generation ∧ g.aborted.isSome = true ∧ ∃ e, reply = .error e) := by
  have hrank : rank < size := h.rank_lt _ hm
  have hlength : (sent rank).length = round + 1 := h.awaited_eq _ hm round rfl
  rw [Group.wake] at hwake
  split at hwake
  · rename_i hsame
    obtain ⟨reason, haborted, rfl⟩ := Option.map_eq_some_iff.1 hwake
    exact .inr ⟨hsame.symm, by rw [haborted]; rfl, _, rfl⟩
  · -- The rank has made no call since, so at most one round is over that it has not heard of.
    rename_i hother
    have hlo := h.sent_ge rank hrank
    have hhi := h.sent_le rank hrank
    have hgeneration : g.generation = round + 1 := by omega
    rw [h.result_eq round hgeneration] at hwake
    cases hwake
    exact .inl ⟨by omega, rfl⟩

theorem returned (h : Ledger size sent answered g members) {round : Nat} {reply : Reply}
    (hi : members[i]? = some (rank, some round)) (hwake : g.wake round = some reply) :
    Ledger size sent (extend answered rank reply) g
      (members.set i (rank, none)) := by
  have hm := List.mem_of_getElem? hi
  have hrank : rank < size := h.rank_lt _ hm
  have hself := busy_set_some hi
  have hanswered := h.length_answered_of_awaited hm
  refine
    { h with
      rank_lt := h.rank_lt_set hi _
      awaited_eq := ?awaited_eq
      balance := ?balance
      busy_le := h.busy_le_set hi ?busy_le
      reply_eq := ?reply_eq }
  case awaited_eq =>
    intro m hm round' hround'
    rcases List.mem_or_eq_of_mem_set hm with hm | rfl
    · exact h.awaited_eq m hm round' hround'
    · cases hround'
  case balance =>
    intro q hq
    have hbalance := h.balance q hq
    by_cases hqr : q = rank
    · subst hqr
      rw [extend_self, List.length_append, List.length_singleton]
      omega
    · rw [extend_of_ne hqr, busy_set_of_ne hi _ hqr]
      exact hbalance
  case busy_le =>
    have hle := h.busy_le rank hrank
    omega
  case reply_eq =>
    intro q hq round' reply' hreply'
    by_cases hqr : q = rank
    · subst hqr
      rw [extend_self] at hreply'
      rcases getElem?_concat hreply' with hreply' | ⟨rfl, rfl⟩
      · exact h.reply_eq q hq round' reply' hreply'
      · rw [hanswered]
        exact h.reply_of_wake hm hwake
    · rw [extend_of_ne hqr] at hreply'
      exact h.reply_eq q hq round' reply' hreply'

/-- A step of the group keeps track, as long as no call is accepted for a rank for which another one
waits. -/
theorem move {log : List Turn} {t : Turn} {g' : Group} {awaited awaited' : Option Nat}
    (h : Ledger size (calls log) (replies log) g members) (hi : members[i]? = some (rank, awaited))
    (hmove : g.Move rank awaited t g' awaited')
    (horderly : ∀ call ∈ t.accepted?, busy members call.1 = 0) :
    Ledger size (calls (log ++ [t])) (replies (log ++ [t])) g'
      (members.set i (rank, awaited')) := by
  have hsame : members.set i (rank, awaited) = members := by
    obtain ⟨hlt, hmember⟩ := List.getElem?_eq_some_iff.1 hi
    rw [← hmember, List.set_getElem_self]
  cases hmove with
  | idle =>
    rw [hsame, calls_append_of_none rfl, replies_append_of_none rfl]
    exact h
  | abort _ reason =>
    rw [hsame, calls_append_of_none rfl, replies_append_of_none rfl]
    exact h.abort reason
  | refused =>
    rw [hsame, calls_append_of_none rfl, replies_append_of_none rfl]
    exact h
  | entered contribution haccepts hwaits =>
    rw [calls_append_of_some rfl, replies_append_of_none rfl]
    exact h.entered hi haccepts (horderly _ rfl) hwaits contribution
  | completed contribution haccepts hlast =>
    rw [calls_append_of_some rfl, replies_append_of_some rfl]
    exact h.completed hi haccepts (horderly _ rfl) hlast contribution
  | returned round reply hwake =>
    rw [calls_append_of_none rfl, replies_append_of_some rfl]
    exact h.returned hi hwake

/-- The results of a rank are those of the rounds that are over, in order and from the first. -/
theorem results_prefix (h : Ledger size sent answered g members) {q : Nat} (hq : q < size) :
    (answered q).filterMap Except.toOption <+:
      ((List.range g.generation).map (outcome size sent)).filterMap Except.toOption := by
  have hover : (answered q).take g.generation <+:
      (List.range g.generation).map (outcome size sent) := by
    rw [List.prefix_iff_getElem?]
    intro round hround
    rw [List.length_take] at hround
    have hreply := h.reply_eq q hq round _ (List.getElem?_eq_getElem (by omega))
    rw [List.getElem_take]
    rcases hreply with ⟨hlt, hreply⟩ | ⟨hround', -⟩
    · simp [hlt, hreply]
    · omega
  -- Behind the rounds that are over there is nothing but what the abort was answered with.
  have hrest : ((answered q).drop g.generation).filterMap Except.toOption = [] := by
    rw [List.filterMap_eq_nil_iff]
    intro reply hmem
    obtain ⟨j, hj⟩ := List.getElem?_of_mem hmem
    rw [List.getElem?_drop] at hj
    rcases h.reply_eq q hq _ reply hj with ⟨hlt, -⟩ | ⟨-, -, e, rfl⟩
    · omega
    · rfl
  rw [← List.take_append_drop g.generation (answered q), List.filterMap_append, hrest,
    List.append_nil]
  exact hover.filterMap _

end Ledger

/-! ## Runs of a session -/

section Sessions

variable {α : Type}

/-- The members of a session, without their programs. -/
def members (s : Session α) : List (Nat × Option Nat) :=
  s.participants.map fun p => (p.rank, p.awaited)

theorem getElem?_members {s : Session α} {i : Nat} {p : Participant α}
    (hi : s.participants[i]? = some p) : (members s)[i]? = some (p.rank, p.awaited) := by
  rw [members, List.getElem?_map, hi]
  rfl

theorem busy_of_isBusy {s : Session α} {rank : Nat} (h : s.isBusy rank = false) :
    busy (members s) rank = 0 := by
  rw [busy, members, List.countP_map, List.countP_eq_zero]
  intro p hp
  have hidle := List.any_eq_false.1 h p hp
  exact hidle

theorem ledger_start {size : Nat} {programs : List (Nat × Exchange α)}
    (hranks : ∀ m ∈ programs, m.1 < size) :
    Ledger size (calls []) (replies []) (Group.ofSize size)
      (members (Session.start (.ofSize size) programs)) := by
  refine Ledger.start size fun m hm => ?_
  simp only [members, Session.start, List.map_map, List.mem_map] at hm
  obtain ⟨program, hprogram, rfl⟩ := hm
  exact ⟨hranks program hprogram, rfl⟩

theorem ledger_step {size : Nat} {log : List Turn} {s : Session α}
    (h : Ledger size (calls log) (replies log) s.group (members s)) (i : Nat)
    (horderly : ∀ call ∈ (s.turn i).accepted?, s.isBusy call.1 = false) :
    Ledger size (calls (log ++ [s.turn i])) (replies (log ++ [s.turn i])) (s.step i).group
      (members (s.step i)) := by
  rw [Session.turn] at horderly ⊢
  rw [Session.step]
  cases hi : s.participants[i]? with
  | none =>
    rw [calls_append_of_none rfl, replies_append_of_none rfl]
    exact h
  | some p =>
    rw [hi] at horderly
    have hmembers : members (⟨(p.step s.group).1, s.participants.set i (p.step s.group).2⟩ : Session α)
        = (members s).set i (p.rank, (p.step s.group).2.awaited) := by
      simp only [members, List.map_set, Participant.rank_step]
    have hmoved := h.move (getElem?_members hi) (p.move s.group) fun call hcall =>
      busy_of_isBusy (horderly call hcall)
    rw [← hmembers] at hmoved
    exact hmoved

theorem ledger_run {size : Nat} (schedule : List Nat) {log : List Turn} {s : Session α}
    (h : Ledger size (calls log) (replies log) s.group (members s))
    (horderly : s.Orderly schedule) :
    Ledger size (calls (log ++ s.log schedule)) (replies (log ++ s.log schedule))
      (s.run schedule).group (members (s.run schedule)) :=
  Session.keeps_run_of_orderly
    (K := fun log s => Ledger size (calls log) (replies log) s.group (members s))
    (fun _ _ i hturn h => ledger_step h i hturn) h horderly

/-- In every run in which no rank has two accepted calls under way, a rank is answered in the order of
its calls, and each result is what all ranks contributed in their calls of the same round. So the
results of any two ranks agree one by one. -/
theorem replies_agree {size : Nat} {programs : List (Nat × Exchange α)} {schedule : List Nat}
    (hranks : ∀ m ∈ programs, m.1 < size)
    (horderly : (Session.start (.ofSize size) programs).Orderly schedule) :
    let log := (Session.start (.ofSize size) programs).log schedule
    (∀ rank < size, (replies log rank).length ≤ (calls log rank).length ∧
      (calls log rank).length ≤ (replies log rank).length + 1) ∧
    (∀ rank < size, ∀ round g, (replies log rank)[round]? = some (.ok g) →
      (∀ q < size, round < (calls log q).length) ∧
        Gathered.ofContributions (contributed size (calls log) round) = .ok g ∧
        g.contributions = (contributed size (calls log) round).zipIdx.map Prod.swap) ∧
    ∀ q < size, ∀ rank < size, ∀ (k : Nat) g g', (results log q)[k]? = some g →
      (results log rank)[k]? = some g' → g = g' := by
  intro log
  have h := ledger_run schedule (ledger_start hranks) horderly
  rw [List.nil_append] at h
  change Ledger size (calls log) (replies log) _ _ at h
  refine ⟨fun rank hrank => ?_, fun rank hrank round g hreply => ?_, ?_⟩
  · have := h.balance rank hrank
    have := h.busy_le rank hrank
    omega
  · rcases h.reply_eq rank hrank round _ hreply with ⟨hround, hreply⟩ | ⟨-, -, e, hreply⟩
    · exact ⟨fun q hq => Nat.lt_of_lt_of_le hround (h.sent_ge q hq), hreply.symm,
        Gathered.contributions_of_ofContributions hreply.symm⟩
    · cases hreply
  · intro q hq rank hrank k g g' hg hg'
    have hover : ∀ r < size, ∀ x, (results log r)[k]? = some x →
        (((List.range ((Session.start (.ofSize size) programs).run schedule).group.generation).map
          (outcome size (calls log))).filterMap Except.toOption)[k]? = some x := by
      intro r hr x hx
      obtain ⟨hk, rfl⟩ := List.getElem?_eq_some_iff.1 hx
      exact List.prefix_iff_getElem?.1 (h.results_prefix hr) k hk
    exact Option.some.inj ((hover q hq g hg).symm.trans (hover rank hrank g' hg'))

/-- Rank 1 enters the next round, and wakes up too early, before rank 0 has woken up from the last one;
a further member that acts for rank 0 is turned away. -/
theorem replies_agree_overtaken :
    let programs : List (Nat × Exchange Unit) :=
      [(0, .gather [1] fun _ => .gather [3] fun _ => .done ()),
        (1, .gather [2] fun _ => .gather [4] fun _ => .done ()),
        (0, .gather [9] fun _ => .done ())]
    let schedule := [0, 2, 1, 1, 1, 0, 0, 1]
    (∀ m ∈ programs, m.1 < 2) ∧ (Session.start (.ofSize 2) programs).Orderly schedule ∧
      let log := (Session.start (.ofSize 2) programs).log schedule
      (results log 0).length = 2 ∧ (results log 1).length = 2 ∧
        ∀ (k : Nat) g g', (results log 0)[k]? = some g → (results log 1)[k]? = some g' → g = g' := by
  intro programs schedule
  have hranks : ∀ m ∈ programs, m.1 < 2 := by decide
  have horderly : (Session.start (.ofSize 2) programs).Orderly schedule := by
    decide +kernel
  refine ⟨hranks, horderly, by decide +kernel, by decide +kernel, ?_⟩
  exact (replies_agree hranks horderly).2.2 0 (by decide) 1 (by decide)

end Sessions

end ElementGrid.Rounds
