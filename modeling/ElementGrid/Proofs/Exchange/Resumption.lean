import ElementGrid.Proofs.Exchange.Meeting
/-!
# Meeting again

When all members of a meeting are over, the group is as it was before they met, but for the number of
its rounds and the result of the last one. Neither of these matters to those who meet next: they fare
as if they were the first.

## Main definitions

* `Group.after`, `Participant.after`, `Session.after` — the same with earlier rounds before it

## Main results

* `Session.run_after` — a schedule does the same whatever rounds there were before
* `Meeting.group_eq_of_over` — what a meeting leaves behind
* `Meeting.results_again` — those who meet next come to what they would have come to before
-/

namespace ElementGrid

/-! ## Earlier rounds -/

/-- The group with so many earlier rounds. -/
def Group.after (rounds : Nat) (g : Group) : Group := { g with generation := g.generation + rounds }

def Arrival.after (rounds : Nat) : Arrival → Arrival
  | answered reply => answered reply
  | waiting generation => waiting (generation + rounds)

def Participant.after {α : Type} (rounds : Nat) (p : Participant α) : Participant α :=
  { p with awaited := p.awaited.map (· + rounds) }

def Session.after {α : Type} (rounds : Nat) (s : Session α) : Session α :=
  ⟨s.group.after rounds, s.participants.map (Participant.after rounds)⟩

namespace Group

variable (rounds : Nat) (g : Group)

theorem wake_after (generation : Nat) :
    (g.after rounds).wake (generation + rounds) = g.wake generation := by
  simp only [wake, after, Nat.add_right_cancel_iff]

theorem complete_after (slots : List (Option Bytes)) :
    (g.after rounds).complete slots = ((g.complete slots).1, (g.complete slots).2.after rounds) := by
  simp only [complete, after, Nat.add_right_comm]

theorem enter_after (rank : Nat) (contribution : Bytes) :
    (g.after rounds).enter rank contribution =
      ((g.enter rank contribution).1.after rounds, (g.enter rank contribution).2.after rounds) := by
  -- Of all that a call looks at, only the number of its round differs.
  have hslots : (g.after rounds).slots = g.slots := rfl
  have haborted : (g.after rounds).aborted = g.aborted := rfl
  have harrived : (g.after rounds).arrived = g.arrived := rfl
  have hsize : (g.after rounds).size = g.size := rfl
  rw [enter, enter, haborted, hslots, harrived, hsize]
  cases g.aborted with
  | some reason => rfl
  | none =>
    by_cases htaken : ((g.slots[rank]?).getD none).isSome = true
    · simp only [htaken, if_true]
      rfl
    · by_cases hlast : g.arrived + 1 = g.size
      · simp only [htaken, hlast, if_true, complete_after]
        rfl
      · simp only [htaken, hlast, if_false]
        rfl

end Group

namespace Participant

variable {α : Type} (rounds : Nat)

theorem step_after (g : Group) (p : Participant α) :
    (p.after rounds).step (g.after rounds) = ((p.step g).1.after rounds, (p.step g).2.after rounds) := by
  obtain ⟨rank, program, awaited⟩ := p
  cases program with
  | done a => rfl
  | abort reason next => rfl
  | poll next => rfl
  | gather contribution next =>
    cases awaited with
    | none =>
      -- A member that does not wait yet will wait for a round that is so much later.
      simp only [step, after, Option.map_none, Group.enter_after]
      rcases g.enter rank contribution with ⟨_ | _, g'⟩ <;> rfl
    | some generation =>
      simp only [step, after, Option.map_some, Group.wake_after]
      cases g.wake generation <;> rfl

end Participant

namespace Session

variable {α : Type} (rounds : Nat)

theorem step_after (s : Session α) (i : Nat) : (s.after rounds).step i = (s.step i).after rounds := by
  rw [step, step, after, List.getElem?_map]
  cases s.participants[i]? with
  | none => rfl
  | some p =>
    simp only [Option.map_some, Participant.step_after, after, List.map_set]

/-- A schedule does the same whatever rounds there were before. -/
theorem run_after (s : Session α) (schedule : List Nat) :
    (s.after rounds).run schedule = (s.run schedule).after rounds :=
  List.foldl_hom (after rounds) (step_after rounds)

theorem results?_after (s : Session α) : (s.after rounds).results? = s.results? := by
  rw [results?, after, List.mapM_map]
  rfl

theorem ofPrograms_after (g : Group) (programs : List (Exchange α)) :
    ofPrograms (g.after rounds) programs = (ofPrograms g programs).after rounds := by
  simp only [ofPrograms, start, after, List.map_map]
  rfl

end Session

/-! ## After a meeting -/

variable {α β : Type} {parts : List Bytes} {values : List α} {log : List Turn} {s : Session α}

theorem Session.exists_of_results? {outcomes : List α} (h : s.results? = some outcomes) :
    ∀ p ∈ s.participants, ∃ a, result? p = some a := by
  rw [results?] at h
  generalize s.participants = participants at h
  induction participants generalizing outcomes with
  | nil => simp
  | cons p rest ih =>
    rw [List.mapM_cons, Option.bind_eq_bind, Option.bind_eq_some_iff] at h
    obtain ⟨a, ha, h⟩ := h
    obtain ⟨as, has, -⟩ := Option.bind_eq_some_iff.1 h
    exact List.forall_mem_cons.2 ⟨⟨a, ha⟩, ih has⟩

theorem Stage.called_of_over {reply : Rounds.Reply} {part : Bytes} {value a : α} {p : Participant α}
    {called : List Bytes} {answered : List Rounds.Reply}
    (h : Stage reply part value p called answered) (hover : Session.result? p = some a) :
    called = [part] := by
  rw [Session.result?] at hover
  cases h with
  | ready hattends =>
    obtain ⟨next, hprogram, -⟩ := hattends
    rw [hprogram] at hover
    cases hover
  | waiting => rfl
  | ended => rfl

namespace Meeting

open Rounds

/-- A meeting that is over leaves the group as it was, but for the number of rounds and the result. -/
theorem group_eq_of_over (h : Meeting parts values log s)
    (hover : ∀ p ∈ s.participants, ∃ a, Session.result? p = some a) :
    ∃ rounds result, s.group = Group.after rounds { Group.ofSize parts.length with result } := by
  have hcalled : ∀ q < parts.length, ∃ part, calls log q = [part] := by
    intro q hq
    rw [← h.length_eq] at hq
    obtain ⟨-, part, value, -, -, hstage⟩ := h.stage q _ (List.getElem?_eq_getElem hq)
    obtain ⟨a, ha⟩ := hover _ (List.getElem_mem hq)
    exact ⟨part, hstage.called_of_over ha⟩
  -- Everybody has taken part in the round that is over and nobody in the next one.
  have hslots : s.group.slots = List.replicate parts.length none := by
    refine List.eq_replicate_iff.2 ⟨h.ledger.length_slots, fun slot hslot => ?_⟩
    obtain ⟨q, hq, rfl⟩ := List.getElem_of_mem hslot
    have hqsize : q < parts.length := by
      rw [← h.ledger.length_slots]
      exact hq
    have hround : 0 < s.group.generation := by
      refine h.ledger.minutes.lt_generation (Nat.zero_lt_of_lt hqsize) fun r hr => ?_
      obtain ⟨part, hpart⟩ := hcalled r hr
      rw [hpart]
      exact Nat.one_pos
    obtain ⟨part, hpart⟩ := hcalled q hqsize
    have hslot := h.ledger.slot_eq q hqsize
    rw [hpart, List.getElem?_eq_none hround, List.getElem?_eq_getElem hq] at hslot
    exact hslot.symm
  have harrived : s.group.arrived = 0 := by
    rw [h.ledger.arrived_eq, hslots]
    simp
  have hsize := h.ledger.size_eq
  have haborted := h.aborted_eq
  refine ⟨s.group.generation, s.group.result, ?_⟩
  generalize s.group = g at hslots harrived hsize haborted
  obtain ⟨size, generation, slots, arrived, result, aborted⟩ := g
  simp only at hslots harrived hsize haborted
  simp only [Group.after, Group.ofSize, hslots, harrived, hsize, haborted, Nat.zero_add]

/-- What has come of rounds before is no matter as long as no round is over. -/
theorem ofResult {programs : List (Exchange α)}
    (h : Meeting parts values [] (Session.ofPrograms (.ofSize parts.length) programs))
    (result : Option Reply) :
    Meeting parts values []
      (Session.ofPrograms { Group.ofSize parts.length with result } programs) :=
  { h with ledger := { h.ledger with result_eq := fun _ hround => nomatch hround } }

theorem start_allGather (parts : List Bytes) :
    Meeting parts (parts.map fun _ => Gathered.ofContributions parts) []
      (Session.ofPrograms (.ofSize parts.length) (parts.map Exchange.allGather)) := by
  refine Meeting.start (by rw [List.length_map]) fun i program hprogram => ?_
  rw [List.getElem?_map, Option.map_eq_some_iff] at hprogram
  obtain ⟨part, hpart, rfl⟩ := hprogram
  exact ⟨part, _, hpart, by rw [List.getElem?_map, hpart]; rfl, .done, rfl, rfl⟩

/-- Those who meet when the others are over come to what they would have come to before. -/
theorem results_again {parts' : List Bytes} {values' : List β} {programs : List (Exchange β)}
    (h : Meeting parts values log s) {outcomes : List α} (hover : s.results? = some outcomes)
    (hsize : parts'.length = parts.length) (hlength : values'.length = parts'.length)
    (hmeet : Meeting parts' values' [] (Session.ofPrograms (.ofSize parts'.length) programs))
    {first second : List Nat} (hfirst : ∀ i < parts'.length, i ∈ first)
    (hsecond : ∀ i < parts'.length, i ∈ second) :
    ((Session.ofPrograms s.group programs).run (first ++ second)).results? = some values' := by
  obtain ⟨rounds, result, hgroup⟩ := h.group_eq_of_over (Session.exists_of_results? hover)
  rw [hgroup, ← hsize, Session.ofPrograms_after, Session.run_after, Session.results?_after]
  exact (hmeet.ofResult result).results hlength hfirst hsecond

end Meeting

end ElementGrid
