import ElementGrid.Exchange.Session
/-!
# Turns

What one turn of a member does to the group. The programs do not matter here: all that counts is the
rank for which the member acts and whether it waits in a round that it has entered. What every turn keeps,
the turns of a schedule keep.

## Main definitions

* `Turn` — what a turn shows: a call that is accepted, turned away or answered
* `Group.Move` — the steps of a group, each taken while no other member acts
* `Session.log` — the turns of a schedule, one after the other
* `Session.Orderly` — no rank has two accepted calls under way
* `Session.OnePerRank` — each rank has one member

## Main results

* `Participant.aborted_step_eq` — a turn of a member tears the group down only if it is meant to
* `Participant.move` — a turn of a member is a step of the group
* `Session.keeps_run`, `Session.keeps_run_of_orderly` — what each turn keeps, a schedule keeps
* `Session.holds_after_turn` — what a member's turn brings about, if later turns keep it
-/

namespace ElementGrid

/-- What a turn shows. -/
inductive Turn where
  /-- No call is made and none returns. -/
  | silent
  /-- A call is turned away. -/
  | refused (rank : Nat)
  /-- A call is accepted and has to wait. -/
  | entered (rank : Nat) (contribution : Bytes)
  /-- A call is accepted, and its round is over. -/
  | completed (rank : Nat) (contribution : Bytes) (reply : Except ExchangeError Gathered)
  /-- A call that had to wait returns. -/
  | returned (rank : Nat) (reply : Except ExchangeError Gathered)

namespace Turn

/-- The call that the turn makes, if it is accepted. -/
def accepted? : Turn → Option (Nat × Bytes)
  | entered rank contribution => some (rank, contribution)
  | completed rank contribution _ => some (rank, contribution)
  | _ => none

/-- The answer that the turn gives to an accepted call. -/
def answered? : Turn → Option (Nat × Except ExchangeError Gathered)
  | completed rank _ reply => some (rank, reply)
  | returned rank reply => some (rank, reply)
  | _ => none

end Turn

/-! ## Steps of a group -/

namespace Group

/-- A call for the rank is not turned away. -/
def accepts (g : Group) (rank : Nat) : Bool :=
  g.aborted.isNone && ((g.slots[rank]?).getD none).isNone

/-- The group after a call that has to wait. -/
def withCall (g : Group) (rank : Nat) (contribution : Bytes) : Group :=
  { g with slots := g.slots.set rank (some contribution), arrived := g.arrived + 1 }

/-- The steps of a group with a member that acts for a rank and may wait in a round. -/
inductive Move (g : Group) (rank : Nat) : Option Nat → Turn → Group → Option Nat → Prop
  | idle (awaited : Option Nat) : Move g rank awaited .silent g awaited
  | abort (awaited : Option Nat) (reason : String) :
    Move g rank awaited .silent (g.abort reason) awaited
  | refused : g.accepts rank = false → Move g rank none (.refused rank) g none
  | entered (contribution : Bytes) : g.accepts rank = true → g.arrived + 1 ≠ g.size →
    Move g rank none (.entered rank contribution) (g.withCall rank contribution) (some g.generation)
  | completed (contribution : Bytes) : g.accepts rank = true → g.arrived + 1 = g.size →
    Move g rank none
      (.completed rank contribution (g.complete (g.withCall rank contribution).slots).1)
      (g.complete (g.withCall rank contribution).slots).2 none
  | returned (generation : Nat) (reply : Except ExchangeError Gathered) :
    g.wake generation = some reply →
    Move g rank (some generation) (.returned rank reply) g none

variable {g : Group} {rank : Nat}

theorem aborted_of_accepts (h : g.accepts rank = true) : g.aborted = none :=
  Option.isNone_iff_eq_none.1 ((Bool.and_eq_true _ _).mp h).1

theorem slot_of_accepts (h : g.accepts rank = true) : (g.slots[rank]?).getD none = none :=
  Option.isNone_iff_eq_none.1 ((Bool.and_eq_true _ _).mp h).2

/-- A call that is turned away is answered with an error and leaves the group as it is. -/
theorem enter_of_not_accepts (h : g.accepts rank = false) (contribution : Bytes) :
    ∃ e, g.enter rank contribution = (.answered (.error e), g) := by
  rw [enter]
  split
  · exact ⟨_, rfl⟩
  · rename_i haborted
    rw [accepts, haborted] at h
    have htaken : ((g.slots[rank]?).getD none).isSome = true := by
      simpa [Option.isNone_eq_false_iff] using h
    rw [if_pos htaken]
    exact ⟨_, rfl⟩

theorem enter_of_accepts (h : g.accepts rank = true) (contribution : Bytes) :
    g.enter rank contribution =
      if g.arrived + 1 = g.size then
        (.answered (g.complete (g.withCall rank contribution).slots).1,
          (g.complete (g.withCall rank contribution).slots).2)
      else (.waiting g.generation, g.withCall rank contribution) := by
  have htaken : ¬ ((g.slots[rank]?).getD none).isSome = true := by
    simp [slot_of_accepts h]
  rw [enter]
  split
  · rename_i reason hreason
    rw [aborted_of_accepts h] at hreason
    cases hreason
  · rw [if_neg htaken]
    rfl

/-- Nobody who comes tears the group down. -/
theorem aborted_enter (g : Group) (rank : Nat) (contribution : Bytes) :
    (g.enter rank contribution).2.aborted = g.aborted := by
  cases haccepts : g.accepts rank with
  | false =>
    obtain ⟨e, henter⟩ := enter_of_not_accepts haccepts contribution
    rw [henter]
  | true =>
    rw [enter_of_accepts haccepts contribution]
    by_cases hlast : g.arrived + 1 = g.size
    · rw [if_pos hlast]
      rfl
    · rw [if_neg hlast]
      rfl

variable {g' : Group} {awaited awaited' : Option Nat} {t : Turn}

/-- The first reason for which a group is torn down stands. -/
theorem Move.aborted_eq_some (h : g.Move rank awaited t g' awaited') {reason : String}
    (haborted : g.aborted = some reason) : g'.aborted = some reason := by
  cases h with
  | abort _ reason' =>
    rw [Group.abort, haborted]
    rfl
  | _ => exact haborted

/-- No round of a group that has been torn down is over any more. -/
theorem Move.of_aborted (h : g.Move rank awaited t g' awaited') (haborted : g.aborted.isSome = true) :
    g'.generation = g.generation ∧ g'.result = g.result ∧ g'.aborted.isSome = true := by
  cases h with
  | idle | refused | returned => exact ⟨rfl, rfl, haborted⟩
  | abort => exact ⟨rfl, rfl, rfl⟩
  | entered _ haccepts | completed _ haccepts =>
    rw [aborted_of_accepts haccepts] at haborted
    cases haborted

/-- A member makes calls for its own rank, and not while it waits. -/
theorem Move.eq_of_accepted (h : g.Move rank awaited t g' awaited') {call : Nat × Bytes}
    (hcall : t.accepted? = some call) : call.1 = rank ∧ awaited = none := by
  cases h with
  | entered | completed =>
    cases hcall
    exact ⟨rfl, rfl⟩
  | _ => cases hcall

theorem Move.eq_of_answered (h : g.Move rank awaited t g' awaited')
    {answer : Nat × Except ExchangeError Gathered} (hanswer : t.answered? = some answer) :
    answer.1 = rank := by
  cases h with
  | completed | returned =>
    cases hanswer
    rfl
  | _ => cases hanswer

end Group

/-! ## Turns of a member -/

namespace Participant

variable {α : Type}

/-- What the turn of a member shows. -/
def turn (g : Group) (p : Participant α) : Turn :=
  match p.program with
  | .gather contribution _ =>
    match p.awaited with
    | some generation =>
      match g.wake generation with
      | some reply => .returned p.rank reply
      | none => .silent
    | none =>
      if g.accepts p.rank then
        match (g.enter p.rank contribution).1 with
        | .answered reply => .completed p.rank contribution reply
        | .waiting _ => .entered p.rank contribution
      else .refused p.rank
  | _ => .silent

theorem rank_step (g : Group) (p : Participant α) : (p.step g).2.rank = p.rank := by
  rw [step]
  split
  · rfl
  · rfl
  · rfl
  · split
    · split <;> rfl
    · split <;> rfl

/-- The reason for which the turn of a member tears the group down. -/
def raised? (p : Participant α) : Option String :=
  match p.program with
  | .abort reason _ => some reason
  | _ => none

theorem aborted_step_eq (g : Group) (p : Participant α) :
    (p.step g).1.aborted = g.aborted.or p.raised? := by
  obtain ⟨rank, program, awaited⟩ := p
  cases program with
  | done a => exact Option.or_none.symm
  | abort reason next => cases h : g.aborted <;> simp [step, raised?, Group.abort, h]
  | poll next => exact Option.or_none.symm
  | gather contribution next =>
    rw [raised?, Option.or_none]
    cases awaited with
    | some generation =>
      simp only [step]
      split <;> rfl
    | none =>
      have haborted := g.aborted_enter rank contribution
      simp only [step]
      generalize g.enter rank contribution = arrival at haborted ⊢
      obtain ⟨_ | _, g'⟩ := arrival <;> exact haborted

/-- A turn of a member is a step of the group. -/
theorem move (g : Group) (p : Participant α) :
    g.Move p.rank p.awaited (p.turn g) (p.step g).1 (p.step g).2.awaited := by
  obtain ⟨rank, program, awaited⟩ := p
  cases program with
  | done a => exact .idle awaited
  | abort reason next => exact .abort awaited reason
  | poll next => exact .idle awaited
  | gather contribution next =>
    cases awaited with
    | some generation =>
      cases hwake : g.wake generation with
      | none =>
        simp only [turn, step, hwake]
        exact .idle (some generation)
      | some reply =>
        simp only [turn, step, hwake]
        exact .returned generation reply hwake
    | none =>
      cases haccepts : g.accepts rank with
      | false =>
        obtain ⟨e, henter⟩ := Group.enter_of_not_accepts haccepts contribution
        simp only [turn, step, haccepts, henter]
        exact .refused haccepts
      | true =>
        have henter := Group.enter_of_accepts haccepts contribution
        simp only [turn, step, haccepts, if_true]
        by_cases hlast : g.arrived + 1 = g.size
        · rw [if_pos hlast] at henter
          simp only [henter]
          exact .completed contribution haccepts hlast
        · rw [if_neg hlast] at henter
          simp only [henter]
          exact .entered contribution haccepts hlast

/-- A call that is accepted is the one that the program has come to. -/
theorem program_of_accepted {g : Group} {p : Participant α} {rank : Nat} {contribution : Bytes}
    (h : (p.turn g).accepted? = some (rank, contribution)) :
    ∃ next, p.program = .gather contribution next := by
  rw [turn] at h
  split at h
  · rename_i contribution' next hprogram
    obtain rfl : contribution' = contribution := by
      split at h
      · split at h <;> cases h
      · split at h
        · split at h <;> cases h <;> rfl
        · cases h
    exact ⟨next, hprogram⟩
  · cases h

end Participant

/-! ## Turns of a session -/

namespace Session

variable {α : Type}

theorem run_append (s : Session α) (before after : List Nat) :
    s.run (before ++ after) = (s.run before).run after := List.foldl_append

/-- What the turn of the `i`-th member shows. -/
def turn (s : Session α) (i : Nat) : Turn :=
  match s.participants[i]? with
  | none => .silent
  | some p => p.turn s.group

theorem step_eq {s : Session α} {i : Nat} {p : Participant α} (hi : s.participants[i]? = some p) :
    s.step i = ⟨(p.step s.group).1, s.participants.set i (p.step s.group).2⟩ := by
  rw [step, hi]

theorem turn_eq {s : Session α} {i : Nat} {p : Participant α} (hi : s.participants[i]? = some p) :
    s.turn i = p.turn s.group := by
  rw [turn, hi]

/-- After a turn a member is the one that had it, or the one that it was before. -/
theorem getElem?_step {s : Session α} {i j : Nat} {p q : Participant α}
    (hi : s.participants[i]? = some p) (hj : (s.step i).participants[j]? = some q) :
    (j = i ∧ q = (p.step s.group).2) ∨ (j ≠ i ∧ s.participants[j]? = some q) := by
  rw [step_eq hi] at hj
  by_cases hij : j = i
  · subst hij
    rw [List.getElem?_set_self (List.getElem?_eq_some_iff.1 hi).1] at hj
    exact .inl ⟨rfl, (Option.some.inj hj).symm⟩
  · rw [List.getElem?_set_ne (Ne.symm hij)] at hj
    exact .inr ⟨hij, hj⟩

/-- What the turns of a schedule show. -/
def log (s : Session α) : List Nat → List Turn
  | [] => []
  | i :: schedule => s.turn i :: (s.step i).log schedule

theorem log_append (s : Session α) (before after : List Nat) :
    s.log (before ++ after) = s.log before ++ (s.run before).log after := by
  induction before generalizing s with
  | nil => rfl
  | cons i before ih => exact congrArg (s.turn i :: ·) (ih (s.step i))

/-- A rule for what each turn keeps. It may speak of the turns that are still to come, of what has been
shown so far and of the session. -/
theorem run_induction {K : List Nat → List Turn → Session α → Prop} {schedule : List Nat}
    {log : List Turn} {s : Session α}
    (hstep : ∀ i rest log s, K (i :: rest) log s → K rest (log ++ [s.turn i]) (s.step i))
    (h : K schedule log s) : K [] (log ++ s.log schedule) (s.run schedule) := by
  induction schedule generalizing log s with
  | nil =>
    rw [Session.log, List.append_nil]
    exact h
  | cons i schedule ih =>
    have hrest := ih (hstep i schedule log s h)
    rw [List.append_assoc, List.singleton_append] at hrest
    exact hrest

/-- What one turn keeps of what has been shown and of the session, a schedule keeps. -/
theorem keeps_run {K : List Turn → Session α → Prop} {log : List Turn} {s : Session α}
    (hstep : ∀ log s i, K log s → K (log ++ [s.turn i]) (s.step i)) (h : K log s)
    (schedule : List Nat) : K (log ++ s.log schedule) (s.run schedule) :=
  run_induction (K := fun _ => K) (fun i _ log s => hstep log s i) h

/-- What the turn of a member brings about, and each turn keeps, has come about after a schedule in which
the member has a turn. Until then another thing may be kept. -/
theorem holds_after_turn {K L : List Turn → Session α → Prop} {log : List Turn} {s : Session α} {i : Nat}
    (hstep : ∀ log s j, K log s → K (log ++ [s.turn j]) (s.step j))
    (hturn : ∀ log s, K log s → L (log ++ [s.turn i]) (s.step i))
    (hlater : ∀ log s j, L log s → L (log ++ [s.turn j]) (s.step j))
    (h : K log s) {schedule : List Nat} (hmem : i ∈ schedule) :
    L (log ++ s.log schedule) (s.run schedule) := by
  obtain ⟨before, after, rfl⟩ := List.append_of_mem hmem
  have hafter := keeps_run hlater (hturn _ _ (keeps_run hstep h before)) after
  rw [List.append_assoc, List.append_assoc, List.singleton_append] at hafter
  rw [log_append, run_append]
  exact hafter

/-- Some member that acts for the rank waits. -/
def isBusy (s : Session α) (rank : Nat) : Bool :=
  s.participants.any fun p => p.rank == rank && p.awaited.isSome

/-- No call is accepted for a rank for which another one waits. -/
def Orderly (s : Session α) : List Nat → Prop
  | [] => True
  | i :: schedule =>
    (∀ call ∈ (s.turn i).accepted?, s.isBusy call.1 = false) ∧ (s.step i).Orderly schedule

instance decidableOrderly : (s : Session α) → (schedule : List Nat) → Decidable (s.Orderly schedule)
  | _, [] => isTrue trivial
  | s, i :: schedule =>
    have := decidableOrderly (s.step i) schedule
    inferInstanceAs (Decidable (_ ∧ _))

/-- What one turn keeps of what has been shown and of the session, if it is not a call for a rank for which
another member waits, an orderly schedule keeps. -/
theorem keeps_run_of_orderly {K : List Turn → Session α → Prop} {log : List Turn} {s : Session α}
    {schedule : List Nat}
    (hstep : ∀ log s i, (∀ call ∈ (s.turn i).accepted?, s.isBusy call.1 = false) → K log s →
      K (log ++ [s.turn i]) (s.step i))
    (h : K log s) (horderly : s.Orderly schedule) :
    K (log ++ s.log schedule) (s.run schedule) :=
  (run_induction (K := fun rest log s => K log s ∧ s.Orderly rest)
    (fun i _ log s hrest => ⟨hstep log s i hrest.2.1 hrest.1, hrest.2.2⟩) ⟨h, horderly⟩).1

/-! ## One member for each rank -/

/-- Each rank has one member, in their order. -/
def OnePerRank (size : Nat) (s : Session α) : Prop :=
  s.participants.map Participant.rank = List.range size

namespace OnePerRank

variable {size : Nat} {s : Session α}

theorem ofPrograms (group : Group) (programs : List (Exchange α)) :
    OnePerRank programs.length (Session.ofPrograms group programs) := by
  simp only [OnePerRank, Session.ofPrograms, start, List.map_map]
  rw [List.range_eq_range', ← List.zipIdx_map_snd 0 programs]
  rfl

theorem step (h : OnePerRank size s) (i : Nat) : OnePerRank size (s.step i) := by
  refine Eq.trans ?_ h
  cases hi : s.participants[i]? with
  | none => rw [Session.step, hi]
  | some p =>
    obtain ⟨hlt, rfl⟩ := List.getElem?_eq_some_iff.1 hi
    have hlt' : i < (s.participants.map Participant.rank).length := by rwa [List.length_map]
    have hrank : (s.participants.map Participant.rank)[i] = s.participants[i].rank :=
      List.getElem_map _
    rw [step_eq hi, List.map_set, Participant.rank_step, ← hrank, List.set_getElem_self]

theorem run (h : OnePerRank size s) (schedule : List Nat) : OnePerRank size (s.run schedule) :=
  List.foldlRecOn schedule Session.step h fun _ h i _ => h.step i

theorem length_eq (h : OnePerRank size s) : s.participants.length = size := by
  rw [← List.length_map Participant.rank, h, List.length_range]

theorem rank_eq (h : OnePerRank size s) {i : Nat} {p : Participant α}
    (hi : s.participants[i]? = some p) : p.rank = i := by
  have hrank : (s.participants.map Participant.rank)[i]? = some p.rank := by
    rw [List.getElem?_map, hi]
    rfl
  rw [h] at hrank
  obtain ⟨hlt, hrank⟩ := List.getElem?_eq_some_iff.1 hrank
  rw [← hrank, List.getElem_range]

theorem getElem?_rank (h : OnePerRank size s) {p : Participant α} (hp : p ∈ s.participants) :
    s.participants[p.rank]? = some p := by
  obtain ⟨i, hi⟩ := List.getElem?_of_mem hp
  rwa [h.rank_eq hi]

end OnePerRank

end Session

end ElementGrid
