import ElementGrid.Proofs.Exchange.Rounds
import ElementGrid.Proofs.Exchange.Teardown
/-!
# Final teardowns

The first to tear a group down settles why. No round is over after that, and whoever is still waiting for
one is told the reason, like everybody who comes later. A round that was over before remains so, even for
those who have not woken up yet: the ranks all have its result, or nobody has.

## Main definitions

* `Session.raised` — the reasons for which the group is torn down in a schedule
* `Rounds.Told` — who has no result has the reason

## Main results

* `Session.aborted_run_eq` — the first reason stands
* `Session.halted_run` — no call is accepted any more, and no round ends
* `Rounds.Told.move` — a step of the group keeps who is told what
* `Session.abort_final` — teardowns are final, and rounds are atomic
-/

namespace ElementGrid

variable {α : Type}

/-! ## The first reason -/

namespace Session

/-- The reasons for which the group is torn down in the turns of a schedule, in order. -/
def raised (s : Session α) : List Nat → List String
  | [] => []
  | i :: schedule => (s.participants[i]?.bind Participant.raised?).toList ++ (s.step i).raised schedule

variable {s : Session α} {reason : String}

theorem aborted_step_eq (s : Session α) (i : Nat) :
    (s.step i).group.aborted = s.group.aborted.or (s.participants[i]?.bind Participant.raised?) := by
  rw [step]
  cases hi : s.participants[i]? with
  | none => exact Option.or_none.symm
  | some p => exact p.aborted_step_eq s.group

/-- A group is torn down for the first of all reasons. -/
theorem aborted_run_eq (s : Session α) (schedule : List Nat) :
    (s.run schedule).group.aborted = s.group.aborted.or (s.raised schedule).head? := by
  induction schedule generalizing s with
  | nil => exact Option.or_none.symm
  | cons i schedule ih =>
    have hhead : (s.raised (i :: schedule)).head? =
        (s.participants[i]?.bind Participant.raised?).or ((s.step i).raised schedule).head? := by
      rw [raised, List.head?_append, Option.head?_toList]
    show ((s.step i).run schedule).group.aborted = _
    rw [ih, aborted_step_eq, Option.or_assoc, hhead]

end Session

/-! ## No round is over any more -/

/-- A group that has been torn down accepts no call, and none of its rounds ends. -/
theorem Group.Move.halted {g g' : Group} {rank : Nat} {awaited awaited' : Option Nat} {t : Turn}
    (h : g.Move rank awaited t g' awaited') {reason : String} (haborted : g.aborted = some reason) :
    g'.generation = g.generation ∧ t.accepted? = none := by
  cases h with
  | entered _ haccepts | completed _ haccepts =>
    rw [aborted_of_accepts haccepts] at haborted
    cases haborted
  | _ => exact ⟨rfl, rfl⟩

namespace Session

variable {s : Session α} {reason : String}

theorem halted_step (h : s.group.aborted = some reason) (i : Nat) :
    (s.step i).group.generation = s.group.generation ∧ (s.turn i).accepted? = none := by
  rw [step, turn]
  cases hi : s.participants[i]? with
  | none => exact ⟨rfl, rfl⟩
  | some p => exact (p.move s.group).halted h

theorem halted_run (h : s.group.aborted = some reason) (schedule : List Nat) :
    (s.run schedule).group.generation = s.group.generation ∧
      ∀ t ∈ s.log schedule, t.accepted? = none := by
  induction schedule generalizing s with
  | nil => exact ⟨rfl, nofun⟩
  | cons i schedule ih =>
    obtain ⟨hgeneration, hturn⟩ := halted_step h i
    obtain ⟨hgenerations, hturns⟩ := ih (aborted_step h i)
    exact ⟨hgenerations.trans hgeneration, List.forall_mem_cons.2 ⟨hturn, hturns⟩⟩

end Session

/-! ## Who is told the reason -/

namespace Participant

variable {g : Group} {p : Participant α} {reason : String}

/-- If the member is at a gathering, then its turn gives it the reply and leaves the group as it is. -/
def Receives (g : Group) (p : Participant α) (reply : Rounds.Reply) : Prop :=
  ∀ contribution next, p.program = .gather contribution next →
    p.step g = (g, { p with program := next reply, awaited := none })

theorem receives_of_wake {round : Nat} (hawaited : p.awaited = some round) {reply : Rounds.Reply}
    (hwake : g.wake round = some reply) : p.Receives g reply := by
  intro contribution next hprogram
  simp only [step, hprogram, hawaited, hwake]

/-- Who comes to a group that has been torn down, or waits in a round that was not over before, is told
the reason. -/
theorem receives_of_aborted (haborted : g.aborted = some reason)
    (hawaited : p.awaited = none ∨ p.awaited = some g.generation) :
    p.Receives g (.error (.aborted reason)) := by
  rcases hawaited with hnew | hwaits
  · intro contribution next hprogram
    have hstep : p.step g = (g, { p with program := next (.error (.aborted reason)) }) := by
      simp only [step, hprogram, hnew, Group.enter_of_aborted haborted]
    rw [hstep, ← hnew]
  · refine receives_of_wake hwaits ?_
    rw [Group.wake, if_pos rfl, haborted]
    rfl

end Participant

namespace Rounds

variable {size : Nat} {sent : Nat → List Bytes} {answered : Nat → List Reply} {g : Group}
  {log : List Turn}

/-- Whoever has an answer to a call in a round that is not over has been told why the group was torn
down. -/
def Told (size : Nat) (answered : Nat → List Reply) (g : Group) : Prop :=
  ∀ rank < size, ∀ round reply, (answered rank)[round]? = some reply → g.generation ≤ round →
    ∃ reason, g.aborted = some reason ∧ reply = .error (.aborted reason)

theorem Told.abort (h : Told size answered g) (reason : String) :
    Told size answered (g.abort reason) := by
  intro rank hrank round reply hreply hround
  obtain ⟨first, haborted, rfl⟩ := h rank hrank round reply hreply hround
  refine ⟨first, ?_, rfl⟩
  rw [Group.abort, haborted]
  rfl

/-- A step of the group keeps who is told what, as long as no call is accepted for a rank for which
another one waits. -/
theorem Told.move {members : List (Nat × Option Nat)} {i rank : Nat} {awaited awaited' : Option Nat}
    {t : Turn} {g' : Group} (h : Told size (replies log) g)
    (hledger : Ledger size (calls log) (replies log) g members)
    (hi : members[i]? = some (rank, awaited)) (hmove : g.Move rank awaited t g' awaited')
    (horderly : ∀ call ∈ t.accepted?, busy members call.1 = 0) :
    Told size (replies (log ++ [t])) g' := by
  have hm := List.mem_of_getElem? hi
  cases hmove with
  | idle | refused | entered =>
    rw [replies_append_of_none rfl]
    exact h
  | abort _ reason =>
    rw [replies_append_of_none rfl]
    exact h.abort reason
  | completed contribution haccepts hlast =>
    -- All answers come from rounds that are over, that to the completing call among them.
    rw [replies_append_of_some rfl]
    intro q hq round reply hreply hround
    have hround : g.generation + 1 ≤ round := hround
    have hold : (replies log q)[round]? = some reply → round < g.generation :=
      fun hreply => (hledger.reply_of_accepts haccepts hq hreply).1
    by_cases hqr : q = rank
    · subst hqr
      have hanswered := hledger.length_answered_of_accepts hq haccepts (horderly _ rfl)
      rw [extend_self] at hreply
      rcases getElem?_concat hreply with hreply | ⟨rfl, -⟩
      · have := hold hreply
        omega
      · omega
    · rw [extend_of_ne hqr] at hreply
      have := hold hreply
      omega
  | returned round reply hwake =>
    rw [replies_append_of_some rfl]
    intro q hq round' reply' hreply' hround'
    by_cases hqr : q = rank
    · subst hqr
      have hanswered := hledger.length_answered_of_awaited hm
      rw [extend_self] at hreply'
      rcases getElem?_concat hreply' with hreply' | ⟨rfl, rfl⟩
      · exact h q hq round' reply' hreply' hround'
      · rw [hanswered] at hround'
        rcases hledger.reply_of_wake hm hwake with ⟨hover, -⟩ | ⟨rfl, -⟩
        · omega
        · -- Only a teardown wakes up who waits in a round that is not over.
          rw [Group.wake, if_pos rfl, Option.map_eq_some_iff] at hwake
          obtain ⟨reason, haborted, rfl⟩ := hwake
          exact ⟨reason, haborted, rfl⟩
    · rw [extend_of_ne hqr] at hreply'
      exact h q hq round' reply' hreply' hround'

theorem told_step {s : Session α} (h : Told size (replies log) s.group)
    (hledger : Ledger size (calls log) (replies log) s.group (members s)) (i : Nat)
    (horderly : ∀ call ∈ (s.turn i).accepted?, s.isBusy call.1 = false) :
    Told size (replies (log ++ [s.turn i])) (s.step i).group := by
  rw [Session.turn] at horderly ⊢
  cases hi : s.participants[i]? with
  | none =>
    rw [Session.step, hi, replies_append_of_none rfl]
    exact h
  | some p =>
    rw [hi] at horderly
    rw [Session.step_eq hi]
    exact h.move hledger (getElem?_members hi) (p.move s.group) fun call hcall =>
      busy_of_isBusy (horderly call hcall)

theorem told_run {s : Session α} (schedule : List Nat) {log : List Turn}
    (h : Told size (replies log) s.group)
    (hledger : Ledger size (calls log) (replies log) s.group (members s))
    (horderly : s.Orderly schedule) :
    Told size (replies (log ++ s.log schedule)) (s.run schedule).group :=
  (Session.keeps_run_of_orderly
    (K := fun log s => Told size (replies log) s.group ∧
      Ledger size (calls log) (replies log) s.group (members s))
    (fun _ _ i hturn h => ⟨told_step h.1 h.2 i hturn, ledger_step h.2 i hturn⟩)
    ⟨h, hledger⟩ horderly).1

/-- An answer is what came of its round, or the reason why the round is not over. -/
theorem Told.reply_eq {members : List (Nat × Option Nat)} (h : Told size answered g)
    (hledger : Ledger size sent answered g members) {rank : Nat} (hrank : rank < size) {round : Nat}
    {reply : Reply} (hreply : (answered rank)[round]? = some reply) :
    (round < g.generation ∧ reply = outcome size sent round) ∨
      (round = g.generation ∧ ∃ reason, g.aborted = some reason ∧ reply = .error (.aborted reason)) :=
  (hledger.reply_eq rank hrank round reply hreply).imp_right fun ⟨hround, _⟩ =>
    ⟨hround, h rank hrank round reply hreply (Nat.le_of_eq hround.symm)⟩

/-- If some rank has the result of a round, then whoever is answered in that round has it. -/
theorem Told.eq_of_ok {members : List (Nat × Option Nat)} (h : Told size answered g)
    (hledger : Ledger size sent answered g members) {q rank : Nat} (hq : q < size) (hrank : rank < size)
    {round : Nat} {result : Gathered} {reply : Reply} (hresult : (answered q)[round]? = some (.ok result))
    (hreply : (answered rank)[round]? = some reply) : reply = .ok result := by
  rcases h.reply_eq hledger hq hresult with ⟨hover, houtcome⟩ | ⟨-, _, -, herror⟩
  · rcases h.reply_eq hledger hrank hreply with ⟨-, hsame⟩ | ⟨hround, -⟩
    · exact hsame.trans houtcome.symm
    · omega
  · cases herror

theorem exists_outcome (sent : Nat → List Bytes) (round : Nat) (hpos : 0 < size) :
    ∃ g, outcome size sent round = .ok g := by
  refine ⟨_, Gathered.ofContributions_eq_ok fun hnil => ?_⟩
  have hlength : (contributed size sent round).length = size := by simp [contributed]
  rw [hnil] at hlength
  exact absurd hlength (Nat.ne_of_lt hpos)

/-- A member that waits in a round that is over gets the result of that round, whether the group has been
torn down or not. -/
theorem Ledger.receives_outcome {s : Session α} {p : Participant α}
    (h : Ledger size sent answered s.group (members s)) (hp : p ∈ s.participants) {round : Nat}
    (hawaited : p.awaited = some round) (hother : round ≠ s.group.generation) :
    ∃ g, outcome size sent round = .ok g ∧ p.Receives s.group (.ok g) := by
  have hm : (p.rank, some round) ∈ members s := List.mem_map.2 ⟨p, hp, by rw [hawaited]⟩
  obtain ⟨g, hg⟩ := exists_outcome sent round (Nat.zero_lt_of_lt (h.rank_lt _ hm))
  obtain ⟨reply, hwake⟩ : ∃ reply, s.group.wake round = some reply := ⟨_, if_neg (Ne.symm hother)⟩
  rcases h.reply_of_wake hm hwake with ⟨-, rfl⟩ | ⟨hsame, -⟩
  · exact ⟨g, hg, Participant.receives_of_wake hawaited (hwake.trans (congrArg some hg))⟩
  · exact absurd hsame hother

end Rounds

/-! ## Runs -/

namespace Session

open Rounds

/-- In every run in which no rank has two accepted calls under way, the group is torn down for the first of
all reasons for which it is torn down in the run. From then on no call is accepted and no round ends, however
the run goes on, and a member at a gathering goes on with the first reason, unless it waits in a round that
was over before, the result of which it gets. And no matter whether the group is torn down: if some rank has a
result of a round, then what the other ranks were answered in that round is the same result, and who
was answered otherwise has been told the first reason. -/
theorem abort_final {size : Nat} {programs : List (Nat × Exchange α)} {before after : List Nat}
    (hranks : ∀ m ∈ programs, m.1 < size)
    (horderly : (start (.ofSize size) programs).Orderly (before ++ after)) :
    let s := start (.ofSize size) programs
    let torn := s.run before
    let last := s.run (before ++ after)
    let log := s.log (before ++ after)
    last.group.aborted = (s.raised (before ++ after)).head? ∧
    (∀ reason, (s.raised before).head? = some reason →
      last.group.aborted = some reason ∧ last.group.generation = torn.group.generation ∧
      (∀ t ∈ torn.log after, t.accepted? = none) ∧
      ∀ p ∈ last.participants,
        (p.awaited = none ∨ p.awaited = some last.group.generation →
          p.Receives last.group (.error (.aborted reason))) ∧
        ∀ round, p.awaited = some round → round ≠ last.group.generation → ∃ g,
          outcome size (calls log) round = .ok g ∧ p.Receives last.group (.ok g)) ∧
    (∀ rank < size, ∀ (round : Nat) (reply : Reply), (replies log rank)[round]? = some reply →
      (∃ g, outcome size (calls log) round = .ok g ∧ reply = .ok g) ∨
        ∃ reason, (s.raised (before ++ after)).head? = some reason ∧
          reply = .error (.aborted reason)) ∧
    ∀ q < size, ∀ rank < size, ∀ (round : Nat) (g : Gathered) (reply : Reply),
      (replies log q)[round]? = some (.ok g) → (replies log rank)[round]? = some reply →
        reply = .ok g := by
  intro s torn last log
  have hstart : Ledger size (calls []) (replies []) s.group (members s) := ledger_start hranks
  have hnone : Told size (replies []) s.group := fun _ _ _ _ hreply => nomatch hreply
  have hledger : Ledger size (calls log) (replies log) last.group (members last) :=
    ledger_run (before ++ after) hstart horderly
  have htold : Told size (replies log) last.group :=
    told_run (before ++ after) hnone hstart horderly
  have hfirst : last.group.aborted = (s.raised (before ++ after)).head? :=
    aborted_run_eq s (before ++ after)
  refine ⟨hfirst, fun reason hreason => ?_, fun rank hrank round reply hreply => ?_,
    fun q hq rank hrank round g reply hresult hreply => ?_⟩
  · have htorn : torn.group.aborted = some reason := (aborted_run_eq s before).trans hreason
    have hlast : last = torn.run after := run_append s before after
    obtain ⟨hgeneration, hturns⟩ := halted_run htorn after
    rw [← hlast] at hgeneration
    have haborted : last.group.aborted = some reason := hlast ▸ aborted_run htorn after
    exact ⟨haborted, hgeneration, hturns, fun p hp =>
      ⟨Participant.receives_of_aborted haborted, fun round => hledger.receives_outcome hp⟩⟩
  · rcases htold.reply_eq hledger hrank hreply with ⟨-, rfl⟩ | ⟨-, reason, haborted, rfl⟩
    · obtain ⟨g, hg⟩ := exists_outcome (calls log) round (Nat.zero_lt_of_lt hrank)
      exact .inl ⟨g, hg, hg⟩
    · exact .inr ⟨reason, hfirst.symm.trans haborted, rfl⟩
  · exact htold.eq_of_ok hledger hq hrank hresult hreply

/-- Rank 0 completes a round and tears the group down before rank 1 has woken up, which gets the result
nevertheless and tears the group down once more. Rank 2 waits for a round that will never be over. -/
theorem abort_final_torn :
    let programs : List (Nat × Exchange Unit) :=
      [(0, .gather [1] fun _ => .abort "out of memory" (.gather [4] fun _ => .done ())),
        (1, .gather [2] fun _ => .abort "no space" (.gather [5] fun _ => .done ())),
        (2, .gather [3] fun _ => .gather [6] fun _ => .done ())]
    let before := [1, 2, 0, 2, 2, 0]
    let after := [0, 1, 2, 1]
    let s := start (.ofSize 3) programs
    let last := s.run (before ++ after)
    let log := s.log (before ++ after)
    (∀ m ∈ programs, m.1 < 3) ∧ s.Orderly (before ++ after) ∧
      (s.raised before).head? = some "out of memory" ∧
      s.raised (before ++ after) = ["out of memory", "no space"] ∧
      last.group.aborted = some "out of memory" ∧ (∀ t ∈ (s.run before).log after, t.accepted? = none) ∧
      (∀ p ∈ last.participants, p.awaited = none ∨ p.awaited = some last.group.generation) ∧
      (∀ p ∈ last.participants, p.Receives last.group (.error (.aborted "out of memory"))) ∧
      ((replies log 0).length = 1 ∧ (replies log 1).length = 1) ∧
      ∀ (g : Gathered) (reply : Reply), (replies log 0)[0]? = some (.ok g) →
        (replies log 1)[0]? = some reply → reply = .ok g := by
  intro programs before after
  have hranks : ∀ m ∈ programs, m.1 < 3 := by decide
  have horderly : (start (.ofSize 3) programs).Orderly (before ++ after) := by decide +kernel
  have hfirst : ((start (.ofSize 3) programs).raised before).head? = some "out of memory" := by
    decide +kernel
  have hlate : ∀ p ∈ ((start (.ofSize 3) programs).run (before ++ after)).participants,
      p.awaited = none ∨
        p.awaited = some ((start (.ofSize 3) programs).run (before ++ after)).group.generation := by
    decide +kernel
  obtain ⟨-, htorn, -, hatomic⟩ := abort_final hranks horderly
  obtain ⟨haborted, -, hturns, hreceives⟩ := htorn "out of memory" hfirst
  exact ⟨hranks, horderly, hfirst, by decide +kernel, haborted, hturns, hlate,
    fun p hp => (hreceives p hp).1 (hlate p hp), by decide +kernel,
    hatomic 0 (by decide) 1 (by decide) 0⟩

end Session

end ElementGrid
