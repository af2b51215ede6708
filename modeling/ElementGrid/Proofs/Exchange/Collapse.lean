import Mathlib.Data.List.Induction
import ElementGrid.Proofs.Exchange.Waiting
/-!
# Rounds in which a group collapses

What all ranks contribute to a round may be such that each of them tears the group down when it learns of
it. The first one that does so does not keep the others from learning the same: the next round cannot be
over any more, so that the result stays. That does not depend on what the ranks did before the round, nor on
what they do after it.

## Main definitions

* `Exchange.LeadsTo` — how a program goes on
* `Gathering` — a round is under way, and each rank takes part in it
* `Exchange.Recoils` — a program that contributes and tears the group down for what comes of it
* `Alarm` — what is left to do for a rank that learns of it
* `Collapse` — the round is over, and each rank tears the group down for what came of it
* `Incompatible` — programs that tear the group down for what they contribute
* `Course` — how a round of such programs goes on

## Main results

* `Course.run` — the round is under way, has been given up or leaves the group to its collapse
* `Collapse.run`, `Collapse.told` — every rank goes on until it has torn the group down
-/

namespace ElementGrid

open Rounds

variable {α : Type}

/-! ## How a program goes on -/

/-- The program comes to the other one after some of its steps, whatever it is answered. -/
inductive Exchange.LeadsTo (program : Exchange α) : Exchange α → Prop
  | start : LeadsTo program program
  | answered (contribution : Bytes) (next : Reply → Exchange α) (reply : Reply) :
    LeadsTo program (.gather contribution next) → LeadsTo program (next reply)
  | raised (reason : String) (next : Exchange α) :
    LeadsTo program (.abort reason next) → LeadsTo program next
  | polled (next : Bool → Exchange α) (b : Bool) :
    LeadsTo program (.poll next) → LeadsTo program (next b)

theorem Exchange.LeadsTo.eq_of_done {a : α} {program : Exchange α}
    (h : (done a).LeadsTo program) : program = .done a := by
  induction h with
  | start => rfl
  | answered _ _ _ _ ih | raised _ _ _ ih | polled _ _ _ ih => cases ih

theorem Exchange.LeadsTo.step {program : Exchange α} {p : Participant α}
    (h : program.LeadsTo p.program) (g : Group) : program.LeadsTo (p.step g).2.program := by
  obtain ⟨rank, program', awaited⟩ := p
  cases program' with
  | done a => exact h
  | abort reason next => exact .raised reason next h
  | poll next => exact .polled next g.isAborted h
  | gather contribution next =>
    cases awaited with
    | some generation =>
      simp only [Participant.step]
      cases g.wake generation with
      | none => exact h
      | some reply => exact .answered contribution next reply h
    | none =>
      simp only [Participant.step]
      generalize g.enter rank contribution = arrival
      obtain ⟨reply | generation, g'⟩ := arrival
      · exact .answered contribution next reply h
      · exact h

/-! ## A round that is under way -/

/-- The round is under way: each rank has made a call or is about to make it, unless it gives the round
up. -/
structure Gathering (programs : List (Exchange α)) (round : Nat) (log : List Turn) (s : Session α) :
    Prop where
  underway : Underway programs.length log s
  ranks : s.OnePerRank programs.length
  stands : s.group.aborted = none
  generation_eq : s.group.generation = round
  member : ∀ (i : Nat) p, s.participants[i]? = some p → programs[i]? = some p.program ∧
    (p.awaited = none ∨ p.awaited = some round)
  part : ∀ (i : Nat) program part, programs[i]? = some program →
    (calls log i)[round]? = some part → ∃ next, program = .gather part next

namespace Gathering

variable {programs : List (Exchange α)} {round : Nat} {log : List Turn} {s : Session α} {i : Nat}
  {p : Participant α}

theorem awaited_of_called (h : Gathering programs round log s) (hi : s.participants[i]? = some p)
    {part : Bytes} (hcall : (calls log i)[round]? = some part) : p.awaited = some round := by
  have hrank := h.ranks.rank_eq hi
  have hlt : i < programs.length := hrank ▸ h.underway.rank_lt p (List.mem_of_getElem? hi)
  rw [← h.generation_eq] at hcall ⊢
  -- Somebody waits for the rank, and it has one member only.
  obtain ⟨q, hq, rfl, hwaits, -⟩ := h.underway.exists_waiting h.stands hlt hcall
  rw [h.ranks.getElem?_rank hq] at hi
  cases hi
  exact hwaits

/-- A rank that does not wait is not turned away. -/
theorem accepts (h : Gathering programs round log s) (hi : s.participants[i]? = some p)
    (hawaited : p.awaited = none) : s.group.accepts i = true := by
  have hlt : i < programs.length :=
    h.ranks.rank_eq hi ▸ h.underway.rank_lt p (List.mem_of_getElem? hi)
  have hslot := h.underway.minutes.slot_eq i hlt
  rw [h.generation_eq] at hslot
  cases hcall : (calls log i)[round]? with
  | none =>
    rw [Group.accepts, h.stands, ← hslot, hcall]
    rfl
  | some part =>
    have hwaits := h.awaited_of_called hi hcall
    rw [hawaited] at hwaits
    cases hwaits

theorem part_turn (h : Gathering programs round log s) (hi : s.participants[i]? = some p) (j : Nat)
    (program : Exchange α) (part : Bytes) (hprogram : programs[j]? = some program)
    (hcall : (calls (log ++ [s.turn i]) j)[round]? = some part) :
    ∃ next, program = .gather part next := by
  have hrank := h.ranks.rank_eq hi
  rw [Session.turn_eq hi] at hcall
  by_cases hj : j = p.rank
  · cases haccepted : (p.turn s.group).accepted? with
    | none =>
      rw [calls_append_of_none haccepted] at hcall
      exact h.part j program part hprogram hcall
    | some call =>
      obtain ⟨rank, contribution⟩ := call
      obtain rfl : rank = p.rank := ((p.move s.group).eq_of_accepted haccepted).1
      rw [calls_append_of_some haccepted, hj, extend_self] at hcall
      rcases getElem?_concat hcall with hcall | ⟨-, rfl⟩
      · exact h.part j program part hprogram (hj ▸ hcall)
      · obtain ⟨next, hnext⟩ := Participant.program_of_accepted haccepted
        rw [hj, hrank, (h.member i p hi).1] at hprogram
        cases hprogram
        exact ⟨next, hnext⟩
  · rw [calls_turn_of_ne hj] at hcall
    exact h.part j program part hprogram hcall

/-- The round goes on if a rank has made its call or goes on to wait. -/
theorem of_waits (h : Gathering programs round log s) (hi : s.participants[i]? = some p)
    (hstands : (p.step s.group).1.aborted = none) (hround : (p.step s.group).1.generation = round)
    (hstep : (p.step s.group).2 = { p with awaited := some round }) :
    Gathering programs round (log ++ [s.turn i]) (s.step i) where
  underway := h.underway.step i
  ranks := h.ranks.step i
  stands := by rwa [Session.step_eq hi]
  generation_eq := by rwa [Session.step_eq hi]
  part := h.part_turn hi
  member := by
    intro j q hj
    rcases Session.getElem?_step hi hj with ⟨rfl, rfl⟩ | ⟨-, hj⟩
    · rw [hstep]
      exact ⟨(h.member j p hi).1, .inr rfl⟩
    · exact h.member j q hj

end Gathering

/-! ## A round that is over -/

/-- The program contributes to a round, and tears the group down if it is answered with the reply. -/
def Exchange.Recoils (reply : Reply) (failing : String → Exchange α → Prop) (program : Exchange α) :
    Prop :=
  ∃ part next reason rest, program = .gather part next ∧ next reply = .abort reason rest ∧
    failing reason rest

/-- A rank learns what came of a round and tears the group down, for which it needs so many more turns. -/
inductive Alarm (group : Group) (round : Nat) (reply : Reply) (failing : String → Exchange α → Prop)
    (p : Participant α) : Nat → Prop
  | asleep : p.program.Recoils reply failing → p.awaited = some round →
    Alarm group round reply failing p 2
  | raising (reason : String) (rest : Exchange α) : p.program = .abort reason rest →
    p.awaited = none → failing reason rest → Alarm group round reply failing p 1
  | told (reason : String) (rest : Exchange α) : group.aborted.isSome = true →
    rest.LeadsTo p.program → failing reason rest → Alarm group round reply failing p 0

/-- The round is over, and each rank tears the group down for what came of it, which is left as it is in
spite of the given turns. -/
structure Collapse (round : Nat) (reply : Reply) (failing : Nat → String → Exchange α → Prop)
    (turns : List Nat) (s : Session α) : Prop where
  generation_eq : s.group.generation = round + 1
  result_eq : s.group.result = some reply
  alarm : ∀ (i : Nat) p, s.participants[i]? = some p →
    ∃ left ≤ 2 - turns.count i, Alarm s.group round reply (failing i) p left

namespace Alarm

variable {group group' : Group} {round left : Nat} {reply : Reply}
  {failing : String → Exchange α → Prop} {p : Participant α}

/-- A rank is not concerned by what others do, as nobody undoes that the group has been torn down. -/
theorem congr (h : Alarm group round reply failing p left)
    (haborted : group.aborted.isSome = true → group'.aborted.isSome = true) :
    Alarm group' round reply failing p left := by
  cases h with
  | asleep hrecoils hawaited => exact .asleep hrecoils hawaited
  | raising reason rest hprogram hawaited hfails => exact .raising reason rest hprogram hawaited hfails
  | told reason rest htorn hleads hfails => exact .told reason rest (haborted htorn) hleads hfails

/-- A turn of the rank brings it one step further, and leaves the result as it is. -/
theorem step (h : Alarm group round reply failing p left) (hround : group.generation = round + 1)
    (hresult : group.result = some reply) :
    Alarm (p.step group).1 round reply failing (p.step group).2 (left - 1) ∧
      (p.step group).1.generation = group.generation ∧ (p.step group).1.result = group.result ∧
      (group.aborted.isSome = true → (p.step group).1.aborted.isSome = true) := by
  obtain ⟨rank, program, awaited⟩ := p
  cases h with
  | asleep hrecoils hawaited =>
    obtain ⟨part, next, reason, rest, rfl, hnext, hfails⟩ := hrecoils
    obtain rfl : awaited = some round := hawaited
    have hwake : group.wake round = some reply := by
      rw [Group.wake, if_neg (by omega), hresult]
      rfl
    simp only [Participant.step, hwake]
    exact ⟨.raising reason rest hnext rfl hfails, trivial, trivial, id⟩
  | raising reason rest hprogram hawaited hfails =>
    obtain rfl : program = .abort reason rest := hprogram
    exact ⟨.told reason rest rfl .start hfails, rfl, rfl, fun _ => rfl⟩
  | told reason rest htorn hleads hfails =>
    have hmove := Participant.move group ⟨rank, program, awaited⟩
    obtain ⟨hgeneration, hsame, htorn'⟩ := hmove.of_aborted htorn
    exact ⟨.told reason rest htorn' (hleads.step group) hfails, hgeneration, hsame, fun _ => htorn'⟩

end Alarm

namespace Collapse

variable {round : Nat} {reply : Reply} {failing : Nat → String → Exchange α → Prop}
  {turns : List Nat} {s : Session α}

theorem step (h : Collapse round reply failing turns s) (i : Nat) :
    Collapse round reply failing (turns ++ [i]) (s.step i) := by
  cases hi : s.participants[i]? with
  | none =>
    rw [Session.step, hi]
    refine ⟨h.generation_eq, h.result_eq, fun j q hj => ?_⟩
    have hij : i ≠ j := by
      rintro rfl
      rw [hi] at hj
      cases hj
    obtain ⟨left, hleft, halarm⟩ := h.alarm j q hj
    exact ⟨left, by simpa [hij] using hleft, halarm⟩
  | some p =>
    obtain ⟨left, hleft, halarm⟩ := h.alarm i p hi
    obtain ⟨halarm', hgeneration, hresult, haborted⟩ := halarm.step h.generation_eq h.result_eq
    have hgroup : (s.step i).group = (p.step s.group).1 := by rw [Session.step_eq hi]
    rw [← hgroup] at halarm' hgeneration hresult haborted
    refine ⟨hgeneration.trans h.generation_eq, hresult.trans h.result_eq, fun j q hj => ?_⟩
    rcases Session.getElem?_step hi hj with ⟨rfl, rfl⟩ | ⟨hij, hj⟩
    · refine ⟨left - 1, ?_, halarm'⟩
      rw [List.count_append, List.count_singleton_self]
      omega
    · obtain ⟨left', hleft', halarm''⟩ := h.alarm j q hj
      exact ⟨left', by simpa [Ne.symm hij] using hleft', halarm''.congr haborted⟩

/-- Every rank goes on until it has torn the group down. -/
theorem run (h : Collapse round reply failing turns s) (schedule : List Nat) :
    Collapse round reply failing (turns ++ schedule) (s.run schedule) := by
  induction schedule using List.reverseRecOn with
  | nil => rwa [List.append_nil]
  | append_singleton schedule i ih =>
    rw [Session.run_append, ← List.append_assoc]
    exact ih.step i

theorem forget (h : Collapse round reply failing turns s) : Collapse round reply failing [] s := by
  refine ⟨h.generation_eq, h.result_eq, fun i p hi => ?_⟩
  obtain ⟨left, hleft, halarm⟩ := h.alarm i p hi
  exact ⟨left, Nat.le_trans hleft (Nat.sub_le _ _), halarm⟩

/-- A rank still sleeps, or it tears the group down and goes on with the reason that it has for that. -/
theorem cases (h : Collapse round reply failing turns s) {i : Nat} {p : Participant α}
    (hi : s.participants[i]? = some p) :
    p.awaited = some round ∨ ∃ reason rest, failing i reason rest ∧
      (p.program = .abort reason rest ∨ s.group.aborted.isSome = true ∧ rest.LeadsTo p.program) := by
  obtain ⟨left, -, halarm⟩ := h.alarm i p hi
  cases halarm with
  | asleep _ hawaited => exact .inl hawaited
  | raising reason rest hprogram _ hfails => exact .inr ⟨reason, rest, hfails, .inl hprogram⟩
  | told reason rest htorn hleads hfails => exact .inr ⟨reason, rest, hfails, .inr ⟨htorn, hleads⟩⟩

theorem told (h : Collapse round reply failing turns s) {i : Nat} {p : Participant α}
    (hi : s.participants[i]? = some p) (hturns : 2 ≤ turns.count i) :
    s.group.aborted.isSome = true ∧ ∃ reason rest, failing i reason rest ∧ rest.LeadsTo p.program := by
  obtain ⟨left, hleft, halarm⟩ := h.alarm i p hi
  obtain rfl : left = 0 := by omega
  cases halarm with
  | told reason rest htorn hleads hfails => exact ⟨htorn, reason, rest, hfails, hleads⟩

end Collapse

/-! ## From the first call to the collapse -/

/-- What the programs contribute to the round that they are about to enter. -/
def Contribute (programs : List (Exchange α)) (parts : List Bytes) : Prop :=
  parts.length = programs.length ∧ ∀ (i : Nat) program, programs[i]? = some program →
    ∃ part next, parts[i]? = some part ∧ program = .gather part next

/-- The programs tear the group down for what they contribute. -/
def Incompatible (programs : List (Exchange α)) (failing : Nat → String → Exchange α → Prop) : Prop :=
  ∀ parts, Contribute programs parts → ∀ (i : Nat) program, programs[i]? = some program →
    program.Recoils (Gathered.ofContributions parts) (failing i)

/-- The programs take part in the round, or give it up at once. -/
def Punctual (programs : List (Exchange α)) : Prop :=
  ∀ program ∈ programs, (∃ part next, program = .gather part next) ∨
    ∃ reason next, program = .abort reason next

/-- How a round goes on: it is under way, it has been given up, or the group collapses. -/
inductive Course (programs : List (Exchange α)) (failing : Nat → String → Exchange α → Prop)
    (round : Nat) (log : List Turn) (s : Session α) : Prop
  | gathering : Gathering programs round log s → Course programs failing round log s
  | stopped : s.group.aborted.isSome = true → s.group.generation = round →
    Course programs failing round log s
  | collapsed (reply : Reply) : Collapse round reply failing [] s → Course programs failing round log s

namespace Gathering

variable {programs : List (Exchange α)} {failing : Nat → String → Exchange α → Prop} {round : Nat}
  {log : List Turn} {s : Session α} {i : Nat} {p : Participant α}

theorem exists_call (h : Gathering programs round log s)
    (hover : (s.step i).group.generation = round + 1) {j : Nat} (hj : j < programs.length) :
    ∃ part, (calls (log ++ [s.turn i]) j)[round]? = some part := by
  have hlength := (h.underway.step i).minutes.sent_ge j hj
  rw [hover] at hlength
  exact ⟨_, List.getElem?_eq_getElem hlength⟩

theorem contribute (h : Gathering programs round log s) (hi : s.participants[i]? = some p)
    (hover : (s.step i).group.generation = round + 1) :
    Contribute programs (contributed programs.length (calls (log ++ [s.turn i])) round) := by
  refine ⟨by simp [contributed], fun j program hprogram => ?_⟩
  have hj := (List.getElem?_eq_some_iff.1 hprogram).1
  obtain ⟨part, hpart⟩ := h.exists_call hover hj
  obtain ⟨next, hnext⟩ := h.part_turn hi j program part hprogram hpart
  refine ⟨part, next, ?_, hnext⟩
  rw [contributed, List.getElem?_map, List.getElem?_range hj, Option.map_some, hpart,
    Option.getD_some]

/-- The last rank to come completes the round, and all learn what they have contributed. -/
theorem collapse (h : Gathering programs round log s) (hincompatible : Incompatible programs failing)
    (hi : s.participants[i]? = some p) {contribution : Bytes} {next : Reply → Exchange α}
    (hprogram : p.program = .gather contribution next) (hawaited : p.awaited = none)
    (hlast : s.group.arrived + 1 = s.group.size) :
    ∃ reply, Collapse round reply failing [] (s.step i) := by
  have hrank := h.ranks.rank_eq hi
  have henter := Group.enter_of_accepts (h.accepts hi hawaited) contribution
  rw [if_pos hlast] at henter
  let entered := s.group.withCall i contribution
  have hstep : p.step s.group = ((s.group.complete entered.slots).2,
      { p with program := next (s.group.complete entered.slots).1 }) := by
    obtain ⟨rank, program, awaited⟩ := p
    obtain rfl : program = .gather contribution next := hprogram
    obtain rfl : awaited = none := hawaited
    obtain rfl : rank = i := hrank
    simp only [Participant.step, henter, entered]
  have hgroup : (s.step i).group = (s.group.complete entered.slots).2 := by
    rw [Session.step_eq hi, hstep]
  have hover : (s.step i).group.generation = round + 1 := by
    rw [hgroup, ← h.generation_eq]
    rfl
  have hresult := (h.underway.step i).minutes.result_eq round hover
  have hreply : (s.group.complete entered.slots).1 =
      outcome programs.length (calls (log ++ [s.turn i])) round := by
    rw [hgroup] at hresult
    exact Option.some.inj hresult
  have hrecoils := hincompatible _ (h.contribute hi hover)
  refine ⟨_, hover, hresult, fun j q hj => ?_⟩
  rcases Session.getElem?_step hi hj with ⟨rfl, rfl⟩ | ⟨hij, hj⟩
  · obtain ⟨part, next', reason, rest, hprogram', hnext, hfails⟩ := hrecoils j _ (h.member j p hi).1
    obtain ⟨-, rfl⟩ := (Exchange.gather.injEq ..).mp (hprogram.symm.trans hprogram')
    rw [hstep]
    refine ⟨1, by simp, .raising reason rest ?_ hawaited hfails⟩
    exact (congrArg next hreply).trans hnext
  · refine ⟨2, by simp, .asleep (hrecoils j _ (h.member j q hj).1) ?_⟩
    have hlt := (List.getElem?_eq_some_iff.1 (h.member j q hj).1).1
    obtain ⟨part, hcall⟩ := h.exists_call hover hlt
    rw [Session.turn_eq hi, calls_turn_of_ne (hrank ▸ hij)] at hcall
    exact h.awaited_of_called hj hcall

theorem step (h : Gathering programs round log s) (hpunctual : Punctual programs)
    (hincompatible : Incompatible programs failing) (i : Nat) :
    Course programs failing round (log ++ [s.turn i]) (s.step i) := by
  cases hi : s.participants[i]? with
  | none =>
    refine .gathering ⟨h.underway.step i, ?_, ?_, ?_, ?_, ?_⟩
    · exact h.ranks.step i
    · rw [Session.step, hi]
      exact h.stands
    · rw [Session.step, hi]
      exact h.generation_eq
    · rw [Session.step, hi]
      exact h.member
    · rw [Session.turn, hi, calls_append_of_none rfl]
      exact h.part
  | some p =>
    have hrank := h.ranks.rank_eq hi
    obtain ⟨hprogram, hawaited⟩ := h.member i p hi
    rcases hpunctual p.program (List.mem_of_getElem? hprogram) with
      ⟨part, next, hgather⟩ | ⟨reason, next, habort⟩
    · rcases hawaited with hawaited | hawaited
      · by_cases hlast : s.group.arrived + 1 = s.group.size
        · obtain ⟨reply, hcollapse⟩ := h.collapse hincompatible hi hgather hawaited hlast
          exact .collapsed reply hcollapse
        -- The rank makes its call and has to wait.
        · have henter := Group.enter_of_accepts (h.accepts hi hawaited) part
          rw [if_neg hlast, ← hrank] at henter
          have hstep : p.step s.group =
              (s.group.withCall p.rank part, { p with awaited := some s.group.generation }) := by
            simp only [Participant.step, hgather, hawaited, henter]
          refine .gathering (h.of_waits hi ?_ ?_ ?_)
          · rw [hstep]
            exact h.stands
          · rw [hstep]
            exact h.generation_eq
          · rw [hstep, h.generation_eq]
      -- The rank has made its call, and the round is not over.
      · have hwake : s.group.wake round = none := by
          rw [Group.wake, if_pos h.generation_eq, h.stands]
          rfl
        have hstep : p.step s.group = (s.group, p) := by
          simp only [Participant.step, hgather, hawaited, hwake]
        refine .gathering (h.of_waits hi ?_ ?_ ?_)
        · rw [hstep]
          exact h.stands
        · rw [hstep]
          exact h.generation_eq
        · rw [hstep, ← hawaited]
    · have hstep : (p.step s.group).1 = s.group.abort reason := by
        simp only [Participant.step, habort]
      refine .stopped ?_ ?_
      · rw [Session.step_eq hi, hstep]
        rfl
      · rw [Session.step_eq hi, hstep]
        exact h.generation_eq

end Gathering

theorem Course.step {programs : List (Exchange α)} {failing : Nat → String → Exchange α → Prop}
    {round : Nat} {log : List Turn} {s : Session α} (h : Course programs failing round log s)
    (hpunctual : Punctual programs) (hincompatible : Incompatible programs failing) (i : Nat) :
    Course programs failing round (log ++ [s.turn i]) (s.step i) := by
  cases h with
  | gathering h => exact h.step hpunctual hincompatible i
  | stopped haborted hround =>
    cases hi : s.participants[i]? with
    | none =>
      rw [Session.step, hi]
      exact .stopped haborted hround
    | some p =>
      obtain ⟨hgeneration, -, haborted'⟩ := (p.move s.group).of_aborted haborted
      refine .stopped ?_ ?_
      · rwa [Session.step_eq hi]
      · rw [Session.step_eq hi]
        exact hgeneration.trans hround
  | collapsed reply h => exact .collapsed reply (h.step i).forget

theorem Course.run {programs : List (Exchange α)} {failing : Nat → String → Exchange α → Prop}
    {round : Nat} {log : List Turn} {s : Session α} (h : Course programs failing round log s)
    (hpunctual : Punctual programs) (hincompatible : Incompatible programs failing)
    (schedule : List Nat) :
    Course programs failing round (log ++ s.log schedule) (s.run schedule) :=
  Session.keeps_run (fun _ _ i h => h.step hpunctual hincompatible i) h schedule

/-- A round of incompatible programs that is over leaves the group to its collapse. -/
theorem Gathering.exists_collapse {programs : List (Exchange α)}
    {failing : Nat → String → Exchange α → Prop} {round : Nat} {log : List Turn} {s : Session α}
    (h : Gathering programs round log s) (hpunctual : Punctual programs)
    (hincompatible : Incompatible programs failing) {schedule : List Nat}
    (hover : round < (s.run schedule).group.generation) :
    ∃ reply, Collapse round reply failing [] (s.run schedule) := by
  cases (Course.gathering h).run hpunctual hincompatible schedule with
  | gathering h => exact absurd h.generation_eq (Nat.ne_of_gt hover)
  | stopped _ hround => exact absurd hround (Nat.ne_of_gt hover)
  | collapsed reply h => exact ⟨reply, h⟩

/-- Wherever a session of one member for each rank has come, the round is under way if all members are at
their calls. -/
theorem Gathering.of_run (past programs : List (Exchange α)) (before : List Nat)
    (hlength : past.length = programs.length) :
    let s := (Session.ofPrograms (.ofSize programs.length) past).run before
    s.group.aborted = none →
    (∀ (i : Nat) p, s.participants[i]? = some p → programs[i]? = some p.program ∧
      (p.awaited = none ∨ p.awaited = some s.group.generation)) →
    ∃ log, Gathering programs s.group.generation log s := by
  intro s hstands hmember
  have hstart : Underway programs.length [] (Session.ofPrograms (.ofSize programs.length) past) :=
    hlength ▸ Underway.ofPrograms past
  have hunder := hstart.run before
  have hranks : s.OnePerRank programs.length := hlength ▸ (Session.OnePerRank.ofPrograms _ past).run before
  refine ⟨_, hunder, hranks, hstands, rfl, hmember, fun i program part hprogram hcall => ?_⟩
  have hlt := (List.getElem?_eq_some_iff.1 hprogram).1
  obtain ⟨p, hp, rfl, -, next, hnext⟩ := hunder.exists_waiting hstands hlt hcall
  rw [(hmember p.rank p (hranks.getElem?_rank hp)).1] at hprogram
  cases hprogram
  exact ⟨next, hnext⟩

end ElementGrid
