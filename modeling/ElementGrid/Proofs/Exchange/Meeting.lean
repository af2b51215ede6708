import ElementGrid.Proofs.Except
import ElementGrid.Proofs.Exchange.Rounds
/-!
# Meetings

In a meeting every rank of a group has one member, which takes part in one round and is over when it
knows what came of the round. However the turns are mixed, all members come to the same, nobody tears
the group down, and two turns each are enough if all first ones come before the second.

## Main definitions

* `Attends` — a program that takes part in one round
* `Stage` — how far such a program has come
* `Meeting` — what holds of a meeting after every turn

## Main results

* `Meeting.run` — a schedule leaves a meeting a meeting
* `Meeting.results` — who has had a turn before and after everybody had one is over
-/

namespace ElementGrid

open Rounds

variable {α : Type}

/-- The program contributes `part` to one round, and the reply leads it to `value`. -/
def Attends (reply : Reply) (part : Bytes) (value : α) (program : Exchange α) : Prop :=
  ∃ next, program = .gather part next ∧ next reply = .done value

/-- How far a member has come that takes part in one round, with what it has contributed and what it
was answered. -/
inductive Stage (reply : Reply) (part : Bytes) (value : α) (p : Participant α) :
    List Bytes → List Reply → Prop
  | ready : Attends reply part value p.program → p.awaited = none → Stage reply part value p [] []
  | waiting (round : Nat) : Attends reply part value p.program → p.awaited = some round →
    Stage reply part value p [part] []
  | ended : p.program = .done value → p.awaited = none → Stage reply part value p [part] [reply]

/-! ## Turns of a member -/

namespace Stage

variable {reply : Reply} {part : Bytes} {value : α} {p : Participant α} {g : Group}
  {log : List Turn} {called : List Bytes} {answered : List Reply}

/-- A member of a meeting does not tear the group down. -/
theorem aborted_step (h : Stage reply part value p called answered) :
    (p.step g).1.aborted = g.aborted := by
  have hraised : p.raised? = none := by
    rw [Participant.raised?]
    cases h with
    | ready hattends | waiting _ hattends =>
      obtain ⟨next, hprogram, -⟩ := hattends
      rw [hprogram]
    | ended hprogram _ => rw [hprogram]
  rw [p.aborted_step_eq, hraised, Option.or_none]

theorem calls_turn (h : Stage reply part value p (calls log p.rank) answered)
    (haccepts : calls log p.rank = [] → g.accepts p.rank = true) :
    calls (log ++ [p.turn g]) p.rank = [part] := by
  generalize hcalled : calls log p.rank = called at h haccepts
  cases h with
  | ready hattends hawaited =>
    obtain ⟨next, hprogram, -⟩ := hattends
    have hturn : (p.turn g).accepted? = some (p.rank, part) := by
      simp only [Participant.turn, hprogram, hawaited, haccepts rfl, if_true]
      rw [Group.enter_of_accepts (haccepts rfl)]
      by_cases hlast : g.arrived + 1 = g.size
      · rw [if_pos hlast]
        rfl
      · rw [if_neg hlast]
        rfl
    rw [calls_append_of_some hturn, extend_self, hcalled]
    rfl
  | waiting round hattends hawaited =>
    obtain ⟨next, hprogram, -⟩ := hattends
    have hturn : (p.turn g).accepted? = none := by
      simp only [Participant.turn, hprogram, hawaited]
      split <;> rfl
    rw [calls_append_of_none hturn, hcalled]
  | ended hprogram _ =>
    have hturn : (p.turn g).accepted? = none := by simp only [Participant.turn, hprogram]; rfl
    rw [calls_append_of_none hturn, hcalled]

/-- A member whose round is over has its answer after its turn. -/
theorem replies_turn (h : Stage reply part value p (calls log p.rank) (replies log p.rank))
    (hcalled : calls log p.rank ≠ []) (hover : ∀ round, p.awaited = some round → g.generation ≠ round) :
    replies (log ++ [p.turn g]) p.rank ≠ [] := by
  generalize hanswered : replies log p.rank = answered at h
  generalize calls log p.rank = called at h hcalled
  cases h with
  | ready => exact absurd rfl hcalled
  | waiting round hattends hawaited =>
    obtain ⟨next, hprogram, -⟩ := hattends
    have hturn : ∃ x, (p.turn g).answered? = some (p.rank, x) := by
      simp only [Participant.turn, hprogram, hawaited, Group.wake, if_neg (hover round hawaited)]
      exact ⟨_, rfl⟩
    obtain ⟨x, hturn⟩ := hturn
    rw [replies_append_of_some hturn, extend_self]
    simp
  | ended hprogram _ =>
    have hturn : (p.turn g).answered? = none := by simp only [Participant.turn, hprogram]; rfl
    rw [replies_append_of_none hturn, hanswered]
    simp

/-- A turn brings a member further or leaves it where it is, as long as nothing but the round's reply
is answered. -/
theorem step (h : Stage reply part value p (calls log p.rank) (replies log p.rank))
    (haccepts : calls log p.rank = [] → g.accepts p.rank = true)
    (hanswer : ∀ x, replies log p.rank = [] → (p.turn g).answered? = some (p.rank, x) → x = reply) :
    Stage reply part value (p.step g).2 (calls (log ++ [p.turn g]) p.rank)
      (replies (log ++ [p.turn g]) p.rank) := by
  have hcalls := h.calls_turn haccepts
  rw [hcalls]
  generalize hanswered : replies log p.rank = answered at h hanswer
  generalize calls log p.rank = called at h haccepts
  obtain ⟨rank, program, awaited⟩ := p
  cases h with
  | ready hattends hawaited =>
    obtain ⟨next, rfl, hnext⟩ := hattends
    obtain rfl : awaited = none := hawaited
    have henter := Group.enter_of_accepts (haccepts rfl) part
    by_cases hlast : g.arrived + 1 = g.size
    · rw [if_pos hlast] at henter
      simp only [Participant.turn, Participant.step, haccepts rfl, henter, if_true] at hanswer ⊢
      rw [hanswer _ trivial rfl, replies_append_of_some rfl, extend_self, hanswered]
      exact .ended hnext rfl
    · rw [if_neg hlast] at henter
      simp only [Participant.turn, Participant.step, haccepts rfl, henter, if_true]
      rw [replies_append_of_none rfl, hanswered]
      exact .waiting _ ⟨next, rfl, hnext⟩ rfl
  | waiting round hattends hawaited =>
    obtain ⟨next, rfl, hnext⟩ := hattends
    obtain rfl : awaited = some round := hawaited
    cases hwake : g.wake round with
    | none =>
      simp only [Participant.turn, Participant.step, hwake]
      rw [replies_append_of_none rfl, hanswered]
      exact .waiting round ⟨next, rfl, hnext⟩ rfl
    | some x =>
      simp only [Participant.turn, Participant.step, hwake] at hanswer ⊢
      rw [hanswer _ trivial rfl, replies_append_of_some rfl, extend_self, hanswered]
      exact .ended hnext rfl
  | ended hprogram hawaited =>
    obtain rfl : program = .done value := hprogram
    simp only [Participant.turn, Participant.step]
    rw [replies_append_of_none rfl, hanswered]
    exact .ended rfl hawaited

theorem result_eq (h : Stage reply part value p called answered) {a : α}
    (hover : Session.result? p = some a) : a = value := by
  rw [Session.result?] at hover
  cases h with
  | ready hattends | waiting _ hattends =>
    obtain ⟨next, hprogram, -⟩ := hattends
    rw [hprogram] at hover
    cases hover
  | ended hprogram =>
    rw [hprogram] at hover
    cases hover
    rfl

/-- A member that has its answer has come to an end. -/
theorem result_of_answered (h : Stage reply part value p called answered) (hanswered : answered ≠ []) :
    Session.result? p = some value := by
  cases h with
  | ready | waiting => exact absurd rfl hanswered
  | ended hprogram => rw [Session.result?, hprogram]

end Stage

/-! ## Turns of all members -/

/-- A meeting after some turns: the group keeps track and stands, and the member of each rank has its
part and comes to its value. -/
structure Meeting (parts : List Bytes) (values : List α) (log : List Turn) (s : Session α) : Prop where
  ledger : Ledger parts.length (calls log) (replies log) s.group (members s)
  aborted_eq : s.group.aborted = none
  length_eq : s.participants.length = parts.length
  stage : ∀ (i : Nat) p, s.participants[i]? = some p → p.rank = i ∧
    ∃ part value, parts[i]? = some part ∧ values[i]? = some value ∧
      Stage (Gathered.ofContributions parts) part value p (calls log i) (replies log i)

namespace Meeting

variable {parts : List Bytes} {values : List α} {log : List Turn} {s : Session α}

theorem start {programs : List (Exchange α)} (hlength : programs.length = parts.length)
    (hattends : ∀ (i : Nat) program, programs[i]? = some program →
      ∃ part value, parts[i]? = some part ∧ values[i]? = some value ∧
        Attends (Gathered.ofContributions parts) part value program) :
    Meeting parts values [] (Session.ofPrograms (.ofSize parts.length) programs) := by
  have hmember : ∀ (i : Nat) p,
      (Session.ofPrograms (.ofSize parts.length) programs).participants[i]? = some p →
      ∃ program, programs[i]? = some program ∧ p = { rank := i, program } := by
    intro i p hp
    simp only [Session.ofPrograms, Session.start, List.map_map, List.getElem?_map,
      List.getElem?_zipIdx, Option.map_eq_some_iff] at hp
    obtain ⟨_, ⟨program, hprogram, rfl⟩, rfl⟩ := hp
    exact ⟨program, hprogram, by simp⟩
  refine ⟨Ledger.start _ fun m hm => ?_, rfl, ?_, fun i p hp => ?_⟩
  · obtain ⟨p, hp, rfl⟩ := List.mem_map.1 hm
    obtain ⟨i, hi⟩ := List.getElem?_of_mem hp
    obtain ⟨program, hprogram, rfl⟩ := hmember i p hi
    have := (List.getElem?_eq_some_iff.1 hprogram).1
    exact ⟨by simp only; omega, rfl⟩
  · simp [Session.ofPrograms, Session.start, hlength]
  · obtain ⟨program, hprogram, rfl⟩ := hmember i p hp
    obtain ⟨part, value, hpart, hvalue, hprogram⟩ := hattends i program hprogram
    exact ⟨rfl, part, value, hpart, hvalue, .ready hprogram rfl⟩

/-- When a round is over it was the round in which all contributed their parts. -/
theorem outcome_eq {g : Group} {members : List (Nat × Option Nat)}
    (h : Ledger parts.length (calls log) (replies log) g members) (hover : 0 < g.generation)
    (hcalls : ∀ (q : Nat) part, parts[q]? = some part → calls log q = [] ∨ calls log q = [part]) :
    outcome parts.length (calls log) 0 = Gathered.ofContributions parts := by
  refine congrArg Gathered.ofContributions (List.ext_getElem ?_ fun q hq hq' => ?_)
  · rw [contributed, List.length_map, List.length_range]
  · have hlength := h.sent_ge q hq'
    rcases hcalls q _ (List.getElem?_eq_getElem hq') with hnone | hone
    · rw [hnone, List.length_nil] at hlength
      omega
    · simp [contributed, hone]

theorem calls_cases (h : Meeting parts values log s) {q : Nat} {part : Bytes}
    (hpart : parts[q]? = some part) : calls log q = [] ∨ calls log q = [part] := by
  have hq : q < s.participants.length := by
    rw [h.length_eq]
    exact (List.getElem?_eq_some_iff.1 hpart).1
  obtain ⟨-, part', value, hpart', -, hstage⟩ := h.stage q _ (List.getElem?_eq_getElem hq)
  rw [hpart] at hpart'
  cases hpart'
  generalize calls log q = called at hstage
  generalize replies log q = answered at hstage
  cases hstage with
  | ready => exact .inl rfl
  | waiting => exact .inr rfl
  | ended => exact .inr rfl

/-- A member that has not contributed is not turned away. -/
theorem accepts (h : Meeting parts values log s) {q : Nat} (hq : q < parts.length)
    (hcalled : calls log q = []) : s.group.accepts q = true := by
  have hslot := h.ledger.slot_eq q hq
  rw [hcalled] at hslot
  rw [Group.accepts, h.aborted_eq, ← hslot]
  rfl

/-- Nobody else acts for a rank, so a call that is accepted is the only one. -/
theorem orderly_turn (h : Meeting parts values log s) (i : Nat) :
    ∀ call ∈ (s.turn i).accepted?, s.isBusy call.1 = false := by
  intro call hcall
  rw [Session.turn] at hcall
  split at hcall
  · cases hcall
  · rename_i p hi
    obtain ⟨rfl, -⟩ := h.stage i p hi
    obtain ⟨hcaller, hidle⟩ := (p.move s.group).eq_of_accepted hcall
    rw [hcaller, Session.isBusy, List.any_eq_false]
    intro q hq
    obtain ⟨j, hj⟩ := List.getElem?_of_mem hq
    obtain ⟨rfl, -⟩ := h.stage j q hj
    by_cases hsame : q.rank = p.rank
    · rw [hsame, hi] at hj
      cases hj
      simp [hidle]
    · simp [hsame]

theorem ledger_turn (h : Meeting parts values log s) (i : Nat) :
    Ledger parts.length (calls (log ++ [s.turn i])) (replies (log ++ [s.turn i])) (s.step i).group
      (members (s.step i)) :=
  ledger_step h.ledger i (h.orderly_turn i)

theorem aborted_step (h : Meeting parts values log s) (i : Nat) :
    (s.step i).group.aborted = none := by
  rw [Session.step]
  split
  · exact h.aborted_eq
  · rename_i p hi
    obtain ⟨-, part, value, -, -, hstage⟩ := h.stage i p hi
    exact hstage.aborted_step.trans h.aborted_eq

theorem exists_member (h : Meeting parts values log s) {i : Nat} (hi : i < parts.length) :
    ∃ p, s.participants[i]? = some p ∧ s.turn i = p.turn s.group := by
  rw [← h.length_eq] at hi
  exact ⟨_, List.getElem?_eq_getElem hi, by rw [Session.turn, List.getElem?_eq_getElem hi]⟩

/-- After its turn a rank has contributed its part. -/
theorem calls_turn (h : Meeting parts values log s) {i : Nat} {part : Bytes}
    (hpart : parts[i]? = some part) : calls (log ++ [s.turn i]) i = [part] := by
  have hi := (List.getElem?_eq_some_iff.1 hpart).1
  obtain ⟨p, hp, hturn⟩ := h.exists_member hi
  obtain ⟨rfl, part', value, hpart', -, hstage⟩ := h.stage i p hp
  rw [hpart] at hpart'
  cases hpart'
  rw [hturn]
  exact hstage.calls_turn (h.accepts hi)

theorem calls_turn_other (h : Meeting parts values log s) {i q : Nat} (hq : q ≠ i) :
    calls (log ++ [s.turn i]) q = calls log q := by
  rw [Session.turn]
  split
  · rw [calls_append_of_none rfl]
  · rename_i p hi
    obtain ⟨rfl, -⟩ := h.stage i p hi
    exact calls_turn_of_ne hq

theorem replies_turn_other (h : Meeting parts values log s) {i q : Nat} (hq : q ≠ i) :
    replies (log ++ [s.turn i]) q = replies log q := by
  rw [Session.turn]
  split
  · rw [replies_append_of_none rfl]
  · rename_i p hi
    obtain ⟨rfl, -⟩ := h.stage i p hi
    exact replies_turn_of_ne hq

/-- The first answer of a rank is what comes of the parts of all. -/
theorem reply_turn (h : Meeting parts values log s) {i : Nat} {x : Reply} (hi : i < parts.length)
    (hnone : replies log i = []) (hx : (s.turn i).answered? = some (i, x)) :
    x = Gathered.ofContributions parts := by
  have hledger := h.ledger_turn i
  have hfirst : (replies (log ++ [s.turn i]) i)[0]? = some x := by
    rw [replies_append_of_some hx, extend_self, hnone]
    rfl
  rcases hledger.reply_eq i hi 0 x hfirst with ⟨hover, houtcome⟩ | ⟨-, hstands, -⟩
  · rw [houtcome]
    refine outcome_eq hledger hover fun q part hpart => ?_
    by_cases hq : q = i
    · subst hq
      exact .inr (h.calls_turn hpart)
    · rw [h.calls_turn_other hq]
      exact h.calls_cases hpart
  · rw [h.aborted_step i] at hstands
    cases hstands

/-- A turn leaves a meeting a meeting. -/
theorem step (h : Meeting parts values log s) (i : Nat) :
    Meeting parts values (log ++ [s.turn i]) (s.step i) := by
  refine ⟨h.ledger_turn i, h.aborted_step i, ?_, fun j q hq => ?_⟩
  · rw [← h.length_eq, Session.step]
    split
    · rfl
    · exact List.length_set
  -- Members other than the one that has its turn stay as they are.
  · by_cases hj : j = i
    · subst hj
      rw [Session.step] at hq
      split at hq
      · rename_i hnone
        rw [hnone] at hq
        cases hq
      · rename_i p hp
        rw [List.getElem?_set_self (List.getElem?_eq_some_iff.1 hp).1] at hq
        cases hq
        have hturn : s.turn j = p.turn s.group := by rw [Session.turn, hp]
        obtain ⟨rfl, part, value, hpart, hvalue, hstage⟩ := h.stage j p hp
        have hlt := (List.getElem?_eq_some_iff.1 hpart).1
        refine ⟨Participant.rank_step _ p, part, value, hpart, hvalue, ?_⟩
        rw [hturn]
        refine hstage.step (h.accepts hlt) fun x hnone hx => ?_
        exact h.reply_turn hlt hnone (hturn ▸ hx)
    · have hstay : s.participants[j]? = some q := by
        rw [Session.step] at hq
        split at hq
        · exact hq
        · rwa [List.getElem?_set_ne (Ne.symm hj)] at hq
      rw [h.calls_turn_other hj, h.replies_turn_other hj]
      exact h.stage j q hstay

/-- A schedule leaves a meeting a meeting. -/
theorem run (h : Meeting parts values log s) (schedule : List Nat) :
    Meeting parts values (log ++ s.log schedule) (s.run schedule) :=
  Session.keeps_run (fun _ _ i h => h.step i) h schedule

theorem result_eq (h : Meeting parts values log s) {i : Nat} {p : Participant α} {a : α}
    (hi : s.participants[i]? = some p) (hover : Session.result? p = some a) :
    values[i]? = some a := by
  obtain ⟨-, part, value, -, hvalue, hstage⟩ := h.stage i p hi
  rw [hstage.result_eq hover]
  exact hvalue

/-- After its turn a rank is over, if all have contributed before. -/
theorem replies_turn (h : Meeting parts values log s) (hcalled : ∀ q < parts.length, calls log q ≠ [])
    {i : Nat} (hi : i < parts.length) : replies (log ++ [s.turn i]) i ≠ [] := by
  obtain ⟨p, hp, hturned⟩ := h.exists_member hi
  obtain ⟨rfl, part, value, hpart, -, hstage⟩ := h.stage i p hp
  have hover : 0 < s.group.generation :=
    h.ledger.minutes.lt_generation (Nat.zero_lt_of_lt hi) fun q hq =>
      List.length_pos_iff.2 (hcalled q hq)
  have hround : ∀ round, p.awaited = some round → s.group.generation ≠ round := by
    intro round hround
    have hlength := h.ledger.awaited_eq (p.rank, p.awaited)
      (List.mem_map_of_mem (List.mem_of_getElem? hp)) round hround
    have hone := (h.calls_cases hpart).resolve_left (hcalled p.rank hi)
    rw [hone] at hlength
    cases hlength
    exact Nat.ne_of_gt hover
  rw [hturned]
  exact hstage.replies_turn (hcalled p.rank hi) hround

/-- Who has had a turn has contributed. -/
theorem calls_run (h : Meeting parts values log s) {i : Nat} (hi : i < parts.length)
    {schedule : List Nat} (hturn : i ∈ schedule) : calls (log ++ s.log schedule) i ≠ [] := by
  refine Session.holds_after_turn (K := Meeting parts values) (L := fun log _ => calls log i ≠ [])
    (fun _ _ j h => h.step j) (fun log s h => ?_)
    (fun log s j hcalled => (shown_mono _ log _ i).ne_nil hcalled) h hturn
  rw [h.calls_turn (List.getElem?_eq_getElem hi)]
  exact List.cons_ne_nil _ _

/-- Who has had a turn after all have contributed is over. -/
theorem replies_run (h : Meeting parts values log s)
    (hcalled : ∀ q < parts.length, calls log q ≠ []) {i : Nat} (hi : i < parts.length)
    {schedule : List Nat} (hturn : i ∈ schedule) : replies (log ++ s.log schedule) i ≠ [] :=
  Session.holds_after_turn
    (K := fun log s => Meeting parts values log s ∧ ∀ q < parts.length, calls log q ≠ [])
    (L := fun log _ => replies log i ≠ [])
    (fun log _ j h => ⟨h.1.step j, fun q hq => (shown_mono _ log _ q).ne_nil (h.2 q hq)⟩)
    (fun _ _ h => h.1.replies_turn h.2 hi)
    (fun log _ _ hreplied => (shown_mono _ log _ i).ne_nil hreplied) ⟨h, hcalled⟩ hturn

/-- When everybody has had a turn and then another one, all are over. -/
theorem results (h : Meeting parts values [] s) (hlength : values.length = parts.length)
    {first second : List Nat} (hfirst : ∀ i < parts.length, i ∈ first)
    (hsecond : ∀ i < parts.length, i ∈ second) :
    (s.run (first ++ second)).results? = some values := by
  have hmeeting := (h.run first).run second
  rw [List.nil_append] at hmeeting
  have hrun : s.run (first ++ second) = (s.run first).run second := Session.run_append s first second
  have hcalled : ∀ q < parts.length, calls (s.log first) q ≠ [] := by
    intro q hq
    have := h.calls_run hq (hfirst q hq)
    rwa [List.nil_append] at this
  have hanswered : ∀ q < parts.length, replies (s.log first ++ (s.run first).log second) q ≠ [] := by
    intro q hq
    have hmiddle := h.run first
    rw [List.nil_append] at hmiddle
    exact hmiddle.replies_run hcalled hq (hsecond q hq)
  rw [hrun, Session.results?]
  refine List.mapM_eq_pure (hlength.trans hmeeting.length_eq.symm) fun i p value hp hvalue => ?_
  obtain ⟨-, part, value', hpart, hvalue', hstage⟩ := hmeeting.stage i p hp
  obtain rfl : value' = value := Option.some.inj (hvalue'.symm.trans hvalue)
  exact hstage.result_of_answered (hanswered i (List.getElem?_eq_some_iff.1 hpart).1)

end Meeting

end ElementGrid
