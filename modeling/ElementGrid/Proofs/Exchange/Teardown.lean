import ElementGrid.Proofs.Exchange.Turn
/-!
# Torn down for a cause

Nothing brings back a group that has been torn down: its members are turned away from then on. So a
program does well to tear it down only if it comes to a result that accounts for it.

## Main definitions

* `Exchange.Careful` — a program that tears the group down just before a result that is a cause for it
* `Session.Guarded` — what holds of a session of such programs after every turn

## Main results

* `Session.aborted_run` — a group that has been torn down remains so, for the same reason
* `Session.Guarded.run` — a group is torn down for a cause, and never stands where there is one
-/

namespace ElementGrid

variable {α : Type}

/-! ## A group that has been torn down -/

namespace Session

variable {s : Session α} {reason : String}

theorem aborted_step (h : s.group.aborted = some reason) (i : Nat) :
    (s.step i).group.aborted = some reason := by
  rw [step]
  split
  · exact h
  · rename_i p _
    exact (p.move s.group).aborted_eq_some h

theorem aborted_run (h : s.group.aborted = some reason) (schedule : List Nat) :
    (s.run schedule).group.aborted = some reason :=
  List.foldlRecOn (motive := fun s : Session α => s.group.aborted = some reason) schedule step h
    fun _ h i _ => aborted_step h i

end Session

/-- Who comes to a group that has been torn down is told why. -/
theorem Group.enter_of_aborted {g : Group} {reason : String} (h : g.aborted = some reason) (rank : Nat)
    (contribution : Bytes) :
    g.enter rank contribution = (.answered (.error (.aborted reason)), g) := by
  rw [enter, h]

/-! ## Members that are over -/

theorem Session.program_of_over {p : Participant α} {a : α} (h : Session.result? p = some a) :
    p.program = .done a := by
  rw [Session.result?] at h
  split at h
  · rename_i hprogram
    cases h
    exact hprogram
  · cases h

theorem Participant.step_of_over {p : Participant α} {a : α} (h : Session.result? p = some a)
    (g : Group) : p.step g = (g, p) := by
  simp only [step, Session.program_of_over h]

namespace Session

variable {s : Session α} {i : Nat} {p : Participant α} {a : α}

theorem step_of_over (hi : s.participants[i]? = some p) (hover : result? p = some a) :
    s.step i = s := by
  obtain ⟨hlt, rfl⟩ := List.getElem?_eq_some_iff.1 hi
  rw [step_eq hi, Participant.step_of_over hover, List.set_getElem_self]

theorem mem_step_of_over (hp : p ∈ s.participants) (hover : result? p = some a) (i : Nat) :
    p ∈ (s.step i).participants := by
  obtain ⟨j, hj⟩ := List.getElem?_of_mem hp
  by_cases hij : i = j
  · subst hij
    rwa [step_of_over hj hover]
  · cases hi : s.participants[i]? with
    | none => rwa [step, hi]
    | some q =>
      rw [step_eq hi]
      exact List.mem_of_getElem? ((List.getElem?_set_ne hij).trans hj)

end Session

/-! ## Careful programs -/

/-- The program tears the group down only to come to a result at once that is a cause for it, and comes
to such a result in no other way. -/
inductive Exchange.Careful (cause : α → Option String) : Exchange α → Prop
  | ended (a : α) : cause a = none → Careful cause (.done a)
  | tearing (a : α) (reason : String) : cause a = some reason → Careful cause (.abort reason (.done a))
  | round (contribution : Bytes) (next : Except ExchangeError Gathered → Exchange α) :
    (∀ reply, Careful cause (next reply)) → Careful cause (.gather contribution next)

variable {cause : α → Option String}

/-- After its turn a careful program goes on with care and leaves the group standing, or it has torn the
group down and is over. -/
theorem Exchange.Careful.step {p : Participant α} (h : Careful cause p.program) (g : Group) :
    (Careful cause (p.step g).2.program ∧ (p.step g).1.aborted = g.aborted) ∨
      ∃ a reason, cause a = some reason ∧ (p.step g).1 = g.abort reason ∧
        Session.result? (p.step g).2 = some a := by
  obtain ⟨rank, program, awaited⟩ := p
  cases h with
  | ended a hcause => exact .inl ⟨.ended a hcause, rfl⟩
  | tearing a reason hcause => exact .inr ⟨a, reason, hcause, rfl, rfl⟩
  | round contribution next hnext =>
    left
    cases awaited with
    | some generation =>
      simp only [Participant.step]
      cases g.wake generation with
      | none => exact ⟨.round contribution next hnext, rfl⟩
      | some reply => exact ⟨hnext reply, rfl⟩
    | none =>
      have haborted := g.aborted_enter rank contribution
      simp only [Participant.step]
      generalize g.enter rank contribution = arrival at haborted ⊢
      obtain ⟨reply | generation, g'⟩ := arrival
      · exact ⟨hnext reply, haborted⟩
      · exact ⟨.round contribution next hnext, haborted⟩

/-- Members that are not over are careful, and the group stands if and only if no result is a cause to
tear it down. -/
structure Session.Guarded (cause : α → Option String) (s : Session α) : Prop where
  careful : ∀ p ∈ s.participants, p.program.Careful cause ∨
    ∃ a reason, result? p = some a ∧ cause a = some reason ∧ s.group.aborted.isSome = true
  caused : ∀ reason, s.group.aborted = some reason →
    ∃ p ∈ s.participants, ∃ a, result? p = some a ∧ cause a = some reason

namespace Session.Guarded

variable {s : Session α}

theorem start {group : Group} {programs : List (Nat × Exchange α)} (hgroup : group.aborted = none)
    (hcareful : ∀ program ∈ programs, program.2.Careful cause) :
    Guarded cause (Session.start group programs) where
  careful := by
    intro p hp
    obtain ⟨program, hprogram, rfl⟩ := List.mem_map.1 hp
    exact .inl (hcareful program hprogram)
  caused := by
    intro reason hreason
    rw [Session.start, hgroup] at hreason
    cases hreason

theorem step (h : Guarded cause s) (i : Nat) : Guarded cause (s.step i) := by
  cases hi : s.participants[i]? with
  | none => rwa [Session.step, hi]
  | some p =>
    -- Who has already come to a cause does not move any more.
    rcases h.careful p (List.mem_of_getElem? hi) with hcareful | ⟨a, -, hover, -⟩
    · have hkeep : ∀ reason, s.group.aborted = some reason →
          ∃ q ∈ (s.step i).participants, ∃ a, result? q = some a ∧ cause a = some reason := by
        intro reason hreason
        obtain ⟨q, hq, a, hover, hcause⟩ := h.caused reason hreason
        exact ⟨q, mem_step_of_over hq hover i, a, hover, hcause⟩
      rw [step_eq hi] at hkeep ⊢
      rcases hcareful.step s.group with ⟨hcareful', haborted⟩ | ⟨a, reason, hcause, hgroup, hover⟩
      · refine ⟨fun q hq => ?_, fun reason hreason => hkeep reason (haborted ▸ hreason)⟩
        rw [haborted]
        rcases List.mem_or_eq_of_mem_set hq with hq | rfl
        · exact h.careful q hq
        · exact .inl hcareful'
      · refine ⟨fun q hq => ?_, fun reason' hreason' => ?_⟩
        · rcases List.mem_or_eq_of_mem_set hq with hq | rfl
          · rcases h.careful q hq with hcareful' | ⟨a', reason', hover', hcause', -⟩
            · exact .inl hcareful'
            · exact .inr ⟨a', reason', hover', hcause', by rw [hgroup]; rfl⟩
          · exact .inr ⟨a, reason, hover, hcause, by rw [hgroup]; rfl⟩
        -- The first reason stands, if there is one already.
        · rw [hgroup] at hreason'
          cases hbefore : s.group.aborted with
          | some first =>
            rw [Group.abort, hbefore] at hreason'
            cases hreason'
            exact hkeep first hbefore
          | none =>
            rw [Group.abort, hbefore] at hreason'
            cases hreason'
            have hlt := (List.getElem?_eq_some_iff.1 hi).1
            exact ⟨_, List.mem_set hlt _, a, hover, hcause⟩
    · rwa [step_of_over hi hover]

/-- A group is torn down for a cause, and never stands where there is one. -/
theorem run (h : Guarded cause s) (schedule : List Nat) : Guarded cause (s.run schedule) :=
  List.foldlRecOn schedule Session.step h fun _ h i _ => h.step i

/-- Who comes to a cause finds the group torn down. -/
theorem aborted_of_cause (h : Guarded cause s) {p : Participant α} {a : α} {reason : String}
    (hp : p ∈ s.participants) (hover : result? p = some a) (hcause : cause a = some reason) :
    ∃ first, s.group.aborted = some first := by
  rcases h.careful p hp with hcareful | ⟨-, -, -, -, haborted⟩
  · rw [program_of_over hover] at hcareful
    cases hcareful with
    | ended _ hnone =>
      rw [hcause] at hnone
      cases hnone
  · exact Option.isSome_iff_exists.1 haborted

/-- Who is about to tear the group down comes to the cause for it. -/
theorem result_of_abort (h : Guarded cause s) {p : Participant α} {reason : String} {next : Exchange α}
    (hp : p ∈ s.participants) (habort : p.program = .abort reason next) :
    ∃ a, next = .done a ∧ cause a = some reason := by
  rcases h.careful p hp with hcareful | ⟨a, -, hover, -⟩
  · rw [habort] at hcareful
    cases hcareful with
    | tearing a _ hcause => exact ⟨a, rfl, hcause⟩
  · rw [program_of_over hover] at habort
    cases habort

end Session.Guarded

end ElementGrid
