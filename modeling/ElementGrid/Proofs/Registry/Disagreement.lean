import ElementGrid.Element.Catalogs
import ElementGrid.Proofs.Registry.Agreement
/-!
# Checks on which nobody agrees

A check on which all processes are to agree begins with what each of them finds itself, and a registry
remembers that at once. If the round then fails nothing takes it back, so a failed check is to the registry
what a check of its own is: all else stays as it was, but what had been agreed on is given up wherever no
instance takes part.

## Main results

* `Registry.result_eq_error_iff` — the check fails if and only if its round does
* `Registry.registry_of_failed` — a failed check is a check of the process's own
* `Registry.registry_eq_self_iff` — when a failed check leaves the registry as it was
* `Registry.failed_check_exact` — what a failed check does to a registry, and to those that had agreed
-/

namespace ElementGrid.Registry

variable {E : Type} [Element E] {r : Registry E} {reply : Except ExchangeError Gathered}
  {err : RegistryError}

/-- What the check comes to that all processes are to agree on, in a round that ends with `reply`. -/
def checkAgainst (r : Registry E) (reply : Except ExchangeError Gathered) : Change E Bool :=
  (r.checkRelaxationGlobal.against reply).1

theorem checkAgainst_ok (g : Gathered) :
    r.checkAgainst (.ok g) = agreeing (Exchange.anySet g) r := rfl

theorem checkAgainst_error (e : ExchangeError) :
    r.checkAgainst (.error e) = ⟨.error (.exchange e), r.checkRelaxation.2, []⟩ := rfl

/-- The check fails if and only if its round does, and for the same reason. -/
theorem result_eq_error_iff : (r.checkAgainst reply).result = .error err ↔
    ∃ e, reply = .error e ∧ err = .exchange e := by
  cases reply with
  | ok g => simp [checkAgainst_ok, agreeing]
  | error e => simp [checkAgainst_error, eq_comm]

/-- A failed check reports nothing, and is to the registry what a check of its own is. -/
theorem registry_of_failed (h : (r.checkAgainst reply).result = .error err) :
    (r.checkAgainst reply).registry = { r with relaxationUsed := r.checkRelaxation.1 } ∧
      (r.checkAgainst reply).events = [] := by
  obtain ⟨e, rfl, -⟩ := result_eq_error_iff.1 h
  exact ⟨rfl, rfl⟩

/-- A failed check leaves a registry as it was if it remembered what the process finds itself. -/
theorem registry_eq_self_iff (h : (r.checkAgainst reply).result = .error err) :
    (r.checkAgainst reply).registry = r ↔ (r.relaxationUsed = true ↔ r.Relaxes) := by
  rw [(registry_of_failed h).1, ← checkRelaxation_iff, Bool.coe_iff_coe]
  constructor
  · intro hsame
    exact (congrArg relaxationUsed hsame).symm
  · intro hflag
    rw [← hflag]

/-- What processes remember that have agreed is whether an instance on some of them takes part. -/
theorem relaxationUsed_of_agreed {registries : List (Registry E)} {g : Gathered}
    (h : Gathered.ofContributions
      (registries.map fun r => Exchange.flagPart r.checkRelaxation.1) = .ok g) :
    (r.checkAgainst (.ok g)).registry.relaxationUsed = true ↔ ∃ s ∈ registries, s.Relaxes := by
  have hflags : Gathered.ofContributions
      ((registries.map fun r => r.checkRelaxation.1).map Exchange.flagPart) = .ok g := by
    rw [List.map_map]
    exact h
  rw [checkAgainst_ok, agreeing, Exchange.anySet_of_flags hflags, List.any_map, List.any_eq_true]
  exact exists_congr fun s => and_congr_right fun _ => s.checkRelaxation_iff

/-- A failed check reports nothing and changes nothing in a registry but what it remembers of relaxation,
which is from then on what the process finds itself. So it leaves the registry untouched if and only if
that is what was remembered before.

Of processes that have agreed and then check again in vain, those are left untouched that host an instance
that takes part, and all of them if nobody does. The others give up what had been agreed on. -/
theorem failed_check_exact :
    (∀ (r : Registry E) (reply : Except ExchangeError Gathered),
      let c := r.checkAgainst reply
      ((∃ err, c.result = .error err) ↔ ∃ e, reply = .error e) ∧
      ∀ err, c.result = .error err →
        (∃ e, reply = .error e ∧ err = .exchange e) ∧ c.events = [] ∧
        { c.registry with relaxationUsed := r.relaxationUsed } = r ∧
        (c.registry.relaxationUsed = true ↔ r.Relaxes) ∧
        (c.registry = r ↔ (r.relaxationUsed = true ↔ r.Relaxes))) ∧
    ∀ (registries : List (Registry E)) (g : Gathered),
      Gathered.ofContributions
        (registries.map fun r => Exchange.flagPart r.checkRelaxation.1) = .ok g →
      ∀ r ∈ registries, ∀ reply err,
        let agreed := (r.checkAgainst (.ok g)).registry
        (agreed.checkAgainst reply).result = .error err →
        ((agreed.checkAgainst reply).registry = agreed ↔ r.Relaxes ∨ ∀ s ∈ registries, ¬ s.Relaxes) := by
  refine ⟨fun r reply => ⟨?_, fun err h => ?_⟩, fun registries g hg r hr reply err => ?_⟩
  · simp only [result_eq_error_iff]
    constructor
    · rintro ⟨err, e, he, -⟩
      exact ⟨e, he⟩
    · rintro ⟨e, he⟩
      exact ⟨.exchange e, e, he, rfl⟩
  · obtain ⟨hregistry, hevents⟩ := registry_of_failed h
    refine ⟨result_eq_error_iff.1 h, hevents, by rw [hregistry], ?_, registry_eq_self_iff h⟩
    rw [hregistry]
    exact r.checkRelaxation_iff
  · intro agreed h
    -- To agree changes no instance, so the process finds itself what it found before.
    have hself : agreed.Relaxes ↔ r.Relaxes := Iff.rfl
    rw [registry_eq_self_iff h, relaxationUsed_of_agreed hg, hself]
    constructor
    · intro hsame
      by_cases hsome : ∃ s ∈ registries, s.Relaxes
      · exact .inl (hsame.1 hsome)
      · exact .inr fun s hs hrelaxes => hsome ⟨s, hs, hrelaxes⟩
    · rintro (hrelaxes | hnobody)
      · exact ⟨fun _ => hrelaxes, fun _ => ⟨r, hr, hrelaxes⟩⟩
      · exact ⟨fun ⟨s, hs, hrelaxes⟩ => absurd hrelaxes (hnobody s hs), fun hrelaxes => ⟨r, hr, hrelaxes⟩⟩

/-- Of two processes only the second one hosts an instance that takes part. They agree and check again,
but somebody tears the group down: the second one is left untouched, and the first one forgets. -/
theorem failed_check_exact_pair :
    ∃ first second : Registry StandardElement,
      Reachable { processes := 2, threads := 1, rank := 0 } StandardElement.catalog .inTurn first ∧
      Reachable { processes := 2, threads := 1, rank := 1 } StandardElement.catalog .inTurn second ∧
      ∃ g, Gathered.ofContributions
          ([first, second].map fun r => Exchange.flagPart r.checkRelaxation.1) = .ok g ∧
        let torn : Except ExchangeError Gathered := .error (.aborted "rank 1 left")
        let agreed := fun r : Registry StandardElement => (r.checkAgainst (.ok g)).registry
        (∀ r ∈ [first, second], ((agreed r).checkAgainst torn).result =
          .error (.exchange (.aborted "rank 1 left"))) ∧
        ((agreed first).checkAgainst torn).registry ≠ agreed first ∧
        ((agreed first).checkAgainst torn).registry.relaxationUsed = false ∧
        ((agreed second).checkAgainst torn).registry = agreed second := by
  obtain ⟨first, hfirst, hidle⟩ : ∃ r, Reachable { processes := 2, threads := 1, rank := 0 }
      StandardElement.catalog .inTurn r ∧ r.checkRelaxation.1 = false :=
    ⟨_, ⟨_, [.create "relaxing" 1, .create "counter" 1], rfl, rfl⟩, rfl⟩
  obtain ⟨second, hsecond, hbusy⟩ : ∃ r, Reachable { processes := 2, threads := 1, rank := 1 }
      StandardElement.catalog .inTurn r ∧ r.checkRelaxation.1 = true :=
    ⟨_, ⟨_, [.create "relaxing" 1, .create "counter" 1], rfl, rfl⟩, rfl⟩
  have hidle' : ¬ first.Relaxes := by
    rw [← checkRelaxation_iff, hidle]
    exact Bool.false_ne_true
  have hbusy' : second.Relaxes := second.checkRelaxation_iff.1 hbusy
  have hparts : [first, second].map (fun r => Exchange.flagPart r.checkRelaxation.1) ≠ [] := by simp
  have hg := Gathered.ofContributions_eq_ok hparts
  obtain ⟨hone, hall⟩ := failed_check_exact (E := StandardElement)
  refine ⟨first, second, hfirst, hsecond, _, hg, fun r _ => rfl, ?_, ?_, ?_⟩
  · intro hsame
    rcases (hall _ _ hg first (by simp) _ _ rfl).1 hsame with hrelaxes | hnobody
    · exact hidle' hrelaxes
    · exact hnobody second (by simp) hbusy'
  · rw [← Bool.not_eq_true]
    exact fun hflag => hidle' (((hone _ _).2 _ rfl).2.2.2.1.1 hflag)
  · exact (hall _ _ hg second (by simp) _ _ rfl).2 (.inl hbusy')

/-- A process without instances agrees with another one that some instance takes part, and forgets it when
the next round is torn down. -/
theorem agreement_forgotten :
    ∃ r : Registry StandardElement,
      Reachable { processes := 2, threads := 1, rank := 0 } StandardElement.catalog .inTurn r ∧
      ∃ reply err, (r.checkAgainst reply).result = .error err ∧ r.relaxationUsed = true ∧
        (r.checkAgainst reply).registry.relaxationUsed = false ∧
        (r.checkAgainst reply).registry ≠ r := by
  refine ⟨_, ⟨_, [.checkRelaxationGlobal (.ok ⟨[0, 1], [0, 1]⟩)], rfl, rfl⟩,
    .error (.aborted "rank 1 left"), _, rfl, rfl, rfl, fun hsame => ?_⟩
  have hflag := congrArg relaxationUsed hsame
  cases hflag

end ElementGrid.Registry
