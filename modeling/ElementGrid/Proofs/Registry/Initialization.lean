import ElementGrid.Element.Probe
import ElementGrid.Proofs.Registry.Tracing
import ElementGrid.Proofs.Sweep
/-!
# When instances are initialized

A preparation initializes an instance that is in the stage `created` and then prepares it. An instance
leaves that stage not only by its initialization: a finalization sends it on to `finalized` as well, and
from there the next preparation takes it back to `initialized` without calling `init`. So `init` succeeds
once at most, and it comes before all preparations of an instance that is not finalized before it.

## Main definitions

* `Call.initialized`, `Call.finalized` — the calls that take an instance out of its first stage
* `Call.Past` — one of the two is in a log
* `Advance` — what a command may do to the stage and the log of an instance
* `Lifecycle` — the logs in which `init` and `prepare` are called in time

## Main results

* `Node.advance_of_after` — a command does to stage and log what `Advance` says
* `Registry.initialized_first` — when `init` is called, over all histories
* `Registry.prepared_uninitialized` — an instance that is prepared although its `init` cannot succeed
-/

namespace ElementGrid

/-! ## Logs -/

namespace Call

def initialized : Call := ⟨.init, true⟩

def finalized : Call := ⟨.finalize, true⟩

/-- The instance has left its first stage. -/
def Past (calls : List Call) : Prop := initialized ∈ calls ∨ finalized ∈ calls

end Call

open Call (initialized finalized Past)

/-- The logs in which `init` is called on instances in their first stage only, and `prepare` on all
others only. -/
def Lifecycle (calls : List Call) : Prop :=
  ∀ pre c post, calls = pre ++ c :: post →
    (c.hook = .init → ¬ Past pre) ∧ (c.hook = .prepare → Past pre)

namespace Lifecycle

variable {calls : List Call}

theorem nil : Lifecycle [] := fun _ _ _ h => by simp at h

theorem append_singleton (h : Lifecycle calls) {c : Call} (hinit : c.hook = .init → ¬ Past calls)
    (hprepare : c.hook = .prepare → Past calls) : Lifecycle (calls ++ [c]) := by
  intro pre c' post heq
  rcases List.eq_nil_or_concat post with rfl | ⟨post, last, rfl⟩
  · obtain ⟨rfl, hc⟩ := List.append_inj' heq rfl
    cases hc
    exact ⟨hinit, hprepare⟩
  · rw [List.concat_eq_append, ← List.cons_append, ← List.append_assoc] at heq
    exact h pre c' post (List.append_inj' heq rfl).1

theorem count_initialized (h : Lifecycle calls) (hmem : initialized ∈ calls) :
    calls.count initialized = 1 := by
  obtain ⟨pre, post, rfl, hfirst⟩ := List.eq_append_cons_of_mem hmem
  -- Behind the first success the instance is no longer in its first stage, so `init` is not called.
  have hrest : initialized ∉ post := by
    intro hagain
    obtain ⟨mid, rest, rfl⟩ := List.append_of_mem hagain
    refine (h (pre ++ initialized :: mid) initialized rest (by simp)).1 rfl (.inl (by simp))
  rw [List.count_append, List.count_cons_self, List.count_eq_zero_of_not_mem hfirst,
    List.count_eq_zero_of_not_mem hrest]

theorem count_initialized_le (h : Lifecycle calls) : calls.count initialized ≤ 1 := by
  by_cases hmem : initialized ∈ calls
  · exact Nat.le_of_eq (h.count_initialized hmem)
  · rw [List.count_eq_zero_of_not_mem hmem]
    exact Nat.zero_le 1

/-- If the instance was not finalized before it was initialized, it has left its first stage by its
initialization. -/
theorem initialized_mem_of_past {pre : List Call}
    (hlate : ∀ pre post, calls = pre ++ finalized :: post → initialized ∈ pre)
    (hpre : pre <+: calls) (hpast : Past pre) : initialized ∈ pre := by
  rcases hpast with hmem | hmem
  · exact hmem
  · obtain ⟨before, after, rfl⟩ := List.append_of_mem hmem
    obtain ⟨rest, rfl⟩ := hpre
    exact List.mem_append_left _ (hlate before (after ++ rest) (by simp))

end Lifecycle

/-! ## Stages -/

/-- What a command may do to the stage and the log of an instance: the stage before, the new calls, and
the stage after. -/
inductive Advance : NodeState → List Call → NodeState → Prop
  | stay (s : NodeState) : Advance s [] s
  | activate : Advance .initialized [] .active
  | initFault : Advance .created [⟨.init, false⟩] .created
  | init (ok : Bool) : Advance .created [⟨.init, true⟩, ⟨.prepare, ok⟩] .initialized
  | prepareFault {s : NodeState} (h : s ≠ .created) : Advance s [⟨.prepare, false⟩] s
  | prepare {s : NodeState} (h : s ≠ .created) : Advance s [⟨.prepare, true⟩] .initialized
  | initState (s : NodeState) (ok : Bool) : Advance s [⟨.initState, ok⟩] s
  | finalizeFault (s : NodeState) : Advance s [⟨.finalize, false⟩] s
  | finalize (s : NodeState) : Advance s [⟨.finalize, true⟩] .finalized
  | postRunCleanup (s : NodeState) (ok : Bool) : Advance s [⟨.postRunCleanup, ok⟩] s

/-- An instance whose log has `init` and `prepare` in time, and that is in its first stage if and only if
its log says so. -/
structure Chronicle (state : NodeState) (calls : List Call) : Prop where
  lifecycle : Lifecycle calls
  created_iff : state = .created ↔ ¬ Past calls

namespace Chronicle

variable {state state' : NodeState} {calls added : List Call}

theorem nil : Chronicle .created [] :=
  ⟨.nil, by simp [Past]⟩

/-- One more call, made in a stage that allows it, with the stage that it leads to. -/
theorem append_singleton (h : Chronicle state calls) (c : Call)
    (hinit : c.hook = .init → state = .created) (hprepare : c.hook = .prepare → state ≠ .created)
    (hstate : state' = .created ↔ state = .created ∧ c ≠ initialized ∧ c ≠ finalized) :
    Chronicle state' (calls ++ [c]) where
  lifecycle := h.lifecycle.append_singleton (fun hc => h.created_iff.1 (hinit hc))
    fun hc => by_contra fun hpast => hprepare hc (h.created_iff.2 hpast)
  created_iff := by
    rw [hstate, h.created_iff]
    simp only [Past, List.mem_append, List.mem_singleton, not_or, ne_eq, eq_comm (b := c)]
    tauto

theorem advance (h : Chronicle state calls) (hadvance : Advance state added state') :
    Chronicle state' (calls ++ added) := by
  cases hadvance with
  | stay =>
    rw [List.append_nil]
    exact h
  | activate =>
    rw [List.append_nil]
    exact ⟨h.lifecycle, by rw [← h.created_iff]; decide⟩
  | initFault => exact h.append_singleton _ (fun _ => rfl) (by decide) (by decide)
  | init ok =>
    have hinit : Chronicle .initialized (calls ++ [initialized]) :=
      h.append_singleton _ (fun _ => rfl) (by decide) (by decide)
    have hprepare : Chronicle .initialized (calls ++ [initialized] ++ [⟨.prepare, ok⟩]) :=
      hinit.append_singleton _ (by simp) (fun _ => by decide) (by simp)
    rwa [List.append_assoc] at hprepare
  | prepareFault hs =>
    exact h.append_singleton _ (by simp) (fun _ => hs) (by simp [hs])
  | prepare hs => exact h.append_singleton _ (by simp) (fun _ => hs) (by simp [hs])
  | initState ok => exact h.append_singleton _ (by simp) (by simp) (by simp [initialized, finalized])
  | finalizeFault => exact h.append_singleton _ (by simp) (by simp) (by simp [initialized, finalized])
  | finalize => exact h.append_singleton _ (by simp) (by simp) (by simp [finalized])
  | postRunCleanup ok =>
    exact h.append_singleton _ (by simp) (by simp) (by simp [initialized, finalized])

end Chronicle

/-! ## Commands -/

variable {E : Type}

theorem run_onElement_note (hook : Hook) (h : Step E Fault Unit) (n : Node (Traced E))
    (g : Generator) : ∃ result e,
      (Visit.onElement (Traced.note hook h)).run.run (n, g) =
        (result, ({ n with element := ⟨e, n.element.calls ++ [⟨hook, result.isOk⟩]⟩ }, g)) :=
  ⟨_, _, rfl⟩

theorem run_onElementWith_noteWith (hook : Hook) (h : Step (E × Generator) Fault Unit)
    (n : Node (Traced E)) (g : Generator) : ∃ result e g',
      (Visit.onElementWith (Traced.noteWith hook h)).run.run (n, g) =
        (result, ({ n with element := ⟨e, n.element.calls ++ [⟨hook, result.isOk⟩]⟩ }, g')) :=
  ⟨_, _, _, rfl⟩

variable [Element E] {n n' : Node (Traced E)}

/-- The instance has gone on from one stage to another with some new calls. -/
def Node.Advanced (n n' : Node (Traced E)) (added : List Call) : Prop :=
  n'.element.calls = n.element.calls ++ added ∧ Advance n.state added n'.state

theorem advanced_finalize (h : n.Visited .finalize n') : ∃ ok, n.Advanced n' [⟨.finalize, ok⟩] := by
  obtain ⟨g, rfl⟩ := h
  obtain ⟨result, e, hrun⟩ := run_onElement_note .finalize (Element.finalize : Step E Fault Unit) n g
  have hvisit : (Visit.ofPhase .finalize : Visit (Traced E) Unit).run.run (n, g) = _ :=
    Step.run_bind (Visit.onElement (Traced.note .finalize Element.finalize)) _ (n, g)
  rw [hvisit, hrun]
  cases result with
  | error fault => exact ⟨false, rfl, .finalizeFault n.state⟩
  | ok _ => exact ⟨true, rfl, .finalize n.state⟩

theorem advanced_ready (hstate : n.state ≠ .created) (g : Generator) : ∃ ok,
    n.Advanced ((Visit.ready : Visit (Traced E) Unit).run.run (n, g)).2.1 [⟨.prepare, ok⟩] := by
  obtain ⟨result, e, g', hrun⟩ := run_onElementWith_noteWith .prepare
    (Element.prepare ⟨n.gid, n.vp⟩ : Step (E × Generator) Fault Unit) n g
  have hready : (Visit.ready : Visit (Traced E) Unit).run.run (n, g) = _ :=
    Step.run_bind (Visit.onElementWith (Traced.noteWith .prepare (Element.prepare ⟨n.gid, n.vp⟩))) _
      (n, g)
  rw [hready, hrun]
  cases result with
  | error fault => exact ⟨false, rfl, .prepareFault hstate⟩
  | ok _ => exact ⟨true, rfl, .prepare hstate⟩

/-- A preparation calls `init` on an instance in its first stage, and `prepare` on every other. -/
theorem advanced_prepare (h : n.Visited .prepare n') : ∃ added, n.Advanced n' added ∧
    ((∃ ok, ⟨.init, ok⟩ ∈ added) ↔ n.state = .created) := by
  obtain ⟨g, rfl⟩ := h
  show ∃ added, n.Advanced ((Visit.prepare : Visit (Traced E) Unit).run.run (n, g)).2.1 added ∧ _
  rw [Visit.run_prepare]
  split
  · rename_i hcreated
    obtain ⟨result, e, hrun⟩ := run_onElement_note .init (Element.init : Step E Fault Unit) n g
    have hinit : (Visit.onElement (Element.init : Step (Traced E) Fault Unit)).run.run (n, g) = _ :=
      hrun
    rw [hinit]
    -- Where `init` fails nothing else is called, and otherwise `prepare` follows.
    cases result with
    | error fault =>
      refine ⟨[⟨.init, false⟩], ⟨rfl, ?_⟩, by simp [hcreated]⟩
      simp only [hcreated]
      exact .initFault
    | ok _ =>
      let m : Node (Traced E) :=
        { n with state := .initialized, element := ⟨e, n.element.calls ++ [initialized]⟩ }
      obtain ⟨ok, hcalls, hadvance⟩ := advanced_ready (n := m) (by simp [m]) g
      refine ⟨[initialized, ⟨.prepare, ok⟩], ⟨?_, ?_⟩, by simp [hcreated, initialized]⟩
      · exact hcalls.trans (List.append_assoc _ _ _)
      · -- The instance is in the stage `initialized` whether `prepare` has succeeded or not.
        have hstate : ∀ s, Advance .initialized [⟨.prepare, ok⟩] s → s = .initialized := by
          intro s hs
          cases hs <;> rfl
        rw [hcreated]
        exact (hstate _ hadvance).symm ▸ .init ok
  · rename_i hcreated
    obtain ⟨ok, hready⟩ := advanced_ready hcreated g
    exact ⟨_, hready, by simp [hcreated]⟩

/-- What a command does to stage and log of an instance, and when it calls `init`. -/
theorem advanced_of_after {c : Command E} (h : n.After n' c.traced) : ∃ added, n.Advanced n' added ∧
    ((∃ ok, ⟨.init, ok⟩ ∈ added) ↔ c = .prepare ∧ n.state = .created) := by
  have hstay : n.Advanced n [] := ⟨(List.append_nil _).symm, .stay n.state⟩
  cases c with
  | prepare =>
    obtain ⟨added, hadded, hinit⟩ := advanced_prepare h
    exact ⟨added, hadded, by simpa using hinit⟩
  | write gid props =>
    rcases h with rfl | ⟨frozen, e, he, rfl⟩
    · exact ⟨[], hstay, by simp⟩
    · -- Taking properties is no hook, and it leaves the log alone.
      obtain ⟨-, reader, hwrite, -⟩ := Registry.stage_eq_ok he
      have hcalls : n.element.calls = e.calls := congrArg (fun p => p.2.1.calls) hwrite
      exact ⟨[], ⟨by simp [Registry.commitNode, hcalls], .stay n.state⟩, by simp⟩
  | edit gid thread change =>
    rcases h with rfl | rfl
    · exact ⟨[], hstay, by simp⟩
    · exact ⟨[], ⟨(List.append_nil _).symm, .stay n.state⟩, by simp⟩
  | activate gid thread =>
    rcases h with rfl | rfl
    · exact ⟨[], hstay, by simp⟩
    · refine ⟨[], ?_, by simp⟩
      rw [Node.activate]
      split
      · rename_i hstate
        exact ⟨(List.append_nil _).symm, hstate ▸ .activate⟩
      · exact hstay
  | reinit =>
    obtain ⟨g, rfl⟩ := h
    exact ⟨_, ⟨rfl, .initState n.state _⟩, by simp⟩
  | finalize =>
    obtain ⟨ok, hok⟩ := advanced_finalize h
    exact ⟨_, hok, by simp⟩
  | postRunCleanup =>
    obtain ⟨g, rfl⟩ := h
    exact ⟨_, ⟨rfl, .postRunCleanup n.state _⟩, by simp⟩
  | initState gid =>
    rcases h with rfl | ⟨g, rfl⟩
    · exact ⟨[], hstay, by simp⟩
    · exact ⟨_, ⟨rfl, .initState n.state _⟩, by simp⟩
  | reset => exact h.elim
  | _ =>
    obtain rfl : n' = n := h
    exact ⟨[], hstay, by simp⟩

/-! ## Histories -/

namespace Registry

variable {r : Registry (Traced E)}

theorem chronicle_run {commands : List (Command E)}
    (hmodels : ∀ m ∈ r.catalog.models, m.prototype.calls = [])
    (hstart : ∀ t i n, r.node? t i = some n → Chronicle n.state n.element.calls) {t i : Nat}
    (h : (r.run (commands.map Command.traced)).node? t i = some n) :
    Chronicle n.state n.element.calls := by
  refine node?_run (P := fun n => Chronicle n.state n.element.calls) ?_ ?_ hstart h
  · rintro m ⟨hstate, model, hmodel, helement⟩
    rw [hstate, helement, hmodels model hmodel]
    exact .nil
  · intro c hc m m' hm hafter
    obtain ⟨c, -, rfl⟩ := List.mem_map.1 hc
    obtain ⟨added, ⟨hcalls, hadvance⟩, -⟩ := advanced_of_after hafter
    rw [hcalls]
    exact hm.advance hadvance

/-- Over all histories of a registry: the hooks that were called on an instance are told by the log that it
has in the same history of elements with logs. There `init` succeeds once at most, and it is called in a
preparation of an instance that was neither initialized nor finalized before it, and nowhere else. If no
finalization comes before the initialization, then every call of `prepare` comes behind it, and an
instance that is initialized or active has been initialized exactly once. -/
theorem initialized_first {config : GridConfig} {catalog : Catalog E} {dispatch : Dispatch}
    {fresh : Registry E} (hstart : start config catalog dispatch = .ok fresh)
    (commands : List (Command E)) :
    ∃ traced : Registry (Traced E),
      start config (catalog.map Traced.new) dispatch = .ok traced ∧
      ∀ t i (n : Node E), (fresh.run commands).node? t i = some n →
        ∃ calls, (traced.run (commands.map Command.traced)).node? t i = some (n.withCalls calls) ∧
          calls.count initialized ≤ 1 ∧
          (∀ pre c post, calls = pre ++ c :: post → c.hook = .init →
            initialized ∉ pre ∧ finalized ∉ pre) ∧
          (∀ (c : Command E) (n' : Node (Traced E)),
            ((traced.run (commands.map Command.traced)).apply c.traced).node? t i = some n' →
            ∃ added, n'.element.calls = calls ++ added ∧
              ((∃ ok, ⟨.init, ok⟩ ∈ added) ↔
                c = .prepare ∧ initialized ∉ calls ∧ finalized ∉ calls)) ∧
          ((∀ pre post, calls = pre ++ finalized :: post → initialized ∈ pre) →
            (∀ pre c post, calls = pre ++ c :: post → c.hook = .prepare → initialized ∈ pre) ∧
            (n.state = .initialized ∨ n.state = .active → calls.count initialized = 1)) := by
  obtain ⟨_, hcheck, hfresh⟩ := Except.bind_eq_ok_iff.1 hstart
  cases hfresh
  refine ⟨{ config, catalog := catalog.map Traced.new, dispatch, workers := freshWorkers config },
    Except.bind_eq_ok_iff.2 ⟨_, hcheck, rfl⟩, fun t i n hn => ?_⟩
  obtain ⟨calls, hcalls⟩ := ((Mirrors.start config catalog dispatch).run commands).node? hn
  refine ⟨calls, hcalls, ?_⟩
  have hchronicle : Chronicle n.state calls := by
    refine chronicle_run ?_ (fun t i m hm => ?_) hcalls
    · intro m hm
      obtain ⟨_, -, rfl⟩ := List.mem_map.1 hm
      rfl
    · obtain ⟨w, hw, hm⟩ := node?_eq_some_iff.1 hm
      obtain ⟨_, -, rfl⟩ := List.mem_map.1 (List.mem_of_getElem? hw)
      cases hm
  have hlifecycle := hchronicle.lifecycle
  refine ⟨hlifecycle.count_initialized_le, fun pre c post heq hc => not_or.1
    ((hlifecycle pre c post heq).1 hc), fun c n' hn' => ?next, fun hlate => ⟨?prepared, ?ready⟩⟩
  case next =>
    rcases node?_apply hn' with ⟨m, hm, hafter⟩ | ⟨hnone, -⟩
    · rw [hcalls] at hm
      cases hm
      obtain ⟨added, ⟨hadded, -⟩, hinit⟩ := advanced_of_after hafter
      refine ⟨added, hadded, hinit.trans (and_congr_right fun _ => ?_)⟩
      exact hchronicle.created_iff.trans not_or
    · rw [hcalls] at hnone
      cases hnone
  case prepared =>
    intro pre c post heq hc
    exact Lifecycle.initialized_mem_of_past hlate ⟨c :: post, heq.symm⟩
      ((hlifecycle pre c post heq).2 hc)
  case ready =>
    intro hstate
    have hpast : Past calls := by
      by_contra hnew
      rcases hstate with hstate | hstate <;> rw [hchronicle.created_iff.2 hnew] at hstate <;>
        cases hstate
    exact hlifecycle.count_initialized
      (Lifecycle.initialized_mem_of_past hlate (List.prefix_refl calls) hpast)

/-- A probe is prepared, finalized, and prepared for another run. It was initialized once, before it was
prepared for the first time. -/
theorem initialized_first_probe :
    let commands : List (Command Probe) := [.create "probe" 1, .prepare, .finalize, .prepare]
    ∃ fresh, start {} (.ofEntries [("probe", .normal, ({} : Probe))]) = .ok fresh ∧
      ∃ n, (fresh.run commands).node? 0 0 = some n ∧ n.state = .initialized ∧
        ∃ traced : Registry (Traced Probe), ∃ calls,
          (traced.run (commands.map Command.traced)).node? 0 0 = some (n.withCalls calls) ∧
          calls.count initialized = 1 := by
  intro commands
  have hstart : start {} (.ofEntries [("probe", .normal, ({} : Probe))]) = .ok _ := rfl
  obtain ⟨traced, htraced, hlogs⟩ := initialized_first hstart commands
  obtain ⟨calls, hcalls, -, -, -, hlate⟩ := hlogs 0 0 _ rfl
  refine ⟨_, hstart, _, rfl, rfl, traced, calls, hcalls, (hlate ?_).2 (.inl rfl)⟩
  have hlog : calls =
      [initialized, ⟨.prepare, true⟩, finalized, ⟨.prepare, true⟩] := by
    cases htraced
    exact congrArg (fun n => n.element.calls) (Option.some.inj hcalls).symm
  rintro pre post heq
  rw [hlog] at heq
  cases pre with
  | nil => cases heq
  | cons c pre =>
    rw [(List.cons.inj heq).1]
    exact List.mem_cons_self

/-- A probe that refuses to be initialized is finalized and then prepared. It ends up initialized, and
`prepare` was called on it, but `init` never was. -/
theorem prepared_uninitialized :
    ∃ traced : Registry (Traced Probe),
      start {} (.map Traced.new (.ofEntries [("probe", .normal, ({ fails := ["init"] } : Probe))])) =
        .ok traced ∧
      ∃ n, (traced.run [.create "probe" 1, .finalize, .prepare]).node? 0 0 = some n ∧
        n.state = .initialized ∧ n.element.calls = [⟨.finalize, true⟩, ⟨.prepare, true⟩] :=
  ⟨_, rfl, _, rfl, rfl, rfl⟩

end Registry

end ElementGrid
