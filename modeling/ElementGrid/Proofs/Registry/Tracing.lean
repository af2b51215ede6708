import ElementGrid.Element.Catalogs
import ElementGrid.Proofs.Element.Traced
import ElementGrid.Proofs.Registry.Instances
import ElementGrid.Proofs.Registry.Simulation
/-!
# Registries whose elements keep logs

A registry of elements with logs goes through the same as one of the elements alone, so the logs tell which
hooks were called on the instances of the latter.

## Main definitions

* `Command.traced` — a command on elements with logs
* `Registry.Mirrors` — a registry of elements with logs, beside one of the elements alone

## Main results

* `Registry.Mirrors.run` — both go through the same
* `Registry.Mirrors.node?` — the instances are the same apart from the logs
-/

namespace ElementGrid

variable {E : Type} [Element E]

/-- The instance with a log for its element. -/
def Node.withCalls (n : Node E) (calls : List Call) : Node (Traced E) where
  gid := n.gid
  model := n.model
  category := n.category
  vp := n.vp
  localId := n.localId
  state := n.state
  frozen := n.frozen
  element := ⟨n.element, calls⟩

omit [Element E] in
/-- The command on elements with logs. Whoever changes an element in place does not touch its log. -/
def Command.traced (c : Command E) : Command (Traced E) :=
  c.relabel fun change e => { e with element := change e.element }

namespace Registry

variable {r : Registry (Traced E)} {r' : Registry E}

/-- A registry of elements with logs that has gone through the same as one of the elements alone. -/
structure Mirrors (r : Registry (Traced E)) (r' : Registry E) : Prop where
  alike : Traced.simulation.Registries Eq r r'
  config : r.config = r'.config
  length : r.workers.length = r.config.threads
  length' : r'.workers.length = r'.config.threads

namespace Mirrors

theorem start (config : GridConfig) (catalog : Catalog E) (dispatch : Dispatch) :
    Mirrors
      { config, catalog := catalog.map Traced.new, dispatch, workers := freshWorkers config }
      { config, catalog, dispatch, workers := freshWorkers config } where
  alike := by
    refine Simulation.Registries.fresh dispatch dispatch ⟨rfl, ?index, ?hosts, ?vp⟩ ?models
    case index => exact fun h => by rw [h]
    case hosts => exact fun h _ _ => by rw [h]
    case vp => exact fun h => by rw [h]; rfl
    case models =>
      rw [Catalog.map, List.forall₂_map_left_iff]
      exact List.forall₂_same.2 fun _ _ => ⟨rfl, rfl, rfl, rfl⟩
  config := rfl
  length := by simp [freshWorkers]
  length' := by simp [freshWorkers]

theorem apply (h : Mirrors r r') (c : Command E) : Mirrors (r.apply c.traced) (r'.apply c) where
  alike := by
    have halike := h.alike
    have hlength : r.workers.length = r'.workers.length := by rw [h.length, h.length', h.config]
    cases c with
    | write gid props =>
      -- Every thread corresponds to the thread of the same number.
      refine halike.write props fun _ _ _ => ⟨fun s v _ hv _ => ?_, fun s v _ hv _ => ?_⟩
      · have hlt := (List.getElem?_eq_some_iff.1 hv).1
        exact ⟨s, _, rfl, List.getElem?_eq_getElem (hlength ▸ hlt)⟩
      · have hlt := (List.getElem?_eq_some_iff.1 hv).1
        exact ⟨s, _, rfl, List.getElem?_eq_getElem (hlength ▸ hlt)⟩
    | edit gid thread change =>
      refine halike.modifyLocal hlength (fun _ => rfl) (fun _ => rfl) (fun n m hnm => ?_) gid thread
      exact { hnm with element := congrArg change hnm.element }
    | activate gid thread =>
      have hseat : ∀ {F : Type} (n : Node F), n.activate.2.seat = n.seat := by
        intro F n
        rw [Node.activate]
        split <;> rfl
      refine halike.modifyLocal hlength hseat hseat (fun n m hnm => ?_) gid thread
      simp only [Node.activate, hnm.state]
      split
      · exact { hnm with state := rfl }
      · exact hnm
    | _ => exact halike.apply _ trivial
  config := by rw [(frame_apply r _).1, (frame_apply r' _).1, h.config]
  length := by rw [(frame_apply r _).2.2 h.length, (frame_apply r _).1]
  length' := by rw [(frame_apply r' _).2.2 h.length', (frame_apply r' _).1]

theorem run (h : Mirrors r r') (commands : List (Command E)) :
    Mirrors (r.run (commands.map Command.traced)) (r'.run commands) := by
  induction commands generalizing r r' with
  | nil => exact h
  | cons c cs ih => exact ih (h.apply c)

theorem node? (h : Mirrors r r') {t i : Nat} {n : Node E} (hn : r'.node? t i = some n) :
    ∃ calls, r.node? t i = some (n.withCalls calls) := by
  obtain ⟨w', hw', hn⟩ := node?_eq_some_iff.1 hn
  obtain ⟨w, hw⟩ : ∃ w, r.workers[t]? = some w := by
    have hlt := (List.getElem?_eq_some_iff.1 hw').1
    have hlength : r.workers.length = r'.workers.length := by rw [h.length, h.length', h.config]
    exact ⟨_, List.getElem?_eq_getElem (hlength ▸ hlt)⟩
  have hplace := Simulation.getElem?_rel (h.alike.workers rfl hw hw').nodes i
  rcases hm : w.store.nodes[i]? with _ | m <;> rw [hm, hn] at hplace
  · cases hplace
  · cases hplace with
    | some hmn =>
      obtain ⟨gid, model, category, vp, localId, state, frozen, ⟨element, calls⟩⟩ := m
      obtain ⟨gid', model', category', vp', localId', state', frozen', element'⟩ := n
      obtain ⟨rfl, rfl, rfl, rfl, rfl, rfl, rfl, rfl⟩ := hmn
      exact ⟨calls, node?_eq_some_iff.2 ⟨w, hw, hm⟩⟩

end Mirrors

end Registry

end ElementGrid
