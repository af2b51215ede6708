import ElementGrid.Proofs.View.Cache
/-!
# What a cache says of itself

A cache names the layer that it has noted, and dropping a layer tells whether there was something to
drop. Both answers look at the layer alone, which is noted before its view is built. They are right as
long as something is held; after a failed build they may be wrong, and only then.

## Main definitions

* `PositionCache.Holds` — a form of the view of a layer is held
* `PositionCache.Failed` — a build for a layer has failed, and the layer is still asked for
* `PositionCache.Notes` — why a layer is noted

## Main results

* `PositionCache.standing_iff` — what stands is what is held of the layer that is noted
* `PositionCache.notes_history` — a layer is noted because something is held or a build has failed
* `PositionCache.layer_truthful` — when the answers are right
* `PositionCache.layer_unheld` — a failed build after which they are wrong
-/

namespace ElementGrid.PositionCache

variable {S I ε : Type} {log : List (Entry S I ε)} {c : PositionCache S I} {entry : Entry S I ε}
  {form : Form} {layer : Nat}

/-! ## What is held, and what has failed -/

/-- The cache holds a form of the view of the layer: what it holds was built for this layer. -/
def Holds (log : List (Entry S I ε)) (c : PositionCache S I) (layer : Nat) : Prop :=
  ∃ (form : Form) (v : form.Content S I), c.held form = some v ∧ Standing log form layer v

/-- A build for the layer has failed, and nothing has put an end to what is kept of the layer since. -/
def Failed (log : List (Entry S I ε)) (layer : Nat) : Prop :=
  ∃ form e before since, log = before ++ .requested form layer true (.error e) :: since ∧
    ∀ entry ∈ since, ¬ Ends layer entry

theorem held_empty (form : Form) : (empty : PositionCache S I).held form = none := by
  cases form <;> rfl

theorem layer_empty_ne : (empty : PositionCache S I).layer ≠ some layer :=
  Option.some_ne_none layer ∘ Eq.symm

theorem not_failed_nil : ¬ Failed ([] : List (Entry S I ε)) layer := by
  rintro ⟨form, e, before, since, h, -⟩
  exact List.append_ne_nil_of_right_ne_nil before (List.cons_ne_nil _ _) h.symm

/-- After one more call a build has failed if it is this call's, or if one had failed and this call does
not put an end to it. -/
theorem failed_snoc : Failed (log ++ [entry]) layer ↔
    (∃ form e, entry = .requested form layer true (.error e)) ∨
      (Failed log layer ∧ ¬ Ends layer entry) := by
  simp only [Failed, exists_split_snoc_iff, exists_or, exists_and_right]

/-- What stands is what is held of the layer that is noted. -/
theorem standing_iff (h : Mirrors log c) {v : form.Content S I} :
    Standing log form layer v ↔ c.layer = some layer ∧ c.held form = some v := by
  rw [← h form layer v]
  constructor
  · intro hheld
    have hlayer : c.layer = some layer := by
      by_contra hne
      rw [held_select_of_ne c hne] at hheld
      cases hheld
    rw [select_of_layer c hlayer] at hheld
    exact ⟨hlayer, hheld⟩
  · rintro ⟨hlayer, hheld⟩
    rwa [select_of_layer c hlayer]

theorem holds_iff (h : Mirrors log c) :
    Holds log c layer ↔ ∃ (form : Form) (v : form.Content S I), Standing log form layer v :=
  ⟨fun ⟨form, v, _, hv⟩ => ⟨form, v, hv⟩,
    fun ⟨form, v, hv⟩ => ⟨form, v, ((standing_iff h).1 hv).2, hv⟩⟩

theorem Holds.layer_eq (h : Mirrors log c) (hholds : Holds log c layer) : c.layer = some layer := by
  obtain ⟨form, v, -, hv⟩ := hholds
  exact ((standing_iff h).1 hv).1

/-! ## Why a layer is noted -/

/-- The layers that are noted are those of which something is held or for which a build has failed, and
without a layer nothing is held. -/
structure Notes (log : List (Entry S I ε)) (c : PositionCache S I) : Prop where
  unnoted : c.layer = none → ∀ form, c.held form = none
  of_failed : ∀ layer, Failed log layer → c.layer = some layer
  cause : ∀ layer, c.layer = some layer → Holds log c layer ∨ Failed log layer

namespace Notes

theorem start : Notes ([] : List (Entry S I ε)) (empty : PositionCache S I) :=
  ⟨fun _ => held_empty, fun _ h => absurd h not_failed_nil, fun _ h => absurd h layer_empty_ne⟩

theorem clear : Notes (log ++ [.cleared]) (empty : PositionCache S I) := by
  refine ⟨fun _ => held_empty, fun layer hfailed => ?_, fun _ h => absurd h layer_empty_ne⟩
  rcases failed_snoc.1 hfailed with ⟨_, _, hentry⟩ | ⟨-, hends⟩
  · cases hentry
  · exact absurd trivial hends

theorem invalidate (h : Mirrors log c) (hnotes : Notes log c) (layer : Nat) :
    Notes (log ++ [.invalidated layer (c.invalidate layer).1]) (c.invalidate layer).2 := by
  have hafter := h.invalidate layer
  rw [PositionCache.invalidate] at hafter ⊢
  split at hafter
  case isTrue hlayer =>
    rw [if_pos hlayer]
    refine ⟨fun _ => held_empty, fun asked hfailed => ?_, fun _ h => absurd h layer_empty_ne⟩
    rcases failed_snoc.1 hfailed with ⟨_, _, hentry⟩ | ⟨hfailed, hends⟩
    · cases hentry
    · -- Only the layer that is dropped can have been noted.
      have hasked : some layer = some asked := hlayer.symm.trans (hnotes.of_failed asked hfailed)
      exact absurd ⟨Option.some.inj hasked, rfl⟩ hends
  case isFalse hlayer =>
    rw [if_neg hlayer]
    have hkept : ∀ asked, Failed (log ++ [.invalidated layer false]) asked ↔ Failed log asked := by
      intro asked
      rw [failed_snoc]
      simp [Ends]
    refine ⟨hnotes.unnoted, fun asked hfailed => hnotes.of_failed asked ((hkept asked).1 hfailed),
      fun asked hasked => ?_⟩
    rw [hkept, holds_iff hafter]
    refine (hnotes.cause asked hasked).imp_left fun hholds => ?_
    obtain ⟨form, v, hv⟩ := (holds_iff h).1 hholds
    exact ⟨form, v, (standing_snoc_of_not_ends (by simp [Ends]) (by simp)).2 hv⟩

/-- A request notes its layer, and either something is held of it then or its build has failed. -/
theorem request (h : Mirrors log c) (form : Form) (layer : Nat)
    (build : Unit → Except ε (form.Content S I)) :
    Notes (log ++ [.requested form layer (c.request form layer build).built
      (c.request form layer build).result]) (c.request form layer build).cache := by
  have hafter := h.request form layer build
  refine ⟨fun hnone => ?unnoted, fun asked hfailed => ?failed, fun asked hasked => ?cause⟩
  case unnoted => cases (layer_request c build).symm.trans hnone
  case failed =>
    rw [layer_request]
    rcases failed_snoc.1 hfailed with ⟨_, _, hentry⟩ | ⟨-, hends⟩
    · simp only [Entry.requested.injEq] at hentry
      exact congrArg some hentry.2.1
    · exact congrArg some (not_not.1 hends)
  case cause =>
    obtain rfl : layer = asked := Option.some.inj ((layer_request c build).symm.trans hasked)
    cases hresult : (c.request form layer build).result with
    | ok v =>
      rw [← hresult, holds_iff hafter]
      exact .inl ⟨form, v, h.standing_of_result hresult⟩
    | error e =>
      -- What is held is answered with, so an error comes of a build.
      have hbuilt : (c.request form layer build).built = true := by
        rw [h.built_iff]
        rintro ⟨v, hv⟩
        rw [h.request_of_standing hv] at hresult
        cases hresult
      exact .inr (failed_snoc.2 (.inl ⟨form, e, by rw [hbuilt]⟩))

theorem perform (h : Mirrors log c) (hnotes : Notes log c) (call : Call S I ε) :
    Notes (log ++ [(c.perform call).1]) (c.perform call).2 := by
  cases call with
  | request form layer build => exact request h form layer build
  | invalidate layer => exact invalidate h hnotes layer
  | clear => exact .clear

end Notes

theorem notes_history (calls : List (Call S I ε)) : Notes (history calls).1 (history calls).2 := by
  induction calls using List.reverseRecOn with
  | nil => exact .start
  | append_singleton calls call ih =>
    rw [history_snoc]
    exact ih.perform (mirrors_history calls) call

/-! ## What the cache says -/

theorem invalidate_fst_iff : (c.invalidate layer).1 = true ↔ c.layer = some layer := by
  rw [invalidate]
  split <;> simp [*]

/-- After any calls, with builds that succeed or fail as they like: what is held was built for the layer
that is noted. A layer is noted, and dropping it says that something was dropped, if and only if a form of
its view is held or a build for it has failed since it was last asked for anew. So both answers tell
whether something is held unless a build has failed and nothing is held besides. A drop that says so
leaves nothing, and one that does not leaves the cache as it was. -/
theorem layer_truthful (calls : List (Call S I ε)) (layer : Nat) :
    let log := (history calls).1
    let cache := (history calls).2
    (∀ (form : Form) (v : form.Content S I), cache.held form = some v →
      ∃ noted, cache.layer = some noted ∧ Standing log form noted v) ∧
    (cache.layer = some layer ↔ Holds log cache layer ∨ Failed log layer) ∧
    ((cache.invalidate layer).1 = true ↔ Holds log cache layer ∨ Failed log layer) ∧
    (((cache.layer = some layer ↔ Holds log cache layer) ∧
        ((cache.invalidate layer).1 = true ↔ Holds log cache layer)) ↔
      (Failed log layer → Holds log cache layer)) ∧
    cache.invalidate layer =
      if (cache.invalidate layer).1 then (true, empty) else (false, cache) := by
  intro log cache
  have hmirrors : Mirrors log cache := mirrors_history calls
  have hnotes : Notes log cache := notes_history calls
  have hlayer : cache.layer = some layer ↔ Holds log cache layer ∨ Failed log layer :=
    ⟨hnotes.cause layer, fun h => h.elim (Holds.layer_eq hmirrors) (hnotes.of_failed layer)⟩
  refine ⟨fun form v hv => ?held, hlayer, invalidate_fst_iff.trans hlayer, ?right, ?dropped⟩
  case held =>
    obtain ⟨noted, hnoted⟩ : ∃ noted, cache.layer = some noted := by
      rw [← Option.ne_none_iff_exists']
      intro hnone
      rw [hnotes.unnoted hnone form] at hv
      cases hv
    exact ⟨noted, hnoted, (standing_iff hmirrors).2 ⟨hnoted, hv⟩⟩
  case right =>
    rw [invalidate_fst_iff, and_self, hlayer]
    exact or_iff_left_iff_imp
  case dropped =>
    rw [invalidate]
    split <;> rfl

/-- An index failed where a sequence was built, and the sequence is still there to be dropped. -/
theorem layer_truthful_mixed :
    let calls : List (Call Nat Nat String) :=
      [.request .sequence 1 fun _ => .ok (10 : Nat), .request .index 1 fun _ => .error "no round"]
    let log := (history calls).1
    let cache := (history calls).2
    (Failed log 1 → Holds log cache 1) ∧ (cache.layer = some 1 ↔ Holds log cache 1) ∧
      ((cache.invalidate 1).1 = true ↔ Holds log cache 1) := by
  intro calls log cache
  have hholds : Failed log 1 → Holds log cache 1 := by
    intro _
    exact ⟨.sequence, (10 : Nat), rfl, [], [.requested .index 1 true (.error "no round")], rfl,
      by simp [Ends]⟩
  exact ⟨hholds, (layer_truthful calls 1).2.2.2.1.2 hholds⟩

/-- After a failed build nothing is held, yet its layer is noted, and to drop it says that something was
dropped. -/
theorem layer_unheld :
    let calls : List (Call Nat Nat String) := [.request .sequence 1 fun _ => .error "no round"]
    let log := (history calls).1
    let cache := (history calls).2
    (∀ form, cache.held form = none) ∧ ¬ (cache.layer = some 1 ↔ Holds log cache 1) ∧
      ¬ ((cache.invalidate 1).1 = true ↔ Holds log cache 1) := by
  intro calls log cache
  have hnone : ∀ form, cache.held form = none := by
    rintro (_ | _) <;> rfl
  have hnot : ¬ Holds log cache 1 := by
    rintro ⟨form, v, hheld, -⟩
    rw [hnone] at hheld
    cases hheld
  exact ⟨hnone, fun h => hnot (h.1 rfl), fun h => hnot (h.1 rfl)⟩

end ElementGrid.PositionCache
