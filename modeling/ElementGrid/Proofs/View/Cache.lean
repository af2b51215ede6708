import ElementGrid.View.Cache
import Mathlib.Data.List.Induction
/-!
# What a cache answers from

A cached view is as good as the calls made so far allow. A form of a layer is built exactly if no build
of it stands, and otherwise is what the last such build made. A build stands until the cache is
cleared, its layer is dropped or another layer is asked for; a build that fails changes nothing about
the builds that stand for the same layer.

## Main definitions

* `PositionCache.Form`, `PositionCache.request` — both forms of a view, asked for alike
* `PositionCache.Call`, `PositionCache.Entry` — what is asked of a cache, and what came of it
* `PositionCache.history` — the calls made on a new cache
* `PositionCache.Ends`, `PositionCache.Standing` — which builds still count

## Main results

* `PositionCache.standing_snoc` — what one call does to the builds that stand
* `PositionCache.Mirrors.perform`, `PositionCache.mirrors_history` — a cache holds what stands
* `PositionCache.request_coherent` — a form is built if none stands, and is what stands otherwise
-/

namespace ElementGrid.PositionCache

variable {S I ε : Type}

/-! ## Both forms alike -/

/-- The forms in which a view is kept. -/
inductive Form
  | sequence
  | index
  deriving DecidableEq

/-- What a view is in a form. -/
def Form.Content (S I : Type) : Form → Type
  | .sequence => S
  | .index => I

section Forms

variable (c : PositionCache S I) {form other : Form} {layer : Nat}

/-- The view in a form, if it is kept. -/
def held : (form : Form) → Option (form.Content S I)
  | .sequence => c.sequence?
  | .index => c.index?

/-- The cache with the view in one form put in. -/
def put : (form : Form) → form.Content S I → PositionCache S I
  | .sequence, s => { c with sequence? := some s }
  | .index, i => { c with index? := some i }

/-- The view of a layer in a form, built if it is missing. -/
def request : (form : Form) → Nat → (Unit → Except ε (form.Content S I)) →
    CacheReply ε (form.Content S I) (PositionCache S I)
  | .sequence, layer, build => c.sequence layer build
  | .index, layer, build => c.index layer build

@[simp]
theorem layer_select : (c.select layer).layer = some layer := by
  rw [select]
  split
  · assumption
  · rfl

@[simp]
theorem layer_put (v : form.Content S I) : (c.put form v).layer = c.layer := by
  cases form <;> rfl

@[simp]
theorem held_put (v : form.Content S I) : (c.put form v).held form = some v := by
  cases form <;> rfl

theorem held_put_of_ne (v : form.Content S I) (h : other ≠ form) :
    (c.put form v).held other = c.held other := by
  cases form <;> cases other <;> first | rfl | exact absurd rfl h

theorem select_of_layer (h : c.layer = some layer) : c.select layer = c := by
  rw [select, if_pos h]

/-- Of a layer that is not noted nothing is kept. -/
theorem held_select_of_ne (h : c.layer ≠ some layer) : (c.select layer).held form = none := by
  rw [select, if_neg h]
  cases form <;> rfl

theorem request_eq (build : Unit → Except ε (form.Content S I)) :
    c.request form layer build =
      match (c.select layer).held form with
      | some v => ⟨.ok v, false, c.select layer⟩
      | none =>
        match build () with
        | .ok v => ⟨.ok v, true, (c.select layer).put form v⟩
        | .error e => ⟨.error e, true, c.select layer⟩ := by
  cases form with
  | sequence =>
    simp only [request, sequence, provide, held, put]
    generalize c.select layer = c'
    obtain ⟨noted, _ | s, i⟩ := c'
    · cases build () <;> rfl
    · rfl
  | index =>
    simp only [request, index, provide, held, put]
    generalize c.select layer = c'
    obtain ⟨noted, s, _ | i⟩ := c'
    · cases build () <;> rfl
    · rfl

theorem request_of_held {v : form.Content S I} (build : Unit → Except ε (form.Content S I))
    (h : (c.select layer).held form = some v) :
    c.request form layer build = ⟨.ok v, false, c.select layer⟩ := by
  rw [request_eq, h]

theorem request_of_ok {v : form.Content S I} {build : Unit → Except ε (form.Content S I)}
    (h : (c.select layer).held form = none) (hbuild : build () = .ok v) :
    c.request form layer build = ⟨.ok v, true, (c.select layer).put form v⟩ := by
  rw [request_eq, h, hbuild]

theorem request_of_error {e : ε} {build : Unit → Except ε (form.Content S I)}
    (h : (c.select layer).held form = none) (hbuild : build () = .error e) :
    c.request form layer build = ⟨.error e, true, c.select layer⟩ := by
  rw [request_eq, h, hbuild]

/-- Afterwards the layer asked for is noted. -/
@[simp]
theorem layer_request (build : Unit → Except ε (form.Content S I)) :
    (c.request form layer build).cache.layer = some layer := by
  rw [request_eq]
  split
  · exact c.layer_select
  · split
    · rw [layer_put, layer_select]
    · exact c.layer_select

end Forms

/-! ## Calls and what came of them -/

/-- What is asked of a cache. -/
inductive Call (S I ε : Type)
  | request (form : Form) (layer : Nat) (build : Unit → Except ε (form.Content S I))
  | invalidate (layer : Nat)
  | clear

/-- What came of a call: whether the build was run and what was answered, or whether a view was
dropped. -/
inductive Entry (S I ε : Type)
  | requested (form : Form) (layer : Nat) (built : Bool) (result : Except ε (form.Content S I))
  | invalidated (layer : Nat) (dropped : Bool)
  | cleared

/-- One call. -/
def perform (c : PositionCache S I) : Call S I ε → Entry S I ε × PositionCache S I
  | .request form layer build =>
    let reply := c.request form layer build
    (.requested form layer reply.built reply.result, reply.cache)
  | .invalidate layer => (.invalidated layer (c.invalidate layer).1, (c.invalidate layer).2)
  | .clear => (.cleared, empty)

/-- What came of all calls made on a new cache, and the cache they leave. -/
def history (calls : List (Call S I ε)) : List (Entry S I ε) × PositionCache S I :=
  calls.foldl (fun state call => (state.1 ++ [(state.2.perform call).1], (state.2.perform call).2))
    ([], empty)

theorem history_snoc (calls : List (Call S I ε)) (call : Call S I ε) :
    history (calls ++ [call]) =
      ((history calls).1 ++ [((history calls).2.perform call).1],
        ((history calls).2.perform call).2) := by
  rw [history, List.foldl_append]
  rfl

/-! ## The builds that stand -/

/-- The end of what was built for a layer: the cache is cleared, the layer is dropped, or another layer
is asked for. -/
def Ends (layer : Nat) : Entry S I ε → Prop
  | .requested _ asked _ _ => asked ≠ layer
  | .invalidated asked dropped => asked = layer ∧ dropped = true
  | .cleared => True

/-- The last successful build of a form for a layer made `v`, and nothing ended it since. -/
def Standing (log : List (Entry S I ε)) (form : Form) (layer : Nat) (v : form.Content S I) : Prop :=
  ∃ before since, log = before ++ .requested form layer true (.ok v) :: since ∧
    ∀ entry ∈ since, ¬ Ends layer entry ∧ ∀ u, entry ≠ .requested form layer true (.ok u)

/-- An item at the end of a list is followed by nothing, and every other one by what followed it before
and by the end. -/
theorem exists_split_snoc_iff {α : Type} {l : List α} {a x : α} {p : α → Prop} :
    (∃ before since, l ++ [a] = before ++ x :: since ∧ ∀ y ∈ since, p y) ↔
      a = x ∨ (∃ before since, l = before ++ x :: since ∧ ∀ y ∈ since, p y) ∧ p a := by
  constructor
  · rintro ⟨before, since, hl, hsince⟩
    obtain rfl | ⟨since, last, rfl⟩ := since.eq_nil_or_concat
    · obtain ⟨-, hlast⟩ := List.append_inj' hl rfl
      exact .inl (by simpa using hlast)
    · rw [List.concat_eq_append, ← List.cons_append, ← List.append_assoc] at hl
      obtain ⟨rfl, hlast⟩ := List.append_inj' hl rfl
      obtain rfl : a = last := by simpa using hlast
      rw [List.concat_eq_append, List.forall_mem_append, List.forall_mem_singleton] at hsince
      exact .inr ⟨⟨before, since, rfl, hsince.1⟩, hsince.2⟩
  · rintro (rfl | ⟨⟨before, since, rfl, hsince⟩, ha⟩)
    · exact ⟨l, [], rfl, by simp⟩
    · refine ⟨before, since ++ [a], by simp, ?_⟩
      rw [List.forall_mem_append, List.forall_mem_singleton]
      exact ⟨hsince, ha⟩

section Standing

variable {log : List (Entry S I ε)} {entry : Entry S I ε} {form : Form} {layer : Nat}
  {v : form.Content S I}

/-- A request ends nothing of the layer it asks for. -/
theorem not_ends_requested {asked : Form} {built : Bool} {result : Except ε (asked.Content S I)} :
    ¬ Ends layer (.requested asked layer built result) := fun h => h rfl

theorem not_standing_nil : ¬ Standing ([] : List (Entry S I ε)) form layer v := by
  rintro ⟨before, since, h, -⟩
  exact List.append_ne_nil_of_right_ne_nil before (List.cons_ne_nil _ _) h.symm

/-- After one more call a build stands if it is this call's, or if it stood and this call neither ends
it nor builds anew. -/
theorem standing_snoc :
    Standing (log ++ [entry]) form layer v ↔
      entry = .requested form layer true (.ok v) ∨
        (Standing log form layer v ∧ ¬ Ends layer entry ∧
          ∀ u, entry ≠ .requested form layer true (.ok u)) :=
  exists_split_snoc_iff

theorem standing_snoc_of_ends (h : Ends layer entry)
    (hne : ∀ u, entry ≠ .requested form layer true (.ok u)) :
    ¬ Standing (log ++ [entry]) form layer v := by
  rw [standing_snoc]
  rintro (hentry | ⟨-, hends, -⟩)
  · exact hne v hentry
  · exact hends h

theorem standing_snoc_of_not_ends (h : ¬ Ends layer entry)
    (hne : ∀ u, entry ≠ .requested form layer true (.ok u)) :
    Standing (log ++ [entry]) form layer v ↔ Standing log form layer v := by
  rw [standing_snoc]
  constructor
  · rintro (hentry | ⟨hstanding, -⟩)
    · exact absurd hentry (hne v)
    · exact hstanding
  · exact fun hstanding => .inr ⟨hstanding, h, hne⟩

theorem standing_snoc_of_built {u : form.Content S I} :
    Standing (log ++ [.requested form layer true (.ok u)]) form layer v ↔ v = u := by
  rw [standing_snoc]
  constructor
  · rintro (hentry | ⟨-, -, hne⟩)
    · simpa [eq_comm] using hentry
    · exact absurd rfl (hne u)
  · rintro rfl
    exact .inl rfl

end Standing

/-! ## A cache holds what stands -/

/-- The cache keeps exactly the builds that stand. -/
def Mirrors (log : List (Entry S I ε)) (c : PositionCache S I) : Prop :=
  ∀ form layer v, (c.select layer).held form = some v ↔ Standing log form layer v

namespace Mirrors

variable {log : List (Entry S I ε)} {c : PositionCache S I}

theorem start : Mirrors ([] : List (Entry S I ε)) (empty : PositionCache S I) := by
  intro form layer v
  rw [held_select_of_ne _ (by simp [empty])]
  simp [not_standing_nil]

theorem clear : Mirrors (log ++ [.cleared]) (empty : PositionCache S I) := by
  intro form layer v
  rw [held_select_of_ne _ (by simp [empty])]
  have hends : Ends layer (.cleared : Entry S I ε) := trivial
  simpa using standing_snoc_of_ends hends (by simp)

theorem invalidate (h : Mirrors log c) (layer : Nat) :
    Mirrors (log ++ [.invalidated layer (c.invalidate layer).1]) (c.invalidate layer).2 := by
  intro form asked v
  rw [PositionCache.invalidate]
  split
  case isTrue hlayer =>
    rw [held_select_of_ne _ (by simp [empty])]
    refine iff_of_false (by simp) ?_
    by_cases hasked : layer = asked
    · exact standing_snoc_of_ends ⟨hasked, rfl⟩ (by simp)
    · -- Of the other layers nothing stood before.
      rw [standing_snoc_of_not_ends (by simp [Ends, hasked]) (by simp), ← h,
        held_select_of_ne _ (by simpa [hlayer] using hasked)]
      simp
  case isFalse =>
    rw [standing_snoc_of_not_ends (by simp [Ends]) (by simp)]
    exact h form asked v

/-- What is kept of the layer asked for, before the build and after it. -/
theorem request (h : Mirrors log c) (form : Form) (layer : Nat)
    (build : Unit → Except ε (form.Content S I)) :
    Mirrors (log ++ [.requested form layer (c.request form layer build).built
      (c.request form layer build).result]) (c.request form layer build).cache := by
  intro other asked v
  by_cases hasked : layer = asked
  case neg =>
    rw [held_select_of_ne _ (by simpa using hasked)]
    refine iff_of_false (by simp) (standing_snoc_of_ends hasked fun u hentry => hasked ?_)
    simp only [Entry.requested.injEq] at hentry
    exact hentry.2.1
  subst hasked
  rw [select_of_layer _ (layer_request c build)]
  cases hheld : (c.select layer).held form with
  | some kept =>
    rw [request_of_held c build hheld, standing_snoc_of_not_ends not_ends_requested (by simp), ← h]
  | none =>
    cases hbuild : build () with
    | error e =>
      rw [request_of_error c hheld hbuild, standing_snoc_of_not_ends not_ends_requested ?_, ← h]
      rintro u hentry
      simp only [Entry.requested.injEq] at hentry
      obtain ⟨rfl, -, -, hresult⟩ := hentry
      cases eq_of_heq hresult
    | ok made =>
      rw [request_of_ok c hheld hbuild]
      by_cases hform : other = form
      · subst hform
        rw [held_put, standing_snoc_of_built, Option.some_inj, eq_comm]
      · rw [held_put_of_ne _ _ hform, standing_snoc_of_not_ends not_ends_requested ?_, ← h]
        rintro u hentry
        simp only [Entry.requested.injEq] at hentry
        exact hform hentry.1.symm

theorem perform (h : Mirrors log c) (call : Call S I ε) :
    Mirrors (log ++ [(c.perform call).1]) (c.perform call).2 := by
  cases call with
  | request form layer build => exact h.request form layer build
  | invalidate layer => exact h.invalidate layer
  | clear => exact .clear

section Request

variable {form : Form} {layer : Nat} {v : form.Content S I}

/-- What stands is answered without a build. -/
theorem request_of_standing (h : Mirrors log c) (hv : Standing log form layer v)
    (build : Unit → Except ε (form.Content S I)) :
    c.request form layer build = ⟨.ok v, false, c.select layer⟩ :=
  request_of_held c build ((h form layer v).2 hv)

/-- If no build stands the view is built, and what that makes is answered. -/
theorem request_of_not_standing (h : Mirrors log c) (hnone : ¬ ∃ v, Standing log form layer v)
    (build : Unit → Except ε (form.Content S I)) :
    (c.request form layer build).built = true ∧ (c.request form layer build).result = build () := by
  have hheld : (c.select layer).held form = none := by
    rw [Option.eq_none_iff_forall_ne_some]
    exact fun v hv => hnone ⟨v, (h form layer v).1 hv⟩
  cases hbuild : build () with
  | ok made =>
    rw [request_of_ok c hheld hbuild]
    exact ⟨rfl, rfl⟩
  | error e =>
    rw [request_of_error c hheld hbuild]
    exact ⟨rfl, rfl⟩

theorem built_iff (h : Mirrors log c) (build : Unit → Except ε (form.Content S I)) :
    (c.request form layer build).built = true ↔ ¬ ∃ v, Standing log form layer v := by
  constructor
  · rintro hbuilt ⟨v, hv⟩
    rw [h.request_of_standing hv] at hbuilt
    cases hbuilt
  · exact fun hnone => (h.request_of_not_standing hnone build).1

/-- What is answered stands from then on. -/
theorem standing_of_result (h : Mirrors log c) {build : Unit → Except ε (form.Content S I)}
    (hv : (c.request form layer build).result = .ok v) :
    Standing (log ++ [.requested form layer (c.request form layer build).built
      (c.request form layer build).result]) form layer v := by
  by_cases hstands : ∃ u, Standing log form layer u
  · obtain ⟨u, hu⟩ := hstands
    rw [h.request_of_standing hu] at hv ⊢
    cases hv
    exact (standing_snoc_of_not_ends not_ends_requested (by simp)).2 hu
  · rw [(h.request_of_not_standing hstands build).1, hv]
    exact standing_snoc_of_built.2 rfl

/-- A request leaves what stands for the layer asked for, whatever comes of it. -/
theorem standing_request (h : Mirrors log c) {asked : Form}
    (build : Unit → Except ε (asked.Content S I)) (hv : Standing log form layer v) :
    Standing (log ++ [.requested asked layer (c.request asked layer build).built
      (c.request asked layer build).result]) form layer v := by
  refine (standing_snoc_of_not_ends not_ends_requested fun u hentry => ?_).2 hv
  simp only [Entry.requested.injEq] at hentry
  obtain ⟨rfl, -, hbuilt, -⟩ := hentry
  exact (h.built_iff build).1 hbuilt ⟨v, hv⟩

theorem invalidate_of_standing (h : Mirrors log c) (hv : Standing log form layer v) :
    (c.invalidate layer).1 = true := by
  have hheld := (h form layer v).2 hv
  by_cases hlayer : c.layer = some layer
  · rw [PositionCache.invalidate, if_pos hlayer]
  · rw [held_select_of_ne c hlayer] at hheld
    cases hheld

end Request

end Mirrors

/-- Whatever is asked of a new cache, it keeps exactly the builds that stand. -/
theorem mirrors_history (calls : List (Call S I ε)) :
    Mirrors (history calls).1 (history calls).2 := by
  induction calls using List.reverseRecOn with
  | nil => exact .start
  | append_singleton calls call ih =>
    rw [history_snoc]
    exact ih.perform call

/-! ## What a request comes to -/

/-- After any calls, with builds that succeed or fail as they like, a form of a layer is built exactly
if no build of it stands, and then the answer is what the build makes; otherwise it is what stands.
What is answered stands from then on, so that it was built for the layer asked for. A request, also one
whose build fails, leaves both forms of its layer as they stand, so that the next one is answered from
them. A layer for which something stands is dropped when that is asked for. -/
theorem request_coherent (calls : List (Call S I ε)) (form : Form) (layer : Nat)
    (build : Unit → Except ε (form.Content S I)) :
    let log := (history calls).1
    let cache := (history calls).2
    let reply := cache.request form layer build
    (reply.built = true ↔ ¬ ∃ v, Standing log form layer v) ∧
    (reply.built = true → reply.result = build ()) ∧
    (∀ v, Standing log form layer v → reply.result = .ok v) ∧
    (∀ v, reply.result = .ok v →
      Standing (log ++ [.requested form layer reply.built reply.result]) form layer v) ∧
    (∀ (other : Form) (v : other.Content S I) again, Standing log other layer v →
      (reply.cache.request other layer again).built = false ∧
        (reply.cache.request other layer again : CacheReply ε _ _).result = .ok v) ∧
    ∀ v, Standing log form layer v → (cache.invalidate layer).1 = true := by
  intro log cache reply
  have hmirrors : Mirrors log cache := mirrors_history calls
  have hafter := hmirrors.request form layer build
  refine ⟨hmirrors.built_iff build, fun hbuilt => ?_, fun v hv => ?_,
    fun v hv => hmirrors.standing_of_result hv, fun other v again hv => ?_,
    fun v hv => hmirrors.invalidate_of_standing hv⟩
  · exact (hmirrors.request_of_not_standing ((hmirrors.built_iff build).1 hbuilt) build).2
  · show (cache.request form layer build).result = .ok v
    rw [hmirrors.request_of_standing hv]
  · show (PositionCache.request _ other layer again).built = false ∧
      (PositionCache.request _ other layer again).result = .ok v
    rw [hafter.request_of_standing (hmirrors.standing_request build hv) again]
    exact ⟨rfl, rfl⟩

/-- A sequence was built, an index failed, and another layer was dropped in vain: the sequence stands, so
that a build that would fail is not run. -/
theorem request_coherent_failed :
    let calls : List (Call Nat Nat String) :=
      [.request .sequence 2 fun _ => .ok (7 : Nat), .request .sequence 1 fun _ => .ok (10 : Nat),
        .request .index 1 fun _ => .error "no round", .invalidate 2]
    Standing (history calls).1 .sequence 1 (10 : Nat) ∧
      ((history calls).2.request .sequence 1 fun _ => (.error "rebuilt" : Except String Nat)).result =
        .ok (10 : Nat) := by
  intro calls
  have hstanding : Standing (history calls).1 .sequence 1 (10 : Nat) := by
    refine ⟨[.requested .sequence 2 true (.ok (7 : Nat))],
      [.requested .index 1 true (.error "no round"), .invalidated 2 false], rfl, ?_⟩
    simp [Ends]
  exact ⟨hstanding,
    (request_coherent calls .sequence 1 fun _ => .error "rebuilt").2.2.1 (10 : Nat) hstanding⟩

end ElementGrid.PositionCache
