import Mathlib.Data.List.Forall2
import ElementGrid.Proofs.Collection.Halving
import ElementGrid.Proofs.Registry.Allocation
/-!
# Numbers that creations give out

Between two resets a registry is asked for elements again and again, by the name or by the number of a
model, and some of the creations are refused. Those that are not refused give out the numbers from the
first on, each the run behind that of the one before, and the model and the category of an element are
those of the creation that gave out its number.

## Main definitions

* `Creation` — elements asked for by the name or by the number of their model
* `Registry.calls` — the creations of a history with what they came to
* `carriedOut` — those that were not refused, with what they gave out
* `Registry.Blank` — a registry as a reset leaves it
* `Registry.NumberedBy` — the registry has given out its numbers by these creations

## Main results

* `Tiles.getElem?_bisect` — halving finds the run that a walk from the front finds
* `Registry.call_cases` — when a creation is carried out, and what it gives out then
* `Registry.forall₂_cameTo_run` — the runs of a registry are those of the creations carried out
* `Registry.calls_eq_callAll` — nothing else that a registry is told makes a difference to creations
* `Registry.numbered_by_creation` — the numbers that the creations between two resets give out
-/

namespace ElementGrid

variable {E : Type}

/-! ## Creations -/

/-- Elements asked for by the name or by the number of their model. -/
inductive Creation where
  | byName (name : String) (count : Nat)
  | byId (id count : Nat)
  deriving DecidableEq, Repr

namespace Creation

def count : Creation → Nat
  | byName _ count => count
  | byId _ count => count

/-- The model that is asked for, if the catalog has it. -/
def model? (catalog : Catalog E) : Creation → Option (Model E)
  | byName name _ => (catalog.lookup? name).bind catalog.get?
  | byId id _ => catalog.get? id

/-- The creation came to the collection of one run, of as many elements as it asks for and of the model
that it asks for. -/
def CameTo (catalog : Catalog E) (c : Creation) (made : Collection) (b : Run) : Prop :=
  made = .ofRun b ∧ ∃ m, c.model? catalog = some m ∧ catalog.get? m.id = some m ∧ c.count ≠ 0 ∧
    b = .ofCount b.first c.count m.id

theorem CameTo.gids_eq {catalog : Catalog E} {c : Creation} {made : Collection} {b : Run}
    (h : c.CameTo catalog made b) : made.gids = b.gids := by
  rw [h.1, Collection.gids_ofRun]

end Creation

/-- The creation that a command is, if it is one. -/
def Command.creation? : Command E → Option Creation
  | .create name count => some (.byName name count)
  | .createById id count => some (.byId id count)
  | _ => none

/-- Those of some creations that were not refused, with what they gave out. -/
def carriedOut (calls : List (Creation × Except RegistryError Collection)) :
    List (Creation × Collection) :=
  calls.filterMap fun (c, result) =>
    match result with
    | .ok made => some (c, made)
    | .error _ => none

namespace Registry

/-- A creation carried out or refused. -/
def call (r : Registry E) : Creation → Change E Collection
  | .byName name count => r.create name count
  | .byId id count => r.createById id count

/-- A registry as a reset leaves it. -/
def Blank (r : Registry E) : Prop := r.reset.registry = r

/-- Creations one after the other, each with what it came to. -/
def callAll (r : Registry E) : List Creation → List (Creation × Except RegistryError Collection)
  | [] => []
  | c :: cs => (c, (r.call c).result) :: (r.call c).registry.callAll cs

/-- The creations of a history in order, each with what it came to. -/
def calls [Element E] (r : Registry E) :
    List (Command E) → List (Creation × Except RegistryError Collection)
  | [] => []
  | command :: commands =>
    (command.creation?.map fun c => (c, (r.call c).result)).toList ++ (r.apply command).calls commands

end Registry

/-! ## Runs one behind the other -/

namespace Tiles

variable {first next gid : Nat} {bs : List Run}

theorem nonvoid (h : Tiles first bs next) : Collection.Nonvoid bs := by
  induction bs generalizing first with
  | nil => simp [Collection.Nonvoid]
  | cons c cs ih => exact List.forall_mem_cons.2 ⟨h.2.1, ih h.2.2⟩

theorem apart (h : Tiles first bs next) : bs.Pairwise fun b c => b.last < c.first := by
  induction bs generalizing first with
  | nil => exact .nil
  | cons c cs ih => exact List.pairwise_cons.2 ⟨fun d hd => h.2.2.first_le_of_mem hd, ih h.2.2⟩

/-- Halving finds the run that a walk from the front finds. -/
theorem getElem?_bisect (h : Tiles first bs next) :
    bs[Run.bisect bs gid 0 bs.length]? = bs.find? fun b => gid ≤ b.last :=
  Run.getElem?_bisect h.nonvoid h.apart gid

theorem eq_of_contains (h : Tiles first bs next) {i j : Nat} {b c : Run} (hb : bs[i]? = some b)
    (hc : bs[j]? = some c) (hgid : b.contains gid = true) (hgid' : c.contains gid = true) : i = j := by
  obtain ⟨hi, rfl⟩ := List.getElem?_eq_some_iff.1 hb
  obtain ⟨hj, rfl⟩ := List.getElem?_eq_some_iff.1 hc
  have hapart := List.pairwise_iff_getElem.1 h.apart
  rw [Run.contains_eq_true] at hgid hgid'
  rcases Nat.lt_trichotomy i j with hij | rfl | hij
  · have := hapart i j hi hj hij
    omega
  · rfl
  · have := hapart j i hj hi hij
    omega

end Tiles

/-! ## Creations carried out and refused -/

namespace Registry

variable {r r' : Registry E} {catalog : Catalog E}

theorem apply_of_creation? [Element E] {command : Command E} {c : Creation}
    (h : command.creation? = some c) : r.apply command = (r.call c).registry := by
  cases command <;> cases h <;> rfl

/-- What is no creation and no reset leaves all that creations give out alone. -/
theorem sameSeats_of_creation? [Element E] {command : Command E} (h : command.creation? = none)
    (hreset : command ≠ .reset) : r.SameSeats (r.apply command) := by
  refine sameSeats_apply r command (fun name n hname => ?_) (fun id n hid => ?_) hreset
  · subst hname
    cases h
  · subst hid
    cases h

theorem call_of_error {c : Creation} {e : RegistryError} (h : (r.call c).result = .error e) :
    r.call c = ⟨.error e, r, []⟩ := by
  have hbyId : ∀ id count, (r.createById id count).result = .error e →
      r.createById id count = ⟨.error e, r, []⟩ := by
    intro id count h
    cases hm : r.catalog.get? id with
    | none =>
      simp only [createById, hm] at h ⊢
      cases h
      rfl
    | some m =>
      by_cases hcount : count = 0 ∨ ¬ Word.Fits (r.nextGid + count)
      · simp only [createById, hm, if_pos hcount] at h ⊢
        cases h
        rfl
      · simp only [createById, hm, if_neg hcount] at h
        cases h
  cases c with
  | byId id count => exact hbyId id count h
  | byName name count =>
    show r.create name count = _
    have hname : (r.create name count).result = .error e := h
    rw [create] at hname ⊢
    split at hname
    · cases hname
      rfl
    · exact hbyId _ count hname

/-- A creation is carried out just if the catalog has the model, an element is asked for, and the number
behind the last one is still a word. It gives out the next numbers then, as many as are asked for. -/
theorem call_cases (hcatalog : r.catalog.Numbered) (c : Creation) :
    (∃ m, c.model? r.catalog = some m ∧ r.catalog.get? m.id = some m ∧ c.count ≠ 0 ∧
      Word.Fits (r.nextGid + c.count) ∧
      (r.call c).result = .ok (.ofRun (.ofCount r.nextGid c.count m.id)) ∧
      (r.call c).registry = r.withBatch m (.ofCount r.nextGid c.count m.id)) ∨
    (c.model? r.catalog = none ∨ c.count = 0 ∨ ¬ Word.Fits (r.nextGid + c.count)) ∧
      ∃ e, r.call c = ⟨.error e, r, []⟩ := by
  have hbyId : ∀ id count,
      (∃ m, r.catalog.get? id = some m ∧ r.catalog.get? m.id = some m ∧ count ≠ 0 ∧
        Word.Fits (r.nextGid + count) ∧
        (r.createById id count).result = .ok (.ofRun (.ofCount r.nextGid count m.id)) ∧
        (r.createById id count).registry = r.withBatch m (.ofCount r.nextGid count m.id)) ∨
      (r.catalog.get? id = none ∨ count = 0 ∨ ¬ Word.Fits (r.nextGid + count)) ∧
        ∃ e, r.createById id count = ⟨.error e, r, []⟩ := by
    intro id count
    cases hm : r.catalog.get? id with
    | none => exact .inr ⟨.inl rfl, .unknownModelId id, by rw [createById, hm]⟩
    | some m =>
      obtain rfl : m.id = id := hcatalog id m hm
      by_cases hcount : count = 0 ∨ ¬ Word.Fits (r.nextGid + count)
      · refine .inr ⟨.inr hcount, .invalidCount count, ?_⟩
        simp only [createById, hm, if_pos hcount]
      · refine .inl ⟨m, rfl, hm, fun h => hcount (.inl h),
          Decidable.byContradiction fun h => hcount (.inr h), ?_⟩
        simp only [createById, hm, if_neg hcount, and_self]
  cases c with
  | byId id count => exact hbyId id count
  | byName name count =>
    cases hid : r.catalog.lookup? name with
    | none =>
      refine .inr ⟨.inl ?_, .unknownModel name, ?_⟩
      · rw [Creation.model?, hid, Option.bind_none]
      · show r.create name count = _
        rw [create, hid]
    | some id =>
      have hcreate : r.call (.byName name count) = r.createById id count := by
        show r.create name count = _
        rw [create, hid]
      rw [hcreate, Creation.model?, hid]
      exact hbyId id count

/-- What a creation comes to, and which number is the next then, is up to the catalog and the next number. -/
theorem call_congr (hcatalog : r'.catalog = r.catalog) (hnext : r'.nextGid = r.nextGid) (c : Creation) :
    (r'.call c).result = (r.call c).result ∧
      (r'.call c).registry.catalog = (r.call c).registry.catalog ∧
      (r'.call c).registry.nextGid = (r.call c).registry.nextGid := by
  have hbyId : ∀ id count, (r'.createById id count).result = (r.createById id count).result ∧
      (r'.createById id count).registry.catalog = (r.createById id count).registry.catalog ∧
      (r'.createById id count).registry.nextGid = (r.createById id count).registry.nextGid := by
    intro id count
    rw [createById, createById, hcatalog, hnext]
    cases r.catalog.get? id with
    | none => exact ⟨rfl, hcatalog, hnext⟩
    | some m =>
      show (ite _ _ _ : Change E Collection).result = _ ∧ _
      split
      · exact ⟨rfl, hcatalog, hnext⟩
      · exact ⟨rfl, hcatalog, rfl⟩
  cases c with
  | byId id count => exact hbyId id count
  | byName name count =>
    show (r'.create name count).result = (r.create name count).result ∧
      (r'.create name count).registry.catalog = (r.create name count).registry.catalog ∧
      (r'.create name count).registry.nextGid = (r.create name count).registry.nextGid
    rw [create, create, hcatalog]
    cases r.catalog.lookup? name with
    | none => exact ⟨rfl, hcatalog, hnext⟩
    | some id => exact hbyId id count

/-! ## Histories -/

theorem blank_reset (r : Registry E) : r.reset.registry.Blank := rfl

theorem Blank.sound (h : r.Blank) : Sound r.config r.catalog r := by
  have hsound : Sound r.config r.catalog r.reset.registry :=
    sound_fresh r.config r.catalog r.dispatch
  rwa [show r.reset.registry = r from h] at hsound

theorem Sound.size_add_one {config : GridConfig} (hr : Sound config catalog r) :
    r.size + 1 = r.nextGid := by
  have := hr.tiles.first_le
  simp only [size, Gid.first] at *
  omega

variable [Element E]

theorem calls_cons_of_creation? {command : Command E} {c : Creation} (h : command.creation? = some c)
    (commands : List (Command E)) :
    r.calls (command :: commands) = (c, (r.call c).result) :: (r.call c).registry.calls commands := by
  rw [calls, h, apply_of_creation? h]
  rfl

theorem calls_cons_of_none {command : Command E} (h : command.creation? = none)
    (commands : List (Command E)) :
    r.calls (command :: commands) = (r.apply command).calls commands := by
  rw [calls, h]
  rfl

/-- A history without resets adds the runs of the creations that it carries out, in their order. -/
theorem forall₂_cameTo_run {config : GridConfig} (hcatalog : catalog.Numbered)
    (hr : Sound config catalog r) {commands : List (Command E)} (hreset : .reset ∉ commands) :
    ∃ bs, (r.run commands).batches = r.batches ++ bs ∧
      List.Forall₂ (fun p b => p.1.CameTo catalog p.2 b) (carriedOut (r.calls commands)) bs := by
  induction commands generalizing r with
  | nil => exact ⟨[], (List.append_nil _).symm, .nil⟩
  | cons command commands ih =>
    obtain ⟨hhere, hlater⟩ := not_or.1 (mt List.mem_cons.2 hreset)
    obtain ⟨bs, hbs, hcame⟩ := ih (hr.apply hcatalog command) hlater
    rw [run_cons, hbs]
    cases hc : command.creation? with
    | none =>
      rw [(sameSeats_of_creation? hc (Ne.symm hhere)).batches, calls_cons_of_none hc]
      exact ⟨bs, rfl, hcame⟩
    | some c =>
      rw [apply_of_creation? hc] at hcame ⊢
      rw [calls_cons_of_creation? hc]
      obtain ⟨m, hm, hget, hcount, -, hresult, hregistry⟩ | ⟨-, e, hrefused⟩ :=
        call_cases (hr.catalog_eq ▸ hcatalog) c
      · rw [hr.catalog_eq] at hm hget
        rw [hresult]
        rw [hregistry] at hcame ⊢
        refine ⟨.ofCount r.nextGid c.count m.id :: bs, ?_, .cons ⟨rfl, m, hm, hget, hcount, rfl⟩ hcame⟩
        exact List.append_assoc _ _ _
      · rw [hrefused] at hcame ⊢
        exact ⟨bs, rfl, hcame⟩

omit [Element E] in
theorem callAll_congr (hcatalog : r'.catalog = r.catalog) (hnext : r'.nextGid = r.nextGid)
    (cs : List Creation) : r'.callAll cs = r.callAll cs := by
  induction cs generalizing r r' with
  | nil => rfl
  | cons c cs ih =>
    obtain ⟨hresult, hcatalog', hnext'⟩ := call_congr hcatalog hnext c
    rw [callAll, callAll, hresult, ih hcatalog' hnext']

/-- Whatever else a registry is told between two resets, it makes no difference to what creations come
to. -/
theorem calls_eq_callAll {commands : List (Command E)} (hreset : .reset ∉ commands) :
    r.calls commands = r.callAll (commands.filterMap Command.creation?) := by
  induction commands generalizing r with
  | nil => rfl
  | cons command commands ih =>
    obtain ⟨hhere, hlater⟩ := not_or.1 (mt List.mem_cons.2 hreset)
    cases hc : command.creation? with
    | none =>
      have hsame := sameSeats_of_creation? (r := r) hc (Ne.symm hhere)
      rw [calls_cons_of_none hc, List.filterMap_cons_none hc, ih hlater]
      exact callAll_congr hsame.catalog hsame.nextGid _
    | some c => rw [calls_cons_of_creation? hc, List.filterMap_cons_some hc, ih hlater, callAll]

omit [Element E] in
theorem modelOf_eq_error {gid : Nat} (h : gid < Gid.first ∨ r.size < gid) :
    r.modelOf gid = .error (.unknownElement gid) := by
  have hunknown : (!Gid.isAssignable gid || decide (r.nextGid ≤ gid)) = true := by
    simp only [Gid.first, size] at h
    simp only [Gid.isAssignable, Gid.reserved, Bool.or_eq_true, Bool.not_eq_true', bne_eq_false_iff_eq,
      decide_eq_true_eq]
    omega
  rw [modelOf, batchOf, if_pos hunknown]
  rfl

/-- The registry has given out its numbers by these creations. -/
structure NumberedBy (catalog : Catalog E) (r : Registry E) (made : List (Creation × Collection)) :
    Prop where
  /-- What the creations gave out, one behind the other, is all numbers from the first on. -/
  tiles : made.flatMap (fun p => p.2.gids) = List.range' Gid.first r.size
  /-- The number behind the last one is a word. -/
  fits : Word.Fits (r.size + 1)
  /-- Each creation gave out one run of as many numbers as it asked for, and the model and the category of
  its elements are those of the model that it asked for. -/
  of_mem : ∀ p ∈ made, ∃ m first, p.1.model? catalog = some m ∧ p.1.count ≠ 0 ∧
    p.2 = .ofRun (.ofCount first p.1.count m.id) ∧
    ∀ gid ∈ p.2.gids, r.modelOf gid = .ok m.id ∧ r.categoryOf gid = .ok m.category
  /-- Each number up to the size was given out by one of the creations, and by no other. -/
  unique : ∀ gid, Gid.first ≤ gid → gid ≤ r.size → ∃ (i : Nat) (p : Creation × Collection),
    made[i]? = some p ∧ gid ∈ p.2.gids ∧
      ∀ (j : Nat) (q : Creation × Collection), made[j]? = some q → gid ∈ q.2.gids → j = i
  /-- No other number names an element. -/
  unknown : ∀ gid, gid < Gid.first ∨ r.size < gid →
    r.modelOf gid = .error (.unknownElement gid) ∧ r.categoryOf gid = .error (.unknownElement gid)

omit [Element E] in
theorem flatMap_gids_of_cameTo {made : List (Creation × Collection)} {bs : List Run}
    (h : List.Forall₂ (fun p b => p.1.CameTo catalog p.2 b) made bs) :
    made.flatMap (fun p => p.2.gids) = bs.flatMap Run.gids := by
  induction h with
  | nil => rfl
  | cons hcame _ ih => rw [List.flatMap_cons, List.flatMap_cons, ih, hcame.gids_eq]

omit [Element E] in
/-- A sound registry whose runs are those of some creations has given out its numbers by these. -/
theorem Sound.numberedBy {config : GridConfig} (hr : Sound config catalog r)
    {made : List (Creation × Collection)}
    (hmade : List.Forall₂ (fun p b => p.1.CameTo catalog p.2 b) made r.batches) :
    NumberedBy catalog r made := by
  obtain ⟨hlength, hget⟩ := List.forall₂_iff_get.1 hmade
  -- What a creation gave out has its run at the same place.
  have hrun : ∀ {i : Nat} {p : Creation × Collection}, made[i]? = some p →
      ∃ b, r.batches[i]? = some b ∧ p.1.CameTo catalog p.2 b := by
    intro i p hp
    obtain ⟨hi, rfl⟩ := List.getElem?_eq_some_iff.1 hp
    exact ⟨_, List.getElem?_eq_getElem (hlength ▸ hi), hget i hi (hlength ▸ hi)⟩
  refine ⟨?tiles, ?fits, ?ofMem, ?unique, ?unknown⟩
  case tiles =>
    rw [flatMap_gids_of_cameTo hmade, hr.tiles.flatMap_gids]
    rfl
  case fits =>
    rw [hr.size_add_one]
    exact hr.fits
  case ofMem =>
    intro p hp
    obtain ⟨i, hi⟩ := List.getElem?_of_mem hp
    obtain ⟨b, hb, hcame⟩ := hrun hi
    obtain ⟨m, hm, hget, hcount, hb_eq⟩ := hcame.2
    have hmodel : b.model = m.id := by rw [hb_eq, Run.ofCount]
    refine ⟨m, b.first, hm, hcount, hcame.1.trans (congrArg _ hb_eq), fun gid hgid => ?_⟩
    rw [hcame.gids_eq, Run.mem_gids] at hgid
    have hb := List.mem_of_getElem? hb
    rw [← hmodel] at hget ⊢
    exact ⟨hr.modelOf_eq hb hgid, hr.categoryOf_eq hb hgid hget⟩
  case unique =>
    intro gid hfirst hlast
    obtain ⟨b, hb, hgid⟩ := hr.contains_iff.2 ⟨hfirst, hlast⟩
    obtain ⟨i, hi, rfl⟩ := List.getElem_of_mem hb
    have hp : i < made.length := hlength ▸ hi
    refine ⟨i, made[i], List.getElem?_eq_getElem hp, ?_, fun j q hq hgid' => ?_⟩
    · exact ((hget i hp hi).gids_eq ▸ r.batches[i].mem_gids).2 hgid
    · obtain ⟨c, hc, hcame⟩ := hrun hq
      rw [hcame.gids_eq, Run.mem_gids] at hgid'
      exact hr.tiles.eq_of_contains hc (List.getElem?_eq_getElem hi) hgid' hgid
  case unknown =>
    intro gid hgid
    have hmodel := modelOf_eq_error hgid
    refine ⟨hmodel, ?_⟩
    rw [categoryOf, hmodel]
    rfl

theorem Sound.run {config : GridConfig} (hr : Sound config catalog r) (hcatalog : catalog.Numbered)
    (commands : List (Command E)) : Sound config catalog (r.run commands) := by
  induction commands generalizing r with
  | nil => exact hr
  | cons command commands ih => exact ih (hr.apply hcatalog command)

omit [Element E] in
/-- What a registry needs to carry a creation out. -/
theorem Sound.exists_call_iff {config : GridConfig} (hr : Sound config catalog r)
    (hcatalog : catalog.Numbered) (c : Creation) : (∃ made, (r.call c).result = .ok made) ↔
      (∃ m, c.model? catalog = some m) ∧ c.count ≠ 0 ∧ Word.Fits (r.size + 1 + c.count) := by
  rw [hr.size_add_one, ← hr.catalog_eq]
  obtain ⟨m, hm, -, hcount, hfits, hresult, -⟩ | ⟨hwhy, e, hrefused⟩ :=
    call_cases (hr.catalog_eq ▸ hcatalog) c
  · exact ⟨fun _ => ⟨⟨m, hm⟩, hcount, hfits⟩, fun _ => ⟨_, hresult⟩⟩
  · constructor
    · rintro ⟨made, hmade⟩
      rw [hrefused] at hmade
      cases hmade
    · rintro ⟨⟨m, hm⟩, hcount, hfits⟩
      rcases hwhy with hnone | hzero | hunfit
      · rw [hm] at hnone
        cases hnone
      · exact absurd hzero hcount
      · exact absurd hfits hunfit

/-- Between two resets the creations that are carried out give out the numbers from the first on, each the
run behind that of the one before, and the model and the category of an element are those of the one
creation that gave out its number, whether its run is looked for from the front or by halving. A creation is
carried out just if its model is known, an element is asked for, and the number behind the last is still a
word; a refused one changes nothing. Registries with the same models that are asked for the same elements
answer alike, whatever their place in the grid. -/
theorem numbered_by_creation {fresh : Registry E} (hfresh : fresh.Blank)
    (hcatalog : fresh.catalog.Formed) {commands : List (Command E)} (hreset : .reset ∉ commands) :
    let r := fresh.run commands
    NumberedBy fresh.catalog r (carriedOut (fresh.calls commands)) ∧
    (∀ gid, r.batches[Run.bisect r.batches gid 0 r.batches.length]? =
      r.batches.find? fun b => gid ≤ b.last) ∧
    (∀ c, (∃ made, (r.call c).result = .ok made) ↔
      (∃ m, c.model? fresh.catalog = some m) ∧ c.count ≠ 0 ∧ Word.Fits (r.size + 1 + c.count)) ∧
    (∀ c e, (r.call c).result = .error e → (r.call c).registry = r) ∧
    ∀ (other : Registry E) (commands' : List (Command E)), other.Blank →
      other.catalog = fresh.catalog → .reset ∉ commands' →
      commands'.filterMap Command.creation? = commands.filterMap Command.creation? →
      other.calls commands' = fresh.calls commands := by
  intro r
  have hr : Sound fresh.config fresh.catalog r := hfresh.sound.run hcatalog.numbered commands
  refine ⟨?numbered, fun gid => hr.tiles.getElem?_bisect, hr.exists_call_iff hcatalog.numbered, ?refused,
    ?alike⟩
  case numbered =>
    obtain ⟨bs, hbs, hcame⟩ := forall₂_cameTo_run hcatalog.numbered hfresh.sound hreset
    have hempty : fresh.batches = [] := by
      rw [← hfresh]
      rfl
    rw [hempty, List.nil_append] at hbs
    rw [← hbs] at hcame
    exact hr.numberedBy hcame
  case refused =>
    intro c e he
    rw [call_of_error he]
  case alike =>
    intro other commands' hother hsame hreset' hcreations
    have hnext : other.nextGid = fresh.nextGid := by
      rw [← hother, ← hfresh]
      rfl
    rw [calls_eq_callAll hreset, calls_eq_callAll hreset', hcreations, callAll_congr hsame hnext]

/-- A registry that has been in use is reset and asked for elements of two models, in between for a model
that it does not have, for no elements, and for one element more than there are numbers for. -/
theorem numbered_by_creation_mixed :
    ∃ used : Registry StandardElement,
      Reachable { processes := 1, threads := 2, rank := 0 } StandardElement.catalog .inTurn used ∧
      used.size = 2 ∧
      let fresh := used.reset.registry
      let commands : List (Command StandardElement) :=
        [.create "counter" 3, .create "mystery" 1, .prepare, .createById 3 0,
          .createById 1 (Word.modulus - 4), .createById 9 1, .createById 3 2]
      fresh.Blank ∧ fresh.catalog.Formed ∧ .reset ∉ commands ∧
      NumberedBy StandardElement.catalog (fresh.run commands)
        [(.byName "counter" 3, .ofRun ⟨1, 3, 0⟩), (.byId 3 2, .ofRun ⟨4, 5, 3⟩)] := by
  have hcatalog : StandardElement.catalog.Formed := Catalog.formed_ofEntries (by decide)
  obtain ⟨used, hused, hformed, hsize, hcarried⟩ : ∃ used : Registry StandardElement,
      Reachable { processes := 1, threads := 2, rank := 0 } StandardElement.catalog .inTurn used ∧
      used.catalog = StandardElement.catalog ∧ used.size = 2 ∧
      carriedOut (used.reset.registry.calls
        [.create "counter" 3, .create "mystery" 1, .prepare, .createById 3 0,
          .createById 1 (Word.modulus - 4), .createById 9 1, .createById 3 2]) =
        [(.byName "counter" 3, .ofRun ⟨1, 3, 0⟩), (.byId 3 2, .ofRun ⟨4, 5, 3⟩)] :=
    ⟨_, ⟨_, [.create "counter" 2], rfl, rfl⟩, rfl, rfl, by decide +kernel⟩
  have hfresh : used.reset.registry.catalog.Formed := hformed ▸ hcatalog
  refine ⟨used, hused, hsize, blank_reset used, hfresh, by simp, ?_⟩
  rw [← hcarried, ← hformed]
  exact (numbered_by_creation (blank_reset used) hfresh (by simp)).1

end Registry

end ElementGrid
