/-!
# Results that may fail

What is known of the parts of a computation from its success or its failure, and of a pass over a list
in which nothing happens besides.

## Main results

* `List.mapM_eq_pure`, `List.mapM_eq_pure_map` — a pass collects what its steps come to
* `Except.map_eq_ok_iff`, `Except.map_eq_error_iff` — a changed result
* `Except.mapError_eq_ok_iff` — a result whose error is changed
* `Except.bind_eq_ok_iff` — a computation that goes on with a result
* `Except.exists_of_mapM_eq_error` — a pass in which some step fails
* `Except.exists_mapM_eq_ok`, `Except.length_of_mapM_eq_ok`, `Except.getElem?_of_mapM_eq_ok` — a pass in
  which every step succeeds
-/

namespace ElementGrid

variable {ε α β : Type}

/-! ## Passes of pure steps -/

section Lawful

variable {m : Type → Type} [Monad m] [LawfulMonad m] {f : α → m β} {as : List α}

/-- A pass comes to a list if each of its steps comes to what stands at its place. -/
theorem List.mapM_eq_pure {bs : List β} (hlength : bs.length = as.length)
    (h : ∀ (i : Nat) a b, as[i]? = some a → bs[i]? = some b → f a = pure b) :
    as.mapM f = pure bs := by
  induction as generalizing bs with
  | nil => rw [List.length_eq_zero_iff.1 hlength, List.mapM_nil]
  | cons a as ih =>
    obtain ⟨b, bs, rfl⟩ := List.exists_cons_of_length_eq_add_one hlength
    have hfirst : f a = pure b := h 0 a b rfl rfl
    have hrest : as.mapM f = pure bs := ih (Nat.succ.inj hlength) fun i => h (i + 1)
    rw [List.mapM_cons, hfirst, hrest, pure_bind, pure_bind]

/-- A pass in which every step comes to the value of a function comes to the values. -/
theorem List.mapM_eq_pure_map {g : α → β} (h : ∀ a ∈ as, f a = pure (g a)) :
    as.mapM f = pure (as.map g) := by
  refine mapM_eq_pure (List.length_map g) fun i a b ha hb => ?_
  rw [List.getElem?_map, ha] at hb
  cases hb
  exact h a (List.mem_of_getElem? ha)

end Lawful

/-! ## Success and failure -/

namespace Except

theorem map_eq_ok_iff {f : α → β} {x : Except ε α} {b : β} :
    x.map f = .ok b ↔ ∃ a, x = .ok a ∧ f a = b := by
  cases x with
  | error e => simp [Except.map]
  | ok a => simp [Except.map]

theorem map_eq_error_iff {f : α → β} {x : Except ε α} {e : ε} :
    x.map f = .error e ↔ x = .error e := by
  cases x with
  | error e => simp [Except.map]
  | ok a => simp [Except.map]

theorem mapError_eq_ok_iff {ε' : Type} {f : ε → ε'} {x : Except ε α} {a : α} :
    x.mapError f = .ok a ↔ x = .ok a := by
  cases x with
  | error e => constructor <;> intro h <;> cases h
  | ok b =>
    constructor
    · intro h
      cases h
      rfl
    · intro h
      cases h
      rfl

theorem bind_eq_ok_iff {x : Except ε α} {f : α → Except ε β} {b : β} :
    (x >>= f) = .ok b ↔ ∃ a, x = .ok a ∧ f a = .ok b := by
  cases x with
  | error e => simp [bind, Except.bind]
  | ok a => simp [bind, Except.bind]

theorem exists_mapM_eq_ok {f : α → Except ε β} {l : List α} (h : ∀ a ∈ l, ∃ b, f a = .ok b) :
    ∃ bs, l.mapM f = .ok bs := by
  induction l with
  | nil => exact ⟨[], rfl⟩
  | cons a l ih =>
    obtain ⟨b, hb⟩ := h a (by simp)
    obtain ⟨bs, hbs⟩ := ih fun c hc => h c (by simp [hc])
    exact ⟨b :: bs, by rw [List.mapM_cons, hb, hbs]; rfl⟩

/-- A pass fails with the failure of one of its steps. -/
theorem exists_of_mapM_eq_error {f : α → Except ε β} {l : List α} {e : ε} (h : l.mapM f = .error e) :
    ∃ a ∈ l, f a = .error e := by
  induction l with
  | nil => cases h
  | cons a l ih =>
    rw [List.mapM_cons] at h
    cases ha : f a with
    | error e' =>
      rw [ha] at h
      cases h
      exact ⟨a, List.mem_cons_self, ha⟩
    | ok b =>
      rw [ha] at h
      cases hl : l.mapM f with
      | error e' =>
        rw [hl] at h
        cases h
        obtain ⟨c, hc, hfail⟩ := ih hl
        exact ⟨c, List.mem_cons_of_mem _ hc, hfail⟩
      | ok bs =>
        rw [hl] at h
        cases h

theorem length_of_mapM_eq_ok {f : α → Except ε β} {l : List α} {bs : List β}
    (h : l.mapM f = .ok bs) : bs.length = l.length := by
  induction l generalizing bs with
  | nil =>
    cases h
    rfl
  | cons a l ih =>
    rw [List.mapM_cons] at h
    obtain ⟨b, -, h⟩ := bind_eq_ok_iff.1 h
    obtain ⟨bs', hbs', h⟩ := bind_eq_ok_iff.1 h
    cases h
    rw [List.length_cons, List.length_cons, ih hbs']

/-- In a pass that succeeds, each step has come to what stands at its place. -/
theorem getElem?_of_mapM_eq_ok {f : α → Except ε β} {l : List α} {bs : List β} {i : Nat} {a : α}
    (h : l.mapM f = .ok bs) (ha : l[i]? = some a) : ∃ b, bs[i]? = some b ∧ f a = .ok b := by
  induction l generalizing bs i with
  | nil => cases ha
  | cons c l ih =>
    rw [List.mapM_cons] at h
    obtain ⟨b, hb, h⟩ := bind_eq_ok_iff.1 h
    obtain ⟨bs', hbs', h⟩ := bind_eq_ok_iff.1 h
    cases h
    cases i with
    | zero =>
      cases ha
      exact ⟨b, rfl, hb⟩
    | succ i => simpa using ih hbs' ha

end Except

end ElementGrid
