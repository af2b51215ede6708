import ElementGrid.Proofs.Element.Rigid
/-!
# Elements that report what they take

An element asks for its properties by name and shows its properties by name. Nothing forces it to show
what it has taken, under the name under which it has asked. The standard elements do, and they show
everything else as before.

## Main definitions

* `Element.Recorded` — what was taken is shown, and all else is shown as before
* `Element.Candid` — every write that an element accepts is recorded
* `StandardElement.reads` — the names that a standard element asks for
* `StandardElement.shown` — how a standard element shows a value that it has taken

## Main results

* `Element.Recorded.trans`, `Element.Candid.sum` — one reading after the other, and sums
* `Element.recorded_absent`, `Element.recorded_given` — one reading
* `StandardElement.candid` — the standard elements report what they take
-/

namespace ElementGrid

/-! ## Steps -/

/-- A step that begins with a reading and does not fail goes on with what the reading comes to. -/
theorem Step.exists_of_run_ask_bind {σ α β : Type} {s s' : σ} {reader reader' : PropertyReader}
    {read : PropertyReader → Except PropertyError α × PropertyReader}
    {k : α → Step (σ × PropertyReader) PropertyError β} {b : β}
    (h : (ask read >>= k).run.run (s, reader) = (.ok b, s', reader')) :
    ∃ a reader₁, read reader = (.ok a, reader₁) ∧ (k a).run.run (s, reader₁) = (.ok b, s', reader') := by
  rw [run_bind] at h
  have hask : (ask read : Step (σ × PropertyReader) PropertyError α).run.run (s, reader) =
      ((read reader).1, s, (read reader).2) := rfl
  rw [hask] at h
  rcases hread : read reader with ⟨_ | a, reader₁⟩
  · rw [hread] at h
    cases h
  · rw [hread] at h
    exact ⟨a, reader₁, rfl, h⟩

/-- A step that begins with an assignment goes on with what is assigned. -/
theorem Step.run_assign_bind {σ τ ε α β : Type} (value : Option α) (f : α → σ → σ)
    (k : Unit → Step (σ × τ) ε β) (s : σ) (t : τ) :
    (assign value f >>= k).run.run (s, t) =
      (k ()).run.run (value.elim s fun a => f a s, t) := by
  cases value <;> rfl

/-! ## Recorded writes -/

namespace Element

variable {E A B : Type} [Element E] [Element A] [Element B]
  {shown : String → PropertyValue → PropertyValue} {names names' : List String} {e e' e'' : E}
  {reader reader' reader'' : PropertyReader}

/-- How a value that is given under one of the names is shown. -/
def given (shown : String → PropertyValue → PropertyValue) (names : List String) (map : PropertyMap)
    (key : String) : Option PropertyValue :=
  if key ∈ names then (map.find? key).map (shown key) else none

/-- Between the first element and reader and the second, no property but those of the names was asked
for. What was given under these names is shown now, and all else is shown as before. -/
structure Recorded (shown : String → PropertyValue → PropertyValue) (names : List String)
    (e : E) (reader : PropertyReader) (e' : E) (reader' : PropertyReader) : Prop where
  map_eq : reader'.map = reader.map
  consumed : ∀ key ∈ reader'.consumed, key ∈ reader.consumed ∨ key ∈ names
  status : ∀ key, (status e' .empty).find? key =
    (given shown names reader.map key).or ((status e .empty).find? key)

theorem Recorded.trans (h : Recorded shown names e reader e' reader')
    (h' : Recorded shown names' e' reader' e'' reader'') :
    Recorded shown (names ++ names') e reader e'' reader'' where
  map_eq := h'.map_eq.trans h.map_eq
  consumed key hkey := by
    rw [List.mem_append]
    rcases h'.consumed key hkey with hkey | hkey
    · exact (h.consumed key hkey).imp_right .inl
    · exact .inr (.inr hkey)
  status key := by
    rw [h'.status, h.status, h.map_eq]
    simp only [given, List.mem_append]
    by_cases hfirst : key ∈ names <;> by_cases hsecond : key ∈ names' <;>
      cases reader.map.find? key <;> simp [hfirst, hsecond]

/-- A reading that comes to nothing leaves the element as it was. -/
theorem recorded_absent {α : Type} {type : PropertyType} {as? : PropertyValue → Option α} {name : String}
    (hread : reader.read type as? name = (.ok none, reader')) :
    Recorded shown [name] e reader e reader' := by
  obtain ⟨rfl, ⟨hfind, -⟩ | ⟨v, a, -, -, hvalue⟩⟩ := PropertyReader.read_eq_ok hread
  · refine ⟨PropertyReader.map_markConsumed _ _, fun key => PropertyReader.consumed_markConsumed,
      fun key => ?_⟩
    simp only [given, List.mem_singleton]
    split
    · rename_i heq
      rw [heq, hfind]
      rfl
    · rfl
  · cases hvalue

/-- A reading that comes to a value changes what is shown under its name, and nothing else. -/
theorem recorded_given {α : Type} {type : PropertyType} {as? : PropertyValue → Option α} {name : String}
    {a : α} (hread : reader.read type as? name = (.ok (some a), reader'))
    (hstatus : ∀ v, as? v = some a → ∀ key, (status e' .empty).find? key =
      if key = name then some (shown name v) else (status e .empty).find? key) :
    Recorded shown [name] e reader e' reader' := by
  obtain ⟨rfl, ⟨-, hvalue⟩ | ⟨v, b, hfind, hv, hvalue⟩⟩ := PropertyReader.read_eq_ok hread
  · cases hvalue
  · cases hvalue
    refine ⟨PropertyReader.map_markConsumed _ _, fun key => PropertyReader.consumed_markConsumed,
      fun key => ?_⟩
    rw [hstatus v hv key]
    simp only [given, List.mem_singleton]
    split
    · rename_i heq
      rw [heq, hfind]
      rfl
    · rfl

/-- Whatever is written to an element and accepted is recorded under the names that it asks for. -/
def Candid (shown : String → PropertyValue → PropertyValue) (reads : E → List String) : Prop :=
  ∀ (e : E) reader e' reader', write.run.run (e, reader) = (.ok (), e', reader') →
    Recorded shown (reads e) e reader e' reader'

theorem Candid.sum {readsA : A → List String} {readsB : B → List String} (hA : Candid shown readsA)
    (hB : Candid shown readsB) : Candid shown (Sum.elim readsA readsB) := by
  rintro (a | b) reader e' reader' h
  · obtain ⟨hresult, hstate⟩ := Prod.ext_iff.1 h
    obtain ⟨rfl, rfl⟩ := Prod.ext_iff.1 hstate
    have hrun := hA a reader (write.run.run (a, reader)).2.1 (write.run.run (a, reader)).2.2
      (Prod.ext hresult rfl)
    exact ⟨hrun.map_eq, hrun.consumed, hrun.status⟩
  · obtain ⟨hresult, hstate⟩ := Prod.ext_iff.1 h
    obtain ⟨rfl, rfl⟩ := Prod.ext_iff.1 hstate
    have hrun := hB b reader (write.run.run (b, reader)).2.1 (write.run.run (b, reader)).2.2
      (Prod.ext hresult rfl)
    exact ⟨hrun.map_eq, hrun.consumed, hrun.status⟩

end Element

/-! ## Standard elements -/

open Element (Recorded Candid recorded_absent recorded_given)
open Step (ask assign)

namespace StandardElement

/-- The names that a standard element asks for when it is written to. -/
def reads : StandardElement → List String :=
  Sum.elim (fun _ : Counter => ["threshold", "count"]) <|
  Sum.elim (fun _ : Relaxing => ["iterations"]) <|
  Sum.elim (fun _ : Positioned => ["position"]) <|
  Sum.elim (fun _ : Recorder => ["label", "events"]) fun _ : Faulty => []

/-- A value is shown as it was given, except that a threshold is a double. -/
def shown (key : String) : PropertyValue → PropertyValue
  | .int i => if key = "threshold" then .double (.ofInt i) else .int i
  | v => v

/-- An integer that is read under another name than that of the threshold is shown as it was given. -/
theorem recorded_int {E : Type} [Element E] {name : String} (hname : name ≠ "threshold")
    {reader reader' : PropertyReader} {i : Int} {e e' : E}
    (hread : reader.int name = (.ok (some i), reader'))
    (hstatus : ∀ key, (Element.status e' .empty).find? key =
      if key = name then some (.int i) else (Element.status e .empty).find? key) :
    Recorded shown [name] e reader e' reader' := by
  refine recorded_given hread fun v hv key => ?_
  cases v with
  | int j =>
    cases hv
    rw [hstatus key, shown, if_neg hname]
  | bool _ | double _ | string _ | doubleArray _ => cases hv

end StandardElement

open StandardElement (shown recorded_int)

theorem Counter.find?_status_count (c : Counter) (count : Int) (key : String) :
    (Element.status { c with count } .empty).find? key =
      if key = "count" then some (.int count) else (Element.status c .empty).find? key := by
  obtain ⟨old, threshold, _ | draw⟩ := c <;> by_cases hkey : key = "count" <;>
    simp [Element.status, SortedMap.find?_insert, hkey]

theorem Counter.find?_status_threshold (c : Counter) (threshold : Double) (key : String) :
    (Element.status { c with threshold } .empty).find? key =
      if key = "threshold" then some (.double threshold)
      else (Element.status c .empty).find? key := by
  obtain ⟨count, old, _ | draw⟩ := c <;> by_cases hkey : key = "threshold" <;>
    simp [Element.status, SortedMap.find?_insert, hkey]

theorem Counter.candid : Candid shown fun _ : Counter => ["threshold", "count"] := by
  intro c reader c' reader' h
  obtain ⟨threshold?, reader₁, hthreshold, h⟩ := Step.exists_of_run_ask_bind
    (show (ask (fun r => r.double "threshold") >>= _).run.run (c, reader) = _ from h)
  have hcount : ∀ c : Counter, (ask (fun r => r.int "count") >>= fun count? =>
      assign count? fun count (c : Counter) => { c with count }).run.run (c, reader₁) =
        (.ok (), c', reader') → Recorded shown ["count"] c reader₁ c' reader' := by
    intro c h
    obtain ⟨count?, reader₂, hcount, h⟩ := Step.exists_of_run_ask_bind h
    cases count? with
    | none =>
      cases h
      exact recorded_absent hcount
    | some count =>
      cases h
      exact recorded_int (by decide) hcount (c.find?_status_count count)
  cases threshold? with
  | none =>
    have hfirst : Recorded shown ["threshold"] c reader c reader₁ := recorded_absent hthreshold
    exact hfirst.trans (hcount c h)
  | some threshold =>
    have hfirst : Recorded shown ["threshold"] c reader { c with threshold } reader₁ := by
      refine recorded_given hthreshold fun v hv key => ?_
      rw [c.find?_status_threshold]
      cases v with
      | double d =>
        cases hv
        rfl
      | int i =>
        cases hv
        rfl
      | bool _ | string _ | doubleArray _ => cases hv
    -- A threshold that is not finite is refused, and any other is taken before the count is asked for.
    cases hfinite : threshold.isFinite with
    | true =>
      simp only [hfinite] at h
      exact hfirst.trans (hcount { c with threshold } h)
    | false =>
      simp only [hfinite] at h
      cases h

theorem Relaxing.candid : Candid shown fun _ : Relaxing => ["iterations"] := by
  intro e reader e' reader' h
  obtain ⟨iterations?, reader₁, hiterations, h⟩ := Step.exists_of_run_ask_bind
    (show (ask (fun r => r.int "iterations") >>= _).run.run (e, reader) = _ from h)
  cases iterations? with
  | none =>
    cases h
    exact recorded_absent hiterations
  | some iterations =>
    cases h
    refine recorded_int (by decide) hiterations fun key => ?_
    by_cases hkey : key = "iterations" <;> simp [Element.status, SortedMap.find?_insert, hkey]

theorem Positioned.candid : Candid shown fun _ : Positioned => ["position"] := by
  intro p reader p' reader' h
  obtain ⟨position?, reader₁, hposition, h⟩ := Step.exists_of_run_ask_bind
    (show (ask (fun r => r.doubleArray "position") >>= _).run.run (p, reader) = _ from h)
  rcases position? with _ | _ | ⟨x, _ | ⟨y, _ | ⟨z, rest⟩⟩⟩
  case none =>
    cases h
    exact recorded_absent hposition
  case some.cons.cons.nil =>
    cases h
    refine recorded_given hposition fun v hv key => ?_
    cases v with
    | doubleArray l =>
      cases hv
      by_cases hkey : key = "position" <;>
        simp [Element.status, SortedMap.find?_insert, StandardElement.shown, hkey]
    | bool _ | int _ | double _ | string _ => cases hv
  -- A list that does not have two coordinates is refused.
  all_goals cases h

theorem Recorder.find?_status_label (e : Recorder) (label : String) (key : String) :
    (Element.status { e with label } .empty).find? key =
      if key = "label" then some (.string label) else (Element.status e .empty).find? key := by
  by_cases hkey : key = "label" <;> simp [Element.status, SortedMap.find?_insert, hkey]

theorem Recorder.find?_status_events (e : Recorder) (events : Int) (key : String) :
    (Element.status { e with events } .empty).find? key =
      if key = "events" then some (.int events) else (Element.status e .empty).find? key := by
  by_cases hkey : key = "events" <;> simp [Element.status, SortedMap.find?_insert, hkey]

theorem Recorder.candid : Candid shown fun _ : Recorder => ["label", "events"] := by
  intro e reader e' reader' h
  obtain ⟨label?, reader₁, hlabel, h⟩ := Step.exists_of_run_ask_bind
    (show (ask (fun r => r.string "label") >>= _).run.run (e, reader) = _ from h)
  rw [Step.run_assign_bind] at h
  obtain ⟨e₁, he₁⟩ : ∃ e₁, e₁ = label?.elim e fun label => { e with label } := ⟨_, rfl⟩
  have hfirst : Recorded shown ["label"] e reader e₁ reader₁ := by
    rw [he₁]
    cases label? with
    | none => exact recorded_absent hlabel
    | some label =>
      refine recorded_given hlabel fun v hv key => ?_
      rw [Option.elim, e.find?_status_label]
      cases v with
      | string l =>
        cases hv
        rfl
      | bool _ | int _ | double _ | doubleArray _ => cases hv
  rw [← he₁] at h
  obtain ⟨events?, reader₂, hevents, h⟩ := Step.exists_of_run_ask_bind h
  refine hfirst.trans ?_
  cases events? with
  | none =>
    cases h
    exact recorded_absent hevents
  | some events =>
    -- A negative number of events is refused.
    by_cases hnegative : events < 0
    · simp only [if_pos hnegative] at h
      cases h
    · simp only [if_neg hnegative] at h
      cases h
      exact recorded_int (by decide) hevents (e₁.find?_status_events events)

theorem Faulty.candid : Candid shown fun _ : Faulty => [] := by
  intro e reader e' reader' h
  cases h
  exact ⟨rfl, fun key hkey => .inl hkey, fun key => rfl⟩

/-- The standard elements report what they take. -/
theorem StandardElement.candid : Candid StandardElement.shown StandardElement.reads :=
  Counter.candid.sum <| Relaxing.candid.sum <| Positioned.candid.sum <|
    Recorder.candid.sum Faulty.candid

end ElementGrid
