import ElementGrid.Property.Reader
import ElementGrid.Proofs.SortedMap
/-!
# What a reader was asked for

A reader notes which of its properties were asked for. That is all that it keeps of the calls made on
it: in which order they came, how often and whether a value was of the type asked for leaves no trace.
What it answers does not depend on what it has noted.

## Main definitions

* `PropertyValue.as?` — what a value is, read as a value of a type
* `PropertyReader.readAs` — the typed readings, alike for all types
* `PropertyReader.Call` — what may be asked of a reader, with `Call.answer` for what the properties say
  to it and `Call.AsksFor` for the name that it asks for
* `PropertyReader.run` — the reader after calls in a row

## Main results

* `PropertyReader.mem_consumed_perform`, `PropertyReader.mem_consumed_run` — what is noted of one call
  and of many
* `PropertyReader.answer_perform` — what is answered
* `PropertyReader.tracking_exact` — after any calls, the names that no call asked for are left over
-/

namespace ElementGrid

/-! ## Values of a type -/

/-- What a reading of a type comes to. -/
def PropertyType.Content : PropertyType → Type
  | .bool => Bool
  | .int => Int
  | .double => Double
  | .string => String
  | .doubleArray => List Double

/-- The value read as one of the type. An integer is read as a double if a double is asked for. -/
def PropertyValue.as? : (type : PropertyType) → PropertyValue → Option type.Content
  | .bool, .bool b => some b
  | .int, .int i => some i
  | .double, .double d => some d
  | .double, .int i => some (Double.ofInt i)
  | .string, .string s => some s
  | .doubleArray, .doubleArray items => some items
  | _, _ => none

/-- A value is of no use to a reading of another type, integers for doubles apart. -/
theorem PropertyValue.as?_eq_none_iff {type : PropertyType} {v : PropertyValue} :
    v.as? type = none ↔ v.type ≠ type ∧ ¬ (v.type = .int ∧ type = .double) := by
  cases type <;> cases v <;> simp [as?, PropertyValue.type]

namespace PropertyReader

variable {r : PropertyReader} {name key : String} {type : PropertyType}

/-! ## One name -/

theorem contains_eq_true_iff : r.contains name = true ↔ name ∈ r.keys := SortedMap.contains_iff

theorem markConsumed_of_mem (h : name ∈ r.keys) :
    r.markConsumed name = { r with consumed := name :: r.consumed } :=
  if_pos (SortedMap.contains_iff.2 h)

/-- A name without a value is not noted. -/
theorem markConsumed_of_not_mem (h : name ∉ r.keys) : r.markConsumed name = r :=
  if_neg (mt SortedMap.contains_iff.1 h)

theorem mem_consumed_markConsumed :
    key ∈ (r.markConsumed name).consumed ↔ key ∈ r.consumed ∨ name = key ∧ key ∈ r.keys := by
  by_cases hname : name ∈ r.keys
  · rw [markConsumed_of_mem hname, List.mem_cons]
    constructor
    · rintro (rfl | hkey)
      · exact .inr ⟨rfl, hname⟩
      · exact .inl hkey
    · rintro (hkey | ⟨rfl, -⟩)
      · exact .inr hkey
      · exact .inl rfl
  · rw [markConsumed_of_not_mem hname]
    refine ⟨.inl, fun h => h.resolve_right ?_⟩
    rintro ⟨rfl, hkey⟩
    exact hname hkey

theorem consumed_markConsumed (h : key ∈ (r.markConsumed name).consumed) :
    key ∈ r.consumed ∨ key ∈ [name] :=
  (mem_consumed_markConsumed.1 h).imp_right fun ⟨heq, _⟩ => List.mem_singleton.2 heq.symm

/-! ## One reading -/

section Read

variable {α : Type} {as? : PropertyValue → Option α}

/-- A reading notes its name, whatever it comes to. -/
theorem read_snd : (r.read type as? name).2 = r.markConsumed name := by
  rw [read, take]
  split
  · rename_i htaken
    exact (congrArg Prod.snd htaken).symm
  · rename_i htaken
    split <;> exact (congrArg Prod.snd htaken).symm

/-- What a reading comes to is told by the properties. -/
theorem read_fst : (r.read type as? name).1 =
    match r.map.find? name with
    | none => .ok none
    | some v => (as? v).elim (.error (.typeMismatch name type)) fun a => .ok (some a) := by
  rw [read, take]
  cases r.map.find? name with
  | none => rfl
  | some v => cases h : as? v <;> simp only [h] <;> rfl

/-- A reading of a property that is not given comes to nothing and leaves no trace. -/
theorem read_of_not_mem (h : name ∉ r.keys) (type : PropertyType) (as? : PropertyValue → Option α) :
    r.read type as? name = (.ok none, r) := by
  refine Prod.ext ?_ (read_snd.trans (markConsumed_of_not_mem h))
  have hnone : r.map.find? name = none := SortedMap.find?_eq_none_iff.2 h
  rw [read_fst, hnone]

/-- A reading that does not fail comes to nothing where no value is given, and to the value otherwise. -/
theorem read_eq_ok {r' : PropertyReader} {value : Option α}
    (h : r.read type as? name = (.ok value, r')) :
    r' = r.markConsumed name ∧
      (r.map.find? name = none ∧ value = none ∨
        ∃ v a, r.map.find? name = some v ∧ as? v = some a ∧ value = some a) := by
  refine ⟨(congrArg Prod.snd h).symm.trans read_snd, ?_⟩
  have hvalue : _ = Except.ok value := read_fst.symm.trans (congrArg Prod.fst h)
  cases hfind : r.map.find? name with
  | none =>
    rw [hfind] at hvalue
    cases hvalue
    exact .inl ⟨rfl, rfl⟩
  | some v =>
    simp only [hfind] at hvalue
    cases ha : as? v with
    | none =>
      rw [ha] at hvalue
      cases hvalue
    | some a =>
      rw [ha] at hvalue
      cases hvalue
      exact .inr ⟨v, a, rfl, ha, rfl⟩

end Read

/-- A truth value that is read is the one that was given, or none was. -/
theorem find?_of_bool {props : PropertyMap} {value : Option Bool}
    (h : ((PropertyReader.ofMap props).bool name).1 = .ok value) :
    props.find? name = value.map .bool := by
  obtain ⟨-, ⟨hfind, rfl⟩ | ⟨v, b, hfind, hb, rfl⟩⟩ := read_eq_ok (Prod.ext h rfl)
  · exact hfind
  · cases v with
    | bool b' =>
      cases hb
      exact hfind
    | int _ | double _ | string _ | doubleArray _ => cases hb

/-! ## Calls -/

/-- The typed readings, by the type that is asked for. -/
def readAs (r : PropertyReader) : (type : PropertyType) → String →
    Except PropertyError (Option type.Content) × PropertyReader
  | .bool => r.bool
  | .int => r.int
  | .double => r.double
  | .string => r.string
  | .doubleArray => r.doubleArray

theorem readAs_eq : r.readAs type name = r.read type (PropertyValue.as? type) name := by
  have has : ∀ f : PropertyValue → Option type.Content, f = PropertyValue.as? type →
      r.read type f name = r.read type (PropertyValue.as? type) name := fun _ h => h ▸ rfl
  cases type <;> exact has _ (funext fun v => by cases v <;> rfl)

/-- What may be asked of a reader while it is read. -/
inductive Call where
  | take (name : String)
  | read (type : PropertyType) (name : String)
  | markConsumed (name : String)
  | contains (name : String)

namespace Call

/-- What is answered to a call. -/
def Answer : Call → Type
  | take _ => Option PropertyValue
  | read type _ => Except PropertyError (Option type.Content)
  | markConsumed _ => Unit
  | contains _ => Bool

/-- The answer to a call, and the reader after it. -/
def perform (r : PropertyReader) : (call : Call) → call.Answer × PropertyReader
  | take name => r.take name
  | read type name => r.readAs type name
  | markConsumed name => ((), r.markConsumed name)
  | contains name => (r.contains name, r)

/-- What the properties say to a call. -/
def answer (map : PropertyMap) : (call : Call) → call.Answer
  | take name => map.find? name
  | read type name =>
    match map.find? name with
    | none => Except.ok none
    | some v => (v.as? type).elim (.error (.typeMismatch name type)) fun a => .ok (some a)
  | markConsumed _ => ()
  | contains name => decide (name ∈ map.keys)

/-- The call asks for the value of the name, or takes it as asked for. Whether there is a value, and of
which type, does not matter, and to look whether there is one is not to ask for it. -/
def AsksFor (call : Call) (key : String) : Prop :=
  match call with
  | take name | read _ name | markConsumed name => name = key
  | contains _ => False

instance (call : Call) (key : String) : Decidable (call.AsksFor key) :=
  match call with
  | take name | read _ name | markConsumed name => inferInstanceAs (Decidable (name = key))
  | contains _ => inferInstanceAs (Decidable False)

end Call

variable {call : Call}

theorem answer_perform : (call.perform r).1 = call.answer r.map := by
  cases call with
  | take name => rfl
  | read type name => exact (congrArg Prod.fst readAs_eq).trans read_fst
  | markConsumed name => rfl
  | contains name => exact Bool.eq_iff_iff.2 (contains_eq_true_iff.trans decide_eq_true_iff.symm)

/-- A call notes the name that it asks for, and does nothing else to the reader. -/
theorem perform_snd : (call.perform r).2 = match call with
    | .take name | .read _ name | .markConsumed name => r.markConsumed name
    | .contains _ => r := by
  cases call with
  | take name => rfl
  | read type name => exact (congrArg Prod.snd readAs_eq).trans read_snd
  | markConsumed name => rfl
  | contains name => rfl

@[simp]
theorem map_perform : (call.perform r).2.map = r.map := by
  rw [perform_snd]
  cases call with
  | take name | read type name | markConsumed name => exact r.map_markConsumed name
  | contains name => rfl

/-- A call that asks for none of the properties leaves no trace. -/
theorem perform_of_not_asksFor (h : ∀ key ∈ r.keys, ¬ call.AsksFor key) :
    (call.perform r).2 = r := by
  rw [perform_snd]
  cases call with
  | take name | read type name | markConsumed name =>
    exact markConsumed_of_not_mem fun hname => h name hname rfl
  | contains name => rfl

theorem mem_consumed_perform : key ∈ (call.perform r).2.consumed ↔
    key ∈ r.consumed ∨ call.AsksFor key ∧ key ∈ r.keys := by
  rw [perform_snd]
  cases call with
  | take name | read type name | markConsumed name => exact mem_consumed_markConsumed
  | contains name => exact (or_iff_left fun h => h.1).symm

/-- A typed reading is refused exactly if the value that is given is of no use to it. -/
theorem readAs_eq_error_iff {e : PropertyError} : (r.readAs type name).1 = .error e ↔
    e = .typeMismatch name type ∧
      ∃ v, r.map.find? name = some v ∧ v.type ≠ type ∧ ¬ (v.type = .int ∧ type = .double) := by
  simp only [readAs_eq, read_fst, ← PropertyValue.as?_eq_none_iff]
  cases r.map.find? name with
  | none => simp
  | some v => cases h : v.as? type <;> simp [h, eq_comm]

/-! ## Calls in a row -/

/-- The reader after calls in a row. -/
def run (r : PropertyReader) (calls : List Call) : PropertyReader :=
  calls.foldl (fun r call => (call.perform r).2) r

variable {calls : List Call}

@[simp]
theorem map_run : (r.run calls).map = r.map := by
  induction calls generalizing r with
  | nil => rfl
  | cons call calls ih => exact ih.trans map_perform

/-- What is noted after calls in a row is what was noted before and the properties that one of the calls
asks for. -/
theorem mem_consumed_run : key ∈ (r.run calls).consumed ↔
    key ∈ r.consumed ∨ (∃ call ∈ calls, call.AsksFor key) ∧ key ∈ r.keys := by
  induction calls generalizing r with
  | nil => simp [run]
  | cons call calls ih =>
    have hkeys : (call.perform r).2.keys = r.keys := congrArg SortedMap.keys map_perform
    show key ∈ ((call.perform r).2.run calls).consumed ↔ _
    rw [ih, mem_consumed_perform, hkeys, or_assoc, ← or_and_right]
    simp only [List.mem_cons, exists_eq_or_imp]

/-! ## What is left over -/

theorem mem_unconsumed_iff : key ∈ r.unconsumed ↔ key ∈ r.keys ∧ key ∉ r.consumed := by
  simp [unconsumed]

theorem unconsumed_eq_nil_iff : r.unconsumed = [] ↔ ∀ key ∈ r.keys, key ∈ r.consumed := by
  simp [unconsumed]

theorem finish_eq_ok_iff : r.finish = .ok () ↔ ∀ key ∈ r.keys, key ∈ r.consumed := by
  rw [← unconsumed_eq_nil_iff, finish]
  split <;> simp_all

theorem finish_eq_error_iff {e : PropertyError} :
    r.finish = .error e ↔ r.unconsumed ≠ [] ∧ e = .unknownProperty r.unconsumed := by
  rw [finish]
  cases r.unconsumed with
  | nil => simp
  | cons name names => simp [eq_comm]

/-- A typed reading that is refused names a property, which is then not left over. -/
theorem of_readAs_eq_error {e : PropertyError} (h : (r.readAs type name).1 = .error e) :
    e = .typeMismatch name type ∧ name ∈ r.keys ∧ name ∉ (r.readAs type name).2.unconsumed := by
  obtain ⟨rfl, v, hfind, -⟩ := readAs_eq_error_iff.1 h
  have hname : name ∈ r.keys := contains_eq_true_iff.1 (Option.isSome_iff_exists.2 ⟨v, hfind⟩)
  have hasked : name ∈ ((Call.read type name).perform r).2.consumed :=
    mem_consumed_perform.2 (.inr ⟨rfl, hname⟩)
  exact ⟨rfl, hname, fun hleft => (mem_unconsumed_iff.1 hleft).2 hasked⟩

/-- The names that are left over are those that no call asked for. -/
theorem unconsumed_run (map : PropertyMap) (calls : List Call) :
    ((ofMap map).run calls).unconsumed =
      map.keys.filter fun key => ∀ call ∈ calls, ¬ call.AsksFor key := by
  have hkeys : ((ofMap map).run calls).keys = map.keys := congrArg SortedMap.keys map_run
  rw [unconsumed, hkeys]
  refine List.filter_congr fun key hkey => ?_
  have hconsumed : key ∈ ((ofMap map).run calls).consumed ↔ ∃ call ∈ calls, call.AsksFor key := by
    rw [mem_consumed_run]
    exact ⟨fun h => (h.resolve_left List.not_mem_nil).1, fun h => .inr ⟨h, hkey⟩⟩
  rw [Bool.eq_iff_iff]
  simp [hconsumed]

/-- After any calls on a reader of any properties, the names that are left over are, in order, those of
the properties that no call asked for. The reader can be put away if there are none, and otherwise they
are what it is refused for. Whatever is asked next is answered as the properties say, whatever was asked
before, and leaves no trace if it asks for none of the properties. A typed reading that is refused for the
type of the value has asked for it. -/
theorem tracking_exact (map : PropertyMap) (calls : List Call) :
    let r := (ofMap map).run calls
    r.unconsumed = map.keys.filter (fun key => ∀ call ∈ calls, ¬ call.AsksFor key) ∧
    (map.Sorted → r.unconsumed.Pairwise (· < ·)) ∧
    (r.finish = .ok () ↔ r.unconsumed = []) ∧
    (∀ e, r.finish = .error e ↔ r.unconsumed ≠ [] ∧ e = .unknownProperty r.unconsumed) ∧
    (∀ call : Call, (call.perform r).1 = call.answer map ∧
      ((∀ key ∈ map.keys, ¬ call.AsksFor key) → (call.perform r).2 = r)) ∧
    ∀ (type : PropertyType) (name : String) (e : PropertyError), (r.readAs type name).1 = .error e →
      e = .typeMismatch name type ∧ name ∈ map.keys ∧ name ∉ (r.readAs type name).2.unconsumed := by
  intro r
  have hmap : r.map = map := map_run
  have hkeys : r.keys = map.keys := congrArg SortedMap.keys hmap
  refine ⟨unconsumed_run map calls, fun hsorted => ?_,
    finish_eq_ok_iff.trans unconsumed_eq_nil_iff.symm, fun e => finish_eq_error_iff,
    fun call => ⟨hmap ▸ answer_perform, fun hnone => perform_of_not_asksFor (hkeys ▸ hnone)⟩,
    fun type name e hrefused => hkeys ▸ of_readAs_eq_error hrefused⟩
  rw [unconsumed_run map calls]
  exact hsorted.pairwise_keys.filter _

/-- Of four properties one has a name that is only looked for, as the calls ask for it under another name.
One of the others is of the wrong type, one is asked for twice and one is taken as asked for. -/
theorem tracking_exact_misspelt :
    let map : PropertyMap := .ofList [("tua_m", .double .zero), ("V_m", .double .undefined),
      ("spikes", .int 3), ("frozen", .string "yes")]
    let calls : List Call := [.contains "tua_m", .read .double "V_m", .read .double "tau_m",
      .read .bool "frozen", .take "V_m", .markConsumed "spikes"]
    let r := (ofMap map).run calls
    r.unconsumed = ["tua_m"] ∧ r.finish = .error (.unknownProperty ["tua_m"]) ∧
    (map.Sorted ∧ r.unconsumed.Pairwise (· < ·)) ∧
    ((∀ key ∈ map.keys, ¬ (Call.read .double "tau_m").AsksFor key) ∧
      ((Call.read .double "tau_m").perform r).2 = r) ∧
    (r.readAs .bool "frozen").1 = .error (.typeMismatch "frozen" .bool) ∧
      "frozen" ∉ (r.readAs .bool "frozen").2.unconsumed := by
  intro map calls r
  have hsorted : map.Sorted := by
    rw [SortedMap.Sorted]
    decide
  have habsent : ∀ key ∈ map.keys, ¬ (Call.read .double "tau_m").AsksFor key := by decide
  have hrefused : (r.readAs .bool "frozen").1 = .error (.typeMismatch "frozen" .bool) := rfl
  obtain ⟨hleft, hordered, -, herror, hcall, hmismatch⟩ := tracking_exact map calls
  have hunconsumed : r.unconsumed = ["tua_m"] := hleft.trans (by decide)
  refine ⟨hunconsumed, ?_, ⟨hsorted, hordered hsorted⟩, ⟨habsent, (hcall _).2 habsent⟩, hrefused,
    (hmismatch _ _ _ hrefused).2.2⟩
  refine (herror _).2 ⟨?_, ?_⟩
  · rw [hunconsumed]
    exact List.cons_ne_nil _ _
  · rw [hunconsumed]

end PropertyReader

end ElementGrid
