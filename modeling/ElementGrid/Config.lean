import ElementGrid.Placement
import ElementGrid.Document
/-!
# Grid configuration

What one process has to know of the grid before it builds its registry.

## Main definitions

* `GridConfig` — shape, own rank and seed
* `GridConfig.check` — refuses an empty grid and a rank outside it
* `ConfigError.message` — the wording of the refusals
* `GridConfig.ofDocument?`, `GridConfig.toDocument` — the settings document
-/

namespace ElementGrid

/-- What one process knows of the grid. -/
structure GridConfig where
  /-- The number of cooperating processes. -/
  processes : Nat := 1
  /-- The number of worker threads, the same on every process. -/
  threads : Nat := 1
  /-- The rank of this process. -/
  rank : Nat := 0
  /-- The seed of the random streams, one for each virtual process. -/
  seed : Nat := 42
  deriving DecidableEq, Repr, Inhabited

/-- Why a configuration is refused. -/
inductive ConfigError where
  | noProcesses
  | noThreads
  | rankOutside (rank : Nat) (processes : Nat)
  deriving DecidableEq, Repr

/-- The wording of a refused configuration. -/
def ConfigError.message (e : ConfigError) : String :=
  "Invalid configuration: " ++
    match e with
    | .noProcesses => "num_processes must be at least 1"
    | .noThreads => "threads_per_process must be at least 1"
    | .rankOutside rank processes => s!"rank {rank} is outside a grid of {processes} processes"

namespace GridConfig

variable (c : GridConfig)

/-- The shape of the grid. -/
def shape : GridShape := ⟨c.processes, c.threads⟩

/-- The same grid seen from another process. -/
def forRank (rank : Nat) : GridConfig := { c with rank }

/-- A grid has a process and a thread, and the rank lies inside it; the first breach is reported. -/
def check : Except ConfigError Unit :=
  if c.processes = 0 then .error .noProcesses
  else if c.threads = 0 then .error .noThreads
  else if c.processes ≤ c.rank then .error (.rankOutside c.rank c.processes)
  else .ok ()

/-- The configuration passes `check`. -/
def Valid : Prop := 0 < c.processes ∧ 0 < c.threads ∧ c.rank < c.processes

instance : Decidable c.Valid := inferInstanceAs (Decidable (_ ∧ _ ∧ _))

theorem check_eq_ok_iff : c.check = .ok () ↔ c.Valid := by
  simp only [check, Valid]
  split <;> rename_i hp
  · simp [hp]
  · split <;> rename_i ht
    · simp [ht]
    · split <;> rename_i hr
      · simpa using fun _ _ => hr
      · simp only [true_iff]
        omega

/-- The names of the settings, in the order of a list of them. -/
def settingNames : List String :=
  ["num_processes", "threads_per_process", "rank", "rng_seed"]

/-- The configuration that a document describes. Each setting is a word and may be missing, names
that are no settings are passed over, and the result is not checked. -/
def ofDocument? (d : Document) : Option GridConfig := do
  let entries ← d.entries? settingNames
  let word := Document.word? Word.modulus
  let base : GridConfig := {}
  return {
    processes := ← Document.entryD entries "num_processes" word base.processes
    threads := ← Document.entryD entries "threads_per_process" word base.threads
    rank := ← Document.entryD entries "rank" word base.rank
    seed := ← Document.entryD entries "rng_seed" word base.seed }

/-- The document that describes the configuration, all settings given. -/
def toDocument : Document :=
  .object [("num_processes", .ofNat c.processes), ("threads_per_process", .ofNat c.threads),
    ("rank", .ofNat c.rank), ("rng_seed", .ofNat c.seed)]

end GridConfig

/-! ## Documents of identifiers -/

/-- A global number is a word. -/
def Gid.ofDocument? : Document → Option Nat := Document.word? Word.modulus

/-- A rank is a word. -/
def Rank.ofDocument? : Document → Option Nat := Document.word? Word.modulus

/-- A model number is half a word. -/
def ModelId.ofDocument? : Document → Option Nat := Document.word? Word.halfModulus

/-- A virtual process names its rank and its thread; both have to be there. -/
def Vp.ofDocument? (d : Document) : Option Vp := do
  let entries ← d.entries? ["rank", "thread"]
  let word := Document.word? Word.modulus
  return ⟨← Document.entry entries "rank" word, ← Document.entry entries "thread" word⟩

/-- The document of a virtual process. -/
def Vp.toDocument (v : Vp) : Document :=
  .object [("rank", .ofNat v.rank), ("thread", .ofNat v.thread)]

/-- A category is named by its title. -/
def Category.ofDocument? : Document → Option Category :=
  Document.variant? (Category.all.map fun c => (c.title, c))

/-- The document of a category. -/
def Category.toDocument (c : Category) : Document := .string c.title

end ElementGrid
