import ElementGrid.Element.Basic
import ElementGrid.Text.Inspect
import ElementGrid.Text.Quoted
/-!
# Catalogs

The models from which elements are made. A model has a name, a category, and a prototype that every
new element of it copies.

## Main definitions

* `Model` — a named prototype
* `Catalog` — models in the order in which they were registered
* `Catalog.register` — adds a model under a new name
* `Catalog.lookup?`, `Catalog.get?` — a model's number by name, and the model of a number
-/

namespace ElementGrid

/-- A named prototype. -/
structure Model (E : Type) where
  id : Nat
  name : String
  category : Category
  /-- What new elements of the model are copies of. -/
  prototype : E
  deriving DecidableEq, Repr

/-- The model as it is shown; its prototype is not. -/
def Model.inspect {E : Type} (m : Model E) : String :=
  Inspect.record "ModelEntry"
    [("id", Inspect.number "ModelId" m.id), ("name", Quoted.encode m.name),
      ("category", m.category.title)] false

/-- Models in the order in which they were registered. -/
structure Catalog (E : Type) where
  models : List (Model E) := []
  deriving DecidableEq, Repr

namespace Catalog

variable {E : Type} (c : Catalog E)

/-- A catalog without models. -/
def empty : Catalog E := {}

/-- How many models there are. -/
def size : Nat := c.models.length

/-- The number of the model called `name`. -/
def lookup? (name : String) : Option Nat := (c.models.find? fun m => m.name == name).map Model.id

/-- The model with a number. -/
def get? (id : Nat) : Option (Model E) := c.models[id]?

/-- The catalog with a further model, which gets the next number; a name is given once. -/
def register (name : String) (category : Category) (prototype : E) : Option (Catalog E) :=
  if (c.lookup? name).isSome then none
  else some ⟨c.models ++ [⟨c.size, name, category, prototype⟩]⟩

/-- The numbers of the models are their places. -/
def Numbered : Prop := ∀ (i : Nat) (m : Model E), c.models[i]? = some m → m.id = i

/-- No two models have one name. -/
def Distinct : Prop := (c.models.map Model.name).Nodup

end Catalog

end ElementGrid
