import ElementGrid.Catalog
import ElementGrid.Element.Standard
/-!
# Standard catalogs

## Main definitions

* `Catalog.ofEntries` — the catalog of a list of named prototypes
* `Catalog.map` — the same models with other prototypes
* `StandardElement.catalog`, `StandardElement.catalogWith` — the standard models
-/

namespace ElementGrid

namespace Catalog

variable {E F : Type}

/-- The catalog of a list of named prototypes, numbered by place. -/
def ofEntries (entries : List (String × Category × E)) : Catalog E :=
  ⟨entries.mapIdx fun id (name, category, prototype) => ⟨id, name, category, prototype⟩⟩

/-- The same models with their prototypes changed. -/
def map (f : E → F) (c : Catalog E) : Catalog F :=
  ⟨c.models.map fun m => ⟨m.id, m.name, m.category, f m.prototype⟩⟩

end Catalog

namespace StandardElement

/-- The names, categories and prototypes of the standard models. -/
def entries : List (String × Category × StandardElement) :=
  [("counter", .normal, counter), ("relaxing", .normal, relaxing),
    ("positioned", .normal, positioned), ("recorder", .device, recorder),
    ("stimulus", .external, counter)]

/-- The standard models. -/
def catalog : Catalog StandardElement := .ofEntries entries

/-- The standard models and one whose elements fault. -/
def catalogWith (prototype : Faulty) : Catalog StandardElement :=
  .ofEntries (entries ++ [("faulty", .normal, faulty prototype)])

end StandardElement

end ElementGrid
