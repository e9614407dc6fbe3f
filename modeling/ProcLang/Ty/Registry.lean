import ProcLang.Table
import ProcLang.Ty

/-! # Type registries

The types that a program can name, in one table: the built-in ones under their names, and the
nominal ones that were registered. A name that is taken keeps its type.
-/

namespace ProcLang

set_option autoImplicit false

structure TypeRegistry where
  types : Table String Ty := .ofList (Ty.builtins.map fun ty => (ty.name, ty))

namespace TypeRegistry

def lookup (registry : TypeRegistry) (name : String) : Option Ty :=
  registry.types.get? name

/-- Registers a nominal type unless the name is taken; returns the type of that name. -/
def register (registry : TypeRegistry) (name : String) : Ty × TypeRegistry :=
  let (ty, types) := registry.types.getOrInsert name (.named name)
  (ty, ⟨types⟩)

def ofNames (names : List String) : TypeRegistry :=
  names.foldl (fun registry name => (registry.register name).2) {}

theorem lookup_register (registry : TypeRegistry) (name other : String) :
    (registry.register name).2.lookup other =
      if name = other then some (registry.register name).1 else registry.lookup other :=
  registry.types.get?_getOrInsert name other (.named name)

end TypeRegistry

end ProcLang
