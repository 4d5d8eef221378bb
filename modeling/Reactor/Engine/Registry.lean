/-
  Modules by name.

  * `register` puts a module under a name and gives the one it replaces;
  * `lookup` finds a module, `names` lists the names in ascending order;
  * `describeAll` gives the capabilities of all modules, sorted by name.
-/
import Reactor.Engine.Module
import Reactor.Text.Quoted

namespace Reactor

/-- Modules of one kind by name. -/
structure Registry (α : Type) where
  kind : String
  modules : Fields α

namespace Registry

variable {α : Type}

/-- No action modules. -/
def actions : Registry ActionModule := ⟨"action module", []⟩

/-- No event sources. -/
def sources : Registry EventSource := ⟨"event source", []⟩

/-- Puts a module under a name; gives the one that was there. -/
def register (r : Registry α) (name : String) (m : α) : Option α × Registry α :=
  (Fields.get? name r.modules, { r with modules := Fields.insert name m r.modules })

/-- The module under a name. -/
def lookup (r : Registry α) (name : String) : Except RegistryError α :=
  match Fields.get? name r.modules with
  | some m => .ok m
  | none => .error (.notFound r.kind name)

/-- Whether a module has a name. -/
def contains (r : Registry α) (name : String) : Bool := (Fields.get? name r.modules).isSome

/-- The names of the modules, in order. -/
def names (r : Registry α) : List String := r.modules.map (·.1)

/-- The number of modules. -/
def size (r : Registry α) : Nat := r.modules.length

/-- Capabilities sorted by name; those of one name keep their order. -/
def sortedByName (cs : List Capability) : List Capability :=
  cs.mergeSort fun a b => decide (¬ b.name < a.name)

/-- The capabilities of every module. -/
def describeAll (capabilities : α → List Capability) (r : Registry α) :
    Fields (List Capability) :=
  r.modules.map fun (k, m) => (k, sortedByName (capabilities m))

/-- How a registry is shown. -/
def display (r : Registry α) : String :=
  "ModuleRegistry \x7b kind: " ++ Text.quoted r.kind ++ " \x7d"

end Registry

end Reactor
