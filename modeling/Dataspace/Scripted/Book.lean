/-!
Entries by name, each name once.
-/

namespace Dataspace

/-- Entries by name. -/
structure Book (α : Type) where
  entries : List (String × α)
deriving Repr

namespace Book

variable {α : Type}

def empty : Book α :=
  ⟨[]⟩

instance : Inhabited (Book α) := ⟨empty⟩

def get? (b : Book α) (name : String) : Option α :=
  (b.entries.find? (·.1 = name)).map (·.2)

/-- Sets the entry of a name. -/
def put (b : Book α) (name : String) (x : α) : Book α :=
  ⟨b.entries.filter (·.1 ≠ name) ++ [(name, x)]⟩

def erase (b : Book α) (name : String) : Book α :=
  ⟨b.entries.filter (·.1 ≠ name)⟩

end Book

end Dataspace
