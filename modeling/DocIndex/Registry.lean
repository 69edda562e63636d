/-!
Handles: numbers that stand for things of the caller's. A number is never given out twice, and zero
is never given out.
-/

namespace DocIndex

/-- The things that handles stand for. -/
structure Registry (α : Type) where
  entries : List (UInt64 × α) := []
  /-- The handle that is given out next. -/
  next : UInt64 := 1

namespace Registry

variable {α : Type}

/-- Registers a thing under a new handle. -/
def insert (registry : Registry α) (value : α) : Registry α × UInt64 :=
  (⟨registry.entries ++ [(registry.next, value)], registry.next + 1⟩, registry.next)

/-- The thing that a handle stands for. -/
def get? (registry : Registry α) (handle : UInt64) : Option α :=
  registry.entries.lookup handle

/-- Tells whether a handle stands for something. -/
def contains (registry : Registry α) (handle : UInt64) : Bool :=
  (registry.get? handle).isSome

/-- Releases a handle and gives what it stood for. -/
def remove (registry : Registry α) (handle : UInt64) : Registry α × Option α :=
  ({ registry with entries := registry.entries.filter fun entry => entry.1 ≠ handle },
    registry.get? handle)

/-- Changes what a handle stands for. -/
def replace (registry : Registry α) (handle : UInt64) (value : α) : Registry α :=
  { registry with
    entries := registry.entries.map fun entry =>
      if entry.1 = handle then (handle, value) else entry }

/-- The number of handles that stand for something. -/
def size (registry : Registry α) : Nat :=
  registry.entries.length

/-- Tells whether no handle stands for anything. -/
def isEmpty (registry : Registry α) : Bool :=
  registry.size = 0

end Registry

end DocIndex
