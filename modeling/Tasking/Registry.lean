import Std.Data.HashMap
import Tasking.Error
import Tasking.Text.Record

/-! # The registry of names

A registry gives names small numbers, their symbols, and keeps native functions under
symbols.  A name gets its symbol when it is first seen and keeps it; symbols count up
from zero.  A registry can be closed, which drops all tables for good: every later use is
refused.

`F` is the type of native functions.
-/

namespace Tasking

/-- The number of a name. -/
structure Symbol where
  index : UInt32
  deriving DecidableEq, Hashable

/-- The tables of an open registry. -/
structure Registry.Tables (F : Type) where
  /-- The names in the order of their symbols. -/
  names : Array String
  symbols : Std.HashMap String Symbol
  natives : Std.HashMap Symbol F

/-- A registry: its tables while it is open. -/
structure Registry (F : Type) where
  tables : Option (Registry.Tables F)

namespace Registry.Tables

variable {F : Type}

/-- No names and no functions. -/
def empty : Tables F where
  names := #[]
  symbols := ∅
  natives := ∅

/-- The symbol of a name, which is given one if it has none. -/
def intern (t : Tables F) (name : String) : Symbol × Tables F :=
  match t.symbols[name]? with
  | some symbol => (symbol, t)
  | none =>
    let symbol := ⟨t.names.size.toUInt32⟩
    (symbol, { t with names := t.names.push name, symbols := t.symbols.insert name symbol })

/-- The function registered under a name. -/
def native? (t : Tables F) (name : String) : Option F := do
  let symbol ← t.symbols[name]?
  t.natives[symbol]?

end Registry.Tables

namespace Registry

variable {F : Type}

/-- A new registry is open and empty. -/
def new : Registry F := ⟨some .empty⟩

/-- Whether the registry still has its tables. -/
def isOpen (g : Registry F) : Bool := g.tables.isSome

/-- Drop every table.  Closing a closed registry changes nothing. -/
def close (_ : Registry F) : Registry F := ⟨none⟩

/-- The tables, or the refusal of a closed registry. -/
def opened (g : Registry F) : Except HostError (Tables F) :=
  match g.tables with
  | some t => .ok t
  | none => .error .registryClosed

/-- The symbol of a name, if it has one. -/
def lookup (g : Registry F) (name : String) : Except HostError (Option Symbol) :=
  g.opened.map fun t => t.symbols[name]?

/-- The symbol of a name, which is given one if it has none. -/
def intern (g : Registry F) (name : String) : Except HostError (Symbol × Registry F) :=
  g.opened.map fun t =>
    let (symbol, t) := t.intern name
    (symbol, ⟨some t⟩)

/-- The name of a symbol, if the registry gave it out. -/
def nameOf (g : Registry F) (symbol : Symbol) : Except HostError (Option String) :=
  g.opened.map fun t => t.names[symbol.index.toNat]?

/-- Put a function under a name.  The name gets its symbol even if a function is there
    already, in which case the new function is refused. -/
def register (g : Registry F) (name : String) (f : F) :
    Except HostError Symbol × Registry F :=
  match g.tables with
  | none => (.error .registryClosed, g)
  | some t =>
    let (symbol, t) := t.intern name
    if symbol ∈ t.natives then
      (.error (.duplicateNative name), ⟨some t⟩)
    else
      (.ok symbol, ⟨some { t with natives := t.natives.insert symbol f }⟩)

/-- The function under a name. -/
def native (g : Registry F) (name : String) : Except HostError F :=
  match g.opened with
  | .error e => .error e
  | .ok t =>
    match t.native? name with
    | some f => .ok f
    | none => .error (.unknownNative name)

/-- How many names have symbols. -/
def symbolCount (g : Registry F) : Nat := g.tables.elim 0 fun t => t.names.size

/-- How many native functions there are. -/
def nativeCount (g : Registry F) : Nat := g.tables.elim 0 fun t => t.natives.size

/-- What can be seen of a registry from outside. -/
structure View where
  isOpen : Bool
  symbols : Nat
  natives : Nat
  deriving DecidableEq

/-- The view of a registry. -/
def view (g : Registry F) : View := ⟨g.isOpen, g.symbolCount, g.nativeCount⟩

/-- A registry in diagnostics. -/
def View.diagnostic (v : View) : String :=
  Text.record "Registry"
    [("open", Text.flag v.isOpen),
     ("symbols", toString v.symbols),
     ("natives", toString v.natives)]

end Registry

end Tasking
