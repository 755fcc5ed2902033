import TwoPass.Diagnostic.Error
import TwoPass.Text.Likeness

/-!
# Symbol tables

A table lists its labels in the order in which they were first defined.  Defining a label again moves
it to the new address and keeps its position and its first place.  A table is closed once every line
has been read; after that it can only be looked up.
-/

namespace TwoPass

/-- A label with its address and the first place that defined it. -/
structure Symbol where
  name : Text
  address : Int
  first : Option Place
  deriving DecidableEq, Repr

structure SymbolTable where
  symbols : List Symbol
  closed : Bool
  deriving DecidableEq, Repr

namespace SymbolTable

def empty : SymbolTable :=
  ⟨[], false⟩

def size (table : SymbolTable) : Nat :=
  table.symbols.length

def names (table : SymbolTable) : List Text :=
  table.symbols.map Symbol.name

/-- Labels and addresses in the order of first definition. -/
def bindings (table : SymbolTable) : List (Text × Int) :=
  table.symbols.map (fun symbol => (symbol.name, symbol.address))

def find? (table : SymbolTable) (label : Text) : Option Symbol :=
  table.symbols.find? (fun symbol => symbol.name == label)

def address? (table : SymbolTable) (label : Text) : Option Int :=
  (table.find? label).map Symbol.address

def contains (table : SymbolTable) (label : Text) : Bool :=
  (table.find? label).isSome

/-- Moves a listed label to an address, or lists a new one last. -/
def assign (label : Text) (address : Int) (place : Option Place) : List Symbol → List Symbol
  | [] => [⟨label, address, place⟩]
  | symbol :: rest =>
      if symbol.name = label then ⟨label, address, symbol.first.or place⟩ :: rest
      else symbol :: assign label address place rest

/-- A label that is listed keeps its position, and a new one is listed last. -/
@[simp] theorem map_name_assign (label : Text) (address : Int) (place : Option Place)
    (symbols : List Symbol) :
    (assign label address place symbols).map Symbol.name =
      if label ∈ symbols.map Symbol.name then symbols.map Symbol.name
      else symbols.map Symbol.name ++ [label] := by
  induction symbols with
  | nil => simp [assign]
  | cons symbol rest ih =>
      by_cases hname : symbol.name = label
      · simp [assign, hname]
      · have hne : label ≠ symbol.name := fun h => hname h.symm
        by_cases hmem : label ∈ rest.map Symbol.name <;>
          simp_all [assign]

/-- An assigned label has its new address and the first place it ever had. -/
theorem find?_assign_self (label : Text) (address : Int) (place : Option Place)
    (symbols : List Symbol) :
    (assign label address place symbols).find? (fun symbol => symbol.name == label) =
      some ⟨label, address,
        ((symbols.find? (fun symbol => symbol.name == label)).bind Symbol.first).or place⟩ := by
  induction symbols with
  | nil => simp [assign]
  | cons symbol rest ih =>
      by_cases hname : symbol.name = label
      · simp [assign, hname]
      · simp [assign, hname, ih]

/-- Other labels stay as they are. -/
theorem find?_assign_of_ne {label other : Text} (hne : other ≠ label) (address : Int)
    (place : Option Place) (symbols : List Symbol) :
    (assign label address place symbols).find? (fun symbol => symbol.name == other) =
      symbols.find? (fun symbol => symbol.name == other) := by
  induction symbols with
  | nil => simp [assign, hne.symm]
  | cons symbol rest ih =>
      by_cases hname : symbol.name = label
      · simp [assign, hname, hne.symm]
      · simp only [assign, hname, if_false, List.find?_cons, ih]

/-- The warning due when a label moves to another address. -/
def redefinition (table : SymbolTable) (label : Text) (address : Int) (place : Option Place) : Log :=
  match table.find? label with
  | some symbol =>
      if symbol.address = address then []
      else [⟨.redefined label symbol.address address (symbol.first.map Place.line), place⟩]
  | none => []

/-- Binds a label to an address.  The newest address wins; a closed table refuses. -/
def define (table : SymbolTable) (label : Text) (address : Int) (place : Option Place) :
    Except Error (SymbolTable × Log) :=
  if table.closed then .error ⟨.tableClosed label, place, none⟩
  else
    .ok (⟨assign label address place table.symbols, false⟩,
      table.redefinition label address place)

/-- From now on the table is only looked up. -/
def close (table : SymbolTable) : SymbolTable :=
  { table with closed := true }

/-- The address of a label; an unknown one is reported with the labels most like it. -/
def resolve (table : SymbolTable) (label : Text) (place : Option Place) (sourceLine : Option Text) :
    Except Error Int :=
  match table.address? label with
  | some address => .ok address
  | none => .error ⟨.undefinedLabel label (Text.suggestions label table.names), place, sourceLine⟩

end SymbolTable

end TwoPass
