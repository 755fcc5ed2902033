import TwoPass.Symbol.Table

/-!
# Histories of a symbol table

A table together with the warnings it gave rise to, and what one request does to the two.
-/

namespace TwoPass

structure SymbolHistory where
  table : SymbolTable
  log : Log
  deriving DecidableEq, Repr

namespace SymbolHistory

/-- A computation on a table and its log that may stop.  What it did before it stopped stays. -/
abbrev Keeper := EStateM Abort SymbolHistory

def record {α : Type} (recorder : Recorder α) : Keeper α := fun history =>
  match recorder.run history.log with
  | .ok value log => .ok value { history with log := log }
  | .error abort log => .error abort { history with log := log }

/-- Binds a label to an address.  A label that moves is warned about before it is bound. -/
def define (label : Text) (address : Int) (place : Option Place) : Keeper Unit := do
  let table := (← get).table
  if table.closed then record (Recorder.stop (.error ⟨.tableClosed label, place, none⟩))
  else
    record ((table.redefinition label address place).forM Recorder.warn)
    modify (fun history =>
      { history with
        table := { table with symbols := SymbolTable.assign label address place table.symbols } })

inductive Request where
  | define (label : Text) (address : Int) (place : Option Place)
  | close
  | resolve (label : Text) (place : Option Place) (sourceLine : Option Text)
  | lookUp (label : Text)
  | contains (label : Text)
  | names
  | bindings
  deriving DecidableEq, Repr

inductive Answer where
  | done
  | address (address : Int)
  | found (address : Option Int)
  | truth (value : Bool)
  | names (labels : List Text)
  | bindings (pairs : List (Text × Int))
  deriving DecidableEq, Repr

def start : SymbolHistory :=
  ⟨.empty, []⟩

def answer : Request → Keeper Answer
  | .define label address place => do
      define label address place
      return .done
  | .close => do
      modify (fun history => { history with table := history.table.close })
      return .done
  | .resolve label place sourceLine => do
      match (← get).table.resolve label place sourceLine with
      | .ok address => return .address address
      | .error report => record (Recorder.stop (.error report))
  | .lookUp label => return .found ((← get).table.address? label)
  | .contains label => return .truth ((← get).table.contains label)
  | .names => return .names (← get).table.names
  | .bindings => return .bindings (← get).table.bindings

def step (history : SymbolHistory) (request : Request) : SymbolHistory × Except Abort Answer :=
  match (answer request).run history with
  | .ok answer history => (history, .ok answer)
  | .error abort history => (history, .error abort)

def run (history : SymbolHistory) (requests : List Request) : SymbolHistory :=
  requests.foldl (fun history request => (history.step request).1) history

end SymbolHistory

end TwoPass
