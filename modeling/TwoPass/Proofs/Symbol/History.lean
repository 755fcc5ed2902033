import Mathlib.Data.List.TakeWhile
import TwoPass.Proofs.Symbol.Definition
import TwoPass.Symbol.History

/-!
# What a table keeps of its history

Requests to a table may come in any order.  Only the definitions in front of the first closing count: the
table and its log are determined by them, as if nothing else had been asked.  Behind the first closing
every definition is refused and leaves no trace.
-/

namespace TwoPass

namespace Definition

/-- The warnings of a list of definitions, each of them held against the ones in front of it. -/
def warnings (definitions : List Definition) : Log :=
  definitions.zipIdx.flatMap fun entry =>
    entry.1.redefinitionWarnings (definitions.take entry.2)

end Definition

namespace SymbolTable

end SymbolTable

namespace SymbolHistory

/-- The definition that a request asks for. -/
def Request.definition? : Request → Option Definition
  | .define label address place => some ⟨label, address, place⟩
  | _ => none

/-- The definitions that count: those in front of the first closing. -/
def definitions (requests : List Request) : List Definition :=
  (requests.takeWhile (fun request => request != .close)).filterMap Request.definition?

section Keeper

variable {α : Type} {fits : Prop} {history : SymbolHistory}

theorem attains_record {recorder : Recorder α} {value : α} {log : Log}
    (hattains : Attains fits (.ok value log) (recorder.run history.log)) :
    Attains fits (.ok value { history with log := log }) ((record recorder).run history) := by
  rw [EStateM.run, record]
  generalize recorder.run history.log = result at hattains ⊢
  cases hattains with
  | done => exact .done
  | stopped after hnot => exact .stopped _ hnot

theorem attains_record_error {recorder : Recorder α} {abort : Abort}
    (hattains : Attains fits (.error abort history.log) (recorder.run history.log)) :
    Attains fits (.error abort history) ((record recorder).run history) := by
  rw [EStateM.run, record]
  generalize recorder.run history.log = result at hattains ⊢
  cases hattains with
  | done => exact .done
  | stopped after hnot => exact .stopped _ hnot

variable {label : Text} {address : Int} {place : Option Place}

/-- The history once the label is bound, with what is logged about it. -/
def bound (history : SymbolHistory) (label : Text) (address : Int) (place : Option Place) :
    SymbolHistory :=
  ⟨{ history.table with symbols := SymbolTable.assign label address place history.table.symbols },
    history.log ++ history.table.redefinition label address place⟩

theorem run_define_of_open (hopen : history.table.closed = false) :
    (define label address place).run history =
      (record ((history.table.redefinition label address place).forM Recorder.warn) >>= fun _ =>
        modify (fun later => { later with table := (history.bound label address place).table })).run
        history := by
  simp [define, hopen, bound]

/-- An open table takes every definition, if the numbers it has to write fit. -/
theorem attains_define (hopen : history.table.closed = false)
    (hfits : fits → ∀ warning ∈ history.table.redefinition label address place, warning.Fits) :
    Attains fits (.ok () (history.bound label address place))
      ((define label address place).run history) := by
  rw [run_define_of_open hopen]
  exact (attains_record (Recorder.attains_forM_warn hfits)).bind .done

/-- A closed table refuses every definition, and stays as it is. -/
theorem attains_define_of_closed (hclosed : history.table.closed = true)
    (hplace : fits → Place.Fits place) :
    Attains fits (.error (.error ⟨.tableClosed label, place, none⟩) history)
      ((define label address place).run history) := by
  have hfits : fits → Abort.Fits (.error ⟨.tableClosed label, place, none⟩) :=
    fun hfit => ⟨by simp [Error.Cause.numbers], hplace hfit⟩
  have hdefine : (define label address place).run history =
      (record (Recorder.stop (.error ⟨.tableClosed label, place, none⟩)) : Keeper Unit).run
        history := by
    simp [define, hclosed]
  rw [hdefine]
  exact attains_record_error (Recorder.attains_stop hfits)

end Keeper

section Step

variable {history : SymbolHistory} {label : Text} {address : Int} {place : Option Place}

end Step

/-- Every number that a request brings with it has few enough digits to be written. -/
def Request.Fits : Request → Prop
  | .define _ address place => Text.Writable address ∧ Place.Fits place
  | _ => True

instance : DecidablePred Request.Fits
  | .define _ address place => inferInstanceAs (Decidable (Text.Writable address ∧ Place.Fits place))
  | .close | .resolve _ _ _ | .lookUp _ | .contains _ | .names | .bindings => isTrue trivial

/-- A label can be bound to an address of too many digits, and then it cannot be moved. -/
example : (start.run [.define "A".text (10 ^ 4300) none, .define "A".text 0 none]).table.bindings =
    [("A".text, 10 ^ 4300)] := by
  decide +kernel

end SymbolHistory

end TwoPass
