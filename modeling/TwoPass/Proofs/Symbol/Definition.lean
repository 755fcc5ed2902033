import Mathlib.Data.List.Induction
import Mathlib.Data.List.Nodup
import TwoPass.Proofs.Diagnostic.Recorder
import TwoPass.Symbol.Table

/-!
# Tables and the definitions behind them

A table is determined by the definitions that led to it.  The last definition of a label gives the
address, the first one gives the position, and the first one that names a place gives the place.
-/

namespace TwoPass

structure Definition where
  name : Text
  address : Int
  place : Option Place
  deriving DecidableEq, Repr

namespace Definition

def ofLabel (label : Text) (definitions : List Definition) : List Definition :=
  definitions.filter (fun definition => definition.name == label)

/-- The definition of a label that counts: the newest one. -/
def last? (label : Text) (definitions : List Definition) : Option Definition :=
  (ofLabel label definitions).getLast?

/-- The first place that defined a label. -/
def firstPlace? (label : Text) (definitions : List Definition) : Option Place :=
  (ofLabel label definitions).findSome? Definition.place

/-- The warning due when a definition moves its label away from where the one before it put it.  It
names the line that defined the label first. -/
def redefinitionWarnings (earlier : List Definition) (definition : Definition) : Log :=
  match last? definition.name earlier with
  | none => []
  | some previous =>
      if previous.address = definition.address then []
      else
        [⟨.redefined definition.name previous.address definition.address
          ((firstPlace? definition.name earlier).map Place.line), definition.place⟩]

theorem ofLabel_append_self (definitions : List Definition) (definition : Definition) :
    ofLabel definition.name (definitions ++ [definition]) =
      ofLabel definition.name definitions ++ [definition] := by
  simp [ofLabel]

theorem ofLabel_append_of_ne {label : Text} (definitions : List Definition)
    {definition : Definition} (hne : definition.name ≠ label) :
    ofLabel label (definitions ++ [definition]) = ofLabel label definitions := by
  simp [ofLabel, hne]

theorem mem_of_last? {label : Text} {definitions : List Definition} {last : Definition}
    (hlast : last? label definitions = some last) :
    last ∈ definitions ∧ last.name = label := by
  have hmem := List.mem_of_getLast? hlast
  simpa [ofLabel] using hmem

theorem last?_isSome_iff (label : Text) (definitions : List Definition) :
    (last? label definitions).isSome = true ↔ label ∈ definitions.map Definition.name := by
  simp [last?, ofLabel]

end Definition

namespace SymbolTable

/-- The symbols that a list of definitions leads to. -/
def build (definitions : List Definition) : List Symbol :=
  definitions.foldl
    (fun symbols definition => assign definition.name definition.address definition.place symbols) []

@[simp] theorem build_nil : build [] = [] := rfl

theorem build_append_singleton (definitions : List Definition) (definition : Definition) :
    build (definitions ++ [definition]) =
      assign definition.name definition.address definition.place (build definitions) := by
  simp [build]

theorem eraseDups_append_singleton (names : List Text) (name : Text) :
    (names ++ [name]).eraseDups =
      if name ∈ names then names.eraseDups else names.eraseDups ++ [name] := by
  rw [List.eraseDups_append]
  by_cases hmem : name ∈ names
  · have hnil : [name].removeAll names = [] := by simp [List.removeAll, hmem]
    simp [hmem, hnil]
  · have hone : [name].removeAll names = [name] := by
      simp [List.removeAll, hmem]
    rw [hone, if_neg hmem]
    rfl

/-- Labels are listed in the order of their first definitions, each once. -/
theorem map_name_build (definitions : List Definition) :
    (build definitions).map Symbol.name = (definitions.map Definition.name).eraseDups := by
  induction definitions using List.reverseRecOn with
  | nil => rfl
  | append_singleton earlier definition ih =>
      rw [build_append_singleton, map_name_assign, ih, List.map_append, List.map_singleton,
        eraseDups_append_singleton]
      simp only [List.mem_eraseDups]

theorem nodup_map_name_build (definitions : List Definition) :
    ((build definitions).map Symbol.name).Nodup := by
  induction definitions using List.reverseRecOn with
  | nil => simp
  | append_singleton earlier definition ih =>
      rw [build_append_singleton, map_name_assign]
      split
      · exact ih
      · rename_i hmem
        exact List.Nodup.append ih (List.nodup_singleton _) (by simpa using hmem)

/-- A label has the address of its last definition and the first place that defined it. -/
theorem find?_build (definitions : List Definition) (label : Text) :
    (build definitions).find? (fun symbol => symbol.name == label) =
      (Definition.last? label definitions).map
        (fun last => ⟨label, last.address, Definition.firstPlace? label definitions⟩) := by
  induction definitions using List.reverseRecOn with
  | nil => rfl
  | append_singleton earlier definition ih =>
      rw [build_append_singleton]
      by_cases hname : definition.name = label
      · subst hname
        rw [find?_assign_self, ih]
        simp only [Definition.last?, Definition.firstPlace?, Definition.ofLabel_append_self,
          List.getLast?_concat, List.findSome?_append, List.findSome?_singleton, Option.map_some]
        cases Definition.ofLabel definition.name earlier with
        | nil => rfl
        | cons first rest => simp [List.getLast?_cons]
      · rw [find?_assign_of_ne (fun heq => hname heq.symm), ih]
        simp only [Definition.last?, Definition.firstPlace?,
          Definition.ofLabel_append_of_ne earlier hname]

theorem find?_name_of_mem {symbols : List Symbol} (hnodup : (symbols.map Symbol.name).Nodup)
    {symbol : Symbol} (hmem : symbol ∈ symbols) :
    symbols.find? (fun other => other.name == symbol.name) = some symbol := by
  induction symbols with
  | nil => simp at hmem
  | cons head rest ih =>
      simp only [List.map_cons, List.nodup_cons] at hnodup
      rcases List.mem_cons.mp hmem with rfl | hrest
      · simp
      · have hne : head.name ≠ symbol.name := by
          intro heq
          apply hnodup.1
          rw [heq]
          exact List.mem_map_of_mem hrest
        rw [List.find?_cons_of_neg (by simpa using hne)]
        exact ih hnodup.2 hrest

/-- The label and address pairs of a table are those of the last definitions. -/
theorem mem_bindings_build_iff (definitions : List Definition) (closed : Bool) (label : Text)
    (address : Int) :
    (label, address) ∈ bindings ⟨build definitions, closed⟩ ↔
      ∃ last, Definition.last? label definitions = some last ∧ last.address = address := by
  have hfind := find?_build definitions label
  constructor
  · intro hmem
    obtain ⟨symbol, hsymbol, hpair⟩ := List.mem_map.mp hmem
    obtain ⟨rfl, rfl⟩ := Prod.mk.inj hpair
    have hself : (build definitions).find? (fun other => other.name == symbol.name) =
        some symbol :=
      find?_name_of_mem (nodup_map_name_build definitions) hsymbol
    rw [hself] at hfind
    obtain ⟨last, hlast, heq⟩ := Option.map_eq_some_iff.mp hfind.symm
    exact ⟨last, hlast, by rw [← heq]⟩
  · rintro ⟨last, hlast, rfl⟩
    rw [hlast, Option.map_some] at hfind
    exact List.mem_map.mpr ⟨_, List.mem_of_find?_eq_some hfind, rfl⟩

theorem lookup_bindings (table : SymbolTable) (label : Text) :
    table.bindings.lookup label = table.address? label := by
  simp only [bindings, address?, find?]
  induction table.symbols with
  | nil => rfl
  | cons symbol rest ih =>
      by_cases hname : symbol.name = label
      · simp [hname]
      · have hne : (label == symbol.name) = false := by
          simpa using fun heq => hname heq.symm
        simp [List.lookup_cons, hname, hne, ih]

theorem address?_build (definitions : List Definition) (closed : Bool) (label : Text) :
    address? ⟨build definitions, closed⟩ label =
      (Definition.last? label definitions).map Definition.address := by
  simp only [address?, find?, find?_build, Option.map_map]
  rfl

theorem redefinition_build (earlier : List Definition) (closed : Bool) (definition : Definition) :
    redefinition ⟨build earlier, closed⟩ definition.name definition.address definition.place =
      definition.redefinitionWarnings earlier := by
  simp only [redefinition, find?, find?_build, Definition.redefinitionWarnings]
  cases Definition.last? definition.name earlier with
  | none => rfl
  | some previous => rfl

/-- The addresses in the table and the lines it names have few enough digits to be written. -/
def Fits (table : SymbolTable) : Prop :=
  ∀ symbol ∈ table.symbols, Text.Writable symbol.address ∧ Place.Fits symbol.first

instance : DecidablePred Fits := fun table =>
  inferInstanceAs (Decidable (∀ symbol ∈ table.symbols, _ ∧ _))

theorem Fits.of_address? {table : SymbolTable} (hfits : table.Fits) {label : Text} {address : Int}
    (haddress : table.address? label = some address) : Text.Writable address := by
  obtain ⟨symbol, hfound, rfl⟩ := Option.map_eq_some_iff.mp haddress
  exact (hfits symbol (List.mem_of_find?_eq_some hfound)).1

theorem fits_assign {symbols : List Symbol} {closed : Bool} (hfits : Fits ⟨symbols, closed⟩)
    {address : Int} (haddress : Text.Writable address) {place : Option Place}
    (hplace : Place.Fits place) (label : Text) : Fits ⟨assign label address place symbols, closed⟩ := by
  induction symbols with
  | nil =>
      intro symbol hmem
      rw [List.mem_singleton.mp hmem]
      exact ⟨haddress, hplace⟩
  | cons first rest ih =>
      have hfirst := hfits first List.mem_cons_self
      have hrest : Fits ⟨rest, closed⟩ := fun symbol hmem => hfits symbol (List.mem_cons_of_mem _ hmem)
      intro symbol hmem
      by_cases hname : first.name = label
      · rw [assign, if_pos hname] at hmem
        rcases List.mem_cons.mp hmem with rfl | hlater
        · refine ⟨haddress, ?_⟩
          cases hplaced : first.first with
          | none => exact hplace
          | some place =>
              rw [hplaced] at hfirst
              exact hfirst.2
        · exact hrest symbol hlater
      · rw [assign, if_neg hname] at hmem
        rcases List.mem_cons.mp hmem with rfl | hlater
        · exact hfirst
        · exact ih hrest symbol hlater

/-- The warning about a label that moves can be written if the numbers it names can. -/
theorem fits_of_mem_redefinition {table : SymbolTable} (hfits : table.Fits) {address : Int}
    (haddress : Text.Writable address) {place : Option Place} (hplace : Place.Fits place)
    {label : Text} {warning : Warning} (hmem : warning ∈ table.redefinition label address place) :
    warning.Fits := by
  unfold redefinition at hmem
  split at hmem
  · rename_i symbol hfound
    split at hmem
    · simp at hmem
    · obtain ⟨hprevious, hfirst⟩ := hfits symbol (List.mem_of_find?_eq_some hfound)
      rw [List.mem_singleton.mp hmem]
      refine ⟨?_, hplace⟩
      simp only [Warning.Cause.numbers, List.mem_cons, Option.mem_toList]
      rintro n (rfl | rfl | hline)
      · exact hprevious
      · exact haddress
      · exact hfirst n hline
  · simp at hmem

end SymbolTable

end TwoPass
