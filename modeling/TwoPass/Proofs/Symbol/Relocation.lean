import TwoPass.Proofs.Symbol.Definition

/-!
# Tables of renamed labels in other places

Two sources may define the same labels under other names and on other lines.  As long as labels that
differ keep names that differ, the tables correspond entry by entry: each label is found where its
counterpart is, with the same address, and a warning about one has its counterpart as well.
-/

namespace TwoPass

/-- Names that differ have images that differ. -/
def Text.KeepsNamesApart (rename : Text → Text) : Prop :=
  ∀ first second, Text.isName first = true → Text.isName second = true →
    rename first = rename second → first = second

theorem Text.keepsNamesApart_id : Text.KeepsNamesApart id :=
  fun _ _ _ _ heq => heq

def Place.moved (shift : Int → Int) (place : Place) : Place :=
  ⟨place.file, shift place.line⟩

theorem Place.moved_id : Place.moved id = id := rfl

def Warning.moved (rename : Text → Text) (shift : Int → Int) (warning : Warning) : Warning where
  cause :=
    match warning.cause with
    | .redefined label previous address first =>
        .redefined (rename label) previous address (first.map shift)
    | .addressTruncated label address => .addressTruncated (label.map rename) address
    | cause => cause
  place := warning.place.map (Place.moved shift)

@[simp] theorem Warning.line_moved (rename : Text → Text) (shift : Int → Int) (warning : Warning) :
    (warning.moved rename shift).line = warning.line.map shift := by
  simp only [Warning.line, Warning.moved, Option.map_map]
  rfl

theorem Warning.moved_id (warning : Warning) : warning.moved id id = warning := by
  cases warning with
  | mk cause place => cases cause <;> simp [Warning.moved, Place.moved_id]

section

variable (rename : Text → Text) (shift : Int → Int)

def Definition.moved (definition : Definition) : Definition :=
  ⟨rename definition.name, definition.address, definition.place.map (Place.moved shift)⟩

def Symbol.moved (symbol : Symbol) : Symbol :=
  ⟨rename symbol.name, symbol.address, symbol.first.map (Place.moved shift)⟩

@[simp] theorem Definition.address_moved (definition : Definition) :
    (definition.moved rename shift).address = definition.address := rfl

namespace Definition

variable {definitions : List Definition} {label : Text}
  (hlabel : ∀ definition ∈ definitions, rename definition.name = rename label →
    definition.name = label)

include hlabel

theorem ofLabel_map_moved :
    ofLabel (rename label) (definitions.map (moved rename shift)) =
      (ofLabel label definitions).map (moved rename shift) := by
  rw [ofLabel, ofLabel, List.filter_map]
  congr 1
  apply List.filter_congr
  intro definition hmem
  have hiff : rename definition.name = rename label ↔ definition.name = label :=
    ⟨hlabel definition hmem, congrArg rename⟩
  simp only [Function.comp, moved, beq_eq_decide, hiff]

theorem last?_map_moved :
    last? (rename label) (definitions.map (moved rename shift)) =
      (last? label definitions).map (moved rename shift) := by
  rw [last?, ofLabel_map_moved rename shift hlabel, List.getLast?_map, last?]

theorem firstPlace?_map_moved :
    firstPlace? (rename label) (definitions.map (moved rename shift)) =
      (firstPlace? label definitions).map (Place.moved shift) := by
  rw [firstPlace?, ofLabel_map_moved rename shift hlabel, firstPlace?]
  induction ofLabel label definitions with
  | nil => rfl
  | cons definition rest ih =>
      cases hplace : definition.place with
      | none => simpa [List.findSome?_cons, moved, hplace] using ih
      | some place => simp [moved, hplace]

omit hlabel in
/-- The counterpart of a definition moves its label exactly when the definition does. -/
theorem redefinitionWarnings_map_moved {definition : Definition}
    (hname : ∀ earlier ∈ definitions, rename earlier.name = rename definition.name →
      earlier.name = definition.name) :
    (definition.moved rename shift).redefinitionWarnings (definitions.map (moved rename shift)) =
      (definition.redefinitionWarnings definitions).map (Warning.moved rename shift) := by
  have hlast : last? (definition.moved rename shift).name _ = _ :=
    last?_map_moved rename shift hname
  have hfirst : firstPlace? (definition.moved rename shift).name _ = _ :=
    firstPlace?_map_moved rename shift hname
  rw [redefinitionWarnings, redefinitionWarnings, hlast, hfirst]
  cases last? definition.name definitions with
  | none => rfl
  | some previous =>
      by_cases hsame : previous.address = definition.address
      · simp [hsame]
      · simp only [Option.map_some, address_moved, hsame, ↓reduceIte, List.map_cons, List.map_nil,
          Warning.moved, Option.map_map]
        rfl

end Definition

namespace SymbolTable

theorem assign_map_moved {symbols : List Symbol} {label : Text}
    (hlabel : ∀ symbol ∈ symbols, rename symbol.name = rename label → symbol.name = label)
    (address : Int) (place : Option Place) :
    assign (rename label) address (place.map (Place.moved shift))
        (symbols.map (Symbol.moved rename shift)) =
      (assign label address place symbols).map (Symbol.moved rename shift) := by
  induction symbols with
  | nil => rfl
  | cons symbol rest ih =>
      have hrest := ih fun other hmem => hlabel other (List.mem_cons_of_mem symbol hmem)
      by_cases hname : symbol.name = label
      · cases hfirst : symbol.first <;> simp [assign, Symbol.moved, hname, hfirst]
      · have hne : rename symbol.name ≠ rename label :=
          fun heq => hname (hlabel symbol List.mem_cons_self heq)
        simp only [List.map_cons, assign, Symbol.moved, hname, hne, ↓reduceIte, List.cons.injEq,
          true_and]
        exact hrest

theorem build_map_moved {definitions : List Definition}
    (hapart : ∀ first ∈ definitions, ∀ second ∈ definitions,
      rename first.name = rename second.name → first.name = second.name) :
    build (definitions.map (Definition.moved rename shift)) =
      (build definitions).map (Symbol.moved rename shift) := by
  induction definitions using List.reverseRecOn with
  | nil => rfl
  | append_singleton earlier definition ih =>
      have hearlier := ih fun first hfirst second hsecond =>
        hapart first (List.mem_append_left _ hfirst) second (List.mem_append_left _ hsecond)
      rw [List.map_append, List.map_singleton, build_append_singleton, build_append_singleton,
        hearlier]
      apply assign_map_moved
      intro symbol hsymbol
      have hlisted : symbol.name ∈ earlier.map Definition.name := by
        rw [← List.mem_eraseDups, ← map_name_build]
        exact List.mem_map_of_mem hsymbol
      obtain ⟨other, hother, hname⟩ := List.mem_map.mp hlisted
      rw [← hname]
      exact hapart other (List.mem_append_left _ hother) definition (by simp)

end SymbolTable

end

theorem lookup_map_of_apart {rename : Text → Text} {symbols : List (Text × Int)} {label : Text}
    (hlabel : ∀ symbol ∈ symbols, rename symbol.1 = rename label → symbol.1 = label) :
    (symbols.map (Prod.map rename id)).lookup (rename label) = symbols.lookup label := by
  induction symbols with
  | nil => rfl
  | cons symbol rest ih =>
      obtain ⟨name, address⟩ := symbol
      have hrest := ih fun other hmem => hlabel other (List.mem_cons_of_mem _ hmem)
      rw [List.map_cons, Prod.map_apply, List.lookup_cons, List.lookup_cons, hrest]
      by_cases hname : label = name
      · simp [hname]
      · have hne : rename label ≠ rename name :=
          fun heq => hname (hlabel (name, address) List.mem_cons_self heq.symm).symm
        rw [beq_eq_false_iff_ne.mpr hne, beq_eq_false_iff_ne.mpr hname]

end TwoPass
