import TwoPass.Proofs.Listing
import TwoPass.Proofs.Session
import TwoPass.Proofs.Source.Edit
import TwoPass.Proofs.Source.Wording

/-!
# Reading a symbol file

A symbol file has two lines of heading, which start with `#`, and then a line for each label: the name,
a space and the address in octal.  A name has no space, no line end and no `#` in it.  So the file can be
taken apart again, and gives back the labels in the order of their names.
-/

namespace TwoPass

namespace Text

variable {name : Text}

theorem isLine_of_isName (hname : isName name = true) : IsLine name :=
  fun c hmem => isLineEnd_of_isPlain (isPlain_of_isName hname c hmem)

theorem space_not_mem_of_isName (hname : isName name = true) : .char ' ' ∉ name := by
  intro hmem
  have hplain := isPlain_of_isName hname ' ' hmem
  contradiction

theorem encodable_of_isName (hname : isName name = true) : Utf8.Encodable name := by
  intro offset hmem
  have hplain := isPlain_of_isName hname _ hmem
  simp only [isPlain, Bool.and_eq_true, decide_eq_true_eq] at hplain
  have hcode : 0xD800 + offset.val ≤ 126 := hplain.1.1.2
  omega

/-- A name does not start with `#`, whatever follows it. -/
theorem head?_append_of_isName (hname : isName name = true) (rest : Text) :
    (name ++ rest).head? ≠ some (.char '#') := by
  cases name with
  | nil => cases hname
  | cons c more =>
      rw [isName, Bool.and_eq_true] at hname
      intro hhead
      obtain rfl : c = '#' := Option.some.inj hhead
      exact absurd hname.1 (by decide)

theorem precedes_iff (left right : Text) : precedes left right = true ↔ ¬ right < left := by
  rw [precedes, Bool.not_eq_true', decide_eq_false_iff_not]

end Text

namespace Program

/-- A line read as a name, one space and six octal digits. -/
def readSymbolLine? (line : Text) : Option (Text × Nat) :=
  match line.splitOn (.char ' ') with
  | [name, digits] =>
      if Text.isName name then (Word.readOctal? digits).map (fun address => (name, address)) else none
  | _ => none

/-- A label as a symbol file tells it, with sixteen bits of its address. -/
def shownSymbol (symbol : Text × Int) : Text × Nat :=
  (symbol.1, (symbol.2 % 65536).toNat)

theorem readSymbolLine?_symbolLine {symbol : Text × Int} (hname : Text.isName symbol.1 = true) :
    readSymbolLine? (symbolLine symbol) = some (shownSymbol symbol) := by
  have hsplit : (symbolLine symbol).splitOn (.char ' ') = [symbol.1, octalOfInt symbol.2] := by
    rw [symbolLine, octalOfInt,
      List.splitOn_append_cons_self_of_not_mem (Text.space_not_mem_of_isName hname),
      List.splitOn_eq_singleton (Word.space_not_mem_octal _)]
  simp [readSymbolLine?, hsplit, hname, octalOfInt, Word.toNat_ofInt, shownSymbol]

theorem isLine_symbolLine {symbol : Text × Int} (hname : Text.isName symbol.1 = true) :
    Text.IsLine (symbolLine symbol) :=
  (Text.isLine_of_isName hname).append ((Word.isLine_octal _).cons (by decide))

variable {program : Program}

theorem perm_sortedSymbols (program : Program) : program.sortedSymbols.Perm program.symbols :=
  List.mergeSort_perm _ _

/-- Symbols with different names are sorted strictly. -/
theorem pairwise_sortedSymbols (hnodup : (program.symbols.map Prod.fst).Nodup) :
    (program.sortedSymbols.map Prod.fst).Pairwise (· < ·) := by
  have hsorted : program.sortedSymbols.Pairwise
      (fun left right => Text.precedes left.1 right.1 = true) := by
    apply List.pairwise_mergeSort
    · intro first second third hfirst hsecond
      rw [Text.precedes_iff, List.not_lt] at hfirst hsecond ⊢
      exact List.le_trans hfirst hsecond
    · intro first second
      rw [Bool.or_eq_true, Text.precedes_iff, Text.precedes_iff, List.not_lt, List.not_lt]
      exact List.le_total first.1 second.1
  have hdistinct : (program.sortedSymbols.map Prod.fst).Nodup :=
    (program.perm_sortedSymbols.map Prod.fst).nodup_iff.mpr hnodup
  rw [List.Nodup, List.pairwise_map] at hdistinct
  rw [List.pairwise_map]
  refine hsorted.imp₂ ?_ hdistinct
  intro left right hprecedes hne
  rw [Text.precedes_iff, List.not_lt] at hprecedes
  by_contra hnot
  exact hne (List.le_antisymm hprecedes (List.not_lt.mp hnot))

theorem encodable_symbolFile (hnames : ∀ symbol ∈ program.symbols, Text.isName symbol.1 = true) :
    Utf8.Encodable program.symbolFile := by
  apply Utf8.encodable_unlines
  intro line hline
  rcases List.mem_append.mp hline with hheading | hrow
  · simp only [symbolHeading, List.mem_cons, List.not_mem_nil, or_false] at hheading
    rcases hheading with rfl | rfl <;> simp
  · obtain ⟨symbol, hsymbol, rfl⟩ := List.mem_map.mp hrow
    have hname := hnames symbol (program.perm_sortedSymbols.subset hsymbol)
    simp [symbolLine, octalOfInt, Text.encodable_of_isName hname, Word.encodable_octal]

/-- The file is taken apart into its lines. -/
theorem lines_symbolFile (hnames : ∀ symbol ∈ program.symbols, Text.isName symbol.1 = true) :
    Text.lines program.symbolFile = symbolHeading ++ program.sortedSymbols.map symbolLine := by
  apply Text.lines_unlines
  intro line hline
  rcases List.mem_append.mp hline with hheading | hrow
  · have hall : symbolHeading.all (fun text => text.all (fun c => !Text.isLineEnd c)) = true := by
      decide
    intro c hmem
    simpa using List.all_eq_true.mp (List.all_eq_true.mp hall line hheading) c hmem
  · obtain ⟨symbol, hsymbol, rfl⟩ := List.mem_map.mp hrow
    exact isLine_symbolLine (hnames symbol (program.perm_sortedSymbols.subset hsymbol))

end Program

namespace Run

variable {options : Options} {file : Text} {lines : List Text} {program : Program}

/-- The labels of a program are names, and no two of them are the same. -/
theorem names_of_outcome (hrun : (ofLines options file lines).outcome = .ok program) :
    (program.symbols.map Prod.fst).Nodup ∧
      ∀ symbol ∈ program.symbols, Text.isName symbol.1 = true := by
  obtain ⟨outputs, hassembled⟩ := assembled_of_outcome hrun
  rw [hassembled.symbols]
  constructor
  · rw [Source.symbols, SymbolTable.bindings, List.map_map]
    exact SymbolTable.nodup_map_name_build _
  · intro symbol hsymbol
    have hname := List.mem_map_of_mem (f := Prod.fst) hsymbol
    rw [Source.map_fst_symbols, List.mem_eraseDups, List.mem_filterMap] at hname
    obtain ⟨raw, -, hlabel⟩ := hname
    exact Line.isName_of_label? hlabel

/-- The symbol file is written by every session that has assembled the program, on any system. -/
theorem writes_symbolFile (hrun : (ofLines options file lines).outcome = .ok program) {σ : Type}
    [FileSystem σ] {session : Session} (hoptions : session.options = options)
    {call : Session.Call σ} (hsource : call.source? options = some (file, lines)) :
    (session.step call.system call.request).session.Writes σ .writeSymbols program.symbolFile := by
  obtain ⟨printed, hassemble⟩ := Session.exists_assemble_of_source? hsource
  have hcoherent := Session.coherent_remember hrun session
  rw [hassemble session hoptions, Session.assemble, hoptions]
  apply Session.writes_of_put "symbols" (by simp)
  intro system path
  simp only [Session.step, Session.write, hcoherent.program_eq]

end Run

/-- The symbol file of a program has two lines of heading and a line for each label, and these are read
as the labels of the program, each of them once and in the order of their names, with their addresses
modulo 65536.  No name contains the separator or a line end, or is taken for a heading.  The text has an
encoding, and a session that has assembled the program writes it. -/
theorem Run.symbolFile_of_outcome {options : Options} {file : Text} {lines : List Text}
    {program : Program} (hrun : (Run.ofLines options file lines).outcome = .ok program) :
    (∃ (first second : Text) (rows : List Text) (pairs : List (Text × Nat)),
      program.symbolFile = Text.unlines (first :: second :: rows) ∧
      Text.lines program.symbolFile = first :: second :: rows ∧
      first.head? = some (.char '#') ∧ second.head? = some (.char '#') ∧
      (∀ row ∈ rows, row.head? ≠ some (.char '#')) ∧
      rows.map Program.readSymbolLine? = pairs.map some ∧
      pairs.Perm (program.symbols.map Program.shownSymbol) ∧
      (pairs.map Prod.fst).Pairwise (· < ·)) ∧
    (∀ symbol ∈ program.symbols,
      symbol.1.head? ≠ some (.char '#') ∧ .char ' ' ∉ symbol.1 ∧ Text.IsLine symbol.1) ∧
    (∃ content, Utf8.encode program.symbolFile = .ok content) ∧
    ∀ (σ : Type) [FileSystem σ] (session : Session) (call : Session.Call σ),
      session.options = options → call.source? options = some (file, lines) →
      (session.step call.system call.request).session.Writes σ .writeSymbols
        program.symbolFile := by
  obtain ⟨hnodup, hnames⟩ := Run.names_of_outcome hrun
  have hsorted : ∀ symbol ∈ program.sortedSymbols, Text.isName symbol.1 = true :=
    fun symbol hmem => hnames symbol (program.perm_sortedSymbols.subset hmem)
  refine ⟨⟨_, _, program.sortedSymbols.map Program.symbolLine,
    program.sortedSymbols.map Program.shownSymbol, rfl, Program.lines_symbolFile hnames, rfl, rfl,
    ?_, ?_, ?_, ?_⟩, ?_, ?_, ?_⟩
  · intro row hrow
    obtain ⟨symbol, hsymbol, rfl⟩ := List.mem_map.mp hrow
    exact Text.head?_append_of_isName (hsorted symbol hsymbol) _
  · rw [List.map_map, List.map_map]
    apply List.map_congr_left
    intro symbol hsymbol
    exact Program.readSymbolLine?_symbolLine (hsorted symbol hsymbol)
  · exact program.perm_sortedSymbols.map Program.shownSymbol
  · rw [List.map_map]
    exact Program.pairwise_sortedSymbols hnodup
  · intro symbol hsymbol
    have hname := hnames symbol hsymbol
    have hhead := Text.head?_append_of_isName hname []
    rw [List.append_nil] at hhead
    exact ⟨hhead, Text.space_not_mem_of_isName hname, Text.isLine_of_isName hname⟩
  · exact (Utf8.exists_encode_iff _).mpr (Program.encodable_symbolFile hnames)
  · intro σ _ session call hoptions hsource
    exact Run.writes_symbolFile hrun hoptions hsource

theorem Run.symbolFile_of_moved_labels :
    ∃ program,
      (Run.ofLines Options.default "a.asm".text
        ["b: LOC 65535".text, "_: HLT".text, "B2:HLT".text, "b: ; b".text]).outcome =
          .ok program ∧
      program.symbols =
        [("b".text, 65537), ("_".text, 65535), ("B2".text, 65536)] ∧
      ∃ (first second : Text) (rows : List Text) (pairs : List (Text × Nat)),
        Text.lines program.symbolFile = first :: second :: rows ∧
        rows.map Program.readSymbolLine? = pairs.map some ∧
        pairs.Perm [("b".text, 1), ("_".text, 65535), ("B2".text, 0)] ∧
        (pairs.map Prod.fst).Pairwise (· < ·) := by
  refine Run.exists_program Program.symbols
    [("b".text, 65537), ("_".text, 65535), ("B2".text, 65536)] rfl ?_
  intro program hrun hsymbols
  obtain ⟨⟨first, second, rows, pairs, -, hlines, -, -, -, hread, hperm, hsorted⟩, -⟩ :=
    Run.symbolFile_of_outcome hrun
  rw [hsymbols] at hperm
  exact ⟨hsymbols, first, second, rows, pairs, hlines, hread, hperm, hsorted⟩

end TwoPass
