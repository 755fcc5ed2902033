import TwoPass.Proofs.Correspondence
import TwoPass.Proofs.Operand.Renaming

/-!
# Renaming labels

Labels can be renamed throughout a source: where a line defines them and where an operand or a data
line refers to them.  The run ends as before, with the same words, and with the symbols under their new
names.  What a name is spelled like has no effect, as long as names that differ stay different and the
letter of indirection stays what it is.
-/

namespace TwoPass

namespace Renaming

variable (names : Renaming)

/-- A piece of text with the name in it renamed and the white space around the name kept. -/
def field (piece : Text) : Text :=
  if Text.isName (Text.trim piece) then
    piece.takeWhile Text.isBlank ++
      (names.image (Text.trim piece) ++ piece.rtakeWhile Text.isBlank)
  else piece

/-- The argument of an operation with its label renamed: that of a data line is a label as a whole, that
of a memory instruction has it in the address field. -/
def argument (keyword text : Text) : Text :=
  if keyword = Record.dataKeyword then names.field text
  else
    match Instruction.ofMnemonic? keyword with
    | none => text
    | some instruction =>
        if instruction.format = .memory then
          [.char ','].intercalate
            (Instruction.atAddress instruction.hasIndexForm names.field (text.splitOn (.char ',')))
        else text

/-- What follows the label of a line, with the label in its argument renamed. -/
def statement (text : Text) : Text :=
  let word := Text.firstWord (Text.trimStart text)
  let tail := (Text.trimStart text).dropWhile (fun c => !Text.isBlank c)
  text.takeWhile Text.isBlank ++ (word ++ (tail.takeWhile Text.isBlank ++
    names.argument (Text.upper word) (tail.dropWhile Text.isBlank)))

/-- The code of a line with its labels renamed. -/
def code (text : Text) : Text :=
  match Record.splitLabel text with
  | (some label, rest) =>
      text.takeWhile Text.isAsciiBlank ++ (names.image label ++ .char ':' :: names.statement rest)
  | (none, _) => names.statement text

/-- A line with its labels renamed and its comment kept. -/
def line (raw : Text) : Text :=
  names.code (raw.takeWhile (fun c => c != .char ';')) ++ raw.dropWhile (fun c => c != .char ';')

theorem trim_field (piece : Text) : Text.trim (names.field piece) = names.token (Text.trim piece) := by
  by_cases hname : Text.isName (Text.trim piece) = true
  · have himage := Text.trim_of_isPlain (Text.isPlain_of_isName (names.isName_image _ hname))
    rw [field, if_pos hname, names.token_of_isName hname,
      Text.trim_append_of_blank_left fun c hmem => List.mem_takeWhile_imp hmem,
      Text.trim_append_of_blank fun c hmem => List.mem_rtakeWhile_imp hmem, himage]
  · rw [field, if_neg hname, names.token_of_not_isName hname]

/-- A renamed piece has no characters but those of the piece and of names. -/
theorem of_mem_field {piece : Text} {c : CodePoint} (hmem : c ∈ names.field piece) :
    c ∈ piece ∨ Text.isNameChar c = true := by
  by_cases hname : Text.isName (Text.trim piece) = true
  · rw [field, if_pos hname] at hmem
    rcases List.mem_append.mp hmem with hlead | hrest
    · exact Or.inl ((List.takeWhile_prefix _).subset hlead)
    · rcases List.mem_append.mp hrest with himage | htrail
      · exact Or.inr (Line.isNameChar_of_isName (names.isName_image _ hname) c himage)
      · exact Or.inl ((List.rtakeWhile_suffix _ _).subset htrail)
  · rw [field, if_neg hname] at hmem
    exact Or.inl hmem

theorem argument_data (text : Text) : names.argument Record.dataKeyword text = names.field text :=
  if_pos rfl

theorem argument_origin (text : Text) : names.argument Record.originKeyword text = text := by
  have hne : Record.originKeyword ≠ Record.dataKeyword := by decide
  have hnone : Instruction.ofMnemonic? Record.originKeyword = none := by decide +kernel
  rw [argument, if_neg hne, hnone]

theorem argument_nil (keyword : Text) : names.argument keyword [] = [] := by
  unfold argument
  split
  · rfl
  · split
    · rfl
    · split <;> rfl

section Instruction

variable {keyword : Text} {instruction : Instruction} (hdata : keyword ≠ Record.dataKeyword)
  (hmnemonic : Instruction.ofMnemonic? keyword = some instruction)

include hdata hmnemonic

theorem argument_of_not_memory (hformat : instruction.format ≠ .memory) (text : Text) :
    names.argument keyword text = text := by
  simp only [argument, if_neg hdata, hmnemonic, if_neg hformat]

theorem argument_of_memory (hformat : instruction.format = .memory) (text : Text) :
    names.argument keyword text = [.char ','].intercalate
      (Instruction.atAddress instruction.hasIndexForm names.field (text.splitOn (.char ','))) := by
  simp only [argument, if_neg hdata, hmnemonic, if_pos hformat]

/-- The address field is the only one that is renamed. -/
theorem fields_argument (hformat : instruction.format = .memory) (text : Text) :
    Text.fields (names.argument keyword text) =
      Instruction.atAddress instruction.hasIndexForm names.token (Text.fields text) := by
  have hcomma : ∀ piece ∈ Instruction.atAddress instruction.hasIndexForm names.field
      (text.splitOn (.char ',')), .char ',' ∉ piece := by
    intro piece hpiece hmem
    rcases Instruction.mem_atAddress hpiece with hkept | ⟨original, horiginal, rfl⟩
    · exact (Text.of_mem_piece hkept ',' hmem).2 rfl
    · rcases names.of_mem_field hmem with hold | hname
      · exact (Text.of_mem_piece horiginal ',' hold).2 rfl
      · contradiction
  rw [names.argument_of_memory hdata hmnemonic hformat,
    Text.fields_join hcomma (Instruction.atAddress_ne_nil (List.splitOn_ne_nil (.char ',') text)),
    Instruction.map_trim_atAddress names.trim_field, Text.fields]

end Instruction

/-- Renaming starts no comment. -/
theorem semicolon_not_mem_argument {text : Text} (htext : .char ';' ∉ text) (keyword : Text) :
    .char ';' ∉ names.argument keyword text := by
  have hfield : ∀ piece : Text, .char ';' ∉ piece → .char ';' ∉ names.field piece := by
    intro piece hpiece hmem
    rcases names.of_mem_field hmem with hold | hname
    · exact hpiece hold
    · contradiction
  unfold argument
  split
  · exact hfield text htext
  · split
    · exact htext
    · split
      · intro hmem
        rcases Text.of_mem_join hmem with hcomma | ⟨piece, hpiece, hc⟩
        · contradiction
        · have hold : ∀ original ∈ text.splitOn (.char ','), .char ';' ∉ original :=
            fun original horiginal hin => htext (Text.of_mem_piece horiginal ';' hin).1
          rcases Instruction.mem_atAddress hpiece with hkept | ⟨original, horiginal, rfl⟩
          · exact hold piece hkept hc
          · exact hfield original (hold original horiginal) hc
      · exact htext

/-- A statement with its label renamed has the parts of the statement but for the argument. -/
theorem exists_parts_statement (text : Text) :
    ∃ lead word gap argument, Line.Parts text lead word gap argument ∧
      Line.Parts (names.statement text) lead word gap
        (names.argument (Text.upper word) argument) := by
  have hparts := Line.parts_of_text text
  exact ⟨_, _, _, _, hparts,
    hparts.with_argument fun hnil => by rw [hnil, names.argument_nil]⟩

theorem splitLabel_statement (text : Text) :
    (Record.splitLabel (names.statement text)).1 = (Record.splitLabel text).1 := by
  obtain ⟨lead, word, gap, argument, hparts, hrenamed⟩ := names.exists_parts_statement text
  rw [hparts.label, hrenamed.label]

theorem trim_statement_eq_nil_iff (text : Text) :
    Text.trim (names.statement text) = [] ↔ Text.trim text = [] := by
  obtain ⟨lead, word, gap, argument, hparts, hrenamed⟩ := names.exists_parts_statement text
  rw [hparts.trim_eq_nil_iff, hrenamed.trim_eq_nil_iff]

theorem firstWord_statement (text : Text) :
    Text.firstWord (Text.trim (names.statement text)) = Text.firstWord (Text.trim text) := by
  obtain ⟨lead, word, gap, argument, hparts, hrenamed⟩ := names.exists_parts_statement text
  rw [hparts.read.1, hrenamed.read.1]

theorem exists_afterFirstWord_statement (text : Text) :
    ∃ argument, Text.afterFirstWord (Text.trim text) = Text.trim argument ∧
      Text.afterFirstWord (Text.trim (names.statement text)) =
        Text.trim (names.argument (Text.upper (Text.firstWord (Text.trim text))) argument) := by
  obtain ⟨lead, word, gap, argument, hparts, hrenamed⟩ := names.exists_parts_statement text
  refine ⟨argument, hparts.read.2, ?_⟩
  rw [hparts.read.1, hrenamed.read.2]

theorem semicolon_not_mem_statement {text : Text} (htext : .char ';' ∉ text) :
    .char ';' ∉ names.statement text := by
  obtain ⟨lead, word, gap, argument, hparts, hrenamed⟩ := names.exists_parts_statement text
  rw [hparts.split] at htext
  simp only [List.mem_append, not_or] at htext
  obtain ⟨hlead, hword, hgap, hargument⟩ := htext
  rw [hrenamed.split]
  simp only [List.mem_append, not_or]
  exact ⟨hlead, hword, hgap, names.semicolon_not_mem_argument hargument _⟩

/-- The label is renamed, and so is the label in what follows it. -/
theorem splitLabel_code (text : Text) :
    Record.splitLabel (names.code text) =
      ((Record.splitLabel text).1.map names.image, names.statement (Record.splitLabel text).2) := by
  cases hsplit : Record.splitLabel text with
  | mk label? rest =>
      cases label? with
      | none =>
          have hlabel : (Record.splitLabel (names.statement text)).1 = none := by
            rw [names.splitLabel_statement, hsplit]
          obtain rfl : text = rest := by
            have hrest := Line.splitLabel_of_none (congrArg Prod.fst hsplit)
            rw [hsplit] at hrest
            exact hrest.symm
          simp only [code, hsplit]
          exact Prod.ext hlabel (Line.splitLabel_of_none hlabel)
      | some label =>
          obtain ⟨_, _, _, hname⟩ := (Line.splitLabel_eq_some_iff text label rest).mp hsplit
          simp only [code, hsplit]
          apply (Line.splitLabel_eq_some_iff _ _ _).mpr
          exact ⟨_, rfl, fun c hmem => List.mem_takeWhile_imp hmem, names.isName_image label hname⟩

theorem semicolon_not_mem_code {text : Text} (htext : .char ';' ∉ text) : .char ';' ∉ names.code text := by
  cases hsplit : Record.splitLabel text with
  | mk label? rest =>
      cases label? with
      | none =>
          simp only [code, hsplit]
          exact names.semicolon_not_mem_statement htext
      | some label =>
          obtain ⟨indentation, hcode, _, hname⟩ :=
            (Line.splitLabel_eq_some_iff text label rest).mp hsplit
          have hlead : .char ';' ∉ text.takeWhile Text.isAsciiBlank :=
            fun hmem => htext ((List.takeWhile_prefix _).subset hmem)
          have himage : .char ';' ∉ names.image label := by
            intro hmem
            have hplain := Text.isPlain_of_isName (names.isName_image label hname) ';' hmem
            contradiction
          have hrest : .char ';' ∉ rest := fun hmem => htext (by simp [hcode, hmem])
          simp [code, hsplit, hlead, himage, names.semicolon_not_mem_statement hrest]

theorem code_line (raw : Text) : Line.code (names.line raw) = names.code (Line.code raw) := by
  have hcode : ∀ c ∈ names.code (raw.takeWhile (fun c => c != .char ';')), (c != .char ';') = true := by
    have hnot : .char ';' ∉ raw.takeWhile (fun c => c != .char ';') := by
      intro hmem
      have hfalse := List.mem_takeWhile_imp hmem
      contradiction
    intro c hmem
    have hne : c ≠ ';' := fun heq => names.semicolon_not_mem_code hnot (heq ▸ hmem)
    simpa using hne
  have hstop : (raw.dropWhile (fun c => c != .char ';')).takeWhile (fun c => c != .char ';') = [] := by
    cases hdrop : raw.dropWhile (fun c => c != .char ';') with
    | nil => rfl
    | cons c rest =>
        rw [List.takeWhile_cons, Text.eq_false_of_dropWhile_eq_cons hdrop]
        rfl
  rw [Line.code_eq_takeWhile, Line.code_eq_takeWhile, line, List.takeWhile_append_of_pos hcode,
    hstop, List.append_nil]

theorem label?_line (raw : Text) :
    Line.label? (names.line raw) = (Line.label? raw).map names.image := by
  rw [Line.label?, code_line, splitLabel_code, Line.label?]

theorem body_line (raw : Text) :
    Line.body (names.line raw) =
      Text.trim (names.statement (Record.splitLabel (Line.code raw)).2) := by
  rw [Line.body, code_line, splitLabel_code]

theorem keyword_line (raw : Text) : Line.keyword (names.line raw) = Line.keyword raw := by
  rw [Line.keyword, Line.operation, body_line, firstWord_statement, Line.keyword, Line.operation,
    Line.body]

theorem kind_line (raw : Text) : Line.kind (names.line raw) = Line.kind raw := by
  have hempty : (Line.body (names.line raw)).isEmpty = (Line.body raw).isEmpty := by
    rw [Bool.eq_iff_iff, List.isEmpty_iff, List.isEmpty_iff, body_line,
      trim_statement_eq_nil_iff, Line.body]
  simp only [Line.kind, hempty, label?_line, keyword_line, Option.isSome_map]

theorem exists_argument_line (raw : Text) :
    ∃ text, Line.argument raw = Text.trim text ∧
      Line.argument (names.line raw) = Text.trim (names.argument (Line.keyword raw) text) := by
  simp only [Line.argument, body_line]
  exact names.exists_afterFirstWord_statement (Record.splitLabel (Line.code raw)).2

/-- The line with its labels renamed says what the line says under the new names. -/
theorem counterpart_line {β : Type} (observe : Warning → β) (raw : Text) :
    Line.Counterpart observe names.image raw (names.line raw) := by
  obtain ⟨text, hargument, hrenamed⟩ := names.exists_argument_line raw
  have hdata : Line.kind raw = .data →
      Line.argument (names.line raw) = names.token (Line.argument raw) := by
    intro hkind
    rw [hrenamed, Line.keyword_of_data hkind, argument_data, trim_field, hargument]
  refine ⟨names.kind_line raw, names.label?_line raw, ?_, ?_, ?_, ?_, ?_⟩
  · intro hkind
    rw [hrenamed, Line.keyword_of_origin hkind, argument_origin, hargument]
  · intro hkind
    rw [hdata hkind, ofToken?_token]
  · intro hkind
    rw [hdata hkind, convertible_token_iff]
  · intro _
    exact names.keyword_line raw
  · intro hkind instruction hkeyword
    have hne := Line.keyword_ne_of_instruction hkind
    have hmnemonic := (Line.ofMnemonic?_keyword_iff raw instruction).mpr hkeyword
    by_cases hformat : instruction.format = .memory
    · apply counterpart_of_memory _ observe hformat
      rw [hrenamed, hargument, Text.fields_trim, Text.fields_trim,
        names.fields_argument hne hmnemonic hformat]
    · rw [hrenamed, names.argument_of_not_memory hne hmnemonic hformat, ← hargument]
      exact names.counterpart_of_not_memory observe hformat (Line.argument raw)

end Renaming

/-- Two programs that only differ in the names of labels. -/
structure Program.SameButNames (rename : Text → Text) (program other : Program) : Prop where
  words : other.image.words = program.image.words
  load : other.image.load = program.image.load
  symbols : other.symbols = program.symbols.map (Prod.map rename id)
  warnings : other.log = program.log.map (Warning.moved rename id)
  warningLines : other.log.map Warning.line = program.log.map Warning.line

theorem Program.Counterpart.sameButNames {rename : Text → Text} {program other : Program}
    (hcounterpart : program.Counterpart id rename id other) : program.SameButNames rename other := by
  have hwords : other.image.words = program.image.words := by simpa using hcounterpart.words
  have hlog : other.log = program.log.map (Warning.moved rename id) := by
    simpa using hcounterpart.log
  refine ⟨hwords, ?_, hcounterpart.symbols, hlog, ?_⟩
  · rw [Image.load, Image.loadLines, hwords, Image.load, Image.loadLines]
  · simp [hlog, Function.comp_def]

/-- Labels can be renamed.  The source with its labels renamed is assembled if the source is, and only
then.  The words, the load text and the lines of the warnings stay, and the symbols have their new names,
in the same order.  Otherwise both runs stop with an error of the same family at the same line. -/
theorem Run.corresponds_of_renamed (names : Renaming) (options : Options) (file : Text)
    (lines : List Text) :
    (ofLines options file lines).Corresponds id (Program.SameButNames names.image)
      (ofLines options file (lines.map names.line)) := by
  have hlines : List.Forall₂ (Line.Counterpart id names.image) lines (lines.map names.line) := by
    rw [List.forall₂_map_right_iff, List.forall₂_same]
    intro raw _
    exact names.counterpart_line id raw
  have hcorresponds := Run.corresponds_of_forall₂ names.apart hlines options file
  exact hcorresponds.mono fun program other => Program.Counterpart.sameButNames

/-- The name with an underscore in front, unless it is the letter of indirection. -/
def Text.underscored : Text → Text
  | [.char 'I'] => [.char 'I']
  | [.char 'i'] => [.char 'i']
  | name => '_' :: name

theorem Text.isName_underscored (name : Text) (hname : isName name = true) :
    isName (underscored name) = true := by
  unfold underscored
  split
  · exact hname
  · exact hname
  · simpa [isName, isNameStart] using Line.isNameChar_of_isName hname

theorem Text.keepsNamesApart_underscored : KeepsNamesApart underscored := by
  intro first second _ _ hequal
  unfold underscored at hequal
  split at hequal <;> split at hequal <;> simp_all

def Renaming.underscored : Renaming where
  image := Text.underscored
  isName_image := Text.isName_underscored
  apart := Text.keepsNamesApart_underscored
  image_capital := rfl
  image_small := rfl

/-- A source that defines one of its labels twice, and the letter of indirection as well. -/
def Source.labelled : List Text :=
  ["LOOP: LDX 1, LOOP ,I ; LOOP".text, "\tI: STX 2,1,END".text, "END:JMA 1,I".text,
    "LOOP: Data  LOOP".text, "SRC 3,1,L,l".text]

/-- The letter of indirection keeps its name, as a flag and as a label, and the label that is defined
twice has the same warning. -/
theorem Run.corresponds_of_underscored :
    Source.labelled.map Renaming.underscored.line =
        ["_LOOP: LDX 1, _LOOP ,I ; LOOP".text, "\tI: STX 2,1,_END".text,
          "_END:JMA 1,I".text, "_LOOP: Data  _LOOP".text, "SRC 3,1,L,l".text] ∧
      (ofLines Options.default [] (Source.labelled.map Renaming.underscored.line)).outcome.map
          Program.symbols =
        .ok [("_LOOP".text, 3), ("I".text, 1), ("_END".text, 2)] ∧
      (ofLines Options.default [] Source.labelled).Corresponds id
        (Program.SameButNames Renaming.underscored.image)
        (ofLines Options.default [] (Source.labelled.map Renaming.underscored.line)) :=
  ⟨by decide +kernel, by decide +kernel,
    Run.corresponds_of_renamed Renaming.underscored Options.default [] Source.labelled⟩

end TwoPass
