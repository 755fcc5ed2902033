import TwoPass.Proofs.Assembly
import TwoPass.Proofs.Diagnostic.Recorder
import TwoPass.Proofs.Machine.Layout

/-!
# The log, line by line

The log of an assembled program is what each line contributes to the survey, line after line, and then
what each line contributes to the encoding.  A line's contributions are computed here from its text, the
lines before it and the symbols, so that the log of a program is known without running the assembler.
An empty log means that nothing was cut off and no label was moved.
-/

namespace TwoPass

namespace Operands

def addressToken? (instruction : Instruction) (text : Text) : Option Text :=
  match instruction.format, Text.fields text with
  | .memory, [_, addr] => some addr
  | .memory, [_, second, third] =>
      if instruction.hasIndexForm && Text.upper third == "I".text then some second
      else some third
  | .memory, [_, _, addr, _] => some addr
  | _, _ => none

def addressValue? (instruction : Instruction) (text : Text) : Option Value :=
  (addressToken? instruction text).bind Value.ofToken?

theorem Spelled.addressValue?_eq {strict : Bool} {instruction : Instruction} {text : Text}
    {operands : Operands} (hspelled : operands.Spelled strict instruction text) :
    addressValue? instruction text =
      match operands with
      | .memory _ _ _ value => some value
      | _ => none := by
  unfold addressValue? addressToken?
  cases hspelled with
  | short hformat hfields hindex hvalue => simp [hformat, hfields, hvalue.1]
  | shortIndirect hformat hfields hform hflag hindex hvalue =>
      simp [hformat, hfields, hform, hflag, hvalue.1]
  | direct hformat hfields hform hregister hindex hvalue =>
      simp only [hformat, hfields, Bool.and_eq_true, beq_iff_eq, hform, ↓reduceIte,
        Option.bind_some, hvalue.1]
  | full hformat hfields hregister hindex hvalue hflag => simp [hformat, hfields, hvalue.1]
  | immediate hformat | registers hformat | shift hformat | device hformat | bare hformat =>
      simp [hformat]

end Operands

namespace Position

/-- The warnings due for the address in an instruction, if it has one. -/
def addressWarnings (file : Text) (symbols : List (Text × Int)) (position : Position)
    (instruction : Instruction) : Log :=
  match Operands.addressValue? instruction (Line.argument position.raw) with
  | none => []
  | some value =>
      match value.address? symbols with
      | none => []
      | some address => value.warnings (position.place file) address

/-- What the encoding has to say about the line: on an instruction the flags that no spelling is known
for, then the address that does not fit. -/
def encodingWarnings (file : Text) (symbols : List (Text × Int)) (position : Position) : Log :=
  if Line.kind position.raw = .instruction then
    match Instruction.ofMnemonic? (Line.keyword position.raw) with
    | none => []
    | some instruction =>
        Operands.flagWarnings (some (position.place file)) instruction
            (Line.argument position.raw) ++
          position.addressWarnings file symbols instruction
  else []

theorem addressWarnings_of_spelled {file : Text} {symbols : List (Text × Int)}
    {position : Position} {strict : Bool} {instruction : Instruction} {operands : Operands}
    {address : Int}
    (hspelled : operands.Spelled strict instruction (Line.argument position.raw))
    (haddress : operands.value.address? symbols = some address) :
    position.addressWarnings file symbols instruction =
      operands.value.warnings (position.place file) address := by
  rw [addressWarnings, hspelled.addressValue?_eq]
  cases operands with
  | memory register index indirect value =>
      simp only [Operands.value] at haddress ⊢
      rw [haddress]
  | immediate _ _ | registers _ _ | shift _ _ _ _ | device _ _ | bare =>
      obtain rfl : 0 = address := Option.some.inj haddress
      rfl

/-- Encoding a word line gives rise to the warnings that are due. -/
theorem eq_encodingWarnings_of_makes {file : Text} {symbols : List (Text × Int)}
    {position : Position} {strict : Bool} {word : Word} {log : Log}
    (hmakes : Line.Makes strict symbols (position.place file) position.raw word log) :
    log = position.encodingWarnings file symbols := by
  cases hmakes with
  | data hkind => simp [encodingWarnings, hkind]
  | instruction hkind hkeyword hspelled haddress =>
      rw [encodingWarnings, if_pos hkind, (Line.ofMnemonic?_keyword_iff _ _).mpr hkeyword]
      dsimp only
      rw [addressWarnings_of_spelled hspelled haddress]

theorem encodingWarnings_of_not_takesWord {position : Position}
    (hword : Line.takesWord position.raw = false) (file : Text) (symbols : List (Text × Int)) :
    position.encodingWarnings file symbols = [] := by
  have hkind : Line.kind position.raw ≠ .instruction := by
    intro hkind
    rw [(Line.takesWord_iff _).mpr (Or.inr hkind)] at hword
    contradiction
  rw [encodingWarnings, if_neg hkind]

end Position

theorem Definition.address_eq_of_quiet {earlier : List Definition} {definition last : Definition}
    (hquiet : definition.redefinitionWarnings earlier = [])
    (hlast : last? definition.name earlier = some last) : last.address = definition.address := by
  simpa [redefinitionWarnings, hlast] using hquiet

theorem Definition.place_of_mem_redefinitionWarnings {earlier : List Definition}
    {definition : Definition} {warning : Warning}
    (hmem : warning ∈ definition.redefinitionWarnings earlier) :
    warning.place = definition.place := by
  unfold redefinitionWarnings at hmem
  split at hmem
  · simp at hmem
  · split at hmem
    · simp at hmem
    · rw [List.mem_singleton.mp hmem]

theorem Value.place_of_mem_warnings {place : Place} {value : Value} {address : Int}
    {warning : Warning} (hmem : warning ∈ value.warnings place address) :
    warning.place = some place := by
  unfold warnings at hmem
  rcases List.mem_append.mp hmem with hoverflow | htruncated
  · split at hoverflow <;> simp_all
  · split at htruncated <;> simp_all

theorem ShiftFlag.place_of_mem_warnings {place : Option Place} {flag : ShiftFlag} {token : Text}
    {warning : Warning} (hmem : warning ∈ flag.warnings place token) : warning.place = place := by
  unfold warnings at hmem
  split at hmem <;> simp_all

theorem Operands.place_of_mem_flagWarnings {place : Option Place} {instruction : Instruction}
    {text : Text} {warning : Warning} (hmem : warning ∈ flagWarnings place instruction text) :
    warning.place = place := by
  unfold flagWarnings at hmem
  split at hmem
  · rcases List.mem_append.mp hmem with hdirection | hkind
    · exact ShiftFlag.place_of_mem_warnings hdirection
    · exact ShiftFlag.place_of_mem_warnings hkind
  · simp at hmem

namespace Position

variable {file : Text} {symbols : List (Text × Int)} {position : Position} {warning : Warning}

theorem place_of_mem_surveyWarnings (hmem : warning ∈ position.surveyWarnings file) :
    warning.place = some (position.place file) := by
  rcases List.mem_append.mp hmem with hoverflow | hredefined
  · unfold overflowWarnings at hoverflow
    split at hoverflow <;> simp_all
  · unfold redefinitionWarnings at hredefined
    split at hredefined
    · simp at hredefined
    · rename_i definition hdefinition
      obtain ⟨label, -, rfl⟩ := Option.map_eq_some_iff.mp hdefinition
      exact Definition.place_of_mem_redefinitionWarnings hredefined

theorem place_of_mem_encodingWarnings (hmem : warning ∈ position.encodingWarnings file symbols) :
    warning.place = some (position.place file) := by
  unfold encodingWarnings at hmem
  split at hmem
  · split at hmem
    · simp at hmem
    · rcases List.mem_append.mp hmem with hflag | haddress
      · exact Operands.place_of_mem_flagWarnings hflag
      · unfold addressWarnings at haddress
        split at haddress
        · simp at haddress
        · split at haddress
          · simp at haddress
          · exact Value.place_of_mem_warnings haddress
  · simp at hmem

end Position

namespace Source

theorem flatMap_wordPositions (file : Text) (symbols : List (Text × Int)) (source : List Text) :
    (wordPositions source).flatMap (Position.encodingWarnings file symbols) =
      (positions source).flatMap (Position.encodingWarnings file symbols) := by
  unfold wordPositions
  induction positions source with
  | nil => rfl
  | cons position rest ih =>
      cases hword : Line.takesWord position.raw with
      | true => simp [hword, ih]
      | false =>
          simp [hword, ih, Position.encodingWarnings_of_not_takesWord hword]

/-- If no line gives rise to a redefinition warning, every label has one address throughout. -/
theorem address_eq_of_no_redefinition {file : Text} {source : List Text}
    (hquiet : ∀ position ∈ positions source, position.redefinitionWarnings file = []) :
    ∀ first ∈ definitions file source, ∀ second ∈ definitions file source,
      first.name = second.name → first.address = second.address := by
  induction source using List.reverseRecOn with
  | nil => simp [definitions, positions, positionsFrom]
  | append_singleton before raw ih =>
      rw [positions_append_singleton] at hquiet
      have hbefore := ih (fun position hmem => hquiet position (List.mem_append_left _ hmem))
      have hraw := hquiet ⟨before, raw⟩ (by simp)
      rw [definitions_append_singleton]
      cases hdefinition : Position.definition? file ⟨before, raw⟩ with
      | none => simpa using hbefore
      | some definition =>
          -- The last earlier definition agrees with the new one, and by induction with all others.
          have hagrees : ∀ earlier ∈ definitions file before, earlier.name = definition.name →
              earlier.address = definition.address := by
            intro earlier hearlier hname
            rw [Position.redefinitionWarnings, hdefinition] at hraw
            have hlisted : definition.name ∈ (definitions file before).map Definition.name := by
              rw [← hname]
              exact List.mem_map_of_mem hearlier
            obtain ⟨last, hlast⟩ :=
              Option.isSome_iff_exists.mp ((Definition.last?_isSome_iff _ _).mpr hlisted)
            obtain ⟨hmem, hlastName⟩ := Definition.mem_of_last? hlast
            calc earlier.address
                = last.address := hbefore earlier hearlier last hmem (hname.trans hlastName.symm)
              _ = definition.address := Definition.address_eq_of_quiet hraw hlast
          intro first hfirst second hsecond hname
          simp only [Option.toList_some, List.mem_append, List.mem_singleton] at hfirst hsecond
          rcases hfirst with hfirst | rfl <;> rcases hsecond with hsecond | rfl
          · exact hbefore first hfirst second hsecond hname
          · exact hagrees first hfirst hname
          · exact (hagrees second hsecond hname.symm).symm
          · rfl

end Source

namespace Assembled

variable {options : Options} {file : Text} {source : List Text} {program : Program}
  {outputs : List (PlacedWord × Log)}

/-- The log is what the lines contribute to the survey and then what they contribute to the
encoding. -/
theorem log_eq (hassembled : Assembled options file source program outputs) :
    program.log = (Source.positions source).flatMap (Position.surveyWarnings file) ++
      (Source.positions source).flatMap (Position.encodingWarnings file program.symbols) := by
  have hlogs : outputs.map Prod.snd =
      (Source.wordPositions source).map (Position.encodingWarnings file program.symbols) :=
    map_eq_map_of_forall₂ (hassembled.yields.flip.imp fun output position hyields =>
      Position.eq_encodingWarnings_of_makes hyields.makes)
  have hencoding : outputs.flatMap Prod.snd = (Source.wordPositions source).flatMap
      (Position.encodingWarnings file program.symbols) := by
    rw [List.flatMap_def, hlogs, ← List.flatMap_def]
  rw [hassembled.log, hencoding, Source.flatMap_wordPositions]

theorem warnings_eq_nil (hassembled : Assembled options file source program outputs)
    (hquiet : program.log = []) {position : Position}
    (hposition : position ∈ Source.positions source) :
    position.overflowWarnings file = [] ∧ position.redefinitionWarnings file = [] ∧
      position.encodingWarnings file program.symbols = [] := by
  rw [hassembled.log_eq, List.append_eq_nil_iff, List.flatMap_eq_nil_iff,
    List.flatMap_eq_nil_iff] at hquiet
  have hsurvey := hquiet.1 position hposition
  rw [Position.surveyWarnings, List.append_eq_nil_iff] at hsurvey
  exact ⟨hsurvey.1, hsurvey.2, hquiet.2 position hposition⟩

theorem instruction_warnings_eq_nil (hassembled : Assembled options file source program outputs)
    (hquiet : program.log = []) {position : Position}
    (hposition : position ∈ Source.positions source)
    (hkind : Line.kind position.raw = .instruction) {instruction : Instruction}
    (hkeyword : Line.keyword position.raw = instruction.mnemonic) :
    Operands.flagWarnings (some (position.place file)) instruction (Line.argument position.raw) =
        [] ∧
      position.addressWarnings file program.symbols instruction = [] := by
  obtain ⟨-, -, hencoding⟩ := hassembled.warnings_eq_nil hquiet hposition
  rw [Position.encodingWarnings, if_pos hkind, (Line.ofMnemonic?_keyword_iff _ _).mpr hkeyword]
    at hencoding
  exact List.append_eq_nil_iff.mp hencoding

/-- Without warnings the address field holds the whole address. -/
theorem address_field_of_quiet (hassembled : Assembled options file source program outputs)
    (hquiet : program.log = []) {position : Position}
    (hposition : position ∈ Source.positions source)
    (hkind : Line.kind position.raw = .instruction) {instruction : Instruction}
    (hkeyword : Line.keyword position.raw = instruction.mnemonic) {register index : Fin 4}
    {indirect : Bool} {value : Value}
    (hspelled : (Operands.memory register index indirect value).Spelled options.strictFlags
      instruction (Line.argument position.raw))
    {placed : PlacedWord} (hplaced : placed ∈ program.image.words)
    (hline : placed.line = position.number) :
    value.address? program.symbols = some (placed.word.toNat % 32 : Nat) := by
  obtain ⟨log, hyields⟩ := hassembled.yields_of_line hplaced hposition hline
  have hmakes : Line.Makes _ _ _ _ placed.word log := hyields.makes
  obtain ⟨address, haddress, hnonneg, hword⟩ := hmakes.of_spelled hkind hkeyword hspelled
  obtain ⟨-, hwarnings⟩ := hassembled.instruction_warnings_eq_nil hquiet hposition hkind hkeyword
  rw [Position.addressWarnings_of_spelled hspelled haddress] at hwarnings
  have hsmall : ¬ 31 < address := by
    intro hlarge
    simp [Value.warnings, hlarge] at hwarnings
  have hfield := Operands.toNat_word_memory_mod instruction.opcode address register index indirect
    value
  rw [← hword] at hfield
  simp only [Operands.value] at haddress
  rw [haddress]
  congr 1
  omega

/-- Without warnings every word lies within the machine's addresses. -/
theorem address_le_of_quiet (hassembled : Assembled options file source program outputs)
    (hquiet : program.log = []) {placed : PlacedWord} (hplaced : placed ∈ program.image.words) :
    placed.address ≤ 65535 := by
  obtain ⟨position, hposition, log, hyields⟩ := hassembled.exists_position hplaced
  obtain ⟨hmem, hword⟩ := (Source.mem_wordPositions_iff _ _).mp hposition
  obtain ⟨hoverflow, -⟩ := hassembled.warnings_eq_nil hquiet hmem
  have hsmall : ¬ Word.largest < position.counter := by
    intro hlarge
    simp [Position.overflowWarnings, hword, hlarge] at hoverflow
  have haddress := hyields.address
  simp only [Word.largest] at hsmall
  simp only at haddress
  omega

/-- Without warnings all definitions of a label give it the same address. -/
theorem bound_eq_of_quiet (hassembled : Assembled options file source program outputs)
    (hquiet : program.log = []) {first second : Position}
    (hfirst : first ∈ Source.positions source) (hsecond : second ∈ Source.positions source)
    {label : Text} (hdefines : Line.Defines first.raw label)
    (hagain : Line.Defines second.raw label) : first.bound = second.bound := by
  have hdefinition : ∀ position ∈ Source.positions source, Line.Defines position.raw label →
      ⟨label, position.bound, some (position.place file)⟩ ∈ Source.definitions file source := by
    intro position hposition hlabel
    refine List.mem_filterMap.mpr ⟨position, hposition, ?_⟩
    rw [Position.definition?, (Line.label?_eq_some_iff _ _).mpr hlabel]
    rfl
  exact Source.address_eq_of_no_redefinition
    (fun position hposition => (hassembled.warnings_eq_nil hquiet hposition).2.1)
    _ (hdefinition first hfirst hdefines) _ (hdefinition second hsecond hagain) rfl

/-- Without warnings every shift flag has a known spelling. -/
theorem flags_known_of_quiet (hassembled : Assembled options file source program outputs)
    (hquiet : program.log = []) {position : Position}
    (hposition : position ∈ Source.positions source)
    (hkind : Line.kind position.raw = .instruction) {instruction : Instruction}
    (hkeyword : Line.keyword position.raw = instruction.mnemonic)
    (hformat : instruction.format = .shift) {register count direction kind : Text}
    (hfields : Text.fields (Line.argument position.raw) = [register, count, direction, kind]) :
    ShiftFlag.direction.ofToken? direction ≠ none ∧ ShiftFlag.kind.ofToken? kind ≠ none := by
  obtain ⟨hflags, -⟩ := hassembled.instruction_warnings_eq_nil hquiet hposition hkind hkeyword
  simp only [Operands.flagWarnings, hformat, hfields, List.append_eq_nil_iff, ShiftFlag.warnings,
    ite_eq_right_iff, List.cons_ne_nil, imp_false] at hflags
  exact hflags

end Assembled

/-- What the program holds is what its source says in full. -/
structure Program.Faithful (strict : Bool) (source : List Text) (program : Program) : Prop where
  /-- Every address field holds the whole address. -/
  address_field : ∀ position ∈ Source.positions source, Line.kind position.raw = .instruction →
    ∀ (instruction : Instruction) (register index : Fin 4) (indirect : Bool) (value : Value),
      Line.keyword position.raw = instruction.mnemonic →
      (Operands.memory register index indirect value).Spelled strict instruction
        (Line.argument position.raw) →
      ∀ placed ∈ program.image.words, placed.line = position.number →
        value.address? program.symbols = some (placed.word.toNat % 32 : Nat)
  /-- Every word lies within the machine's addresses. -/
  address_le : ∀ placed ∈ program.image.words, placed.address ≤ 65535
  /-- Every label has one address throughout. -/
  bound_eq : ∀ first ∈ Source.positions source, ∀ second ∈ Source.positions source,
    ∀ label, Line.Defines first.raw label → Line.Defines second.raw label →
      first.bound = second.bound
  /-- Every shift flag has a known spelling. -/
  flags_known : ∀ position ∈ Source.positions source, Line.kind position.raw = .instruction →
    ∀ instruction : Instruction, Line.keyword position.raw = instruction.mnemonic →
      instruction.format = .shift → ∀ register count direction kind,
        Text.fields (Line.argument position.raw) = [register, count, direction, kind] →
          ShiftFlag.direction.ofToken? direction ≠ none ∧ ShiftFlag.kind.ofToken? kind ≠ none

/-- The log of an assembled program has what every line contributes to the survey, in order, and then
what every line contributes to the encoding, in order; each warning names its line and is printed in the
words for its cause.  A program with an empty log is faithful to its source. -/
theorem Run.log_of_outcome {options : Options} {file : Text} {lines : List Text}
    {program : Program} (hrun : (Run.ofLines options file lines).outcome = .ok program) :
    program.log =
        (Source.positions (lines.map Text.dropLineEnds)).flatMap (Position.surveyWarnings file) ++
        (Source.positions (lines.map Text.dropLineEnds)).flatMap
          (Position.encodingWarnings file program.symbols) ∧
      (∀ position ∈ Source.positions (lines.map Text.dropLineEnds),
        ∀ warning ∈ position.surveyWarnings file ++
          position.encodingWarnings file program.symbols,
          warning.place = some ⟨file, position.number⟩) ∧
      (∀ warning ∈ program.log, Warning.Wording warning.place warning.cause warning.text) ∧
      (program.log = [] →
        program.Faithful options.strictFlags (lines.map Text.dropLineEnds)) := by
  obtain ⟨outputs, hassembled⟩ := Run.assembled_of_outcome hrun
  refine ⟨hassembled.log_eq, ?_, fun warning _ => warning.wording_text, ?_⟩
  · intro position hposition warning hwarning
    rcases List.mem_append.mp hwarning with hsurvey | hencoding
    · exact Position.place_of_mem_surveyWarnings hsurvey
    · exact Position.place_of_mem_encodingWarnings hencoding
  · intro hquiet
    refine ⟨?_, fun placed => hassembled.address_le_of_quiet hquiet, ?_, ?_⟩
    · intro position hposition hkind instruction register index indirect value hkeyword hspelled _
      exact hassembled.address_field_of_quiet hquiet hposition hkind hkeyword hspelled
    · intro first hfirst second hsecond label
      exact hassembled.bound_eq_of_quiet hquiet hfirst hsecond
    · intro position hposition hkind instruction hkeyword hformat register count direction kind
      exact hassembled.flags_known_of_quiet hquiet hposition hkind hkeyword hformat

/-- One warning of each kind: those for the moved label and for the word beyond the last address come
before those for the address, which is both too large and cut off, and for the unknown flag. -/
theorem Run.log_of_doubtful_lines :
    ∃ program, (Run.ofLines Options.default "a.asm".text
        ["x: LDR 0,0,y".text, "x: SRC 1,2,Q,A".text, "LOC 65535".text, "HLT".text,
          "y: HLT".text]).outcome = .ok program ∧
      program.log.map Warning.line = [some 2, some 5, some 1, some 1, some 2] ∧
      program.log.map Warning.text =
        ["a.asm:2: warning: label redefined: 'x' (was 0, now 1); first defined at line 1",
          "a.asm:5: warning: location counter 65536 does not fit in 16 bits; word is placed at 0",
          "a.asm:1: warning: address 65536 does not fit in 16 bits",
          "a.asm:1: warning: address 'y' = 65536 > 31; encoding lower 5 bits (0). " ++
            "Use index registers to reach the full address",
          "a.asm:2: warning: unrecognized L/R flag 'Q'; treating it as 0"] := by
  refine Run.exists_program Program.symbols [("x".text, 1), ("y".text, 65536)]
    (by decide +kernel) fun program hrun hsymbols => ?_
  obtain ⟨hlog, -⟩ := Run.log_of_outcome hrun
  rw [hlog, hsymbols]
  decide +kernel

end TwoPass
