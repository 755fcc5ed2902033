import TwoPass.Proofs.Command.Ending
import TwoPass.Proofs.LongNumeral
import TwoPass.Proofs.Source.Statement

/-!
# Which exit code a source leads to

An invocation whose source is a text and whose files can be written ends with exit code zero or with
exit code one and an error of the source, unless its run comes to a numeral that is too long or to a name
that cannot be printed.  Then the command takes the fault for its own and says so by exit code three.
-/

namespace TwoPass

/-- An origin of too many digits is met at once. -/
theorem Source.meetsLongNumeral_origin {digits : Text} (hdigits : Text.isDigits digits = true)
    (hlong : Text.maxDigits < digits.length) (strict : Bool) :
    MeetsLongNumeral strict (Text.lines (Text.unlines [Line.plain "LOC".text digits])) := by
  have hloc : ∀ c ∈ "LOC".text, Text.isPlain c = true := List.all_eq_true.mp (by decide)
  have hplain : ∀ c ∈ digits, Text.isPlain c = true := by
    intro c hmem
    simp only [Text.isDigits, Bool.and_eq_true, List.all_eq_true] at hdigits
    exact Text.isPlain_of_isDigit (hdigits.2 c hmem)
  have hline : Text.lines (Text.unlines [Line.plain "LOC".text digits]) =
      [Line.plain "LOC".text digits] :=
    Text.lines_unlines (List.forall_mem_singleton.mpr (Line.isLine_plain hloc hplain))
  have hkind : Line.kind (Line.plain "LOC".text digits) = .origin := by
    rw [Line.kind_plain (by decide) hloc hplain]
    decide
  rw [hline]
  refine .argument (List.nil_append _).symm (by simp) ?_
  simp only [Line.LongArgument, hkind, Line.argument_plain (by decide) hloc hplain]
  exact ⟨hdigits, hlong⟩

namespace FileSystem

variable {σ : Type} [FileSystem σ]

/-- The second state is reached from the first by writes that the system accepts. -/
inductive Reaches : σ → σ → Prop
  | here (system : σ) : Reaches system system
  | write {before next after : σ} {path : Text} {content : Bytes}
      (hwrite : writeFile before path content = .ok next) (hrest : Reaches next after) :
      Reaches before after

/-- Anything can be written to the path, also after other files have been written. -/
def Creatable (system : σ) (path : Text) : Prop :=
  ∀ after, Reaches system after → ∀ content, ∃ next, writeFile after path content = .ok next

theorem Creatable.of_write {before next : σ} {path other : Text} {content : Bytes}
    (hcreatable : Creatable before path) (hwrite : writeFile before other content = .ok next) :
    Creatable next path :=
  fun after hreaches => hcreatable after (.write hwrite hreaches)

end FileSystem

namespace Store

theorem exists_replace_of_writeFile {store next : Store} {path : Text} {content : Bytes}
    (hwrite : FileSystem.writeFile store path content = .ok next) :
    ∃ names, next = store.replace names content := by
  rw [FileSystem.writeFile] at hwrite
  split at hwrite
  · cases hwrite
  · rename_i name _
    have hstore : FileSystem.write store name content =
        (store.target name).map fun names => store.replace names content := rfl
    rw [hstore] at hwrite
    cases htarget : store.target name with
    | error error => simp [htarget, Except.map] at hwrite
    | ok names => exact ⟨names, by simpa [htarget, Except.map] using hwrite.symm⟩

/-- A path leads through directories, and the files that are written do not change these. -/
theorem Accepts.of_reaches {store after : Store} {path : Bytes} {directory : List Bytes}
    {name : Bytes} (haccepts : store.Accepts path directory name)
    (hreaches : FileSystem.Reaches store after) : after.Accepts path directory name := by
  induction hreaches with
  | here => exact haccepts
  | write hwrite _ ih =>
      obtain ⟨names, rfl⟩ := exists_replace_of_writeFile hwrite
      exact ih (haccepts.replace names _)

/-- In a store a path can be written to if its directory is there and it is no directory itself. -/
theorem creatable_of_target {store : Store} {path : Text} {bytes : Bytes} {names : List Bytes}
    (hbytes : Path.bytes path = .ok bytes) (htarget : store.target bytes = .ok names) :
    FileSystem.Creatable store path := by
  obtain ⟨directory, name, haccepts, -⟩ := exists_accepts_of_target htarget
  intro after hreaches content
  have hlater := (haccepts.of_reaches hreaches).target_eq
  refine ⟨after.replace (directory ++ [name]) content, ?_⟩
  have hwrite : FileSystem.write after bytes content =
      .ok (after.replace (directory ++ [name]) content) := by
    change (after.target bytes).map _ = _
    rw [hlater]
    rfl
  simp only [FileSystem.writeFile, hbytes, hwrite]

end Store

/-- The error tells what is wrong with the lines: it names one of them by its number and shows it, or it
lists the warnings. -/
inductive Error.Explains (file : Text) (lines : List Text) (log : Log) : Error → Prop
  | line {front after : List Text} {bad : Text} {cause : Error.Cause}
      (hlines : lines = front ++ bad :: after) :
      Explains file lines log ⟨cause, some ⟨file, front.length + 1⟩, some bad⟩
  | warnings (hlog : log ≠ []) : Explains file lines log ⟨.warningsPresent log, none, none⟩

/-- A run that settles its source and gives no program gives an error that tells why. -/
theorem Run.Settles.exists_explains {options : Options} {file : Text} {lines : List Text} {run : Run}
    (hsettles : run.Settles options file lines) :
    (∃ program, run.outcome = .ok program) ∨
      ∃ report, run.outcome = .error (.error report) ∧ report.Explains file lines run.log := by
  cases hsettles with
  | assembled houtcome => exact Or.inl ⟨_, houtcome⟩
  | refused hlines _ hstops =>
      obtain ⟨cause, -, houtcome⟩ := hstops
      exact Or.inr ⟨_, houtcome, .line hlines⟩
  | escalated _ hlog houtcome => exact Or.inr ⟨_, houtcome, .warnings hlog⟩

namespace Command

section ExitCode

variable {σ : Type} [FileSystem σ] {system : σ} {invocation : Invocation} {text : Text}
  {bytes : Bytes}

def Invocation.outputs (invocation : Invocation) : List Text :=
  [Path.normal invocation.listing, Path.normal invocation.load] ++
    (invocation.symbols.map Path.normal).toList

theorem Invocation.map_path_deliveries (invocation : Invocation) (program : Program) :
    (invocation.deliveries program).map Delivery.path = invocation.outputs := by
  cases hsymbols : invocation.symbols <;> simp [Invocation.deliveries, Invocation.outputs, hsymbols]

/-- The run comes to a name that it cannot print.  A verbose run prints the names of all its files, any
other only those of the listing and the load file when they have been written. -/
inductive Invocation.MeetsUnprintable (system : σ) (invocation : Invocation) : Prop
  | input (hverbose : invocation.verbose = true) (hname : ¬ Utf8.Encodable invocation.file)
  | output {program : Program} {path : Text} (hresult : invocation.result system = .ok program)
      (hmem : path ∈ invocation.outputs) (hname : ¬ Utf8.Encodable path)
      (hprinted : invocation.verbose = true ∨ path = Path.normal invocation.listing ∨
        path = Path.normal invocation.load)

theorem encodable_notice_iff {program : Program} {delivery : Delivery}
    (hmem : delivery ∈ invocation.deliveries program) :
    Utf8.Encodable delivery.notice ↔ Utf8.Encodable delivery.path := by
  have hwhat : Utf8.Encodable delivery.what := by
    cases hsymbols : invocation.symbols <;>
      simp only [Invocation.deliveries, hsymbols, Option.map_none, Option.map_some,
        Option.toList_none, Option.toList_some, List.append_nil, List.cons_append, List.nil_append,
        List.mem_cons, List.not_mem_nil, or_false] at hmem
    · rcases hmem with rfl | rfl <;> simp
    · rcases hmem with rfl | rfl | rfl <;> simp
  simp [Delivery.notice, hwhat]

/-- Files that can be written are all written, unless the run cannot say so. -/
theorem Delivers.stop_cases {verbose : Bool} {deliveries : List Delivery} {after : σ}
    {stop : Option Failure} (hdelivers : Delivers verbose system deliveries after stop)
    (hcreatable : ∀ delivery ∈ deliveries, FileSystem.Creatable system delivery.path) :
    (stop = none ∧ (verbose = true → ∀ delivery ∈ deliveries, Utf8.Encodable delivery.notice)) ∨
      ∃ fault, stop = some (.unencodable fault) ∧ verbose = true ∧
        ∃ delivery ∈ deliveries, ¬ Utf8.Encodable delivery.notice := by
  induction hdelivers with
  | done => exact Or.inl ⟨rfl, by simp⟩
  | @refused system delivery rest content fault _ hrefused =>
      obtain ⟨next, hnext⟩ := hcreatable delivery List.mem_cons_self system (.here system) content
      rw [hrefused] at hnext
      cases hnext
  | @unsaid system next delivery rest content fault _ _ _ hverbose hunsaid =>
      exact Or.inr ⟨fault, rfl, hverbose, delivery, List.mem_cons_self,
        (Utf8.exists_encode_error_iff _).mp ⟨fault, hunsaid⟩⟩
  | @written system next after delivery rest content stop _ hwrite _ hsaid _ ih =>
      rcases ih fun other hmem =>
        (hcreatable other (List.mem_cons_of_mem _ hmem)).of_write hwrite with
        ⟨hnone, hrest⟩ | ⟨fault, hstop, hverbose, other, hmem, hname⟩
      · refine Or.inl ⟨hnone, fun hverbose => List.forall_mem_cons.mpr ⟨hsaid hverbose, hrest hverbose⟩⟩
      · exact Or.inr ⟨fault, hstop, hverbose, other, List.mem_cons_of_mem _ hmem, hname⟩

/-- A source that is a text is read as such, if its name can be printed. -/
theorem Invocation.source_of_encode (hencode : Utf8.encode text = .ok bytes)
    (hread : FileSystem.readFile system invocation.file = .ok bytes)
    (hname : invocation.verbose = false ∨ Utf8.Encodable invocation.file) :
    invocation.source system = .ok text := by
  have hline : (Session.start invocation.options).options.verbose = false ∨
      Utf8.Encodable ("Assembling " ++ invocation.file ++ "...") := by
    simpa [Session.start, Invocation.options] using hname
  obtain ⟨printed, hprinted⟩ := Session.exists_announce _ hline
  simp only [Invocation.source, hprinted, hread, Utf8.decode_of_encode hencode]
  rfl

/-- A name that cannot be printed counts as a fault of the command. -/
theorem exitCode_of_unprintable_input (hverbose : invocation.verbose = true)
    (hname : ¬ Utf8.Encodable invocation.file) : (execute system invocation).exitCode = 3 := by
  have hline : ¬ Utf8.Encodable ("Assembling " ++ invocation.file ++ "...") := by simpa using hname
  obtain ⟨fault, hfault⟩ := (Utf8.exists_encode_error_iff _).mpr hline
  have hsource : invocation.source system = .error (.unencodable fault) := by
    simp only [Invocation.source, Session.announce, Session.start, Invocation.options, hverbose,
      if_true, hfault]
  have hresult : invocation.result system = .error (.unencodable fault) := by
    rw [Invocation.result, Invocation.assembly, hsource]
    rfl
  rw [(execute_of_error hresult).exitCode_eq]
  rfl

/-- A numeral that is too long counts as a fault of the command. -/
theorem exitCode_of_meets (hsource : invocation.source system = .ok text)
    (hmeets : Source.MeetsLongNumeral invocation.strictFlags (Text.lines text)) :
    (execute system invocation).exitCode = 3 := by
  rw [← Text.map_dropLineEnds_lines] at hmeets
  obtain ⟨fault, houtcome⟩ : ∃ fault,
      (Run.ofText invocation.options invocation.file text).outcome = .error (.numeral fault) :=
    Run.exists_numeral_of_meets hmeets invocation.file
  have hresult : invocation.result system = .error (.run (.numeral fault)) := by
    rw [Invocation.result_of_source hsource, houtcome]
    rfl
  rw [(execute_of_error hresult).exitCode_eq]
  rfl

/-- Any other text is assembled or has an error that tells why not. -/
theorem result_of_not_meets (hsource : invocation.source system = .ok text)
    (hnot : ¬ Source.MeetsLongNumeral invocation.strictFlags (Text.lines text)) :
    (∃ program, invocation.result system = .ok program) ∨
      ∃ report, invocation.result system = .error (.run (.error report)) ∧
        report.Explains invocation.file (Text.lines text) (invocation.log system) := by
  rw [← Text.map_dropLineEnds_lines] at hnot
  have hsettles : (Run.ofText invocation.options invocation.file text).Settles invocation.options
      invocation.file ((Text.lines text).map Text.dropLineEnds) :=
    Run.settles_of_not_meets hnot invocation.file
  rw [Text.map_dropLineEnds_lines] at hsettles
  rw [Invocation.log_of_source hsource, Invocation.result_of_source hsource]
  rcases hsettles.exists_explains with ⟨program, houtcome⟩ | ⟨report, houtcome, hexplains⟩
  · exact Or.inl ⟨program, by rw [houtcome]; rfl⟩
  · exact Or.inr ⟨report, by rw [houtcome]; rfl, hexplains⟩

/-- A program whose files can be written gives exit code zero, unless a name cannot be printed. -/
theorem exitCode_of_program {program : Program} (hresult : invocation.result system = .ok program)
    (houtputs : ∀ path ∈ invocation.outputs, FileSystem.Creatable system path)
    (hinput : invocation.verbose = true → Utf8.Encodable invocation.file) :
    (execute system invocation).exitCode = 0 ∧ ¬ invocation.MeetsUnprintable system ∨
      (execute system invocation).exitCode = 3 ∧ invocation.MeetsUnprintable system := by
  have hpath : ∀ delivery ∈ invocation.deliveries program,
      delivery.path ∈ invocation.outputs := by
    intro delivery hmem
    rw [← invocation.map_path_deliveries program]
    exact List.mem_map_of_mem hmem
  have hdelivers := Invocation.delivers hresult
  cases hdelivered : deliver invocation.options system (invocation.deliveries program) with
  | mk after stop =>
      rw [hdelivered] at hdelivers
      rcases hdelivers.stop_cases fun delivery hmem => houtputs _ (hpath delivery hmem) with
        ⟨rfl, hsaid⟩ | ⟨fault, rfl, hverbose, delivery, hmem, hname⟩
      · rcases execute_of_delivered hresult hdelivered with
          ⟨fault, hline, hcode, -, -, -⟩ | ⟨hcompletion, hcode, -, -, -⟩
        · refine Or.inr ⟨hcode, ?_⟩
          have hnot : ¬ Utf8.Encodable (completion invocation) := by
            rw [← Text.encodable_plain_iff]
            exact (Utf8.exists_encode_error_iff _).mp ⟨fault, hline⟩
          rw [encodable_completion_iff, not_and_or] at hnot
          rcases hnot with hlisting | hload
          · exact .output hresult (by simp [Invocation.outputs]) hlisting (Or.inr (Or.inl rfl))
          · exact .output hresult (by simp [Invocation.outputs]) hload (Or.inr (Or.inr rfl))
        · refine Or.inl ⟨hcode, ?_⟩
          obtain ⟨hlisting, hload⟩ := (encodable_completion_iff invocation).mp hcompletion
          rintro (⟨hverbose, hname⟩ | ⟨hother, hmem, hname, hverbose | rfl | rfl⟩)
          · exact hname (hinput hverbose)
          · rw [← invocation.map_path_deliveries program] at hmem
            obtain ⟨delivery, hdelivery, rfl⟩ := List.mem_map.mp hmem
            exact hname ((encodable_notice_iff hdelivery).mp (hsaid hverbose delivery hdelivery))
          · exact hname hlisting
          · exact hname hload
      · refine Or.inr ⟨(execute_of_stop hresult hdelivered).exitCode_eq, ?_⟩
        rw [encodable_notice_iff hmem] at hname
        exact .output hresult (hpath delivery hmem) hname (Or.inl hverbose)

/-- A source that is a text meets one of the two faults, or it is settled without one. -/
theorem exitCode_cases (hencode : Utf8.encode text = .ok bytes)
    (hread : FileSystem.readFile system invocation.file = .ok bytes)
    (houtputs : ∀ path ∈ invocation.outputs, FileSystem.Creatable system path) :
    (execute system invocation).exitCode = 3 ∧
        (Source.MeetsLongNumeral invocation.strictFlags (Text.lines text) ∨
          invocation.MeetsUnprintable system) ∨
      ¬ (Source.MeetsLongNumeral invocation.strictFlags (Text.lines text) ∨
          invocation.MeetsUnprintable system) ∧
        ((execute system invocation).exitCode = 0 ∧
            (∃ program, invocation.result system = .ok program) ∨
          (execute system invocation).exitCode = 1 ∧
            ∃ report, invocation.result system = .error (.run (.error report)) ∧
              report.Explains invocation.file (Text.lines text) (invocation.log system)) := by
  by_cases hinput : invocation.verbose = true → Utf8.Encodable invocation.file
  · have hsource : invocation.source system = .ok text :=
      Invocation.source_of_encode hencode hread (by cases hverbose : invocation.verbose <;> simp_all)
    by_cases hmeets : Source.MeetsLongNumeral invocation.strictFlags (Text.lines text)
    · exact Or.inl ⟨exitCode_of_meets hsource hmeets, Or.inl hmeets⟩
    · rcases result_of_not_meets hsource hmeets with ⟨program, hresult⟩ | ⟨report, hresult, hexplains⟩
      · rcases exitCode_of_program hresult houtputs hinput with ⟨hcode, hnot⟩ | ⟨hcode, hunprintable⟩
        · exact Or.inr ⟨not_or.mpr ⟨hmeets, hnot⟩, Or.inl ⟨hcode, program, hresult⟩⟩
        · exact Or.inl ⟨hcode, Or.inr hunprintable⟩
      · have hcode : (execute system invocation).exitCode = 1 :=
          (execute_of_error hresult).exitCode_eq
        refine Or.inr ⟨not_or.mpr ⟨hmeets, ?_⟩, Or.inr ⟨hcode, report, hresult, hexplains⟩⟩
        rintro (⟨hverbose, hname⟩ | ⟨hother, -, -, -⟩)
        · exact hname (hinput hverbose)
        · rw [hresult] at hother
          cases hother
  · obtain ⟨hverbose, hname⟩ := Classical.not_imp.mp hinput
    exact Or.inl ⟨exitCode_of_unprintable_input hverbose hname, Or.inr (.input hverbose hname)⟩

end ExitCode

end Command

def Command.ordinary : Command.Invocation :=
  ⟨"a.asm", "a.lst", "a.load", none, false, false, false⟩

/-- Beside the source there is room for the files of an ordinary invocation. -/
theorem Command.creatable_outputs_ordinary (source : Bytes) :
    ∀ path ∈ Command.ordinary.outputs,
      FileSystem.Creatable (Store.empty.addFile [Utf8.bytesOf "a.asm"] source) path := by
  have hlisting : Path.bytes (Path.normal "a.lst") = .ok (Utf8.bytesOf "a.lst") := by decide +kernel
  have hload : Path.bytes (Path.normal "a.load") = .ok (Utf8.bytesOf "a.load") := by decide +kernel
  have htarget : ∀ name ∈ [Utf8.bytesOf "a.lst", Utf8.bytesOf "a.load"],
      (Store.empty.addFile [Utf8.bytesOf "a.asm"] source).target name = .ok [name] := by
    simp only [List.forall_mem_cons, List.not_mem_nil, false_implies, implies_true, and_true]
    exact ⟨rfl, rfl⟩
  intro path hmem
  have hpaths : path = Path.normal "a.lst" ∨ path = Path.normal "a.load" := by
    simpa [Command.Invocation.outputs, Command.ordinary] using hmem
  rcases hpaths with rfl | rfl
  · exact Store.creatable_of_target hlisting (htarget _ (by simp))
  · exact Store.creatable_of_target hload (htarget _ (by simp))

/-- What the exit code says about a source that is a text, if the files can be written.

* The exit code is three exactly if assembling the text comes to a numeral that is too long, or if the
  run comes to a name that it cannot print.
* Otherwise it is zero and there is a program, or it is one and there is an error that names a line of
  the text or lists the warnings.
* A text without a numeral of more than `Text.maxDigits` digits never comes to one. -/
theorem Command.exitCode_of_text {σ : Type} [FileSystem σ] {system : σ}
    {invocation : Command.Invocation} {text : Text} {bytes : Bytes}
    (hencode : Utf8.encode text = .ok bytes)
    (hread : FileSystem.readFile system invocation.file = .ok bytes)
    (houtputs : ∀ path ∈ invocation.outputs, FileSystem.Creatable system path) :
    ((Command.execute system invocation).exitCode = 3 ↔
        Source.MeetsLongNumeral invocation.strictFlags (Text.lines text) ∨
          invocation.MeetsUnprintable system) ∧
      ((Command.execute system invocation).exitCode ≠ 3 →
        ((Command.execute system invocation).exitCode = 0 ∧
            ∃ program, invocation.result system = .ok program) ∨
          ((Command.execute system invocation).exitCode = 1 ∧
            ∃ report, invocation.result system = .error (.run (.error report)) ∧
              report.Explains invocation.file (Text.lines text) (invocation.log system))) ∧
      ((∀ raw ∈ Text.lines text, ∀ token ∈ Text.fields (Line.argument raw),
          Text.Convertible token) →
        ¬ Source.MeetsLongNumeral invocation.strictFlags (Text.lines text)) ∧
      ∀ arguments, Command.accepted? system arguments = some invocation →
        Command.run system arguments = Command.execute system invocation := by
  refine ⟨?_, ?_, Source.not_meetsLongNumeral,
    fun arguments haccepted => Command.run_of_accepted haccepted⟩
  · rcases Command.exitCode_cases hencode hread houtputs with ⟨hcode, hmeets⟩ | ⟨hnot, hends⟩
    · exact iff_of_true hcode hmeets
    · refine iff_of_false ?_ hnot
      rcases hends with ⟨hzero, -⟩ | ⟨hone, -⟩ <;> omega
  · intro hcode
    rcases Command.exitCode_cases hencode hread houtputs with ⟨hthree, -⟩ | ⟨-, hends⟩
    · exact absurd hthree hcode
    · exact hends

/-- An unknown operation behind a numeral that is not too long. -/
theorem Command.exitCode_of_unknown_operation :
    (Command.run (Store.holding "LOC 0006\nFOO 1\n") ["a.asm", "a.lst", "a.load"]).exitCode = 1 := by
  have hread : FileSystem.readFile (Store.holding "LOC 0006\nFOO 1\n") Command.ordinary.file =
      .ok (Utf8.bytesOf "LOC 0006\nFOO 1\n") := by decide +kernel
  obtain ⟨-, hends, -, hrun⟩ := Command.exitCode_of_text (Utf8.encode_text "LOC 0006\nFOO 1\n") hread
    (Command.creatable_outputs_ordinary _)
  rw [hrun _ (by decide +kernel)]
  rcases hends (by decide +kernel) with ⟨-, program, hprogram⟩ | ⟨hone, -⟩
  · have hnone : (Command.ordinary.result
        (Store.holding "LOC 0006\nFOO 1\n")).toOption.isSome = false := by decide +kernel
    simp [hprogram, Except.toOption] at hnone
  · exact hone

/-- A text whose one numeral has a digit too many is a source like any other, but the command takes the
fault for its own. -/
theorem Command.exitCode_of_long_origin :
    ∃ (store : Store) (arguments : List Text) (invocation : Command.Invocation) (bytes : Bytes),
      Command.accepted? store arguments = some invocation ∧
      Utf8.encode (Text.unlines [Line.plain "LOC" (List.replicate 4301 (.char '1'))]) = .ok bytes ∧
      FileSystem.readFile store invocation.file = .ok bytes ∧
      (∀ path ∈ invocation.outputs, FileSystem.Creatable store path) ∧
      (Command.run store arguments).exitCode = 3 := by
  have hdigits : Utf8.Encodable (List.replicate 4301 (.char '1')) :=
    fun offset hmem => CodePoint.noConfusion (List.eq_of_mem_replicate hmem)
  have hencodable : Utf8.Encodable
      (Text.unlines [Line.plain "LOC" (List.replicate 4301 (.char '1'))]) := by
    refine Utf8.encodable_unlines (List.forall_mem_singleton.mpr ?_)
    rw [Line.plain, Utf8.encodable_append]
    refine ⟨Utf8.encodable_text "LOC", ?_⟩
    split
    · exact Utf8.encodable_nil
    · exact (Utf8.encodable_cons_char ' ' _).mpr hdigits
  obtain ⟨bytes, hencode⟩ := (Utf8.exists_encode_iff _).mpr hencodable
  have haccepted : Command.accepted? (Store.empty.addFile [Utf8.bytesOf "a.asm"] bytes)
      ["a.asm", "a.lst", "a.load"] = some Command.ordinary := rfl
  have hread : FileSystem.readFile (Store.empty.addFile [Utf8.bytesOf "a.asm"] bytes)
      Command.ordinary.file = .ok bytes := rfl
  refine ⟨_, _, _, bytes, haccepted, hencode, hread, Command.creatable_outputs_ordinary bytes, ?_⟩
  rw [Command.run_of_accepted haccepted]
  apply Command.exitCode_of_meets (Command.Invocation.source_of_encode hencode hread (Or.inl rfl))
  exact Source.meetsLongNumeral_origin (by decide +kernel) (by decide +kernel) _

end TwoPass
