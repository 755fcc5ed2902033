import TwoPass.Proofs.Assembly
import TwoPass.Proofs.Text.Utf8
import TwoPass.Session
import TwoPass.Storage.Store

/-!
# What a session remembers

Between two runs nothing changes a session, and a run replaces all that was remembered of the one
before.  So a session is at any time what a new session would be after the last run alone.  The program
that is looked at and the image that is written from are kept apart, but they belong to the same run.

All this holds whatever the system of files is and whatever happens to it between two calls.
-/

namespace TwoPass

/-- The file at the path holds the text now, and nothing else has changed. -/
def FileTree.Rewritten {σ : Type} [FileTree σ] (before after : σ) (path text : Text) : Prop :=
  ∃ name content, Path.bytes path = .ok name ∧ Utf8.decode content = .ok text ∧
    Updated before after name content

/-- A file whose content was replaced by the bytes of a text holds the text. -/
theorem FileSystem.rewritten_of_writeFile {σ : Type} [FileSystem σ] {before after : σ}
    {path text : Text} {content : Bytes} (hdecode : Utf8.decode content = .ok text)
    (hwrite : writeFile before path content = .ok after) :
    FileTree.Rewritten before after path text := by
  rw [writeFile] at hwrite
  split at hwrite
  · cases hwrite
  · rename_i name hname
    split at hwrite
    · cases hwrite
    · rename_i later hlater
      obtain rfl := Except.ok.inj hwrite
      exact ⟨name, content, hname, hdecode, updated_of_write hlater⟩

namespace Session

variable {σ : Type}

/-- A request, with the files of the system as they are when it is made. -/
structure Call (σ : Type) where
  system : σ
  request : Request

variable [FileSystem σ]

/-- What a session with the given options assembles at the call, as a file name and lines.  There is
nothing to assemble if a file cannot be read. -/
def Call.source? (options : Options) (call : Call σ) : Option (Text × List Text) :=
  match call.request with
  | .assembleText source file => some (file, Text.lines source)
  | .assembleLines lines file => some (file, lines)
  | .assembleFile path =>
      match (start options).announce ("Assembling " ++ Path.normal path ++ "...") with
      | .error _ => none
      | .ok _ =>
          (sourceLines call.system (Path.normal path)).toOption.map fun lines =>
            (Path.normal path, lines)
  | _ => none

/-- The session after a sequence of calls.  The files may have changed in any way between two calls. -/
def after (session : Session) (calls : List (Call σ)) : Session :=
  calls.foldl (fun session call => (session.step call.system call.request).session) session

section Step

variable (session : Session) (system : σ)

omit [FileSystem σ] in
@[simp] theorem session_look (view : Program → Answer) :
    (session.look system view).session = session := by
  unfold look
  split <;> rfl

@[simp] theorem session_put (what path text : Text) :
    (session.put system what path text).session = session := by
  unfold put
  split
  · split <;> rfl
  · split
    · rfl
    · split <;> rfl

@[simp] theorem session_write (what path : Text) (view : Program → Text) :
    (session.write system what path view).session = session := by
  unfold write
  split
  · rfl
  · exact session.session_put system what path _

theorem announce_start (options : Options) (line : Text) (hoptions : session.options = options) :
    (start options).announce line = session.announce line := by
  rw [announce, announce, hoptions]
  rfl

/-- A line is printed unless it has a surrogate in it. -/
theorem exists_announce {line : Text}
    (hline : session.options.verbose = false ∨ Utf8.Encodable line) :
    ∃ printed, session.announce line = .ok printed := by
  rw [announce]
  cases hverbose : session.options.verbose with
  | false => exact ⟨[], rfl⟩
  | true =>
      rw [hverbose] at hline
      obtain ⟨bytes, hbytes⟩ := (Utf8.exists_encode_iff line).mpr (by simpa using hline)
      exact ⟨[line], by rw [hbytes]; rfl⟩

theorem answer_assembleFile_of_error {path : Text} {failure : Failure}
    (hread : sourceLines system (Path.normal path) = .error failure)
    (hpath : session.options.verbose = false ∨ Utf8.Encodable (Path.normal path)) :
    (session.assembleFile system path).answer = .error failure := by
  have hline : session.options.verbose = false ∨
      Utf8.Encodable ("Assembling " ++ Path.normal path ++ "...") := by simpa using hpath
  obtain ⟨printed, hprinted⟩ := session.exists_announce hline
  simp only [assembleFile, hprinted, hread]

variable {session}

/-- A call that assembles nothing leaves the session as it is. -/
theorem session_step_of_source?_eq_none {call : Call σ}
    (hnone : call.source? session.options = none) :
    (session.step call.system call.request).session = session := by
  obtain ⟨system, request⟩ := call
  cases request with
  | assembleText source file => simp [Call.source?] at hnone
  | assembleLines lines file => simp [Call.source?] at hnone
  | assembleFile path =>
      simp only [Call.source?, session.announce_start _ _ rfl] at hnone
      simp only [step, assembleFile]
      split
      · rfl
      · rename_i hannounce
        rw [hannounce] at hnone
        split
        · rfl
        · rename_i hread
          simp [hread, Except.toOption] at hnone
  | program | records | words | symbols | listing | load => exact session.session_look system _
  | writeListing | writeLoad | writeSymbols => exact session.session_write system _ _ _
  | warnings | hasWarnings | warningReport | isStrict => rfl

/-- A call that assembles lines does nothing else. -/
theorem exists_assemble_of_source? {options : Options} {call : Call σ} {file : Text}
    {lines : List Text} (hsource : call.source? options = some (file, lines)) :
    ∃ printed, ∀ session : Session, session.options = options →
      session.step call.system call.request =
        session.assemble call.system printed file lines := by
  obtain ⟨system, request⟩ := call
  cases request with
  | assembleText source name =>
      obtain ⟨rfl, rfl⟩ := Prod.mk.inj (Option.some.inj hsource)
      refine ⟨(start options).whenVerbose ["Assembling from string..."], fun session hoptions => ?_⟩
      simp only [step, whenVerbose, hoptions, start]
      rfl
  | assembleLines rows name =>
      obtain ⟨rfl, rfl⟩ := Prod.mk.inj (Option.some.inj hsource)
      exact ⟨[], fun session _ => rfl⟩
  | assembleFile path =>
      simp only [Call.source?] at hsource
      split at hsource
      · cases hsource
      · rename_i printed hannounce
        obtain ⟨rows, hrows, hsame⟩ := Option.map_eq_some_iff.mp hsource
        obtain ⟨rfl, rfl⟩ := Prod.mk.inj hsame
        refine ⟨printed, fun session hoptions => ?_⟩
        rw [session.announce_start _ _ hoptions] at hannounce
        cases hread : sourceLines system (Path.normal path) with
        | error failure => simp [hread, Except.toOption] at hrows
        | ok found =>
            obtain rfl : found = rows := by simpa [hread, Except.toOption] using hrows
            simp only [step, assembleFile, hannounce, hread]
  | _ => simp [Call.source?] at hsource

/-- Of what was remembered before, a run leaves nothing. -/
theorem remember_congr {other : Session} (hoptions : session.options = other.options) (run : Run) :
    session.remember run = other.remember run := by
  rw [remember, remember, hoptions]

omit [FileSystem σ] in
theorem assemble_congr {other : Session} (hoptions : session.options = other.options)
    (printed : List Text) (file : Text) (lines : List Text) :
    session.assemble system printed file lines = other.assemble system printed file lines := by
  simp only [assemble, whenVerbose, hoptions, remember_congr hoptions]

theorem options_step (call : Call σ) :
    (session.step call.system call.request).session.options = session.options := by
  cases hsource : call.source? session.options with
  | none => rw [session_step_of_source?_eq_none hsource]
  | some source =>
      obtain ⟨printed, hassemble⟩ := exists_assemble_of_source? hsource
      rw [hassemble session rfl]
      rfl

end Step

section After

variable (session : Session)

theorem after_append (first second : List (Call σ)) :
    session.after (first ++ second) = (session.after first).after second :=
  List.foldl_append

theorem options_after (calls : List (Call σ)) : (session.after calls).options = session.options := by
  induction calls generalizing session with
  | nil => rfl
  | cons call rest ih => exact (ih _).trans (options_step call)

theorem after_of_source?_eq_none {calls : List (Call σ)}
    (hnone : ∀ call ∈ calls, call.source? session.options = none) :
    session.after calls = session := by
  induction calls with
  | nil => rfl
  | cons call rest ih =>
      have hstep := session_step_of_source?_eq_none (hnone call List.mem_cons_self)
      rw [after, List.foldl_cons, hstep]
      exact ih fun other hmem => hnone other (List.mem_cons_of_mem call hmem)

/-- The session is that of the last run. -/
theorem after_eq_remember {before later : List (Call σ)} {last : Call σ} {file : Text}
    {lines : List Text} (hsource : last.source? session.options = some (file, lines))
    (hlater : ∀ call ∈ later, call.source? session.options = none) :
    session.after (before ++ last :: later) =
      session.remember (Run.ofLines session.options file lines) := by
  obtain ⟨printed, hassemble⟩ := exists_assemble_of_source? hsource
  have hoptions := session.options_after before
  have hbehind : (session.after (before ++ [last])).options = session.options :=
    session.options_after _
  -- The calls behind the run change nothing, and of those before it only the options are left.
  rw [List.append_cons, after_append,
    after_of_source?_eq_none _ (fun call hmem => hbehind.symm ▸ hlater call hmem), after_append]
  change ((session.after before).step last.system last.request).session = _
  rw [hassemble _ hoptions, assemble, hoptions]
  exact remember_congr hoptions _

end After

def Request.needsProgram : Request → Bool
  | .program | .records | .words | .symbols | .listing | .load => true
  | .writeListing _ | .writeLoad _ | .writeSymbols _ => true
  | _ => false

section Shows

variable (σ)

/-- The session has nothing to look at and writes nothing, but it tells the warnings. -/
structure ShowsNothing (session : Session) (log : Log) : Prop where
  refused : ∀ (system : σ) request, Request.needsProgram request = true →
    (session.step system request).answer = .error .noProgram ∧
      (session.step system request).system = system
  answer_warnings : ∀ system : σ, (session.step system .warnings).answer = .ok (.warnings log)

/-- A request writes a text to a path that the system lets it write to.  If the text has a surrogate in
it, the file is left empty. -/
structure Writes (session : Session) (request : Text → Request) (text : Text) : Prop where
  rewritten : ∀ (system after : σ) path content, Utf8.encode text = .ok content →
    FileSystem.writeFile system path content = .ok after →
    FileTree.Rewritten system (session.step system (request path)).system path text ∧
      (session.options.verbose = false ∨ Utf8.Encodable path →
        (session.step system (request path)).answer = .ok (.written text))
  emptied : ∀ (system after : σ) path, ¬ Utf8.Encodable text →
    FileSystem.writeFile system path [] = .ok after →
    FileTree.Rewritten system (session.step system (request path)).system path [] ∧
      ∃ fault, (session.step system (request path)).answer = .error (.unencodable fault)

/-- Whatever is looked at is that of the program, and the listing and the load file that are written are
those that can be looked at. -/
structure Shows (session : Session) (program : Program) : Prop where
  answer_program : ∀ system : σ, (session.step system .program).answer = .ok (.program program)
  answer_records : ∀ system : σ,
    (session.step system .records).answer = .ok (.records program.image.records)
  answer_words : ∀ system : σ, (session.step system .words).answer = .ok (.words program.image.words)
  answer_symbols : ∀ system : σ,
    (session.step system .symbols).answer = .ok (.symbols program.symbols)
  answer_listing : ∀ system : σ,
    (session.step system .listing).answer = .ok (.text program.image.listing)
  answer_load : ∀ system : σ, (session.step system .load).answer = .ok (.text program.image.load)
  answer_warnings : ∀ system : σ,
    (session.step system .warnings).answer = .ok (.warnings program.log)
  writes_listing : session.Writes σ .writeListing program.image.listing
  writes_load : session.Writes σ .writeLoad program.image.load

variable {σ}

theorem showsNothing_of_program_eq_none {session : Session} (hnone : session.program = none) :
    session.ShowsNothing σ session.log where
  refused := by
    intro system request hneeds
    cases request with
    | program | records | words | symbols | listing | load =>
        simp only [step, look, hnone, and_self]
    | writeListing | writeLoad | writeSymbols => simp only [step, write, hnone, and_self]
    | _ => simp [Request.needsProgram] at hneeds
  answer_warnings := fun _ => rfl

/-- Requests that come down to putting a text somewhere write the text. -/
theorem writes_of_put {session : Session} {request : Text → Request} {text : Text} (what : Text)
    (hwhat : Utf8.Encodable what)
    (hstep : ∀ (system : σ) path,
      session.step system (request path) = session.put system what path text) :
    session.Writes σ request text where
  rewritten := by
    intro system after path content hencode hwrite
    have hrewritten := FileSystem.rewritten_of_writeFile (Utf8.decode_of_encode hencode) hwrite
    rw [hstep]
    simp only [put, hencode, hwrite]
    constructor
    · split <;> exact hrewritten
    · intro hpath
      have hline : session.options.verbose = false ∨
          Utf8.Encodable ("Wrote " ++ what ++ " to " ++ path) := by simpa [hwhat] using hpath
      obtain ⟨printed, hprinted⟩ := session.exists_announce hline
      rw [hprinted]
  emptied := by
    intro system after path hnot hwrite
    have hrewritten := FileSystem.rewritten_of_writeFile (show Utf8.decode [] = .ok [] from rfl) hwrite
    obtain ⟨fault, hencode⟩ := (Utf8.exists_encode_error_iff text).mpr hnot
    rw [hstep]
    simp only [put, hencode, hwrite]
    exact ⟨hrewritten, fault, rfl⟩

/-- The program and the image of a session are of one run. -/
structure Coherent (session : Session) (program : Program) : Prop where
  program_eq : session.program = some program
  image_eq : session.image = program.image
  log_eq : session.log = program.log

theorem coherent_remember {options : Options} {file : Text} {lines : List Text} {program : Program}
    (hrun : (Run.ofLines options file lines).outcome = .ok program) (session : Session) :
    (session.remember (Run.ofLines options file lines)).Coherent program := by
  obtain ⟨himage, hlog⟩ := Run.image_and_log_of_outcome hrun
  refine ⟨?_, himage, hlog⟩
  simp only [remember, hrun, Except.toOption]

theorem Coherent.shows {session : Session} {program : Program}
    (hcoherent : session.Coherent program) : session.Shows σ program := by
  obtain ⟨hprogram, himage, hlog⟩ := hcoherent
  have hlook : ∀ (system : σ) view, (session.look system view).answer = .ok (view program) := by
    intro system view
    simp only [look, hprogram]
  refine ⟨fun system => hlook system _, fun system => hlook system _, fun system => hlook system _,
    fun system => hlook system _, fun system => hlook system _, fun system => hlook system _, ?_,
    writes_of_put "listing" (by simp) ?_, writes_of_put "load file" (by simp) ?_⟩
  · intro system
    rw [← hlog]
    rfl
  · intro system path
    simp only [step, write, hprogram, himage]
  · intro system path
    simp only [step, write, hprogram, himage]

/-- A run shows its program, or nothing if it failed. -/
theorem shows_or_showsNothing_of_run (options : Options) (system : σ) (printed : List Text)
    (file : Text) (lines : List Text) :
    (∃ program, ((start options).assemble system printed file lines).answer =
        .ok (.program program) ∧
      ((start options).remember (Run.ofLines options file lines)).Shows σ program) ∨
    (∃ failure, ((start options).assemble system printed file lines).answer = .error failure ∧
      ((start options).remember (Run.ofLines options file lines)).ShowsNothing σ
        (Run.ofLines options file lines).log) := by
  cases houtcome : (Run.ofLines options file lines).outcome with
  | ok program =>
      left
      refine ⟨program, ?_, (coherent_remember houtcome _).shows⟩
      simp only [assemble, start, houtcome]
  | error abort =>
      right
      refine ⟨.run abort, ?_, showsNothing_of_program_eq_none ?_⟩
      · simp only [assemble, start, houtcome]
      · simp only [remember, houtcome, Except.toOption]

end Shows

/-- A source file that is not read leaves everything as it is. -/
theorem assembleFile_of_source?_eq_none (session : Session) {system : σ} {path : Text}
    (hnone : Call.source? session.options ⟨system, .assembleFile path⟩ = none) :
    (session.assembleFile system path).session = session ∧
      (session.assembleFile system path).system = system ∧
      ∃ failure, (session.assembleFile system path).answer = .error failure := by
  simp only [Call.source?, session.announce_start _ _ rfl] at hnone
  simp only [assembleFile]
  split
  · exact ⟨rfl, rfl, _, rfl⟩
  · rename_i hannounce
    rw [hannounce] at hnone
    split
    · exact ⟨rfl, rfl, _, rfl⟩
    · rename_i hread
      simp [hread, Except.toOption] at hnone

end Session

/-- After any sequence of calls a session is in the state of the last run.

* Before the first run there is nothing to look at or to write, and there are no warnings.
* The last run ends as it does in a new session with the same options.  If it succeeded, its program is
  what the session shows and writes, as far as the texts have an encoding.  If it failed, the session
  shows and writes nothing, and tells the warnings of that run.
* A source file that cannot be read starts no run, and leaves the session and the files as they are. -/
theorem Session.state_after_calls {σ : Type} [FileSystem σ] (options : Options)
    (calls : List (Session.Call σ)) :
    ((∀ call ∈ calls, call.source? options = none) →
        ((Session.start options).after calls).ShowsNothing σ []) ∧
      (∀ before last later file lines, calls = before ++ last :: later →
        last.source? options = some (file, lines) →
        (∀ call ∈ later, call.source? options = none) →
        ((Session.start options).after before).step last.system last.request =
            (Session.start options).step last.system last.request ∧
          ((∃ program, ((Session.start options).step last.system last.request).answer =
              .ok (.program program) ∧
            ((Session.start options).after calls).Shows σ program) ∨
          (∃ failure, ((Session.start options).step last.system last.request).answer =
              .error failure ∧
            ((Session.start options).after calls).ShowsNothing σ
              (Run.ofLines options file lines).log))) ∧
      ∀ (session : Session) (system : σ) (path : Text),
        Session.Call.source? session.options ⟨system, .assembleFile path⟩ = none →
        (session.step system (.assembleFile path)).session = session ∧
          (session.step system (.assembleFile path)).system = system ∧
          (∃ failure, (session.step system (.assembleFile path)).answer = .error failure) ∧
          ∀ fault, Session.sourceLines system (Path.normal path) = .error fault →
            session.options.verbose = false ∨ Utf8.Encodable (Path.normal path) →
            (session.step system (.assembleFile path)).answer = .error fault := by
  refine ⟨?_, ?_, ?_⟩
  · intro hnone
    rw [Session.after_of_source?_eq_none _ hnone]
    exact Session.showsNothing_of_program_eq_none rfl
  · intro before last later file lines hcalls hsource hlater
    obtain ⟨printed, hassemble⟩ := Session.exists_assemble_of_source? hsource
    have hoptions : ((Session.start options).after before).options = options :=
      Session.options_after _ before
    have hafter : (Session.start options).after (before ++ last :: later) =
        (Session.start options).remember (Run.ofLines options file lines) :=
      Session.after_eq_remember _ hsource hlater
    rw [hcalls, hafter, hassemble _ hoptions, hassemble _ rfl]
    refine ⟨Session.assemble_congr _ hoptions printed file lines, ?_⟩
    exact Session.shows_or_showsNothing_of_run options last.system printed file lines
  · intro session system path hnone
    obtain ⟨hsession, hsystem, hanswer⟩ := session.assembleFile_of_source?_eq_none hnone
    refine ⟨hsession, hsystem, hanswer, ?_⟩
    intro fault hread hpath
    exact session.answer_assembleFile_of_error system hread hpath

/-- A run that succeeds, one that fails at a directive, and a file that is missing: while the program is
there it is shown, and behind the failure nothing is, in spite of the earlier program. -/
theorem Session.state_after_failed_run :
    (∃ program, ((Session.start Options.default).after
        [⟨Store.empty, .assembleText "HLT" "a.asm"⟩,
          ⟨Store.empty, .assembleFile "missing"⟩]).Shows Store program) ∧
      ((Session.start Options.default).after
        [⟨Store.empty, .assembleText "HLT" "a.asm"⟩,
          ⟨Store.empty, .assembleLines ["LOC x"] "b.asm"⟩,
          ⟨Store.empty, .assembleFile "missing"⟩]).ShowsNothing Store [] := by
  have hmissing : ∀ call ∈ [(⟨Store.empty, .assembleFile "missing"⟩ : Session.Call Store)],
      call.source? Options.default = none := by
    intro call hmem
    rw [List.mem_singleton.mp hmem]
    decide +kernel
  constructor
  · obtain ⟨-, hstate⟩ := (Session.state_after_calls Options.default _).2.1 []
      ⟨Store.empty, .assembleText "HLT" "a.asm"⟩
      [⟨Store.empty, .assembleFile "missing"⟩] _ _ rfl rfl hmissing
    rcases hstate with ⟨program, -, hshows⟩ | ⟨failure, hanswer, -⟩
    · exact ⟨program, hshows⟩
    · have hsome : ((Session.start Options.default).step Store.empty
          (.assembleText "HLT" "a.asm")).answer.toOption.isSome = true := by
        decide +kernel
      rw [hanswer] at hsome
      contradiction
  · obtain ⟨-, hstate⟩ := (Session.state_after_calls Options.default _).2.1
      [⟨Store.empty, .assembleText "HLT" "a.asm"⟩]
      ⟨Store.empty, .assembleLines ["LOC x"] "b.asm"⟩
      [⟨Store.empty, .assembleFile "missing"⟩] _ _ rfl rfl hmissing
    rcases hstate with ⟨program, hanswer, -⟩ | ⟨failure, -, hshows⟩
    · have hnone : ((Session.start Options.default).step Store.empty
          (.assembleLines ["LOC x"] "b.asm")).answer.toOption.isSome = false := by
        decide +kernel
      rw [hanswer] at hnone
      contradiction
    · exact hshows

/-- A session that has assembled a comment with a surrogate in it. -/
def Session.withSurrogate : Session :=
  (start Options.default).after
    [⟨Store.empty, .assembleText ("; ".text ++ [.surrogate 0]) "a.asm"⟩]

/-- The comment is listed, but the listing cannot be written: the file is there, and it is empty. -/
theorem Session.listing_of_surrogate :
    (Session.withSurrogate.step Store.empty .listing).answer =
        .ok (.text ("        ; ".text ++ [.surrogate 0] ++ "\n".text)) ∧
      (Session.withSurrogate.step Store.empty (.writeListing "a.lst")).answer =
        .error (.unencodable ⟨10, 0, 1⟩) ∧
      (Session.withSurrogate.step Store.empty (.writeListing "a.lst")).system.files =
        [([Utf8.bytesOf "a.lst"], [])] := by
  decide +kernel

end TwoPass
