import Mathlib.Data.List.Forall2
import TwoPass.Command.Run
import TwoPass.Proofs.SameSource
import TwoPass.Proofs.SymbolFile
import TwoPass.Proofs.Text.Plain

/-!
# How the command ends

An invocation that gets past the checks of its arguments ends in one of three ways.  The source cannot
be read or assembled, and nothing is written.  Or there is a program, and its texts are delivered one
after the other until something comes in the way.  Or nothing does, and the command says so.  Which way
it is decides the files afterwards, the exit code and everything that was printed.

Nothing is assumed about the system but that a refused write changes nothing and that an accepted one
replaces a whole file.
-/

namespace TwoPass

namespace Command

/-- A text to be written: what it is, where it goes and how it reads. -/
structure Delivery where
  what : Text
  path : Text
  text : Text

/-- What a verbose run says when the text has been written. -/
def Delivery.notice (delivery : Delivery) : Text :=
  "Wrote " ++ delivery.what ++ " to " ++ delivery.path

section Deliveries

variable {σ : Type} [FileSystem σ]

/-- Texts go to their paths in order, up to the first that the system refuses.  A verbose run also stops
where it cannot say what it has written. -/
inductive Delivers (verbose : Bool) : σ → List Delivery → σ → Option Failure → Prop
  | done (system : σ) : Delivers verbose system [] system none
  | refused {system : σ} {delivery : Delivery} {rest : List Delivery} {content : Bytes}
      {fault : FileFault} (hcontent : Utf8.decode content = .ok delivery.text)
      (hrefused : FileSystem.writeFile system delivery.path content = .error fault) :
      Delivers verbose system (delivery :: rest) system (some (.file fault))
  | unsaid {system next : σ} {delivery : Delivery} {rest : List Delivery} {content : Bytes}
      {fault : Utf8.EncodeFault} (hcontent : Utf8.decode content = .ok delivery.text)
      (hwrite : FileSystem.writeFile system delivery.path content = .ok next)
      (hwritten : FileTree.Rewritten system next delivery.path delivery.text)
      (hverbose : verbose = true) (hunsaid : Utf8.encode delivery.notice = .error fault) :
      Delivers verbose system (delivery :: rest) next (some (.unencodable fault))
  | written {system next after : σ} {delivery : Delivery} {rest : List Delivery} {content : Bytes}
      {stop : Option Failure} (hcontent : Utf8.decode content = .ok delivery.text)
      (hwrite : FileSystem.writeFile system delivery.path content = .ok next)
      (hwritten : FileTree.Rewritten system next delivery.path delivery.text)
      (hsaid : verbose = true → Utf8.Encodable delivery.notice)
      (hrest : Delivers verbose next rest after stop) :
      Delivers verbose system (delivery :: rest) after stop

/-- The system after the deliveries of a session with the given options, and what came in the way. -/
def deliver (options : Options) (system : σ) : List Delivery → σ × Option Failure
  | [] => (system, none)
  | delivery :: rest =>
      let reply := (Session.start options).put system delivery.what delivery.path delivery.text
      match reply.answer with
      | .error failure => (reply.system, some failure)
      | .ok _ => deliver options reply.system rest

/-- Texts with an encoding are delivered as they are. -/
theorem delivers_deliver (options : Options) (system : σ) {deliveries : List Delivery}
    (htexts : ∀ delivery ∈ deliveries, Utf8.Encodable delivery.text) :
    Delivers options.verbose system deliveries (deliver options system deliveries).1
      (deliver options system deliveries).2 := by
  induction deliveries generalizing system with
  | nil => exact .done system
  | cons delivery rest ih =>
      have hrest := fun next => ih next fun other hmem => htexts other (List.mem_cons_of_mem _ hmem)
      obtain ⟨content, hencode⟩ :=
        (Utf8.exists_encode_iff _).mpr (htexts delivery List.mem_cons_self)
      have hcontent := Utf8.decode_of_encode hencode
      cases hwrite : FileSystem.writeFile system delivery.path content with
      | error fault =>
          simp only [deliver, Session.put, hencode, hwrite]
          exact .refused hcontent hwrite
      | ok next =>
          have hwritten := FileSystem.rewritten_of_writeFile hcontent hwrite
          cases hverbose : options.verbose with
          | false =>
              simp only [deliver, Session.put, hencode, hwrite, Session.announce, Session.start,
                hverbose, Bool.false_eq_true, if_false]
              rw [← hverbose]
              exact .written hcontent hwrite hwritten (by simp [hverbose]) (hrest next)
          | true =>
              cases hnotice : Utf8.encode delivery.notice with
              | error fault =>
                  have hline : Utf8.encode ("Wrote " ++ delivery.what ++ " to " ++ delivery.path) =
                      .error fault := hnotice
                  simp only [deliver, Session.put, hencode, hwrite, Session.announce, Session.start,
                    hverbose, if_true, hline]
                  exact .unsaid hcontent hwrite hwritten rfl hnotice
              | ok bytes =>
                  have hline : Utf8.encode ("Wrote " ++ delivery.what ++ " to " ++ delivery.path) =
                      .ok bytes := hnotice
                  simp only [deliver, Session.put, hencode, hwrite, Session.announce, Session.start,
                    hverbose, if_true, hline]
                  rw [← hverbose]
                  exact .written hcontent hwrite hwritten
                    (fun _ => (Utf8.exists_encode_iff _).mp ⟨bytes, hnotice⟩) (hrest next)

end Deliveries

namespace Invocation

variable {σ : Type} [FileSystem σ] (system : σ) (invocation : Invocation)

def options : Options :=
  ⟨invocation.verbose, invocation.strictFlags, invocation.warningsAsErrors⟩

/-- The name of the source in warnings and errors. -/
def file : Text :=
  Path.normal invocation.input

/-- The text of the source file.  A verbose run says its name first. -/
def source : Except Failure Text :=
  match (Session.start invocation.options).announce ("Assembling " ++ invocation.file ++ "...") with
  | .error failure => .error failure
  | .ok _ =>
      match FileSystem.readFile system invocation.file with
      | .error fault => .error (.file fault)
      | .ok bytes => (Utf8.decode bytes).mapError .encoding

/-- The run over the source, if there is a source. -/
def assembly : Except Failure Run :=
  (invocation.source system).map (Run.ofText invocation.options invocation.file)

/-- The program, or what came in its way. -/
def result : Except Failure Program :=
  (invocation.assembly system).bind fun run => run.outcome.mapError .run

/-- The warnings of the run.  Without a source there are none. -/
def log : Log :=
  ((invocation.assembly system).toOption.map Run.log).getD []

def trace : List Text :=
  if invocation.verbose then
    (((invocation.assembly system).toOption.map Run.events).getD []).flatMap Event.trace
      |>.map fun line => "DEBUG: " ++ line
  else []

/-- The listing, the load file, and the symbols if asked for. -/
def deliveries (program : Program) : List Delivery :=
  [⟨"listing", Path.normal invocation.listing, program.image.listing⟩,
    ⟨"load file", Path.normal invocation.load, program.image.load⟩] ++
    (invocation.symbols.map fun path => ⟨"symbols", Path.normal path, program.symbolFile⟩).toList

end Invocation

/-- The invocation that the arguments ask for, if they pass every check and do not ask for information
only. -/
def accepted? {σ : Type} [FileSystem σ] (system : σ) (arguments : List Text) : Option Invocation :=
  match Arguments.initial.read arguments with
  | .error _ => none
  | .ok parsed =>
      if parsed.notice.isSome then none else (Invocation.ofArguments system parsed).toOption

theorem run_of_accepted {σ : Type} [FileSystem σ] {system : σ} {arguments : List Text}
    {invocation : Invocation} (haccepted : accepted? system arguments = some invocation) :
    run system arguments = execute system invocation := by
  unfold accepted? at haccepted
  cases hread : Arguments.initial.read arguments with
  | error fault => simp [hread] at haccepted
  | ok parsed =>
      cases hnotice : parsed.notice with
      | some switch => simp [hread, hnotice] at haccepted
      | none =>
          cases hchecked : Invocation.ofArguments system parsed with
          | error refusal => simp [hread, hnotice, hchecked, Except.toOption] at haccepted
          | ok checked =>
              obtain rfl : checked = invocation := by
                simpa [hread, hnotice, hchecked, Except.toOption] using haccepted
              simp only [run, hread, hnotice, hchecked]

namespace Output

@[simp] theorem out_append (first second : Output) :
    (first ++ second).out = first.out ++ second.out := rfl

@[simp] theorem err_append (first second : Output) :
    (first ++ second).err = first.err ++ second.err := rfl

def errorLine (line : Text) : Text :=
  Text.withoutSurrogates (Text.plain line)

end Output

/-- Warnings as they stand on standard error, each by itself. -/
def warningLines (log : Log) : List Text :=
  log.map fun warning => Output.errorLine warning.text

def failureLines (verbose : Bool) (failure : Failure) : List Text :=
  Output.errorLine ((Complaint.ofFailure failure).text failure.message (some "Assembly")) ::
    if (Complaint.ofFailure failure).exitCode = 3 && verbose then [Complaint.stackMark] else []

@[simp] theorem out_showLog (log : Log) : (showLog log).out = [] := by
  induction log with
  | nil => rfl
  | cons warning rest ih => exact ih

@[simp] theorem err_showLog (log : Log) : (showLog log).err = warningLines log := by
  induction log with
  | nil => rfl
  | cons warning rest ih => exact congrArg (List.cons _) ih

section Perform

variable {σ : Type} [FileSystem σ]

def Makes (σ : Type) [FileSystem σ] (session : Session) (request : Session.Request)
    (delivery : Delivery) : Prop :=
  ∀ system : σ, session.step system request =
    session.put system delivery.what delivery.path delivery.text

/-- Of the session only the options matter for a delivery. -/
theorem put_congr {session other : Session} (hoptions : session.options = other.options)
    (system : σ) (what path text : Text) :
    session.put system what path text =
      { other.put system what path text with session := session } := by
  have hannounce : ∀ line, session.announce line = other.announce line := by
    intro line
    rw [Session.announce, Session.announce, hoptions]
  simp only [Session.put, hannounce]
  split
  · split <;> rfl
  · split
    · rfl
    · split <;> rfl

theorem printed_put_of_quiet {session : Session} (hquiet : session.options.verbose = false)
    (system : σ) (what path text : Text) :
    (session.put system what path text).printed = [] := by
  simp only [Session.put, Session.announce, hquiet]
  split
  · split <;> rfl
  · split <;> rfl

/-- Requests that make deliveries do so until something comes in the way.  They say nothing on standard
error, and nothing on standard output unless the session is verbose. -/
theorem perform_of_makes {session : Session} {requests : List Session.Request}
    {deliveries : List Delivery} (hmakes : List.Forall₂ (Makes σ session) requests deliveries)
    (system : σ) (sofar : Output) :
    (perform session system sofar requests).1 =
        (deliver session.options system deliveries).1 ∧
      (perform session system sofar requests).2.2 =
        (deliver session.options system deliveries).2 ∧
      (perform session system sofar requests).2.1.err = sofar.err ∧
      (session.options.verbose = false →
        (perform session system sofar requests).2.1.out = sofar.out) := by
  -- Writing leaves the session alone, so that only the system and the output go through the induction.
  induction hmakes generalizing system sofar with
  | nil => exact ⟨rfl, rfl, rfl, fun _ => rfl⟩
  | @cons request delivery requests deliveries hmake _ ih =>
      have hput : session.put system delivery.what delivery.path delivery.text = _ :=
        @put_congr _ _ session (Session.start session.options) rfl system delivery.what delivery.path
          delivery.text
      have hquiet := fun hverbose => @printed_put_of_quiet _ _ session hverbose system delivery.what
        delivery.path delivery.text
      have herr : ∀ lines, (sofar ++ Output.raw lines).err = sofar.err := by
        intro lines
        simp [Output.raw]
      have hout : ∀ lines, lines = [] → (sofar ++ Output.raw lines).out = sofar.out := by
        rintro _ rfl
        simp [Output.raw]
      rw [perform, deliver]
      simp only [hmake system]
      rw [hput] at hquiet ⊢
      cases hanswer : ((Session.start session.options).put system delivery.what delivery.path
          delivery.text).answer with
      | error failure =>
          exact ⟨rfl, rfl, herr _, fun hverbose => hout _ (hquiet hverbose)⟩
      | ok answer =>
          obtain ⟨hsystem, hstop, hmore, hnone⟩ := ih
            ((Session.start session.options).put system delivery.what delivery.path
              delivery.text).system
            (sofar ++ Output.raw ((Session.start session.options).put system delivery.what
              delivery.path delivery.text).printed)
          refine ⟨hsystem, hstop, hmore.trans (herr _), fun hverbose => ?_⟩
          exact (hnone hverbose).trans (hout _ (hquiet hverbose))

/-- The requests of an invocation make its deliveries. -/
theorem forall₂_makes_writes {session : Session} {program : Program}
    (hcoherent : session.Coherent program) (invocation : Invocation) :
    List.Forall₂ (Makes σ session) (writes invocation) (invocation.deliveries program) := by
  obtain ⟨hprogram, himage, -⟩ := hcoherent
  have hsymbols : ∀ path,
      Makes σ session (.writeSymbols path) ⟨"symbols", path, program.symbolFile⟩ := by
    intro path system
    simp only [Session.step, Session.write, hprogram]
  refine .cons (fun system => ?_) (.cons (fun system => ?_) ?_)
  · simp only [Session.step, Session.write, hprogram, himage]
  · simp only [Session.step, Session.write, hprogram, himage]
  · cases invocation.symbols with
    | none => exact .nil
    | some path => exact .cons (hsymbols _) .nil

end Perform

/-- How a command ended: its exit code, the system afterwards, and what it printed.  What stands on
standard output is said for a command that is not verbose. -/
structure Outcome.Is {σ : Type} (outcome : Outcome σ) (verbose : Bool) (exitCode : Nat) (system : σ)
    (out err : List Text) : Prop where
  exitCode_eq : outcome.exitCode = exitCode
  system_eq : outcome.system = system
  out_eq : verbose = false → outcome.output.out = out
  err_eq : outcome.output.err = err

theorem fail_is {σ : Type} {verbose : Bool} {sofar : Output}
    (hout : verbose = false → sofar.out = []) (session : Session) (system : σ) (failure : Failure) :
    (fail verbose session system sofar failure).Is verbose
      (Complaint.ofFailure failure).exitCode system []
      (sofar.err ++ (if listsWarnings failure then [] else warningLines session.log) ++
        failureLines verbose failure) := by
  refine ⟨rfl, rfl, fun hquiet => ?_, ?_⟩
  · cases hlists : listsWarnings failure <;>
      simp [fail, report, hlists, hout hquiet, Output.complain, Output.empty]
  · cases hlists : listsWarnings failure <;>
      simp [fail, report, hlists, failureLines, Output.complain, Output.empty, Output.errorLine]

section Ending

variable {σ : Type} [FileSystem σ] {system : σ} {invocation : Invocation}

section Source

variable {text : Text} (hsource : invocation.source system = .ok text)

include hsource

theorem Invocation.assembly_of_source :
    invocation.assembly system = .ok (Run.ofText invocation.options invocation.file text) := by
  rw [Invocation.assembly, hsource]
  rfl

theorem Invocation.result_of_source :
    invocation.result system =
      (Run.ofText invocation.options invocation.file text).outcome.mapError .run := by
  rw [Invocation.result, Invocation.assembly_of_source hsource]
  rfl

theorem Invocation.log_of_source :
    invocation.log system = (Run.ofText invocation.options invocation.file text).log := by
  rw [Invocation.log, Invocation.assembly_of_source hsource]
  rfl

/-- The text was read from a file whose name could be said. -/
theorem Invocation.of_source :
    ∃ printed bytes,
      (Session.start invocation.options).announce ("Assembling " ++ invocation.file ++ "...") =
        .ok printed ∧
      FileSystem.readFile system invocation.file = .ok bytes ∧ Utf8.decode bytes = .ok text := by
  unfold Invocation.source at hsource
  split at hsource
  · cases hsource
  · rename_i printed hprinted
    split at hsource
    · cases hsource
    · rename_i bytes hbytes
      cases hdecode : Utf8.decode bytes with
      | error fault => simp [hdecode, Except.mapError] at hsource
      | ok decoded =>
          obtain rfl : decoded = text := by simpa [hdecode, Except.mapError] using hsource
          exact ⟨printed, bytes, hprinted, hbytes, hdecode⟩

theorem Invocation.exists_assembleFile_of_source :
    ∃ printed, (invocation.verbose = false → printed = []) ∧
      (Session.start invocation.options).assembleFile system invocation.input =
        (Session.start invocation.options).assemble system printed invocation.file
          (Text.lines text) := by
  obtain ⟨printed, bytes, hprinted, hbytes, hdecode⟩ := Invocation.of_source hsource
  have hlines : Session.sourceLines system invocation.file = .ok (Text.lines text) := by
    simp only [Session.sourceLines, hbytes, hdecode, Text.lines_unifyLineEnds]
  unfold Invocation.file at hprinted hlines
  refine ⟨printed, fun hquiet => ?_, ?_⟩
  · simpa [Session.announce, Session.start, Invocation.options, hquiet] using hprinted.symm
  · simp only [Session.assembleFile, hprinted, hlines]
    rfl

end Source

/-- Without a source the session has nothing to answer with, and is as new. -/
theorem Invocation.exists_assembleFile_of_error {failure : Failure}
    (hsource : invocation.source system = .error failure) :
    ∃ printed, (invocation.verbose = false → printed = []) ∧
      (Session.start invocation.options).assembleFile system invocation.input =
        ⟨Session.start invocation.options, system, .error failure, printed, []⟩ := by
  unfold Invocation.source Invocation.file at hsource
  rw [Session.assembleFile]
  cases hannounce : (Session.start invocation.options).announce
      ("Assembling " ++ Path.normal invocation.input ++ "...") with
  | error other =>
      rw [hannounce] at hsource
      obtain rfl := Except.error.inj hsource
      exact ⟨[], fun _ => rfl, rfl⟩
  | ok printed =>
      rw [hannounce] at hsource
      refine ⟨printed, fun hquiet => ?_, ?_⟩
      · simpa [Session.announce, Session.start, Invocation.options, hquiet] using hannounce.symm
      · cases hread : FileSystem.readFile system (Path.normal invocation.input) with
        | error fault =>
            obtain rfl : Failure.file fault = failure := by simpa [hread] using hsource
            simp only [Session.sourceLines, hread]
        | ok bytes =>
            cases hdecode : Utf8.decode bytes with
            | error fault =>
                obtain rfl : Failure.encoding fault = failure := by
                  simpa [hread, hdecode, Except.mapError] using hsource
                simp only [Session.sourceLines, hread, hdecode]
            | ok decoded => simp [hread, hdecode, Except.mapError] at hsource

/-- The reply of a session that was asked to assemble the input. -/
structure Replies (system : σ) (invocation : Invocation) (reply : Session.Reply σ) : Prop where
  system_eq : reply.system = system
  log_eq : reply.session.log = invocation.log system
  events_eq : reply.events = ((invocation.assembly system).toOption.map Run.events).getD []
  printed_eq : invocation.verbose = false → reply.printed = []
  of_error : ∀ failure, invocation.result system = .error failure → reply.answer = .error failure
  of_ok : ∀ program, invocation.result system = .ok program →
    reply.answer = .ok (.program program) ∧ reply.session.Coherent program ∧
      reply.session.options = invocation.options

theorem replies_assembleFile (system : σ) (invocation : Invocation) :
    Replies system invocation
      ((Session.start invocation.options).assembleFile system invocation.input) := by
  cases hsource : invocation.source system with
  | error failure =>
      obtain ⟨printed, hprinted, hreply⟩ := Invocation.exists_assembleFile_of_error hsource
      have hassembly : invocation.assembly system = .error failure := by
        rw [Invocation.assembly, hsource]
        rfl
      rw [hreply]
      refine ⟨rfl, ?_, ?_, hprinted, ?_, ?_⟩
      · simp [Invocation.log, hassembly, Except.toOption, Session.start]
      · simp [hassembly, Except.toOption]
      · intro other hresult
        simpa [Invocation.result, hassembly, Except.bind] using hresult
      · intro program hresult
        simp [Invocation.result, hassembly, Except.bind] at hresult
  | ok text =>
      obtain ⟨printed, hprinted, hreply⟩ := Invocation.exists_assembleFile_of_source hsource
      have hassembly := Invocation.assembly_of_source hsource
      have hresult := Invocation.result_of_source hsource
      have hrun : Run.ofLines (Session.start invocation.options).options invocation.file
          (Text.lines text) = Run.ofText invocation.options invocation.file text := rfl
      rw [hreply]
      refine ⟨rfl, ?_, ?_, ?_, ?_, ?_⟩
      · rw [Invocation.log_of_source hsource]
        rfl
      · simp only [hassembly, Except.toOption, Option.map_some, Option.getD_some]
        rfl
      · intro hquiet
        simp [Session.assemble, Session.whenVerbose, Session.start, Invocation.options, hquiet,
          hprinted hquiet]
      · intro failure herror
        cases houtcome : (Run.ofText invocation.options invocation.file text).outcome with
        | error abort =>
            obtain rfl : Failure.run abort = failure := by
              simpa [hresult, houtcome, Except.mapError] using herror
            simp only [Session.assemble, hrun, houtcome]
        | ok program => simp [hresult, houtcome, Except.mapError] at herror
      · intro program hok
        cases houtcome : (Run.ofText invocation.options invocation.file text).outcome with
        | error abort => simp [hresult, houtcome, Except.mapError] at hok
        | ok other =>
            obtain rfl : other = program := by
              simpa [hresult, houtcome, Except.mapError] using hok
            simp only [Session.assemble, hrun, houtcome, true_and]
            exact ⟨Session.coherent_remember houtcome _, rfl⟩

/-- What is said until the program is there. -/
def progress (system : σ) (invocation : Invocation) : Output :=
  let reply := (Session.start invocation.options).assembleFile system invocation.input
  let mode : Text := if invocation.strictFlags then "strict" else "lenient"
  (if invocation.verbose then Output.say ("Shift/rotate flags: " ++ mode) else Output.empty) ++
    Output.raw reply.printed ++
    (if invocation.verbose then Output.trace reply.events else Output.empty)

theorem out_progress (hquiet : invocation.verbose = false) :
    (progress system invocation).out = [] := by
  simp [progress, hquiet, Output.empty, Output.raw,
    (replies_assembleFile system invocation).printed_eq hquiet]

theorem err_progress (system : σ) (invocation : Invocation) :
    (progress system invocation).err = invocation.trace system := by
  have hevents := (replies_assembleFile system invocation).events_eq
  cases hverbose : invocation.verbose <;>
    simp [progress, Invocation.trace, hverbose, Output.empty, Output.raw, Output.say, Output.trace,
      hevents]

/-- The end of an invocation whose deliveries have been made as far as possible. -/
def finish (invocation : Invocation) (program : Program) (session : Session)
    (delivered : σ × Output × Option Failure) : Outcome σ :=
  match delivered.2.2 with
  | some failure => fail invocation.verbose session delivered.1 delivered.2.1 failure
  | none =>
      complete invocation session delivered.1
        (delivered.2.1 ++ if invocation.verbose then totals program else Output.empty)

theorem exists_execute_of_error {failure : Failure}
    (hresult : invocation.result system = .error failure) :
    ∃ session : Session, session.log = invocation.log system ∧
      execute system invocation =
        fail invocation.verbose session system (progress system invocation) failure := by
  have hreplies := replies_assembleFile system invocation
  have hanswer := hreplies.of_error failure hresult
  have hexecute : execute system invocation =
      fail invocation.verbose
        ((Session.start invocation.options).assembleFile system invocation.input).session
        ((Session.start invocation.options).assembleFile system invocation.input).system
        (progress system invocation) failure := by
    unfold Invocation.options at hanswer
    simp only [execute, hanswer]
    rfl
  rw [hreplies.system_eq] at hexecute
  exact ⟨_, hreplies.log_eq, hexecute⟩

/-- With a program its deliveries are made, after the warnings have been shown. -/
theorem exists_execute_of_ok {program : Program} (hresult : invocation.result system = .ok program) :
    ∃ (session : Session) (sofar : Output), session.log = invocation.log system ∧
      sofar.err = invocation.trace system ++ warningLines (invocation.log system) ∧
      (invocation.verbose = false → sofar.out = []) ∧
      execute system invocation =
        finish invocation program session
          ((deliver invocation.options system (invocation.deliveries program)).1, sofar,
            (deliver invocation.options system (invocation.deliveries program)).2) := by
  have hreplies := replies_assembleFile system invocation
  obtain ⟨hanswer, hcoherent, hoptions⟩ := hreplies.of_ok program hresult
  have hexecute : execute system invocation =
      finish invocation program
        ((Session.start invocation.options).assembleFile system invocation.input).session
        (perform ((Session.start invocation.options).assembleFile system invocation.input).session
          ((Session.start invocation.options).assembleFile system invocation.input).system
          (progress system invocation ++ showLog
            ((Session.start invocation.options).assembleFile system invocation.input).session.log)
          (writes invocation)) := by
    have hprogram := hcoherent.program_eq
    unfold Invocation.options at hanswer hprogram
    simp only [execute, hanswer, hprogram]
    rfl
  rw [hreplies.system_eq, hreplies.log_eq] at hexecute
  obtain ⟨hsystem, hstop, herr, hout⟩ := perform_of_makes
    (forall₂_makes_writes hcoherent invocation) system
    (progress system invocation ++ showLog (invocation.log system))
  rw [hoptions] at hsystem hstop hout
  refine ⟨_, _, hreplies.log_eq, ?_, ?_,
    hexecute.trans (congrArg _ (Prod.ext hsystem (Prod.ext rfl hstop)))⟩
  · rw [herr, Output.err_append, err_progress, err_showLog]
  · intro hquiet
    rw [hout hquiet, Output.out_append, out_progress hquiet, out_showLog]
    rfl

/-- Without a program nothing is written. -/
theorem execute_of_error {failure : Failure} (hresult : invocation.result system = .error failure) :
    (execute system invocation).Is invocation.verbose (Complaint.ofFailure failure).exitCode system []
      (invocation.trace system ++
        (if listsWarnings failure then [] else warningLines (invocation.log system)) ++
        failureLines invocation.verbose failure) := by
  obtain ⟨session, hlog, hexecute⟩ := exists_execute_of_error hresult
  rw [hexecute, ← hlog, ← err_progress]
  exact fail_is out_progress session system failure

/-- Every text that there is to deliver has an encoding, because the source had one. -/
theorem Invocation.encodable_deliveries {program : Program}
    (hresult : invocation.result system = .ok program) :
    ∀ delivery ∈ invocation.deliveries program, Utf8.Encodable delivery.text := by
  cases hsource : invocation.source system with
  | error failure =>
      simp [Invocation.result, Invocation.assembly, hsource, Except.map, Except.bind] at hresult
  | ok text =>
      rw [Invocation.result_of_source hsource] at hresult
      have hrun : (Run.ofText invocation.options invocation.file text).outcome = .ok program := by
        cases houtcome : (Run.ofText invocation.options invocation.file text).outcome with
        | error abort => simp [houtcome, Except.mapError] at hresult
        | ok other => simpa [houtcome, Except.mapError] using hresult
      obtain ⟨-, bytes, -, -, hdecode⟩ := Invocation.of_source hsource
      have hlisting := Run.encodable_listing_of_outcome hrun (Utf8.encodable_of_decode hdecode)
      have hload := program.image.encodable_load
      have hsymbols := Program.encodable_symbolFile (Run.names_of_outcome hrun).2
      intro delivery hmem
      cases hasked : invocation.symbols <;> simp [Invocation.deliveries, hasked] at hmem
      · rcases hmem with rfl | rfl
        · exact hlisting
        · exact hload
      · rcases hmem with rfl | rfl | rfl
        · exact hlisting
        · exact hload
        · exact hsymbols

theorem Invocation.delivers {program : Program} (hresult : invocation.result system = .ok program) :
    Delivers invocation.verbose system (invocation.deliveries program)
      (deliver invocation.options system (invocation.deliveries program)).1
      (deliver invocation.options system (invocation.deliveries program)).2 :=
  delivers_deliver invocation.options system (Invocation.encodable_deliveries hresult)

/-- What comes in the way of a delivery is no failure of the source. -/
theorem Delivers.listsWarnings_eq_false {verbose : Bool} {deliveries : List Delivery} {after : σ}
    {stop : Option Failure} (hdelivers : Delivers verbose system deliveries after stop) :
    ∀ failure ∈ stop, listsWarnings failure = false := by
  induction hdelivers with
  | done => simp
  | refused => simp [listsWarnings]
  | unsaid => simp [listsWarnings]
  | written _ _ _ _ _ ih => exact ih

/-- Something came in the way of the deliveries. -/
theorem execute_of_stop {program : Program} {after : σ} {failure : Failure}
    (hresult : invocation.result system = .ok program)
    (hstop : deliver invocation.options system (invocation.deliveries program) =
      (after, some failure)) :
    (execute system invocation).Is invocation.verbose (Complaint.ofFailure failure).exitCode after []
      (invocation.trace system ++ warningLines (invocation.log system) ++
        warningLines (invocation.log system) ++ failureLines invocation.verbose failure) := by
  obtain ⟨session, sofar, hlog, herr, hout, hexecute⟩ := exists_execute_of_ok hresult
  have hdelivers := Invocation.delivers hresult
  rw [hstop] at hexecute hdelivers
  have hlists := hdelivers.listsWarnings_eq_false failure rfl
  have hfail := fail_is hout session after failure
  rw [hlists, herr, hlog] at hfail
  rw [hexecute]
  exact hfail

omit [FileSystem σ] in
theorem complete_of_error {fault : Utf8.EncodeFault}
    (hline : Utf8.encode (Text.plain (completion invocation)) = .error fault) (session : Session)
    (system : σ) (sofar : Output) :
    complete invocation session system sofar =
      fail invocation.verbose session system sofar (.unencodable fault) := by
  unfold complete
  generalize Utf8.encode (Text.plain (completion invocation)) = encoded at hline ⊢
  subst hline
  rfl

omit [FileSystem σ] in
theorem complete_of_ok {bytes : Bytes}
    (hline : Utf8.encode (Text.plain (completion invocation)) = .ok bytes) (session : Session)
    (system : σ) (sofar : Output) :
    complete invocation session system sofar =
      ⟨0, sofar ++ Output.say (completion invocation), none, system⟩ := by
  unfold complete
  generalize Utf8.encode (Text.plain (completion invocation)) = encoded at hline ⊢
  subst hline
  rfl

/-- All deliveries have been made. -/
theorem execute_of_delivered {program : Program} {after : σ}
    (hresult : invocation.result system = .ok program)
    (hdelivered : deliver invocation.options system (invocation.deliveries program) = (after, none)) :
    (∃ fault, Utf8.encode (Text.plain (completion invocation)) = .error fault ∧
      (execute system invocation).Is invocation.verbose 3 after []
        (invocation.trace system ++ warningLines (invocation.log system) ++
          warningLines (invocation.log system) ++
          failureLines invocation.verbose (.unencodable fault))) ∨
    Utf8.Encodable (completion invocation) ∧
      (execute system invocation).Is invocation.verbose 0 after
        [Text.plain (completion invocation)]
        (invocation.trace system ++ warningLines (invocation.log system)) := by
  obtain ⟨session, sofar, hlog, herr, hout, hexecute⟩ := exists_execute_of_ok hresult
  rw [hdelivered] at hexecute
  have hclosing : (sofar ++ if invocation.verbose then totals program else Output.empty).err =
      sofar.err := by
    cases invocation.verbose <;> simp [Output.empty, totals, Output.say]
  have hquiet : invocation.verbose = false →
      (sofar ++ if invocation.verbose then totals program else Output.empty).out = [] := by
    intro hverbose
    simp [hverbose, Output.empty, hout hverbose]
  have hfinish : execute system invocation = complete invocation session after
      (sofar ++ if invocation.verbose then totals program else Output.empty) := hexecute
  cases hline : Utf8.encode (Text.plain (completion invocation)) with
  | error fault =>
      have hfail := fail_is hquiet session after (.unencodable fault)
      rw [hclosing, herr, hlog] at hfail
      rw [hfinish, complete_of_error hline]
      exact Or.inl ⟨fault, rfl, hfail⟩
  | ok bytes =>
      have hencodable : Utf8.Encodable (Text.plain (completion invocation)) :=
        (Utf8.exists_encode_iff _).mp ⟨bytes, hline⟩
      rw [hfinish, complete_of_ok hline]
      refine Or.inr ⟨(Text.encodable_plain_iff _).mp hencodable, rfl, rfl, fun hverbose => ?_, ?_⟩
      · rw [Output.out_append, hquiet hverbose]
        rfl
      · rw [Output.err_append, hclosing, herr]
        simp [Output.say]

/-- The end can be told if the names that it names can be printed. -/
theorem encodable_completion_iff (invocation : Invocation) :
    Utf8.Encodable (completion invocation) ↔
      Utf8.Encodable (Path.normal invocation.listing) ∧
        Utf8.Encodable (Path.normal invocation.load) := by
  simp [completion]

/-- A program of which something has been computed is there. -/
theorem Invocation.exists_program (invocation : Invocation) (system : σ) {α : Type}
    (view : Program → α) (seen : α)
    (hseen : (invocation.result system).toOption.map view = some seen) :
    ∃ program, invocation.result system = .ok program ∧ view program = seen := by
  cases hresult : invocation.result system with
  | error failure => simp [hresult, Except.toOption] at hseen
  | ok program => exact ⟨program, rfl, by simpa [hresult, Except.toOption] using hseen⟩

end Ending

end Command

/-- A store with a source in it and nothing else. -/
def Store.holding (source : String) : Store :=
  Store.empty.addFile [Utf8.bytesOf "a.asm"] (Utf8.bytesOf source)

end TwoPass
