import Brainfuck.Proofs.CommandLine
import Brainfuck.Proofs.Flushing
import Brainfuck.Proofs.Safety
import Brainfuck.Proofs.Verbosity

namespace Brainfuck

namespace Output

variable {output after : Output} {bytes : List UInt8} {cell : UInt8}

def Clogged (output : Output) : Prop :=
  (∃ cause, output.FlushFails cause) ∧ ∃ cause, output.flush.2.FlushFails cause

/-- Not even the first byte comes out, however often the output is flushed again. -/
def Broken (output : Output) : Prop :=
  (∃ cause, output.WriteFails cause) ∨ ∃ first second third later,
    output.flushes = .failed first :: .failed second :: .failed third :: later

theorem Flushed.delivered_eq (flushed : output.Flushed bytes) :
    output.delivered = output.written := by
  simp [delivered, flushed.unflushed_eq]

theorem Unflushed.toList_delivered (unflushed : output.Unflushed bytes cell) :
    output.delivered.toList = bytes := by
  rw [delivered, Array.take_eq_extract, Array.toList_extract, unflushed.unflushed_eq,
    ← Array.length_toList, unflushed.written_eq]
  simp

theorem Unflushed.written_eq_push (unflushed : output.Unflushed bytes cell) :
    output.written = output.delivered.push cell := by
  rw [← Array.toList_inj, Array.toList_push, unflushed.toList_delivered, unflushed.written_eq]

theorem Flushed.written_eq_empty (flushed : output.Flushed []) : output.written = #[] :=
  Array.toList_eq_nil_iff.mp flushed.written_eq

theorem delivered_flush_of_fails (fails : ∃ cause, output.FlushFails cause) :
    output.flush.2.delivered = output.delivered := by
  obtain ⟨cause, fails⟩ := fails
  rw [flush_of_fails fails]
  rfl

theorem delivered_flush_of_flushes (flushes : ¬ ∃ cause, output.FlushFails cause) :
    output.flush.2.delivered = output.written := by
  rw [flush_of_flushes flushes]
  simp [delivered]

theorem written_flush (output : Output) : output.flush.2.written = output.written := by
  by_cases fails : ∃ cause, output.FlushFails cause
  · obtain ⟨cause, fails⟩ := fails
    rw [flush_of_fails fails]
  · rw [flush_of_flushes fails]

theorem Clogged.delivered_flush_flush (clogged : output.Clogged) :
    output.flush.2.flush.2.delivered = output.delivered := by
  rw [delivered_flush_of_fails clogged.2, delivered_flush_of_fails clogged.1]

theorem delivered_flush_flush (unclogged : ¬ output.Clogged) :
    output.flush.2.flush.2.delivered = output.written := by
  by_cases again : ∃ cause, output.flush.2.FlushFails cause
  · -- The second flush fails, so the first has let everything out.
    have flushes : ¬ ∃ cause, output.FlushFails cause := fun fails => unclogged ⟨fails, again⟩
    rw [delivered_flush_of_fails again, delivered_flush_of_flushes flushes]
  · rw [delivered_flush_of_flushes again, written_flush]

theorem Flushed.delivered_flush (flushed : output.Flushed bytes) :
    output.flush.2.delivered = output.written := by
  by_cases fails : ∃ cause, output.FlushFails cause
  · rw [delivered_flush_of_fails fails, flushed.delivered_eq]
  · exact delivered_flush_of_flushes fails

theorem Flushed.delivered_flush_flush (flushed : output.Flushed bytes) :
    output.flush.2.flush.2.delivered = output.written := by
  by_cases clogged : output.Clogged
  · rw [clogged.delivered_flush_flush, flushed.delivered_eq]
  · exact Output.delivered_flush_flush clogged

theorem Broken.exists_fails (broken : output.Broken) : ∃ cause, output.Fails cause := by
  by_cases writeFails : ∃ cause, output.WriteFails cause
  · obtain ⟨cause, fails⟩ := writeFails
    exact ⟨cause, Or.inl fails⟩
  · obtain ⟨first, second, third, later, flushes⟩ := broken.resolve_left writeFails
    exact ⟨first, Or.inr ⟨writeFails, by simp [FlushFails, flushes]⟩⟩

theorem flushes_of_emit_error {cause : Failure}
    (failed : output.emit cell = (.error cause, after))
    (written : ¬ ∃ earlier, output.WriteFails earlier) : after.flushes = output.flushes.tail := by
  rw [emit] at failed
  split at failed
  · next between wrote =>
      rw [flush_of_fails (exists_flush_error_iff.mp ⟨after, failed⟩), Prod.mk.injEq] at failed
      rw [← failed.2, ← flushes_of_writeByte wrote]
  · next earlier unwritten wrote =>
      exact absurd ⟨earlier, exists_writeByte_error_iff.mp ⟨_, wrote⟩⟩ written

theorem Broken.delivered_flush_flush (broken : output.Broken) (fresh : output.Flushed [])
    {cause : Failure} (failed : output.emit cell = (.error cause, after)) :
    after.flush.2.flush.2.delivered = #[] := by
  rcases fresh.emit_error failed with ⟨-, flushed⟩ | ⟨written, -, unflushed⟩
  · rw [flushed.delivered_flush_flush, flushed.written_eq_empty]
  · -- The output instruction has met the first failure, the flushes after it meet the others.
    obtain ⟨first, second, third, later, flushes⟩ := broken.resolve_left written
    have fails : after.FlushFails second := by
      simp [FlushFails, flushes_of_emit_error failed written, flushes]
    have again : after.flush.2.FlushFails third := by
      rw [flush_of_fails fails]
      simp [FlushFails, flushes_of_emit_error failed written, flushes]
    have clogged : after.Clogged := ⟨⟨second, fails⟩, third, again⟩
    rw [clogged.delivered_flush_flush, ← Array.toList_eq_nil_iff, unflushed.toList_delivered]

end Output

variable {program : Program} {eof : EofPolicy}

theorem Trail.output_eq_of_broken {start state : State} {past : List State}
    (trail : Trail program eof start past state) (broken : start.machine.output.Broken) :
    state.machine.output = start.machine.output := by
  induction trail with
  | start => rfl
  | @step past before after trail moved ih =>
      rw [(streams_of_next moved).2]
      cases speaks : before.emission? program with
      | none => rw [State.outputAfter_of_emission?_none speaks, ih]
      | some cell =>
          obtain ⟨cause, fails⟩ := broken.exists_fails
          obtain ⟨_, failed⟩ : ∃ unsent, start.machine.output.emit cell = (.error cause, unsent) :=
            Output.exists_emit_error_iff.mpr fails
          have sent := emit_of_next speaks moved
          rw [ih, failed] at sent
          simp at sent

namespace Command

/-- What the report says is that the run with this end has been made. -/
structure Report.Accounts (report : Report) (style : Diagnostic.Style) (source : List UInt8)
    (program : Program) (halt : Halt) : Prop where
  not_stuck : halt.ending ≠ .stuck
  finished : halt.ending = .finished →
    report.exit = 0 ∧ report.output = halt.state.machine.output.written
  failed : ∀ error, halt.ending = .failed error →
    report.exit = 1 ∧
    (∃ before, report.messages = before ++ Diagnostic.runError style source program error) ∧
    (halt.state.machine.output.Clogged → report.output = halt.state.machine.output.delivered) ∧
    (¬ halt.state.machine.output.Clogged → report.output = halt.state.machine.output.written) ∧
    (halt.state.machine.output.written = halt.state.machine.output.delivered ∨
      ∃ cause cell, halt.FailedOutput program cause ∧
        halt.state.machine.output.written = halt.state.machine.output.delivered.push cell)
  unread_eq : report.unread = halt.state.machine.input

namespace Job

variable {interpreter : Interpreter} {fuel : Nat} {input : Input} {output : Output} {halt : Halt}

theorem printed_of_finished (fresh : output.Flushed [])
    (ran : interpreter.run program fuel input output = some halt)
    (finished : halt.ending = .finished) : printed halt = halt.state.machine.output.written := by
  obtain ⟨past, last, -, -, -, ⟨flushed, -⟩ | ⟨cause, cell, failed, -⟩⟩ :=
    Interpreter.exists_flushed_of_run fresh ran
  · rw [printed, finished]
    exact flushed.delivered_flush
  · rw [failed.1] at finished
    simp at finished

theorem printed_of_clogged {error : RunError} (failed : halt.ending = .failed error)
    (clogged : halt.state.machine.output.Clogged) :
    printed halt = halt.state.machine.output.delivered := by
  rw [printed, failed]
  exact clogged.delivered_flush_flush

theorem printed_of_unclogged {error : RunError} (failed : halt.ending = .failed error)
    (unclogged : ¬ halt.state.machine.output.Clogged) :
    printed halt = halt.state.machine.output.written := by
  rw [printed, failed]
  exact Output.delivered_flush_flush unclogged

theorem written_or_withheld (fresh : output.Flushed [])
    (ran : interpreter.run program fuel input output = some halt) :
    halt.state.machine.output.written = halt.state.machine.output.delivered ∨
      ∃ cause cell, halt.FailedOutput program cause ∧
        halt.state.machine.output.written = halt.state.machine.output.delivered.push cell := by
  obtain ⟨past, last, -, -, -, ⟨flushed, -⟩ | ⟨cause, cell, failed, -, -, -, unflushed⟩⟩ :=
    Interpreter.exists_flushed_of_run fresh ran
  · exact Or.inl flushed.delivered_eq.symm
  · exact Or.inr ⟨cause, cell, failed, unflushed.written_eq_push⟩

theorem printed_of_flushed (flushed : halt.state.machine.output.Flushed []) :
    printed halt = #[] := by
  rw [printed]
  split
  · rw [flushed.delivered_flush_flush, flushed.written_eq_empty]
  · rw [flushed.delivered_flush, flushed.written_eq_empty]

theorem printed_of_stop {last : State} (stop : Stop program eof last halt)
    (broken : last.machine.output.Broken) (fresh : last.machine.output.Flushed []) :
    printed halt = #[] := by
  cases stop with
  | failed here current acted =>
      cases Machine.act_eq_iff.mp acted with
      | unsent failed => exact broken.delivered_flush_flush fresh failed
      | _ => exact printed_of_flushed fresh
  | _ => exact printed_of_flushed fresh

theorem printed_of_broken (fresh : output.Flushed []) (broken : output.Broken)
    (ran : interpreter.run program fuel input output = some halt) :
    printed halt = #[] := by
  by_cases sized : interpreter.Sized
  · obtain ⟨past, last, trail, stopped⟩ :=
      (Interpreter.exists_trail_of_run sized).mp ⟨fuel, ran⟩
    have same := trail.output_eq_of_broken broken
    exact printed_of_stop (stop_of_step stopped) (same ▸ broken) (same ▸ fresh)
  · obtain ⟨ending, -, rfl⟩ := Interpreter.halt_eq_of_unsized sized ran
    exact printed_of_flushed fresh

variable {job : Job}

theorem accounts (linked : job.program.Linked) (fresh : output.Flushed [])
    (ran : job.interpreter.run job.program fuel input output = some halt) (before : String) :
    Report.Accounts
      ⟨exit halt, printed halt,
        before ++ (job.messages ++ job.traceLines fuel input output ++ job.lastWords halt),
        halt.state.machine.input⟩
      job.style job.source job.program halt where
  not_stuck := Interpreter.not_stuck_of_run linked ran
  finished finished := ⟨by simp [exit, finished], printed_of_finished fresh ran finished⟩
  failed error failed := by
    refine ⟨by simp [exit, failed], ?_, printed_of_clogged failed, printed_of_unclogged failed,
      written_or_withheld fresh ran⟩
    rw [lastWords, failed, ← String.append_assoc, ← String.append_assoc]
    exact ⟨_, rfl⟩
  unread_eq := rfl

theorem lines_haltRecords (quiet : job.logger.Quiet) (halt : Halt) :
    job.logger.lines (Interpreter.haltRecords halt) = "" := by
  refine quiet.lines_eq fun record mem => ?_
  rw [Interpreter.haltRecords] at mem
  split at mem
  · rw [List.mem_singleton.mp mem]
    exact Level.warn_lt_debug
  · simp at mem

theorem traceLines_eq_empty (quiet : job.logger.Quiet) (fuel : Nat) (input : Input)
    (output : Output) : job.traceLines fuel input output = "" := by
  simp [traceLines, quiet.hides .machine .trace (by decide)]

theorem messages_eq {before : String} (unwarned : before = "") (silent : job.messages = "")
    (quiet : job.logger.Quiet) (fuel : Nat) (input : Input) (output : Output) (halt : Halt) :
    (halt.ending = .finished →
      before ++ (job.messages ++ job.traceLines fuel input output ++ job.lastWords halt) = "") ∧
    ∀ error, halt.ending = .failed error →
      before ++ (job.messages ++ job.traceLines fuel input output ++ job.lastWords halt) =
        Diagnostic.runError job.style job.source job.program error := by
  rw [unwarned, silent, traceLines_eq_empty quiet, lastWords, lines_haltRecords quiet]
  simp only [String.empty_append]
  exact ⟨fun finished => by rw [finished], fun error failed => by rw [failed]⟩

end Job

variable {libraries : Libraries} {surroundings : Surroundings} {path : String}
  {source : List UInt8}

def Libraries.settingsFile (libraries : Libraries) (surroundings : Surroundings) :
    Option (String × String) :=
  Settings.File.find? (libraries.configHome surroundings.environment) surroundings.file

theorem settingsFile_of_error {home : String} {cause : Failure}
    (located : libraries.configHome surroundings.environment = some home)
    (absent : surroundings.file (Settings.File.join home "bf.toml") = .error cause) :
    libraries.settingsFile surroundings = none := by
  simp [Libraries.settingsFile, Settings.File.find?, located, absent, Except.toOption]

def interpreter (libraries : Libraries) (surroundings : Surroundings) (arguments : Arguments) :
    Interpreter :=
  (Settings.resolve arguments.layer surroundings.environment
    (Settings.File.layer (libraries.settingsFile surroundings))).interpreter

/-- Nothing is said about the log, and the settings file holds no value that is ignored. -/
structure Plain (libraries : Libraries) (surroundings : Surroundings) : Prop where
  unrequested : surroundings.environment "RUST_LOG" = none
  readable : ∀ path text, libraries.settingsFile surroundings = some (path, text) →
    ∀ setting value, ¬ Settings.File.Ignored text setting value

theorem exists_job (libraries : Libraries) (surroundings : Surroundings) (name : String)
    (arguments : Arguments) (path : String)
    (loaded : Program.ofBytes source = .ok program) :
    ∃ messages,
      prepareSource libraries surroundings name arguments.layer path source = .ready
        { source, program, messages
          interpreter := interpreter libraries surroundings arguments
          style := libraries.style surroundings name
          logger := libraries.loggerIn surroundings
          alarm := libraries.alarm } ∧
      ((libraries.loggerIn surroundings).Quiet → Plain libraries surroundings →
        messages = "") := by
  rw [prepareSource, loaded]
  refine ⟨_, rfl, fun quiet plain => quiet.lines_eq fun record mem => ?_⟩
  rw [List.cons_append, List.mem_cons, List.mem_append, List.mem_singleton] at mem
  rcases mem with rfl | mem | rfl
  · exact Level.warn_lt_debug
  · rw [Settings.level_of_mem_gather plain.readable mem]
    exact Level.warn_lt_debug
  · exact Level.warn_lt_info

section

variable {arguments : Arguments} {words : List String}

theorem prepare_of_found (libraries : Libraries) (name : String) (unhelped : arguments.help = false)
    (named : arguments.path = some path) (found : surroundings.file path = .ok source) :
    prepare libraries surroundings name arguments =
      prepareSource libraries surroundings name arguments.layer path source := by
  simp [prepare, unhelped, named, found]

theorem invoke_of_over (read : libraries.readArguments words = .ok arguments) {exit : Nat}
    {messages : String}
    (prepared : prepare libraries surroundings (name words) arguments = .over exit messages)
    (fuel : Nat) (input : Input) (output : Output) :
    invoke libraries surroundings words fuel input output =
      some ⟨exit, #[], (libraries.loggerIn surroundings).complaints ++ messages, input⟩ := by
  simp [invoke, read, prepared]

theorem invoke_of_ready (read : libraries.readArguments words = .ok arguments) {job : Job}
    (prepared : prepare libraries surroundings (name words) arguments = .ready job) (fuel : Nat)
    (input : Input) (output : Output) :
    invoke libraries surroundings words fuel input output =
      (job.interpreter.run job.program fuel input output).map fun halt =>
        ⟨Job.exit halt, Job.printed halt,
          (libraries.loggerIn surroundings).complaints ++
            (job.messages ++ job.traceLines fuel input output ++ job.lastWords halt),
          halt.state.machine.input⟩ := by
  simp only [invoke, read, prepared, Job.run, Option.map_map]
  rfl

theorem invoke_of_loaded (read : libraries.readArguments words = .ok arguments)
    (unhelped : arguments.help = false) (named : arguments.path = some path)
    (found : surroundings.file path = .ok source) {program : Program}
    (loaded : Program.ofBytes source = .ok program) {output : Output}
    (fresh : output.Flushed []) (fuel : Nat) (input : Input) :
    (invoke libraries surroundings words fuel input output = none ↔
      (interpreter libraries surroundings arguments).run program fuel input output = none) ∧
    ∀ halt,
      (interpreter libraries surroundings arguments).run program fuel input output = some halt →
      ∃ report, invoke libraries surroundings words fuel input output = some report ∧
        report.Accounts (libraries.style surroundings (name words)) source program halt ∧
        (output.Broken → report.output = #[]) ∧
        ((libraries.loggerIn surroundings).Quiet → Plain libraries surroundings →
          (halt.ending = .finished → report.messages = "") ∧
          ∀ error, halt.ending = .failed error →
            report.messages =
              Diagnostic.runError (libraries.style surroundings (name words)) source program
                error) := by
  have linked := Program.linked_of_ofBytes loaded
  obtain ⟨messages, readied, silent⟩ :=
    exists_job libraries surroundings (name words) arguments path loaded
  have prepared := prepare_of_found libraries (name words) unhelped named found
  rw [invoke_of_ready read (prepared.trans readied)]
  refine ⟨Option.map_eq_none_iff, fun halt ran => ?_⟩
  refine ⟨_, Option.map_eq_some_iff.mpr ⟨halt, ran, rfl⟩, ?_, ?_, ?_⟩
  · exact Job.accounts linked fresh ran (libraries.loggerIn surroundings).complaints
  · exact fun broken => Job.printed_of_broken fresh broken ran
  · intro quiet plain
    exact Job.messages_eq quiet.complaints_eq (silent quiet plain) quiet fuel input output halt

end

theorem invoke_composes (libraries : Libraries) (surroundings : Surroundings)
    (words : List String)
    (declared : ∀ arguments,
      libraries.readArguments words = .ok arguments ↔ Line words arguments)
    (unrequested : surroundings.environment "RUST_LOG" = none →
      (libraries.loggerIn surroundings).Quiet)
    (fuel : Nat) (input : Input) (writes : List WriteReply) (flushes : List FlushReply) :
    let output : Output := { writes, flushes }
    let complaints := (libraries.loggerIn surroundings).complaints
    let style := libraries.style surroundings (name words)
    ((¬ ∃ arguments, Line words arguments) → ∃ messages,
      invoke libraries surroundings words fuel input output = some ⟨2, #[], messages, input⟩) ∧
    (∀ arguments, Line words arguments →
      (arguments.help = true → ∀ file,
        invoke libraries { surroundings with file } words fuel input output =
          some ⟨0, #[], complaints ++ usage (name words), input⟩) ∧
      (arguments.help = false → arguments.path = none →
        invoke libraries surroundings words fuel input output =
          some ⟨2, #[], complaints ++ usage (name words), input⟩) ∧
      ∀ path, arguments.help = false → arguments.path = some path →
        (∀ cause, surroundings.file path = .error cause →
          invoke libraries surroundings words fuel input output =
            some ⟨1, #[], complaints ++
              s!"{name words}: Load error: failed to read {path}: {cause.text}\n", input⟩) ∧
        ∀ source, surroundings.file path = .ok source →
          (∀ error, Program.ofBytes source = .error error →
            invoke libraries surroundings words fuel input output =
              some ⟨1, #[], complaints ++ Diagnostic.loadError style source error, input⟩) ∧
          ∀ program, Program.ofBytes source = .ok program →
            (invoke libraries surroundings words fuel input output = none ↔
              (interpreter libraries surroundings arguments).run program fuel input output =
                none) ∧
            ∀ halt,
              (interpreter libraries surroundings arguments).run program fuel input output =
                some halt →
              ∃ report, invoke libraries surroundings words fuel input output = some report ∧
                report.Accounts style source program halt ∧
                (output.Broken → report.output = #[]) ∧
                (Plain libraries surroundings →
                  (halt.ending = .finished → report.messages = "") ∧
                  ∀ error, halt.ending = .failed error →
                    report.messages = Diagnostic.runError style source program error)) ∧
    (surroundings.environment "RUST_LOG" = none → complaints = "") := by
  intro output complaints style
  have fresh : output.Flushed [] := ⟨rfl, rfl, rfl⟩
  refine ⟨fun rejected => ?_, fun arguments line => ?_, fun unset => (unrequested unset).1⟩
  · cases read : libraries.readArguments words with
    | ok arguments => exact absurd ⟨arguments, (declared arguments).mp read⟩ rejected
    | error message => exact ⟨_, by rw [invoke, read]⟩
  · have read := (declared arguments).mpr line
    refine ⟨?_, ?_, ?_⟩
    · intro helped file
      exact invoke_of_over read (by simp [prepare, helped]) fuel input output
    · intro unhelped unnamed
      exact invoke_of_over read (by simp [prepare, unhelped, unnamed]) fuel input output
    · intro path unhelped named
      refine ⟨fun cause missing => ?_, fun source found => ⟨fun error failed => ?_, ?_⟩⟩
      · exact invoke_of_over read (by simp [prepare, unhelped, named, missing]) fuel input output
      · have prepared := prepare_of_found libraries (name words) unhelped named found
        rw [prepareSource, failed] at prepared
        exact invoke_of_over read prepared fuel input output
      · intro program loaded
        obtain ⟨endless, runs⟩ :=
          invoke_of_loaded read unhelped named found loaded fresh fuel input
        refine ⟨endless, fun halt ran => ?_⟩
        obtain ⟨report, invoked, accounts, unprinted, silent⟩ := runs halt ran
        exact ⟨report, invoked, accounts, unprinted, fun plain =>
          silent (unrequested plain.unrequested) plain⟩

/-- Libraries as they work for one command line, with one request that the logger cannot read. -/
def Libraries.sample (words : List String) (arguments : Arguments) : Libraries where
  readArguments line :=
    if line = words then .ok arguments else .error "error: unexpected argument found\n"
  logger environment _ :=
    if environment "RUST_LOG" = some "bf=loud" then {
      complaints := "warning: invalid logging spec 'loud', ignoring it\n"
      shows := fun _ level => level.rank ≤ Level.error.rank
      line := fun record => record.message ++ "\n" }
    else {
      complaints := ""
      shows := fun _ level => level.rank ≤ Level.warn.rank
      line := fun record => record.message ++ "\n" }
  configHome environment := (environment "HOME").map (· ++ "/.config")
  paint label := "\x1b[1;31m".toList ++ label ++ "\x1b[0m".toList
  alarm := "capacity overflow\n"

def Surroundings.sample (environment : String → Option String) (source : List Char) :
    Surroundings where
  environment
  file path :=
    if path = "p.bf" then .ok (source.map Char.toUInt8) else .error (.ofKind .notFound)

theorem invoke_composes_left_of_tape :
    let words := ["bf", "--tape-size=1", "p.bf"]
    let libraries := Libraries.sample words { tapeSize := some 1, path := some "p.bf" }
    let surroundings := Surroundings.sample
      (fun name => if name = "HOME" then some "/home/user" else none) ['+', '.', '<']
    ∃ report, invoke libraries surroundings words 3 [] {} = some report ∧ report.exit = 1 ∧
      report.output = #[1] ∧
      report.messages = "bf: Runtime error: pointer out of bounds (ptr=0, op=<) " ++
        "at instruction 2\n  +.<\n    ^\n" := by
  intro words libraries surroundings
  let arguments : Arguments := { tapeSize := some 1, path := some "p.bf" }
  have line : Line words arguments := by
    refine ⟨[.setting .tapeSize "1", .path "p.bf"],
      .attached (by decide) (.path (by decide) .nil), ?_⟩
    refine ⟨by decide, by simp [arguments], by simp [arguments, eq_comm], ?_, ?_⟩
    · intro setting text mentioned
      simp only [List.mem_cons, Mention.setting.injEq, List.not_mem_nil, reduceCtorEq,
        or_false] at mentioned
      obtain ⟨rfl, rfl⟩ := mentioned
      exact ⟨1, rfl, rfl⟩
    · intro setting omitted
      cases setting with
      | tapeSize => exact absurd List.mem_cons_self (omitted "1")
      | eof => rfl
  have declared (other : Arguments) :
      libraries.readArguments words = .ok other ↔ Line words other := by
    have read : libraries.readArguments words = .ok arguments := by
      simp [libraries, Libraries.sample, arguments]
    rw [read, Except.ok.injEq]
    exact ⟨fun same => same ▸ line, line.unique⟩
  have quiet (_ : surroundings.environment "RUST_LOG" = none) :
      (libraries.loggerIn surroundings).Quiet :=
    ⟨rfl, fun target level milder => decide_eq_false (Nat.not_le.mpr milder)⟩
  let program : Program := ⟨#[.simple .increment, .simple .output, .simple .left], #[0, 1, 2],
    #[none, none, none], #[none, none, none]⟩
  have loaded : Program.ofBytes (['+', '.', '<'].map Char.toUInt8) = .ok program := rfl
  have elsewhere : Settings.File.join "/home/user/.config" "bf.toml" ≠ "p.bf" := by
    decide +kernel
  have absent : surroundings.file (Settings.File.join "/home/user/.config" "bf.toml") =
      .error (.ofKind .notFound) := if_neg elsewhere
  have missing : libraries.settingsFile surroundings = none := settingsFile_of_error rfl absent
  have ran : (interpreter libraries surroundings arguments).run program 3 [] {} =
      some ⟨.failed (.outOfBounds 2 0 '<'), 2,
        ⟨⟨#[1], 0⟩, [], { written := #[1], flushCount := 1 }⟩, 2⟩ := by
    rw [interpreter, missing]
    rfl
  have plain : Plain libraries surroundings :=
    ⟨rfl, fun path text found => by simp [missing] at found⟩
  obtain ⟨-, ways, -⟩ := invoke_composes libraries surroundings words declared quiet 3 [] [] []
  obtain ⟨-, -, reads⟩ := ways arguments line
  obtain ⟨-, runs⟩ := ((reads "p.bf" rfl rfl).2 _ rfl).2 program loaded
  obtain ⟨report, invoked, accounts, -, silent⟩ := runs _ ran
  obtain ⟨exit, -, clogged, unclogged, -⟩ := accounts.failed _ rfl
  refine ⟨report, invoked, exit, ?_, ((silent plain).2 _ rfl).trans (by decide +kernel)⟩
  exact (Classical.em _).elim clogged unclogged

/-- The logger speaks before the command does, a byte that a flush has kept back may come out later,
a stream may take bytes before it fails, and some tapes cannot be made. -/
theorem invoke_departs :
    let words := ["bf", "--tape-size=1", "p.bf"]
    let libraries := Libraries.sample words { tapeSize := some 1, path := some "p.bf" }
    let surroundings (request : Option String) := Surroundings.sample
      fun name => if name = "RUST_LOG" then request else none
    (∃ report error,
      invoke libraries (surroundings (some "bf=loud") [']']) words 0 [] {} = some report ∧
      Program.ofBytes [']'.toUInt8] = .error error ∧
      report.messages ≠ Diagnostic.loadError { speaker := some "bf" } [']'.toUInt8] error) ∧
    (∃ program halt report,
      Program.ofBytes ['.'.toUInt8] = .ok program ∧
      Interpreter.run ⟨1, .zero⟩ program 1 [] { flushes := [.failed (.ofKind .other)] } =
        some halt ∧
      invoke libraries (surroundings none ['.']) words 1 []
        { flushes := [.failed (.ofKind .other)] } = some report ∧
      report.exit = 1 ∧ halt.state.machine.output.delivered = #[] ∧ report.output = #[0]) ∧
    (∃ report,
      invoke libraries (surroundings none ['.', '.']) words 2 []
        { writes := [.accepted, .failed (.ofKind .other)] } = some report ∧
      report.exit = 1 ∧ report.output = #[0]) ∧
    ∃ report,
      let words := ["bf", "--tape-size=9223372036854775808", "p.bf"]
      let libraries :=
        Libraries.sample words { tapeSize := some (capacity + 1), path := some "p.bf" }
      invoke libraries (surroundings none ['+']) words 1 [] {} = some report ∧
        report.exit = 101 := by
  intro words libraries surroundings
  have loadFailure : Program.ofBytes [']'.toUInt8] = .error (.unmatched .closing 0 0) := rfl
  have single : Program.ofBytes ['.'.toUInt8] =
      .ok ⟨#[.simple .output], #[0], #[none], #[none]⟩ := rfl
  exact ⟨⟨_, _, rfl, loadFailure, by decide +kernel⟩,
    ⟨_, _, _, single, rfl, rfl, rfl, rfl, rfl⟩, ⟨_, rfl, rfl, rfl⟩, _, rfl, rfl⟩

end Command
end Brainfuck
