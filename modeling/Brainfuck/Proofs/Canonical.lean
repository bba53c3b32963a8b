import Brainfuck.Proofs.Execution
import Brainfuck.Proofs.Offsets

/-!
Comments only move what stands behind them: without them a source has the same brackets at the
same positions, and each offset becomes a position (`ofBytes_stripped`).
-/

namespace Brainfuck

def stripped (source : List UInt8) : List UInt8 :=
  source.filter fun byte => (Instruction.ofByte? byte).isSome

theorem stripped_cons_none {byte : UInt8} (comment : Instruction.ofByte? byte = none)
    (source : List UInt8) : stripped (byte :: source) = stripped source := by
  simp [stripped, comment]

theorem stripped_cons_some {byte : UInt8} {instruction : Instruction}
    (known : Instruction.ofByte? byte = some instruction) (source : List UInt8) :
    stripped (byte :: source) = byte :: stripped source := by
  simp [stripped, known]

theorem decode_map_byte (source : List UInt8) :
    (decode source).map Instruction.byte = stripped source := by
  induction source with
  | nil => rfl
  | cons byte source ih =>
      cases known : Instruction.ofByte? byte with
      | none => rw [stripped_cons_none known, decode, List.filterMap_cons_none known, ← ih, decode]
      | some instruction =>
          rw [stripped_cons_some known, decode, List.filterMap_cons_some known, List.map_cons,
            ← Instruction.eq_byte_of_ofByte? known, ← ih, decode]

def Program.renumbered (program : Program) : Program :=
  { program with offsets := .range program.length }

def LoadError.renumbered : LoadError → LoadError
  | .unmatched bracket ip _ => .unmatched bracket ip ip
  | .io cause => .io cause

namespace Scan

def renumbered (scan : Scan) : Scan where
  program := scan.program.renumbered
  unclosed := scan.unclosed
  offset := scan.program.length
  aligned := by simp [Program.renumbered, Program.length]
  located ip member := by
    simpa [Program.renumbered, Program.length, scan.aligned] using scan.located ip member

theorem exists_feed_comment {byte : UInt8} (comment : Instruction.ofByte? byte = none)
    (scan : Scan) : ∃ next, scan.feed byte = .ok next ∧ next.renumbered = scan.renumbered :=
  ⟨{ scan with offset := scan.offset + 1 }, by simp only [feed, comment], rfl⟩

theorem feed_renumbered {byte : UInt8} {instruction : Instruction}
    (known : Instruction.ofByte? byte = some instruction) (scan : Scan) :
    scan.renumbered.feed byte =
      match scan.feed byte with
      | .ok next => .ok next.renumbered
      | .error error => .error error.renumbered := by
  obtain ⟨⟨instructions, offsets, closing, opening⟩, unclosed, offset, aligned, located⟩ := scan
  have range := Array.range_succ (n := instructions.size)
  cases instruction with
  | simple action => simp [renumbered, Program.renumbered, Program.length, feed, known, range]
  | loopStart => simp [renumbered, Program.renumbered, Program.length, feed, known, range]
  | loopEnd =>
      cases unclosed with
      | nil =>
          simp [renumbered, Program.renumbered, Program.length, feed, known, LoadError.renumbered]
      | cons partner rest =>
          simp [renumbered, Program.renumbered, Program.length, feed, known, range]

theorem feedAll_stripped (scan : Scan) (source : List UInt8) :
    scan.renumbered.feedAll (stripped source) =
      match scan.feedAll source with
      | .ok next => .ok next.renumbered
      | .error (error, unread) => .error (error.renumbered, stripped unread) := by
  induction source generalizing scan with
  | nil => rfl
  | cons byte source ih =>
      rw [feedAll]
      cases known : Instruction.ofByte? byte with
      | none =>
          rw [stripped_cons_none known]
          obtain ⟨next, fed, same⟩ := exists_feed_comment known scan
          rw [fed, ← same]
          exact ih next
      | some instruction =>
          rw [stripped_cons_some known, feedAll, feed_renumbered known]
          cases scan.feed byte with
          | ok next => exact ih next
          | error error => rfl

theorem finish_renumbered (scan : Scan) :
    scan.renumbered.finish =
      match scan.finish with
      | .ok program => .ok program.renumbered
      | .error error => .error error.renumbered := by
  obtain ⟨program, unclosed, offset, aligned, located⟩ := scan
  cases unclosed with
  | nil => rfl
  | cons ip unclosed => simp [renumbered, finish, Program.renumbered, LoadError.renumbered]

end Scan

theorem ofBytes_stripped (source : List UInt8) :
    Program.ofBytes (stripped source) =
      match Program.ofBytes source with
      | .ok program => .ok program.renumbered
      | .error error => .error error.renumbered := by
  have empty : ({} : Scan) = ({} : Scan).renumbered := rfl
  rw [Program.ofBytes, Program.ofBytes, empty, Scan.feedAll_stripped, ← empty]
  cases ({} : Scan).feedAll source with
  | ok scan => exact scan.finish_renumbered
  | error stopped => rfl

theorem Program.ofBytes_ne_io (source : List UInt8) (cause : Failure) :
    ofBytes source ≠ .error (.io cause) := by
  rcases ofBytes_cases source with ⟨_, result, _, _⟩ | ⟨_, _, _, _, result⟩ |
    ⟨_, _, _, _, _, _, result⟩
  all_goals simp [result]

theorem Instruction.utf8EncodeChar_symbol (instruction : Instruction) :
    String.utf8EncodeChar instruction.symbol = [instruction.byte] := by
  rcases instruction with (_ | _ | _ | _ | _ | _) | _ | _ <;> rfl

namespace Program

theorem toUTF8_text (program : Program) :
    program.text.toUTF8 = (program.code.map Instruction.byte).toByteArray := by
  rw [String.toUTF8, text, String.toByteArray_ofList, List.utf8Encode, List.flatMap_map]
  simp only [Instruction.utf8EncodeChar_symbol]
  rw [← List.map_eq_flatMap, code]

theorem offset?_renumbered (program : Program) {ip : Nat} (bound : ip < program.length) :
    program.renumbered.offset? ip = some ip := by
  simp [renumbered, offset?, bound]

variable {program : Program} {eof : EofPolicy}

theorem runFrom_renumbered (fuel : Nat) (state : State) :
    runFrom program.renumbered eof fuel state = runFrom program eof fuel state := by
  induction fuel generalizing state with
  | zero => rfl
  | succ fuel ih =>
      have same : step program.renumbered eof state = step program eof state := rfl
      rw [runFrom, runFrom, same]
      cases step program eof state with
      | next after => exact ih after
      | halt halt => rfl

theorem run_renumbered (interpreter : Interpreter) (fuel : Nat) (input : Input)
    (output : Output) :
    interpreter.run program.renumbered fuel input output =
      interpreter.run program fuel input output := by
  simp only [Interpreter.run, runFrom_renumbered]

private theorem table_ext {first second : Array (Option Nat)} (size : first.size = second.size)
    (same : ∀ i : Nat, first[i]?.join = second[i]?.join) : first = second := by
  apply Array.ext size
  intro i bound bound'
  simpa [bound, bound'] using same i

theorem Linked.forward_eq {first second : Program} (linked : first.Linked)
    (linked' : second.Linked) (same : first.code = second.code) (ip : Nat) :
    first.forward ip = second.forward ip := by
  apply Option.ext
  intro c
  rw [linked.forward_iff, linked'.forward_iff, same]

theorem Linked.backward_eq {first second : Program} (linked : first.Linked)
    (linked' : second.Linked) (same : first.code = second.code) (ip : Nat) :
    first.backward ip = second.backward ip := by
  apply Option.ext
  intro o
  rw [linked.backward_iff, linked'.backward_iff, same]

theorem opening_size_of_ofBytes {source : List UInt8} {program : Program}
    (loaded : ofBytes source = .ok program) : program.opening.size = program.code.length := by
  obtain ⟨scan, covers, rfl, -⟩ := covers_of_ofBytes loaded
  rw [covers.opening_size, covers.code_eq]

theorem eq_of_ofBytes {source source' : List UInt8} {first second : Program}
    (loaded : ofBytes source = .ok first) (loaded' : ofBytes source' = .ok second)
    (code : first.code = second.code) (offsets : first.offsets = second.offsets) :
    first = second := by
  have linked := linked_of_ofBytes loaded
  have linked' := linked_of_ofBytes loaded'
  have closing : first.closing = second.closing :=
    table_ext (by rw [linked.closing_size, linked'.closing_size, code])
      (linked.forward_eq linked' code)
  have opening : first.opening = second.opening := by
    refine table_ext ?_ (linked.backward_eq linked' code)
    rw [opening_size_of_ofBytes loaded, opening_size_of_ofBytes loaded', code]
  have instructions : first.instructions = second.instructions := Array.toList_inj.mp code
  cases first
  cases second
  rw [mk.injEq]
  exact ⟨instructions, offsets, closing, opening⟩

end Program

theorem ofBytes_canonical :
    (∀ source,
      ((∃ program, Program.ofBytes source = .ok program) ↔
        ∃ program, Program.ofBytes (stripped source) = .ok program) ∧
      (∀ error, Program.ofBytes source = .error error →
        ∃ bracket ip offset offset', error = .unmatched bracket ip offset ∧
          Program.ofBytes (stripped source) = .error (.unmatched bracket ip offset')) ∧
      ∀ program, Program.ofBytes source = .ok program →
        program.text.toUTF8 = (stripped source).toByteArray ∧
        (∃ clean, Program.ofBytes (stripped source) = .ok clean ∧
          clean.instructions = program.instructions ∧
          (∀ ip, clean.forward ip = program.forward ip ∧ clean.backward ip = program.backward ip) ∧
          (∀ ip, ip < clean.length → clean.offset? ip = some ip) ∧
          clean.text = program.text ∧
          ∀ (interpreter : Interpreter) (fuel : Nat) (input : Input) (output : Output),
            interpreter.run clean fuel input output =
              interpreter.run program fuel input output) ∧
        program.offsets.size = program.length ∧
        (∀ i j o o', i < j → program.offset? i = some o → program.offset? j = some o' → o < o') ∧
        (∀ ip instruction, program.instruction? ip = some instruction →
          ∃ offset, program.offset? ip = some offset ∧ source[offset]? = some instruction.byte) ∧
        ∀ offset, (∃ ip, program.offset? ip = some offset) ↔
          ∃ byte, source[offset]? = some byte ∧ (Instruction.ofByte? byte).isSome) ∧
    ∀ (source source' unread unread' : Input) (first second : Program),
      Program.load source = (.ok first, unread) → Program.load source' = (.ok second, unread') →
        (first = second ↔
          first.instructions = second.instructions ∧ first.offsets = second.offsets) ∧
        (first.instructions = second.instructions →
          ∀ ip, first.forward ip = second.forward ip ∧ first.backward ip = second.backward ip) := by
  refine ⟨fun source => ?_, fun source source' unread unread' first second loaded loaded' => ?_⟩
  · have clean := ofBytes_stripped source
    refine ⟨?_, fun error failed => ?_, fun program loaded => ?_⟩
    · cases result : Program.ofBytes source with
      | ok program => simp [clean, result]
      | error error => simp [clean, result]
    · rw [failed] at clean
      cases error with
      | unmatched bracket ip offset => exact ⟨bracket, ip, offset, ip, rfl, clean⟩
      | io cause => exact absurd failed (Program.ofBytes_ne_io source cause)
    · rw [loaded] at clean
      refine ⟨?_, ⟨program.renumbered, clean, rfl, fun ip => ⟨rfl, rfl⟩,
          fun ip => program.offset?_renumbered, rfl, Program.run_renumbered⟩,
        Program.size_offsets loaded, fun i j o o' => Program.offset?_lt_offset? loaded,
        fun ip instruction => Program.exists_offset loaded,
        fun offset => Program.exists_offset?_iff loaded⟩
      rw [program.toUTF8_text, Program.code_of_ofBytes loaded, decode_map_byte]
  · obtain ⟨bytes, loaded⟩ := Program.exists_ofBytes_of_load loaded
    obtain ⟨bytes', loaded'⟩ := Program.exists_ofBytes_of_load loaded'
    refine ⟨⟨?_, fun ⟨instructions, offsets⟩ => ?_⟩, fun instructions ip => ?_⟩
    · rintro rfl
      exact ⟨rfl, rfl⟩
    · exact Program.eq_of_ofBytes loaded loaded' (congrArg Array.toList instructions) offsets
    · have linked := Program.linked_of_ofBytes loaded
      have linked' := Program.linked_of_ofBytes loaded'
      have code : first.code = second.code := congrArg Array.toList instructions
      exact ⟨linked.forward_eq linked' code ip, linked.backward_eq linked' code ip⟩

example : Program.ofBytes (['a', '[', 'b', ']'].map Char.toUInt8) =
    .ok ⟨#[.loopStart, .loopEnd], #[1, 3], #[some 1, none], #[none, some 0]⟩ := rfl

end Brainfuck
