import Brainfuck.Command

namespace Brainfuck

theorem Level.warn_lt_info : Level.warn.rank < Level.info.rank := by decide

theorem Level.warn_lt_debug : Level.warn.rank < Level.debug.rank := by decide

structure Logger.Quiet (logger : Logger) : Prop where
  complaints_eq : logger.complaints = ""
  hides : ∀ target level, Level.warn.rank < level.rank → logger.shows target level = false

theorem Logger.Quiet.lines_eq {logger : Logger} (quiet : logger.Quiet) {records : List Record}
    (milder : ∀ record ∈ records, Level.warn.rank < record.level.rank) :
    logger.lines records = "" := by
  have none_shown :
      (records.filter fun record => logger.shows record.target record.level) = [] := by
    rw [List.filter_eq_nil_iff]
    intro record mem
    simp [quiet.hides record.target record.level (milder record mem)]
  rw [lines, none_shown]
  rfl

namespace Settings

namespace File

/-- The value counts for the setting, but it cannot be read. -/
def Ignored (text : String) (setting : Setting) (value : List Char) : Prop :=
  (Draft.ofText text.toList).values setting = some value ∧
    match setting with
    | .tapeSize => ∃ error, readSize value = .error error
    | .eof => ∃ unknown, EofPolicy.ofText value = .error unknown

theorem warnings_eq_nil {text : String} (readable : ∀ setting value, ¬ Ignored text setting value) :
    warnings text = [] := by
  rw [warnings, Draft.warnings, List.append_eq_nil_iff]
  constructor
  · rw [List.flatMap_eq_nil_iff]
    intro value counts
    rw [Option.mem_toList] at counts
    cases read : readSize value with
    | ok size => rfl
    | error error => exact absurd ⟨counts, error, read⟩ (readable .tapeSize value)
  · rw [List.flatMap_eq_nil_iff]
    intro value counts
    rw [Option.mem_toList] at counts
    cases read : EofPolicy.ofText value with
    | ok policy => rfl
    | error unknown => exact absurd ⟨counts, unknown, read⟩ (readable .eof value)

end File

theorem level_of_mem_records {settings : Settings} {record : Record}
    (mem : record ∈ settings.records) : record.level = .debug := by
  simp only [records, List.mem_append, List.mem_ite_nil_right, List.mem_singleton] at mem
  rcases mem with ⟨-, rfl⟩ | rfl <;> rfl

theorem level_of_mem_gather {flags : Layer} {environment : String → Option String}
    {home : Option String} {file : String → Except Failure (List UInt8)} {record : Record}
    (readable : ∀ path text, File.find? home file = some (path, text) →
      ∀ setting value, ¬ File.Ignored text setting value)
    (mem : record ∈ (gather flags environment home file).2) : record.level = .debug := by
  rw [gather, List.mem_append] at mem
  rcases mem with mem | mem
  · cases found : File.find? home file with
    | none => simp [found, File.records] at mem
    | some named =>
        obtain ⟨path, text⟩ := named
        rw [found, File.records, File.warnings_eq_nil (readable path text found),
          List.mem_singleton] at mem
        rw [mem]
  · exact level_of_mem_records mem

end Settings
end Brainfuck
