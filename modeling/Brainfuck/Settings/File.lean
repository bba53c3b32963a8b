import Brainfuck.Settings.Basic

/-!
Of several lines for one key the last counts, whether its value can be read or not.
-/

namespace Brainfuck.Settings.File

def lines : List Char → List (List Char)
  | [] => [[]]
  | '\n' :: rest => [] :: lines rest
  | character :: rest =>
    match lines rest with
    | line :: more => (character :: line) :: more
    | [] => [[character]]

inductive Line where
  | header (name : List Char)
  | assignment (key value : List Char)
  | other
  deriving DecidableEq

def unquote : List Char → List Char
  | '"' :: rest => if rest.getLast? = some '"' then rest.dropLast else '"' :: rest
  | value => value

def Line.ofAssignment (text : List Char) : Line :=
  match text.dropWhile (· ≠ '=') with
  | [] => .other
  | _ :: value => .assignment (Text.trim (text.takeWhile (· ≠ '='))) (unquote (Text.trim value))

def Line.ofTrimmed : List Char → Line
  | [] => .other
  | '#' :: _ => .other
  | '[' :: rest =>
    if rest.getLast? = some ']' then .header (Text.trim rest.dropLast)
    else .ofAssignment ('[' :: rest)
  | text => .ofAssignment text

def Line.ofText (text : List Char) : Line := .ofTrimmed (Text.trim text)

def sectionName : List Char := "interpreter".toList

def setting? (key : List Char) : Option Setting :=
  Setting.all.find? fun setting => setting.key.toList = key

structure Draft where
  inSection : Bool := false
  /-- The value last assigned to each setting. -/
  values : Setting → Option (List Char) := fun _ => none

namespace Draft

def assign (draft : Draft) (setting : Setting) (value : List Char) : Draft :=
  { draft with values := fun other => if other = setting then some value else draft.values other }

def readLine (draft : Draft) (line : List Char) : Draft :=
  match Line.ofText line with
  | .header name => { draft with inSection := name = sectionName }
  | .assignment key value =>
    match draft.inSection, setting? key with
    | true, some setting => draft.assign setting value
    | _, _ => draft
  | .other => draft

def ofText (text : List Char) : Draft := (lines text).foldl readLine {}

end Draft

def readSize (value : List Char) : Except Text.NumeralError Nat :=
  Text.readNumeral (value.filter (· ≠ '_'))

def Draft.layer (draft : Draft) : Layer where
  tapeSize := (draft.values .tapeSize).bind fun value => (readSize value).toOption
  eof := (draft.values .eof).bind fun value => (EofPolicy.ofText value).toOption

def sizeWarning (value : List Char) : Record :=
  ⟨.warn, .config, s!"ignoring invalid tape_size '{String.ofList value}' in bf.toml"⟩

def eofWarning (unknown : EofPolicy.Unknown) : Record :=
  ⟨.warn, .config, s!"ignoring eof in bf.toml: {unknown.message}"⟩

def Draft.warnings (draft : Draft) : List Record :=
  ((draft.values .tapeSize).toList.flatMap fun value =>
    match readSize value with
    | .ok _ => []
    | .error _ => [sizeWarning value]) ++
  ((draft.values .eof).toList.flatMap fun value =>
    match EofPolicy.ofText value with
    | .ok _ => []
    | .error unknown => [eofWarning unknown])

def read (text : String) : Layer := (Draft.ofText text.toList).layer

def warnings (text : String) : List Record := (Draft.ofText text.toList).warnings

def join (directory name : String) : String :=
  if directory = "" ∨ directory.endsWith "/" then directory ++ name
  else directory ++ "/" ++ name

def find? (home : Option String) (file : String → Except Failure (List UInt8)) :
    Option (String × String) := do
  let path := join (← home) "bf.toml"
  let bytes ← (file path).toOption
  let text ← String.fromUTF8? ⟨bytes.toArray⟩
  return (path, text)

def layer (found : Option (String × String)) : Layer :=
  (found.map fun (_, text) => read text).getD {}

def records : Option (String × String) → List Record
  | some (path, text) => ⟨.debug, .config, s!"reading settings from {path}"⟩ :: warnings text
  | none => []

end File

def gather (flags : Layer) (environment : String → Option String) (home : Option String)
    (file : String → Except Failure (List UInt8)) : Settings × List Record :=
  let found := File.find? home file
  let settings := resolve flags environment (File.layer found)
  (settings, File.records found ++ settings.records)

end Brainfuck.Settings
