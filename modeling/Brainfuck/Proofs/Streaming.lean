import Brainfuck.Proofs.LoadErrors
import Mathlib.Data.List.TakeWhile

/-!
A loader that reads item by item comes to the same end as one that reads chunks
(`Scan.read_eq_readItems`).
-/

namespace Brainfuck

def Item.byte? : Item → Option UInt8
  | .byte value => some value
  | _ => none

def Item.passable : Item → Bool
  | .byte _ => true
  | .endOfStream => false
  | .failure cause => cause.interrupted

def Input.data (source : Input) : List UInt8 :=
  (source.items.takeWhile Item.passable).filterMap Item.byte?

def Input.afterData (source : Input) : List Item := source.items.dropWhile Item.passable

theorem Input.items_eq (source : Input) :
    source.items = source.items.takeWhile Item.passable ++ source.afterData :=
  List.takeWhile_append_dropWhile.symm

theorem Input.items_cons (event : Event) (input : Input) :
    items (event :: input) = event.items ++ items input := List.flatMap_cons

theorem Input.not_passable_of_afterData {source : Input} {item : Item} {rest : List Item}
    (behind : source.afterData = item :: rest) : ¬ item.passable := by
  have head := List.head?_dropWhile_not Item.passable source.items
  rw [← Input.afterData, behind] at head
  simpa using head

theorem Input.exists_items_of_data {source : Input} {front rest : List UInt8} {byte : UInt8}
    (split : source.data = front ++ byte :: rest) :
    ∃ read later, source.items.takeWhile Item.passable = read ++ .byte byte :: later ∧
      read.filterMap Item.byte? = front := by
  obtain ⟨before, behind, taken, rfl, bytes⟩ := List.filterMap_eq_append_iff.mp split
  obtain ⟨skipped, item, later, rfl, skips, found, -⟩ := List.filterMap_eq_cons_iff.mp bytes
  have item_eq : item = .byte byte := by
    cases item with
    | byte value => exact congrArg Item.byte (Option.some.inj found)
    | endOfStream => simp [Item.byte?] at found
    | failure cause => simp [Item.byte?] at found
  refine ⟨before ++ skipped, later, ?_, ?_⟩
  · rw [taken, item_eq, List.append_assoc]
  · rw [List.filterMap_append, List.filterMap_eq_nil_iff.mpr skips, List.append_nil]

namespace Scan

def readItems (scan : Scan) : List Item → Except LoadError Program × List Item
  | [] => (scan.finish, [])
  | .byte value :: rest =>
    match scan.feed value with
    | .ok next => next.readItems rest
    | .error error => (.error error, rest)
  | .endOfStream :: rest => (scan.finish, rest)
  | .failure cause :: rest =>
    if cause.interrupted then scan.readItems rest else (.error (.io cause), rest)

theorem readItems_ok {scan next : Scan} {front : List Item}
    (passable : ∀ item ∈ front, item.passable)
    (fed : scan.feedAll (front.filterMap Item.byte?) = .ok next) (rest : List Item) :
    scan.readItems (front ++ rest) = next.readItems rest := by
  induction front generalizing scan with
  | nil =>
      simp only [List.filterMap_nil, feedAll, Except.ok.injEq] at fed
      rw [fed, List.nil_append]
  | cons item front ih =>
      rw [List.forall_mem_cons] at passable
      obtain ⟨here, passable⟩ := passable
      cases item with
      | byte value =>
          simp only [List.filterMap_cons, Item.byte?, feedAll] at fed
          cases first : scan.feed value with
          | error error => simp [first] at fed
          | ok after =>
              rw [first] at fed
              rw [List.cons_append, readItems, first]
              exact ih passable fed
      | endOfStream => simp [Item.passable] at here
      | failure cause =>
          have again : cause.interrupted := here
          rw [List.cons_append, readItems, if_pos again]
          exact ih passable fed

theorem exists_feed_error {scan : Scan} {bytes unread : List UInt8} {error : LoadError}
    (fed : scan.feedAll bytes = .error (error, unread)) :
    ∃ front byte before, bytes = front ++ byte :: unread ∧ scan.feedAll front = .ok before ∧
      before.feed byte = .error error := by
  induction bytes generalizing scan with
  | nil => simp [feedAll] at fed
  | cons value bytes ih =>
      cases first : scan.feed value with
      | error error' =>
          simp only [feedAll, first, Except.error.injEq, Prod.mk.injEq] at fed
          obtain ⟨rfl, rfl⟩ := fed
          exact ⟨[], value, scan, rfl, rfl, first⟩
      | ok after =>
          rw [feedAll, first] at fed
          obtain ⟨front, byte, before, rfl, ok, failed⟩ := ih fed
          refine ⟨value :: front, byte, before, rfl, ?_, failed⟩
          rw [feedAll, first]
          exact ok

theorem readItems_data (scan : Scan) (bytes : List UInt8) (rest : List Item) :
    scan.readItems (bytes.map .byte ++ rest) =
      match scan.feedAll bytes with
      | .ok next => next.readItems rest
      | .error (error, unread) => (.error error, unread.map .byte ++ rest) := by
  induction bytes generalizing scan with
  | nil => rfl
  | cons value bytes ih =>
      rw [List.map_cons, List.cons_append, readItems, feedAll]
      cases scan.feed value with
      | ok next => exact ih next
      | error error => rfl

theorem read_eq_readItems (scan : Scan) (input : Input) :
    ((scan.read input).1, (scan.read input).2.items) = scan.readItems input.items := by
  induction input generalizing scan with
  | nil => rfl
  | cons event input ih =>
      rw [Input.items_cons]
      cases event with
      | endOfStream => rfl
      | failure cause =>
          rw [Event.items, List.singleton_append, readItems, read]
          split
          · exact ih scan
          · rfl
      | data bytes =>
          rw [Event.items, readItems_data, read]
          cases scan.feedAll bytes with
          | ok next => exact ih next
          | error failed => rfl

end Scan

namespace Program

theorem load_eq_of_readItems {source : Input} {result : Except LoadError Program}
    {unread : List Item} (read : ({} : Scan).readItems source.items = (result, unread)) :
    (load source).1 = result ∧ (load source).2.items = unread := by
  rw [← Scan.read_eq_readItems, Prod.mk.injEq] at read
  exact read

theorem load_of_feedAll {source : Input} {scan : Scan}
    (fed : ({} : Scan).feedAll source.data = .ok scan) {result : Except LoadError Program}
    {unread : List Item} (stopped : scan.readItems source.afterData = (result, unread)) :
    (load source).1 = result ∧ (load source).2.items = unread := by
  apply load_eq_of_readItems
  rw [source.items_eq, Scan.readItems_ok (fun _ => List.mem_takeWhile_imp) fed, stopped]

theorem exists_read_of_feedAll {source : Input} {front rest : List UInt8} {byte : UInt8}
    {error : LoadError} (split : source.data = front ++ byte :: rest)
    (fed : ({} : Scan).feedAll source.data = .error (error, rest)) :
    ∃ read, (load source).1 = .error error ∧
      source.items = read ++ .byte byte :: (load source).2.items ∧
      (∀ item ∈ read, item.passable) ∧ read.filterMap Item.byte? = front := by
  obtain ⟨read, later, taken, bytes⟩ := Input.exists_items_of_data split
  obtain ⟨front', byte', before, split', ok, failed⟩ := Scan.exists_feed_error fed
  obtain ⟨rfl, same⟩ := List.append_inj' (split.symm.trans split') rfl
  obtain rfl := List.head_eq_of_cons_eq same
  have items_eq : source.items = read ++ .byte byte :: (later ++ source.afterData) := by
    rw [source.items_eq, taken, List.append_assoc, List.cons_append]
  have passable : ∀ item ∈ read, item.passable := by
    intro item member
    apply List.mem_takeWhile_imp (l := source.items)
    rw [taken]
    exact List.mem_append_left _ member
  have result : ({} : Scan).readItems source.items = (.error error, later ++ source.afterData) := by
    rw [items_eq, Scan.readItems_ok passable (bytes ▸ ok), Scan.readItems, failed]
  obtain ⟨answer, unread⟩ := load_eq_of_readItems result
  exact ⟨read, answer, by rw [unread, items_eq], passable, bytes⟩

end Program

/-- A stream is loaded as the bytes before its first stop, unless these end well and the stop is a
failure. Only the bytes up to a bracket that ends no loop are read, otherwise all up to the stop. -/
theorem load_stream (source : Input) :
    ((∃ offset, StrayClose source.data offset) →
      ∃ ip offset read, Program.ofBytes source.data = .error (.unmatched .closing ip offset) ∧
        (Program.load source).1 = .error (.unmatched .closing ip offset) ∧
        source.items = read ++ .byte Instruction.loopEnd.byte :: (Program.load source).2.items ∧
        (∀ item ∈ read, item.passable) ∧
        read.filterMap Item.byte? = source.data.take offset) ∧
    ((¬ ∃ offset, StrayClose source.data offset) →
      (∀ cause rest, source.afterData = .failure cause :: rest →
        (Program.load source).1 = .error (.io cause) ∧ (Program.load source).2.items = rest) ∧
      ((∀ cause rest, source.afterData ≠ .failure cause :: rest) →
        (Program.load source).1 = Program.ofBytes source.data ∧
          (Program.load source).2.items = source.afterData.tail)) ∧
    ∀ other : Input, other.items = source.items →
      (Program.load other).1 = (Program.load source).1 ∧
        (Program.load other).2.items = (Program.load source).2.items := by
  refine ⟨?_, ?_, ?_⟩
  · rintro ⟨stray, isStray⟩
    rcases Scan.Covers.start.feedAll source.data with ⟨scan, fed, covers⟩ |
      ⟨front, rest, split, balanced, fed⟩
    · exact absurd isStray (covers.nesting.not_strayClose stray)
    · obtain ⟨read, answer, items_eq, passable, bytes⟩ :=
        Program.exists_read_of_feedAll split fed
      refine ⟨_, _, read, ?_, answer, items_eq, passable, ?_⟩
      · rw [Program.ofBytes, fed]
      · rw [bytes, split, List.nil_append, List.take_left]
  · intro clean
    rcases Scan.Covers.start.feedAll source.data with ⟨scan, fed, covers⟩ |
      ⟨front, rest, split, balanced, fed⟩
    · refine ⟨fun cause rest stop => ?_, fun noFailure => ?_⟩
      · apply Program.load_of_feedAll fed
        have reported : ¬ cause.interrupted := Input.not_passable_of_afterData stop
        rw [stop, Scan.readItems, if_neg reported]
      · apply Program.load_of_feedAll fed
        rw [Program.ofBytes, fed]
        cases stop : source.afterData with
        | nil => rfl
        | cons item rest =>
            cases item with
            | byte value => exact absurd rfl (Input.not_passable_of_afterData stop)
            | endOfStream => rfl
            | failure cause => exact absurd stop (noFailure cause rest)
    · exact absurd ⟨_, split ▸ Balanced.strayClose balanced rest⟩ clean
  · intro other same
    apply Program.load_eq_of_readItems
    rw [same, ← Scan.read_eq_readItems]
    rfl

example : Program.load [.data ['['.toUInt8], .failure (.ofKind .other), .endOfStream] =
    (.error (.io (.ofKind .other)), [.endOfStream]) := rfl

end Brainfuck
