import Brainfuck.Machine.Basic

namespace Brainfuck

inductive Acts (eof : EofPolicy) (ip : Nat) (cell : UInt8) : Machine → Action → Effect → Prop where
  | right {tape moved : Tape} {input : Input} {output : Output}
      (moves : tape.moveRight? = some moved) :
      Acts eof ip cell ⟨tape, input, output⟩ .right (.done ⟨moved, input, output⟩)
  | rightmost {tape : Tape} {input : Input} {output : Output} (blocked : tape.moveRight? = none) :
      Acts eof ip cell ⟨tape, input, output⟩ .right
        (.failed (.outOfBounds ip tape.pointer '>') ⟨tape, input, output⟩)
  | left {tape moved : Tape} {input : Input} {output : Output}
      (moves : tape.moveLeft? = some moved) :
      Acts eof ip cell ⟨tape, input, output⟩ .left (.done ⟨moved, input, output⟩)
  | leftmost {tape : Tape} {input : Input} {output : Output} (blocked : tape.moveLeft? = none) :
      Acts eof ip cell ⟨tape, input, output⟩ .left
        (.failed (.outOfBounds ip tape.pointer '<') ⟨tape, input, output⟩)
  | increment {tape : Tape} {input : Input} {output : Output} :
      Acts eof ip cell ⟨tape, input, output⟩ .increment
        (.done ⟨tape.write (cell + 1), input, output⟩)
  | decrement {tape : Tape} {input : Input} {output : Output} :
      Acts eof ip cell ⟨tape, input, output⟩ .decrement
        (.done ⟨tape.write (cell - 1), input, output⟩)
  | emit {tape : Tape} {input : Input} {output emitted : Output}
      (sent : output.emit cell = (.ok (), emitted)) :
      Acts eof ip cell ⟨tape, input, output⟩ .output (.done ⟨tape, input, emitted⟩)
  | unsent {tape : Tape} {input : Input} {output emitted : Output} {cause : Failure}
      (failed : output.emit cell = (.error cause, emitted)) :
      Acts eof ip cell ⟨tape, input, output⟩ .output
        (.failed (.io ip cause) ⟨tape, input, emitted⟩)
  | read {tape : Tape} {input rest : Input} {output : Output} {byte : UInt8}
      (got : input.readByte = (.ok (some byte), rest)) :
      Acts eof ip cell ⟨tape, input, output⟩ .input (.done ⟨tape.write byte, rest, output⟩)
  | fill {tape : Tape} {input rest : Input} {output : Output}
      (ended : input.readByte = (.ok none, rest)) :
      Acts eof ip cell ⟨tape, input, output⟩ .input
        (.done ⟨tape.write (eof.fill cell), rest, output⟩)
  | unread {tape : Tape} {input rest : Input} {output : Output} {cause : Failure}
      (failed : input.readByte = (.error cause, rest)) :
      Acts eof ip cell ⟨tape, input, output⟩ .input (.failed (.io ip cause) ⟨tape, rest, output⟩)

theorem Machine.acts_act (eof : EofPolicy) (ip : Nat) (action : Action) (cell : UInt8)
    (machine : Machine) : Acts eof ip cell machine action (machine.act eof ip action cell) := by
  obtain ⟨tape, input, output⟩ := machine
  cases action with
  | right =>
      cases moves : tape.moveRight? with
      | some moved =>
          simp only [act, moves]
          exact .right moves
      | none =>
          simp only [act, moves]
          exact .rightmost moves
  | left =>
      cases moves : tape.moveLeft? with
      | some moved =>
          simp only [act, moves]
          exact .left moves
      | none =>
          simp only [act, moves]
          exact .leftmost moves
  | increment => exact .increment
  | decrement => exact .decrement
  | output =>
      simp only [act]
      split
      · next sent => exact .emit sent
      · next failed => exact .unsent failed
  | input =>
      simp only [act]
      split
      · next got => exact .read got
      · next ended => exact .fill ended
      · next failed => exact .unread failed

theorem Acts.act_eq {eof : EofPolicy} {ip : Nat} {cell : UInt8} {machine : Machine}
    {action : Action} {effect : Effect} (acts : Acts eof ip cell machine action effect) :
    machine.act eof ip action cell = effect := by
  cases acts with
  | right moves => simp only [Machine.act, moves]
  | rightmost blocked => simp only [Machine.act, blocked, Action.symbol]
  | left moves => simp only [Machine.act, moves]
  | leftmost blocked => simp only [Machine.act, blocked, Action.symbol]
  | increment => rfl
  | decrement => rfl
  | emit sent => simp only [Machine.act, sent]
  | unsent failed => simp only [Machine.act, failed]
  | read got => simp only [Machine.act, got]
  | fill ended => simp only [Machine.act, ended]
  | unread failed => simp only [Machine.act, failed]

theorem Machine.act_eq_iff {eof : EofPolicy} {ip : Nat} {action : Action} {cell : UInt8}
    {machine : Machine} {effect : Effect} :
    machine.act eof ip action cell = effect ↔ Acts eof ip cell machine action effect := by
  constructor
  · rintro rfl
    exact machine.acts_act eof ip action cell
  · exact Acts.act_eq

end Brainfuck
