import Brainfuck.Text.Blank
import Mathlib.Data.List.DropRight
import Mathlib.Data.List.Induction

namespace Brainfuck.Text

variable {front text back : List Char}

theorem not_isBlank_of_visible {character : Char} (low : 0x20 < character.toNat)
    (high : character.toNat < 0x7F) : isBlank character = false := by
  have bounds : ∀ code ∈ blanks, code ≤ 0x20 ∨ 0x7F ≤ code := by decide
  rw [isBlank, Bool.eq_false_iff, ne_eq, List.contains_iff_mem]
  intro mem
  have bound := bounds _ mem
  omega

theorem rdropWhile_append_cons {p : Char → Bool} {character : Char} (stops : p character = false)
    (front back : List Char) :
    (front ++ character :: back).rdropWhile p = front ++ character :: back.rdropWhile p := by
  induction back using List.reverseRecOn with
  | nil => exact List.rdropWhile_concat_neg p front character (by simp [stops])
  | append_singleton back last ih =>
      rw [← List.cons_append, ← List.append_assoc, List.rdropWhile_concat,
        List.rdropWhile_concat, ih]
      split <;> simp

theorem rdropWhile_append_of_blank (blank : ∀ character ∈ back, isBlank character) :
    (text ++ back).rdropWhile isBlank = text.rdropWhile isBlank := by
  induction back using List.reverseRecOn with
  | nil => rw [List.append_nil]
  | append_singleton back last ih =>
      rw [← List.append_assoc, List.rdropWhile_concat_pos _ _ _ (blank last (by simp))]
      exact ih fun character mem => blank character (by simp [mem])

theorem trim_eq (text : List Char) :
    trim text = (text.dropWhile isBlank).rdropWhile isBlank := rfl

theorem mem_of_mem_trim {character : Char} (mem : character ∈ trim text) : character ∈ text :=
  (List.dropWhile_suffix isBlank).subset ((List.rdropWhile_prefix isBlank _).subset mem)

theorem trim_blank_append (blank : ∀ character ∈ front, isBlank character) :
    trim (front ++ text) = trim text := by
  rw [trim_eq, trim_eq, List.dropWhile_append_of_pos blank]

theorem trim_append_blank (blank : ∀ character ∈ back, isBlank character) :
    trim (text ++ back) = trim text := by
  rw [trim_eq, trim_eq, List.dropWhile_append]
  split
  · next empty =>
      rw [List.dropWhile_eq_nil_iff.mpr blank, List.isEmpty_iff.mp empty]
  · exact rdropWhile_append_of_blank blank

theorem trim_rdropWhile (text : List Char) : trim (text.rdropWhile isBlank) = trim text := by
  have blank : ∀ character ∈ text.rtakeWhile isBlank, isBlank character := fun _ =>
    List.mem_rtakeWhile_imp
  rw [← trim_append_blank blank, List.rdropWhile_append_rtakeWhile]

theorem trim_trim (text : List Char) : trim (trim text) = trim text := by
  conv_lhs => rw [trim_eq text, trim_rdropWhile]
  rw [trim_eq, trim_eq, List.dropWhile_idempotent]

theorem trim_eq_self (solid : ∀ character ∈ text, isBlank character = false) :
    trim text = text := by
  have kept : text.dropWhile isBlank = text :=
    List.dropWhile_eq_self_iff.mpr fun bound => by simp [solid]
  rw [trim_eq, kept, List.rdropWhile_eq_self_iff]
  intro nonempty
  simp [solid]

end Brainfuck.Text
