import Brainfuck.Instruction
import Mathlib.Data.List.Induction
import Mathlib.Data.Nat.Basic

/-!
`Balanced` counts brackets in prefixes, `Partners` relates the two brackets of one loop, and
`Nesting` lists the brackets that are open behind a prefix.
-/

namespace Brainfuck

/-- No prefix ends more loops than it begins, and in the end as many are ended as begun. -/
def Balanced (code : List Instruction) : Prop :=
  (∀ front, front <+: code → front.count .loopEnd ≤ front.count .loopStart) ∧
    code.count .loopEnd = code.count .loopStart

theorem exists_prefix_append {front rest code : List Instruction}
    (isFront : code <+: front ++ rest) :
    code <+: front ∨ ∃ more, code = front ++ more ∧ more <+: rest := by
  obtain ⟨behind, split⟩ := isFront
  rcases List.append_eq_append_iff.mp split with ⟨more, rfl, -⟩ | ⟨more, rfl, rfl⟩
  · exact Or.inl (List.prefix_append _ _)
  · exact Or.inr ⟨more, rfl, List.prefix_append _ _⟩

namespace Balanced

theorem nil : Balanced [] := by
  refine ⟨fun front isFront => ?_, rfl⟩
  rw [List.prefix_nil.mp isFront]
  rfl

theorem concat_simple {code : List Instruction} (balanced : Balanced code) (action : Action) :
    Balanced (code ++ [.simple action]) := by
  refine ⟨fun front isFront => ?_, ?_⟩
  · rcases List.prefix_concat_iff.mp isFront with rfl | shorter
    · simpa [List.count_append] using Nat.le_of_eq balanced.2
    · exact balanced.1 front shorter
  · simpa [List.count_append] using balanced.2

theorem map_simple (actions : List Action) : Balanced (actions.map .simple) := by
  induction actions using List.reverseRecOn with
  | nil => exact nil
  | append_singleton actions action ih =>
      rw [List.map_append]
      exact ih.concat_simple action

theorem append {left right : List Instruction} (hl : Balanced left) (hr : Balanced right) :
    Balanced (left ++ right) := by
  refine ⟨fun front isFront => ?_, ?_⟩
  · rcases exists_prefix_append isFront with shorter | ⟨more, rfl, isMore⟩
    · exact hl.1 front shorter
    · have inner := hr.1 more isMore
      have total := hl.2
      simp only [List.count_append]
      omega
  · simp only [List.count_append, hl.2, hr.2]

theorem loop {body : List Instruction} (balanced : Balanced body) :
    Balanced (.loopStart :: (body ++ [.loopEnd])) := by
  have total := balanced.2
  refine ⟨fun front isFront => ?_, ?_⟩
  · rcases List.prefix_cons_iff.mp isFront with rfl | ⟨inner, rfl, isInner⟩
    · rfl
    · rcases List.prefix_concat_iff.mp isInner with rfl | shorter
      · simp only [List.count_cons, List.count_append, List.count_nil]
        simp
        omega
      · have counts := balanced.1 inner shorter
        simp only [List.count_cons]
        simp
        omega
  · simp only [List.count_cons, List.count_append, List.count_nil]
    simp
    omega

theorem not_before_loopEnd {front rest : List Instruction}
    (balanced : Balanced (front ++ .loopEnd :: rest)) : ¬ Balanced front := by
  intro before
  have counts := balanced.1 (front ++ [.loopEnd]) ⟨rest, by simp⟩
  have total := before.2
  simp [List.count_append] at counts
  omega

theorem not_behind_loopStart {front rest : List Instruction}
    (balanced : Balanced (front ++ .loopStart :: rest)) : ¬ Balanced rest := by
  intro behind
  have counts := balanced.1 front (List.prefix_append _ _)
  have total := balanced.2
  have inner := behind.2
  simp [List.count_append] at total
  omega

end Balanced

theorem exists_balanced_before {code : List Instruction}
    (excess : ∃ front, front <+: code ∧ front.count .loopStart < front.count .loopEnd) :
    ∃ body rest, code = body ++ .loopEnd :: rest ∧ Balanced body := by
  induction code using List.reverseRecOn with
  | nil =>
      obtain ⟨front, isFront, excess⟩ := excess
      rw [List.prefix_nil.mp isFront] at excess
      simp at excess
  | append_singleton code last ih =>
      by_cases earlier : ∃ front, front <+: code ∧ front.count .loopStart < front.count .loopEnd
      · obtain ⟨body, rest, rfl, balanced⟩ := ih earlier
        exact ⟨body, rest ++ [last], by simp, balanced⟩
      · push Not at earlier
        obtain ⟨front, isFront, excess⟩ := excess
        have whole : front = code ++ [last] := by
          rcases List.prefix_concat_iff.mp isFront with whole | shorter
          · exact whole
          · exact absurd (earlier front shorter) (by omega)
        subst whole
        have counts := earlier code List.prefix_rfl
        cases last with
        | loopEnd =>
            refine ⟨code, [], rfl, earlier, ?_⟩
            simp [List.count_append] at excess
            omega
        | loopStart => simp [List.count_append] at excess; omega
        | simple action => simp [List.count_append] at excess; omega

theorem exists_balanced_behind {code : List Instruction}
    (excess : ∃ back, back <:+ code ∧ back.count .loopEnd < back.count .loopStart) :
    ∃ front body, code = front ++ .loopStart :: body ∧ Balanced body := by
  induction code with
  | nil =>
      obtain ⟨back, isBack, excess⟩ := excess
      rw [List.suffix_nil.mp isBack] at excess
      simp at excess
  | cons first code ih =>
      by_cases later : ∃ back, back <:+ code ∧ back.count .loopEnd < back.count .loopStart
      · obtain ⟨front, body, rfl, balanced⟩ := ih later
        exact ⟨first :: front, body, rfl, balanced⟩
      · push Not at later
        obtain ⟨back, isBack, excess⟩ := excess
        have whole : back = first :: code := by
          rcases List.suffix_cons_iff.mp isBack with whole | shorter
          · exact whole
          · exact absurd (later back shorter) (by omega)
        subst whole
        have counts := later code List.suffix_rfl
        cases first with
        | loopStart =>
            have total : code.count .loopEnd = code.count .loopStart := by
              simp at excess
              omega
            refine ⟨[], code, rfl, fun front ⟨rest, split⟩ => ?_, total⟩
            have behind := later rest ⟨front, split⟩
            rw [← split] at total
            simp only [List.count_append] at total
            omega
        | loopEnd => simp at excess; omega
        | simple action => simp at excess; omega

theorem exists_split {α : Type} {list : List α} {i : Nat} {x : α} (at_i : list[i]? = some x) :
    ∃ front rest, list = front ++ x :: rest ∧ front.length = i := by
  obtain ⟨bound, rfl⟩ := List.getElem?_eq_some_iff.mp at_i
  refine ⟨list.take i, list.drop (i + 1), ?_, ?_⟩
  · rw [← List.drop_eq_getElem_cons bound, List.take_append_drop]
  · rw [List.length_take, Nat.min_eq_left (Nat.le_of_lt bound)]

def segment (code : List Instruction) (start stop : Nat) : List Instruction :=
  (code.drop start).take (stop - start)

theorem segment_split (code : List Instruction) {i j k : Nat} (hij : i ≤ j) (hjk : j ≤ k) :
    segment code i k = segment code i j ++ segment code j k := by
  obtain ⟨a, rfl⟩ := Nat.exists_eq_add_of_le hij
  obtain ⟨b, rfl⟩ := Nat.exists_eq_add_of_le hjk
  rw [segment, segment, segment, ← List.drop_drop, Nat.add_sub_cancel_left, Nat.add_sub_cancel_left,
    Nat.add_assoc, Nat.add_sub_cancel_left, List.take_add]

theorem segment_eq_cons {code : List Instruction} {i j : Nat} {x : Instruction} (lt : i < j)
    (at_i : code[i]? = some x) : segment code i j = x :: segment code (i + 1) j := by
  obtain ⟨bound, rfl⟩ := List.getElem?_eq_some_iff.mp at_i
  rw [segment, segment, List.drop_eq_getElem_cons bound, show j - i = j - (i + 1) + 1 by omega,
    List.take_succ_cons]

theorem segment_append {code : List Instruction} (more : List Instruction) {i j : Nat}
    (bound : j ≤ code.length) : segment (code ++ more) i j = segment code i j := by
  rcases Nat.le_total i j with le | le
  · rw [segment, segment, List.drop_append_of_le_length (by omega),
      List.take_append_of_le_length (by simp; omega)]
  · rw [segment, segment, Nat.sub_eq_zero_of_le le, List.take_zero, List.take_zero]

theorem segment_body (front body rest : List Instruction) (x : Instruction) :
    segment (front ++ x :: (body ++ rest)) (front.length + 1) (front.length + (body.length + 1)) =
      body := by
  rw [segment, ← List.drop_drop, List.drop_left, List.drop_one, List.tail_cons,
    show front.length + (body.length + 1) - (front.length + 1) = body.length by omega,
    List.take_left]

structure Partners (code : List Instruction) (opening closing : Nat) : Prop where
  lt : opening < closing
  opens : code[opening]? = some .loopStart
  closes : code[closing]? = some .loopEnd
  body : Balanced (segment code (opening + 1) closing)

namespace Partners

variable {code : List Instruction} {o c o' c' : Nat}

theorem closing_lt (partners : Partners code o c) : c < code.length :=
  (List.getElem?_eq_some_iff.mp partners.closes).1

theorem of_split {front body : List Instruction} (balanced : Balanced body)
    (rest : List Instruction) :
    Partners (front ++ .loopStart :: (body ++ .loopEnd :: rest)) front.length
      (front.length + (body.length + 1)) where
  lt := by omega
  opens := by simp
  closes := by
    rw [List.getElem?_append_right (by omega), Nat.add_sub_cancel_left, List.getElem?_cons_succ]
    simp
  body := by rwa [segment_body]

theorem placed (partners : Partners code o c) (front rest : List Instruction) :
    Partners (front ++ (code ++ rest)) (o + front.length) (c + front.length) := by
  obtain ⟨lt, opens, closes, body⟩ := partners
  have bound : c < code.length := (List.getElem?_eq_some_iff.mp closes).1
  refine ⟨by omega, ?_, ?_, ?_⟩
  · rwa [List.getElem?_append_right (by omega), Nat.add_sub_cancel,
      List.getElem?_append_left (by omega)]
  · rwa [List.getElem?_append_right (by omega), Nat.add_sub_cancel,
      List.getElem?_append_left bound]
  · have same : segment (front ++ (code ++ rest)) (o + front.length + 1) (c + front.length) =
        segment (code ++ rest) (o + 1) c := by
      rw [segment, segment, show o + front.length + 1 = front.length + (o + 1) by omega,
        List.drop_length_add_append, Nat.add_comm c, Nat.add_sub_add_left]
    rwa [same, segment_append rest (Nat.le_of_lt bound)]

private theorem not_closing_lt (first : Partners code o c) (second : Partners code o c') :
    ¬ c < c' := by
  intro lt
  have balanced := second.body
  rw [segment_split code first.lt (Nat.le_of_lt lt),
    segment_eq_cons lt first.closes] at balanced
  exact balanced.not_before_loopEnd first.body

theorem closing_unique (first : Partners code o c) (second : Partners code o c') : c = c' := by
  have h := not_closing_lt first second
  have h' := not_closing_lt second first
  omega

private theorem not_opening_lt (first : Partners code o c) (second : Partners code o' c) :
    ¬ o < o' := by
  intro lt
  have balanced := first.body
  rw [segment_split code (by omega : o + 1 ≤ o') (Nat.le_of_lt second.lt),
    segment_eq_cons second.lt second.opens] at balanced
  exact balanced.not_behind_loopStart second.body

theorem opening_unique (first : Partners code o c) (second : Partners code o' c) : o = o' := by
  have h := not_opening_lt first second
  have h' := not_opening_lt second first
  omega

theorem opening_ne_closing (first : Partners code o c) (second : Partners code o' c') : o ≠ c' := by
  rintro rfl
  have same := first.opens.symm.trans second.closes
  simp at same

theorem nested_or_disjoint (first : Partners code o c) (second : Partners code o' c')
    (lt : o < o') : c < o' ∨ c' < c := by
  by_contra crossing
  push Not at crossing
  obtain ⟨le, le'⟩ := crossing
  have ne : o' ≠ c := opening_ne_closing second first
  have ne' : c ≠ c' := by
    rintro rfl
    exact (Nat.ne_of_lt lt) (opening_unique first second)
  have inside : o' < c := by omega
  have outside : c < c' := by omega
  -- The part common to both loops ends a loop of the second body too many.
  have counts := first.body
  rw [segment_split code (by omega : o + 1 ≤ o') (Nat.le_of_lt inside),
    segment_eq_cons inside second.opens] at counts
  have bounds := second.body
  rw [segment_split code (by omega : o' + 1 ≤ c) (Nat.le_of_lt outside)] at bounds
  have before := counts.1 _ (List.prefix_append _ _)
  have total := counts.2
  have common := bounds.1 _ (List.prefix_append _ _)
  simp [List.count_append] at total
  omega

theorem concat_iff (x : Instruction) (lt : c < code.length) :
    Partners (code ++ [x]) o c ↔ Partners code o c := by
  constructor
  · rintro ⟨h, opens, closes, body⟩
    rw [List.getElem?_append_left (by omega)] at opens closes
    rw [segment_append _ (Nat.le_of_lt lt)] at body
    exact ⟨h, opens, closes, body⟩
  · rintro ⟨h, opens, closes, body⟩
    refine ⟨h, ?_, ?_, ?_⟩
    · rwa [List.getElem?_append_left (by omega)]
    · rwa [List.getElem?_append_left lt]
    · rwa [segment_append _ (Nat.le_of_lt lt)]

theorem concat_iff_of_ne {x : Instruction} (other : x ≠ .loopEnd) :
    Partners (code ++ [x]) o c ↔ Partners code o c := by
  rcases Nat.lt_or_ge c code.length with lt | ge
  · exact concat_iff x lt
  · constructor
    · intro partners
      have bound := partners.closing_lt
      have last : c = code.length := by simp at bound; omega
      have closes := partners.closes
      simp [last, other] at closes
    · intro partners
      exact absurd partners.closing_lt (by omega)

theorem concat_loopEnd_iff (latest : Partners (code ++ [.loopEnd]) o' code.length) :
    Partners (code ++ [.loopEnd]) o c ↔ Partners code o c ∨ o = o' ∧ c = code.length := by
  constructor
  · intro partners
    have bound := partners.closing_lt
    rcases Nat.lt_or_ge c code.length with lt | ge
    · exact Or.inl ((concat_iff _ lt).mp partners)
    · have last : c = code.length := by simp at bound; omega
      subst last
      exact Or.inr ⟨opening_unique partners latest, rfl⟩
  · rintro (partners | ⟨rfl, rfl⟩)
    · exact (concat_iff _ partners.closing_lt).mpr partners
    · exact latest

theorem exists_opening_of_counts
    (counts : ∀ front, front <+: code → front.count .loopEnd ≤ front.count .loopStart)
    (closes : code[c]? = some .loopEnd) : ∃ o, Partners code o c := by
  obtain ⟨front, rest, rfl, rfl⟩ := exists_split closes
  have before := counts (front ++ [.loopEnd]) ⟨rest, by simp⟩
  simp [List.count_append] at before
  obtain ⟨outer, body, rfl, inner⟩ :=
    exists_balanced_behind ⟨front, List.suffix_rfl, by omega⟩
  refine ⟨outer.length, ?_⟩
  simpa using of_split inner rest

end Partners

namespace Balanced

variable {code : List Instruction}

theorem exists_closing (balanced : Balanced code) {o : Nat} (opens : code[o]? = some .loopStart) :
    ∃ c, Partners code o c := by
  obtain ⟨front, rest, rfl, rfl⟩ := exists_split opens
  have before := balanced.1 front (List.prefix_append _ _)
  have total := balanced.2
  simp [List.count_append] at total
  obtain ⟨body, rest, rfl, inner⟩ :=
    exists_balanced_before ⟨rest, List.prefix_rfl, by omega⟩
  exact ⟨_, Partners.of_split inner rest⟩

theorem exists_opening (balanced : Balanced code) {c : Nat} (closes : code[c]? = some .loopEnd) :
    ∃ o, Partners code o c :=
  Partners.exists_opening_of_counts balanced.1 closes

end Balanced

/-- The positions in `code` at which the loops begin that it leaves open, innermost first. -/
inductive Nesting : List Instruction → List Nat → Prop where
  | balanced {code : List Instruction} (balanced : Balanced code) : Nesting code []
  | within {front body : List Instruction} {unclosed : List Nat} (outer : Nesting front unclosed)
      (balanced : Balanced body) :
      Nesting (front ++ .loopStart :: body) (front.length :: unclosed)

namespace Nesting

variable {code : List Instruction} {unclosed : List Nat}

theorem balanced_of_nil (nesting : Nesting code []) : Balanced code := by
  cases nesting with
  | balanced balanced => exact balanced

theorem exists_split {o : Nat} (nesting : Nesting code (o :: unclosed)) :
    ∃ front body, code = front ++ .loopStart :: body ∧ front.length = o ∧
      Nesting front unclosed ∧ Balanced body := by
  cases nesting with
  | within outer balanced => exact ⟨_, _, rfl, rfl, outer, balanced⟩

theorem append (nesting : Nesting code unclosed) {more : List Instruction}
    (balanced : Balanced more) : Nesting (code ++ more) unclosed := by
  cases nesting with
  | balanced inner => exact .balanced (inner.append balanced)
  | within outer inner =>
      rw [List.append_assoc, List.cons_append]
      exact .within outer (inner.append balanced)

theorem concat_loopEnd {o : Nat} (nesting : Nesting code (o :: unclosed)) :
    Nesting (code ++ [.loopEnd]) unclosed ∧
      Partners (code ++ [.loopEnd]) o code.length := by
  obtain ⟨front, body, rfl, rfl, outer, inner⟩ := nesting.exists_split
  rw [List.append_assoc, List.cons_append]
  refine ⟨outer.append inner.loop, ?_⟩
  simpa using Partners.of_split inner []

theorem count_eq (nesting : Nesting code unclosed) :
    code.count .loopStart = code.count .loopEnd + unclosed.length := by
  induction nesting with
  | balanced balanced => simp [balanced.2]
  | within outer balanced ih =>
      have total := balanced.2
      simp [List.count_append]
      omega

theorem prefix_le (nesting : Nesting code unclosed) {front : List Instruction}
    (isFront : front <+: code) : front.count .loopEnd ≤ front.count .loopStart := by
  induction nesting with
  | balanced balanced => exact balanced.1 front isFront
  | @within outer body _ nesting balanced ih =>
      obtain ⟨rest, split⟩ := isFront
      rcases List.append_eq_append_iff.mp split with ⟨more, rfl, -⟩ | ⟨more, rfl, behind⟩
      · exact ih (List.prefix_append _ _)
      · have total := nesting.count_eq
        rcases List.prefix_cons_iff.mp ⟨rest, behind.symm⟩ with rfl | ⟨inner, rfl, isInner⟩
        · exact ih (by simp)
        · have counts := balanced.1 inner isInner
          simp [List.count_append]
          omega

theorem count_lt {front rest : List Instruction}
    (nesting : Nesting (front ++ .loopEnd :: rest) unclosed) :
    front.count .loopEnd < front.count .loopStart := by
  have isFront : front ++ [.loopEnd] <+: front ++ .loopEnd :: rest := ⟨rest, by simp⟩
  have bound := nesting.prefix_le isFront
  simp [List.count_append] at bound
  omega

end Nesting

end Brainfuck
