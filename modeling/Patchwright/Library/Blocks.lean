import Mathlib

/-!
# Words across blocks

A text that comes in blocks contains a word exactly when a block contains it or
the word spans a run of blocks: it begins in the first of them, goes on through
all of those between and ends in the last.
-/

universe u

namespace Blocks

variable {α : Type u} {word letters : List α} {block : List α} {blocks run : List (List α)}

/-- The word begins at the end of the first block of the run, ends at the
beginning of the last one, and is all that stands between. -/
def Spans (word : List α) (run : List (List α)) : Prop :=
  ∃ first middle last head tail, run = first :: (middle ++ [last]) ∧ head ≠ [] ∧ tail ≠ [] ∧
    word = head ++ (middle.flatten ++ tail) ∧ head <:+ first ∧ tail <+: last

/-- The word spans blocks that follow one another. -/
def Straddles (word : List α) (blocks : List (List α)) : Prop :=
  ∃ run, run <:+: blocks ∧ Spans word run

theorem Straddles.cons (hstraddles : Straddles word blocks) (block : List α) :
    Straddles word (block :: blocks) := by
  obtain ⟨run, hrun, hspans⟩ := hstraddles
  exact ⟨run, List.infix_cons hrun, hspans⟩

theorem prefix_append_cases {rest : List α} (hstart : word <+: block ++ rest) :
    word <+: block ∨ ∃ tail, tail ≠ [] ∧ word = block ++ tail ∧ tail <+: rest := by
  obtain ⟨after, happend⟩ := hstart
  rcases List.append_eq_append_iff.mp happend with ⟨beyond, hblock, -⟩ | ⟨tail, hword, hrest⟩
  · exact .inl ⟨beyond, hblock.symm⟩
  · cases tail with
    | nil =>
        rw [List.append_nil] at hword
        exact .inl (hword ▸ List.prefix_rfl)
    | cons letter tail => exact .inr ⟨_, List.cons_ne_nil letter tail, hword, after, hrest.symm⟩

/-- A beginning of the blocks ends in one of them. -/
theorem prefix_flatten_cases (hne : word ≠ []) (hstart : word <+: blocks.flatten) :
    ∃ middle last after tail, blocks = middle ++ last :: after ∧ tail ≠ [] ∧
      word = middle.flatten ++ tail ∧ tail <+: last := by
  induction blocks generalizing word with
  | nil => exact absurd (List.prefix_nil.mp hstart) hne
  | cons block blocks ih =>
      rw [List.flatten_cons] at hstart
      rcases prefix_append_cases hstart with hblock | ⟨rest, hrest, rfl, hlater⟩
      · exact ⟨[], block, blocks, word, rfl, hne, rfl, hblock⟩
      · obtain ⟨middle, last, after, tail, rfl, htail, rfl, hlast⟩ := ih hrest hlater
        refine ⟨block :: middle, last, after, tail, rfl, htail, ?_, hlast⟩
        rw [List.flatten_cons, List.append_assoc]

theorem Spans.infix_flatten (hspans : Spans word run) : word <:+: run.flatten := by
  obtain ⟨first, middle, last, head, tail, rfl, -, -, rfl, ⟨before, rfl⟩, after, rfl⟩ := hspans
  refine ⟨before, after, ?_⟩
  simp only [List.flatten_cons, List.flatten_append, List.flatten_nil, List.append_assoc,
    List.append_nil]

theorem flatten_infix_flatten (hpart : run <:+: blocks) : run.flatten <:+: blocks.flatten := by
  obtain ⟨before, after, rfl⟩ := hpart
  rw [List.flatten_append, List.flatten_append]
  exact List.infix_append _ _ _

/-- A word in the blocks is in one of them, or spans several. -/
theorem infix_flatten_iff (hne : word ≠ []) :
    word <:+: blocks.flatten ↔ (∃ block ∈ blocks, word <:+: block) ∨ Straddles word blocks := by
  constructor
  · intro hword
    induction blocks with
    | nil => exact absurd (List.infix_nil.mp hword) hne
    | cons block blocks ih =>
        rw [List.flatten_cons] at hword
        rcases List.infix_append_iff_ne_nil.mp hword with hblock | hrest |
          ⟨head, rest, hhead, hrest, rfl, hfirst, hlater⟩
        · exact .inl ⟨block, List.mem_cons_self, hblock⟩
        · exact (ih hrest).imp (fun ⟨other, hother, hin⟩ =>
            ⟨other, List.mem_cons_of_mem block hother, hin⟩) (·.cons block)
        · obtain ⟨middle, last, after, tail, rfl, htail, rfl, hlast⟩ :=
            prefix_flatten_cases hrest hlater
          refine .inr ⟨block :: (middle ++ [last]), ⟨[], after, ?_⟩, block, middle, last, head,
            tail, rfl, hhead, htail, rfl, hfirst, hlast⟩
          rw [List.nil_append, List.cons_append, List.append_assoc, List.singleton_append]
  · rintro (⟨block, hblock, hin⟩ | ⟨run, hrun, hspans⟩)
    · exact hin.trans (List.infix_of_mem_flatten hblock)
    · exact hspans.infix_flatten.trans (flatten_infix_flatten hrun)

/-- A block whose ends are no letters of the word is in no run that it spans. -/
theorem Spans.notMem (hspans : Spans word run) (hne : block ≠ [])
    (hfirst : ∀ letter ∈ block.head?, letter ∉ word)
    (hlast : ∀ letter ∈ block.getLast?, letter ∉ word) : block ∉ run := by
  obtain ⟨first, middle, last, head, tail, rfl, hhead, htail, rfl, hsuffix, hstart⟩ := hspans
  intro hmem
  rw [List.mem_cons, List.mem_append, List.mem_singleton] at hmem
  rcases hmem with rfl | hmiddle | rfl
  · have hletter : head.getLast hhead ∈ block.getLast? := by
      rw [hsuffix.getLast hhead]
      exact List.getLast?_eq_getLast_of_ne_nil hne
    exact hlast _ hletter (List.mem_append_left _ (List.getLast_mem hhead))
  · have hletter : block.head hne ∈ block.head? := List.head?_eq_some_head hne
    have hin : block.head hne ∈ middle.flatten :=
      List.mem_flatten.mpr ⟨block, hmiddle, List.head_mem hne⟩
    exact hfirst _ hletter (List.mem_append_right _ (List.mem_append_left _ hin))
  · have hletter : tail.head htail ∈ block.head? := by
      rw [hstart.head htail]
      exact List.head?_eq_some_head hne
    exact hfirst _ hletter
      (List.mem_append_right _ (List.mem_append_right _ (List.head_mem htail)))

end Blocks
