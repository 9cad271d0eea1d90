import Mathlib

/-!
# Rows with an append-only history

A journal keeps, for each key, the current row and the list of everything that
was ever the row.  Writing appends entries under one key and leaves every other
key alone.  A journal is a path of a relation when the entries of every key
follow one another by it and the row is the last of them; a write whose first
entry follows the row, and whose entries follow one another, keeps it a path.
-/

universe u v

structure Journal (κ : Type u) (α : Type v) where
  row : κ → Option α
  history : κ → List α

namespace Journal

variable {κ : Type u} {α : Type v} {rel : α → α → Prop}
variable {first second third : Journal κ α} {key : κ} {entries : List α}

/-- Every entry follows the one before it, and the last one is the row. -/
def IsPath (rel : α → α → Prop) (journal : Journal κ α) : Prop :=
  ∀ key, (journal.history key).IsChain rel ∧ (journal.history key).getLast? = journal.row key

/-- Some entries were written under one key, and nothing else. -/
structure Wrote (first second : Journal κ α) (key : κ) (entries : List α) : Prop where
  row : second.row key = entries.getLast?.or (first.row key)
  history : second.history key = first.history key ++ entries
  row_ne : ∀ other, other ≠ key → second.row other = first.row other
  history_ne : ∀ other, other ≠ key → second.history other = first.history other

theorem Wrote.refl (journal : Journal κ α) (key : κ) : Wrote journal journal key [] where
  row := rfl
  history := (List.append_nil _).symm
  row_ne := fun _ _ => rfl
  history_ne := fun _ _ => rfl

theorem Wrote.trans {more : List α} (hfirst : Wrote first second key entries)
    (hsecond : Wrote second third key more) : Wrote first third key (entries ++ more) where
  row := by
    rw [hsecond.row, hfirst.row, List.getLast?_append, Option.or_assoc]
  history := by rw [hsecond.history, hfirst.history, List.append_assoc]
  row_ne := fun other hother => (hsecond.row_ne other hother).trans (hfirst.row_ne other hother)
  history_ne := fun other hother =>
    (hsecond.history_ne other hother).trans (hfirst.history_ne other hother)

/-- A chain that ends in a row goes on with entries that follow the row. -/
theorem isChain_append_of_row {history entries : List α} {row : Option α}
    (hchain : history.IsChain rel) (hlast : history.getLast? = row)
    (hfollow : (row.toList ++ entries).IsChain rel) :
    (history ++ entries).IsChain rel ∧
      (history ++ entries).getLast? = entries.getLast?.or row := by
  constructor
  · rw [List.isChain_append] at hfollow ⊢
    refine ⟨hchain, hfollow.2.1, ?_⟩
    rw [hlast]
    intro last hrow
    apply hfollow.2.2
    rw [Option.mem_def.mp hrow]
    rfl
  · rw [List.getLast?_append, hlast]

/-- Entries that follow the row keep a journal a path. -/
theorem IsPath.wrote (hpath : IsPath rel first) (hwrote : Wrote first second key entries)
    (hfollow : ((first.row key).toList ++ entries).IsChain rel) : IsPath rel second := by
  intro other
  by_cases hother : other = key
  · subst hother
    obtain ⟨hchain, hlast⟩ := hpath other
    rw [hwrote.history, hwrote.row]
    exact isChain_append_of_row hchain hlast hfollow
  · rw [hwrote.history_ne other hother, hwrote.row_ne other hother]
    exact hpath other

/-- Entries were written under any number of keys. -/
structure WroteAll (first second : Journal κ α) (written : κ → List α) : Prop where
  row : ∀ key, second.row key = (written key).getLast?.or (first.row key)
  history : ∀ key, second.history key = first.history key ++ written key

theorem IsPath.wroteAll {written : κ → List α} (hpath : IsPath rel first)
    (hwrote : WroteAll first second written)
    (hfollow : ∀ key, ((first.row key).toList ++ written key).IsChain rel) :
    IsPath rel second := by
  intro key
  obtain ⟨hchain, hlast⟩ := hpath key
  rw [hwrote.history, hwrote.row]
  exact isChain_append_of_row hchain hlast (hfollow key)

end Journal
