import Mathlib

/-!
# Numbered logs

A log whose entries are numbered from one on without a gap.  The next number is
one more than the greatest, the entries after a number are the rest of the log,
and a reader that goes on from the last number it saw reads the log page by
page.  A reader that asks from several positions at once and merges what comes
back by number holds an initial part of the log all the same.
-/

universe u

namespace NumberedLog

variable {α : Type u} {number : α → Nat} {log : List α}

/-- The entries carry the numbers from one on, in their order. -/
def Numbered (number : α → Nat) (log : List α) : Prop :=
  log.map number = List.range' 1 log.length

/-- The greatest number. -/
def greatest (number : α → Nat) (log : List α) : Nat := (log.map number).foldr max 0

/-- The entries after a number, in the order of their numbers, up to a limit. -/
def page (number : α → Nat) (log : List α) (after limit : Nat) : List α :=
  ((log.filter fun entry => after < number entry).mergeSort
    fun first second => number first ≤ number second).take limit

/-- Where a reader goes on. -/
def cursor (number : α → Nat) (after : Nat) (entries : List α) : Nat :=
  (entries.getLast?.map number).getD after

theorem numbered_nil : Numbered number [] := rfl

theorem greatest_append (log more : List α) :
    greatest number (log ++ more) = max (greatest number log) (greatest number more) := by
  induction log with
  | nil => exact (Nat.zero_max _).symm
  | cons entry log ih =>
      calc greatest number (entry :: log ++ more)
          = max (number entry) (greatest number (log ++ more)) := rfl
        _ = max (number entry) (max (greatest number log) (greatest number more)) := by rw [ih]
        _ = max (greatest number (entry :: log)) (greatest number more) :=
          (Nat.max_assoc _ _ _).symm

theorem le_greatest {entry : α} (hentry : entry ∈ log) : number entry ≤ greatest number log := by
  obtain ⟨before, after, rfl⟩ := List.append_of_mem hentry
  rw [greatest_append]
  exact Nat.le_trans (Nat.le_max_left (number entry) _) (Nat.le_max_right _ _)

theorem Numbered.append (hlog : Numbered number log) {entry : α}
    (hnumber : number entry = log.length + 1) : Numbered number (log ++ [entry]) := by
  unfold Numbered at *
  rw [List.map_append, hlog, List.length_append, List.length_singleton, List.range'_concat,
    List.map_singleton, hnumber, Nat.one_mul, Nat.add_comm 1]

theorem take_range' (first count limit : Nat) :
    (List.range' first count).take limit = List.range' first (min limit count) := by
  cases Nat.le_total limit count with
  | inl hle => rw [List.take_range'_of_length_ge hle, Nat.min_eq_left hle]
  | inr hge => rw [List.take_range'_of_length_le hge, Nat.min_eq_right hge]

theorem Numbered.drop (hlog : Numbered number log) (count : Nat) :
    (log.drop count).map number = List.range' (1 + count) (log.length - count) := by
  rw [List.map_drop, hlog, List.drop_range', Nat.mul_one]

theorem foldr_max_range' (first count : Nat) :
    (List.range' (first + 1) count).foldr max 0 = if count = 0 then 0 else first + count := by
  induction count generalizing first with
  | zero => rfl
  | succ count ih =>
      rw [List.range'_succ, List.foldr_cons, ih, if_neg (Nat.succ_ne_zero count)]
      split
      · omega
      · omega

theorem Numbered.greatest_eq (hlog : Numbered number log) : greatest number log = log.length := by
  rw [greatest, hlog, foldr_max_range']
  split
  · omega
  · omega

/-- The entries after a number are those behind as many entries. -/
theorem Numbered.filter_after (hlog : Numbered number log) (after : Nat) :
    (log.filter fun entry => after < number entry) = log.drop after := by
  have htake : (log.take after).filter (fun entry => after < number entry) = [] := by
    rw [List.filter_eq_nil_iff]
    intro entry hentry
    have hmem : number entry ∈ (log.take after).map number := List.mem_map_of_mem hentry
    rw [List.map_take, hlog, take_range', List.mem_range'_1] at hmem
    rw [decide_eq_true_iff]
    omega
  have hdrop : (log.drop after).filter (fun entry => after < number entry) = log.drop after := by
    rw [List.filter_eq_self]
    intro entry hentry
    have hmem : number entry ∈ (log.drop after).map number := List.mem_map_of_mem hentry
    rw [hlog.drop, List.mem_range'_1] at hmem
    rw [decide_eq_true_iff]
    omega
  calc log.filter (fun entry => after < number entry)
      = (log.take after ++ log.drop after).filter (fun entry => after < number entry) := by
        rw [List.take_append_drop]
    _ = log.drop after := by rw [List.filter_append, htake, hdrop, List.nil_append]

theorem Numbered.page_eq (hlog : Numbered number log) (after limit : Nat) :
    page number log after limit = (log.drop after).take limit := by
  have hsorted : ((log.drop after).map number).Pairwise (· ≤ ·) := by
    rw [hlog.drop]
    exact List.pairwise_le_range' _
  rw [page, hlog.filter_after, List.mergeSort_of_pairwise]
  exact (List.pairwise_map.mp hsorted).imp fun hle => decide_eq_true hle

/-- A page moves the reader by its length. -/
theorem Numbered.cursor_eq (hlog : Numbered number log) {after : Nat} (hafter : after ≤ log.length)
    (limit : Nat) : cursor number after (page number log after limit) =
      min (after + limit) log.length := by
  have hmap : ((log.drop after).take limit).map number =
      List.range' (1 + after) (min limit (log.length - after)) := by
    rw [List.map_take, hlog.drop, take_range']
  rw [hlog.page_eq, cursor, ← List.getLast?_map, hmap, List.getLast?_range']
  split
  · rw [Option.getD_none]
    omega
  · rw [Option.getD_some]
    omega

/-- What a reader has read and its next page are what it has read afterwards. -/
theorem Numbered.take_append_page (hlog : Numbered number log) (after limit : Nat) :
    log.take after ++ page number log after limit = log.take (min (after + limit) log.length) := by
  rw [hlog.page_eq, ← List.take_add, ← List.take_eq_take_min]

/-! ## Merging -/

/-- Join entries to those that are there, each number once. -/
def merge (number : α → Nat) (existing entries : List α) : List α :=
  (existing ++ entries.filter fun entry => number entry ∉ existing.map number).mergeSort
    fun first second => number first ≤ number second

theorem Numbered.take (hlog : Numbered number log) (count : Nat) :
    Numbered number (log.take count) := by
  rw [Numbered, List.map_take, hlog, take_range', List.length_take]

theorem Numbered.number_mem_take (hlog : Numbered number log) (count value : Nat) :
    value ∈ (log.take count).map number ↔ 1 ≤ value ∧ value ≤ min count log.length := by
  rw [List.map_take, hlog, take_range', List.mem_range'_1]
  omega

/-- The entries of a segment that an initial part of the log is missing. -/
theorem Numbered.filter_missing (hlog : Numbered number log) {after count : Nat}
    (hafter : after ≤ count) (upto : Nat) :
    ((log.take upto).drop after).filter
        (fun entry => number entry ∉ (log.take count).map number) = (log.take upto).drop count := by
  have hmissing : ∀ entry ∈ (log.take upto).drop after,
      decide (number entry ∉ (log.take count).map number) = decide (count < number entry) := by
    intro entry hentry
    have hmem : number entry ∈ (log.take upto).map number :=
      List.mem_map_of_mem (List.mem_of_mem_drop hentry)
    rw [hlog.number_mem_take] at hmem
    rw [decide_eq_decide, hlog.number_mem_take]
    omega
  have hbefore : ((log.take upto).take after).filter (fun entry => count < number entry) = [] := by
    rw [List.filter_eq_nil_iff]
    intro entry hentry
    have hmem : number entry ∈ (log.take (min after upto)).map number := by
      rw [List.take_take] at hentry
      exact List.mem_map_of_mem hentry
    rw [hlog.number_mem_take] at hmem
    rw [decide_eq_true_iff]
    omega
  calc ((log.take upto).drop after).filter
        (fun entry => number entry ∉ (log.take count).map number)
      = ((log.take upto).drop after).filter (fun entry => count < number entry) :=
        List.filter_congr hmissing
    _ = ((log.take upto).take after ++ (log.take upto).drop after).filter
          (fun entry => count < number entry) := by rw [List.filter_append, hbefore, List.nil_append]
    _ = (log.take upto).drop count := by
        rw [List.take_append_drop, (hlog.take upto).filter_after]

/-- An initial part of the log and a segment that begins within it, or right
behind it, make a longer initial part. -/
theorem Numbered.merge_segment (hlog : Numbered number log) {after count : Nat}
    (hafter : after ≤ count) (upto : Nat) :
    merge number (log.take count) ((log.take upto).drop after) = log.take (max count upto) := by
  have hjoined : log.take count ++ (log.take upto).drop count = log.take (max count upto) := by
    rcases Nat.le_total upto count with hle | hge
    · rw [Nat.max_eq_left hle, List.drop_eq_nil_of_le, List.append_nil]
      rw [List.length_take]
      omega
    · have htake : log.take count = (log.take upto).take count := by
        rw [List.take_take, Nat.min_eq_left hge]
      rw [Nat.max_eq_right hge, htake, List.take_append_drop]
  have hsorted : ((log.take (max count upto)).map number).Pairwise (· ≤ ·) := by
    rw [hlog.take]
    exact List.pairwise_le_range' _
  rw [merge, hlog.filter_missing hafter, hjoined, List.mergeSort_of_pairwise]
  exact (List.pairwise_map.mp hsorted).imp fun hle => decide_eq_true hle

theorem Numbered.page_eq_segment (hlog : Numbered number log) (after limit : Nat) :
    page number log after limit = (log.take (after + limit)).drop after := by
  rw [hlog.page_eq, List.drop_take, Nat.add_sub_cancel_left]

end NumberedLog
