import Mathlib

/-!
# Separated sequences and UTF-8 text

A sequence is cut at every separator, and what follows the last separator
counts as a piece of its own unless it is empty, as the lines of a text file
are counted.  The second part shows that cutting UTF-8 text at an ASCII byte
leaves UTF-8 text on both sides.
-/

namespace Lines

universe u

variable {α : Type u} [DecidableEq α]

/-- The pieces between separators. -/
def pieces (sep : α) : List α → List (List α)
  | [] => []
  | value :: values =>
      if value = sep then [] :: pieces sep values
      else
        match pieces sep values with
        | [] => [[value]]
        | first :: rest => (value :: first) :: rest

@[simp]
theorem pieces_nil (sep : α) : pieces sep [] = [] := rfl

@[simp]
theorem pieces_sep_cons (sep : α) (values : List α) :
    pieces sep (sep :: values) = [] :: pieces sep values := by
  rw [pieces, if_pos rfl]

/-- The first piece ends at the first separator. -/
theorem pieces_append_sep {sep : α} {first : List α} (hsep : sep ∉ first) (rest : List α) :
    pieces sep (first ++ sep :: rest) = first :: pieces sep rest := by
  induction first with
  | nil => rw [List.nil_append, pieces_sep_cons]
  | cons value values ih =>
      rw [List.mem_cons, not_or] at hsep
      rw [List.cons_append, pieces, if_neg (Ne.symm hsep.1), ih hsep.2]

/-- Without a separator the whole is one piece, unless it is empty. -/
theorem pieces_of_not_mem {sep : α} {values : List α} (hsep : sep ∉ values)
    (hne : values ≠ []) : pieces sep values = [values] := by
  induction values with
  | nil => exact absurd rfl hne
  | cons value values ih =>
      rw [List.mem_cons, not_or] at hsep
      rw [pieces, if_neg (Ne.symm hsep.1)]
      by_cases hvalues : values = []
      · rw [hvalues, pieces_nil]
      · rw [ih hsep.2 hvalues]

/-- A sequence has a separator and a first piece before it, or has none. -/
theorem exists_append_sep_or_not_mem (sep : α) (values : List α) :
    (∃ first rest, sep ∉ first ∧ values = first ++ sep :: rest) ∨ sep ∉ values := by
  induction values with
  | nil => exact Or.inr List.not_mem_nil
  | cons value values ih =>
      by_cases hvalue : value = sep
      · left
        exact ⟨[], values, List.not_mem_nil, by rw [hvalue, List.nil_append]⟩
      · rcases ih with ⟨first, rest, hfirst, hrest⟩ | hnone
        · left
          have hcons : sep ∉ value :: first := by
            rw [List.mem_cons, not_or]
            exact ⟨Ne.symm hvalue, hfirst⟩
          exact ⟨value :: first, rest, hcons, by rw [hrest, List.cons_append]⟩
        · right
          rw [List.mem_cons, not_or]
          exact ⟨Ne.symm hvalue, hnone⟩

/-- Every piece of what is left after a prefix ends a piece of the whole. -/
theorem exists_piece_of_append {sep : α} (before : List α) {values piece : List α}
    (hpiece : piece ∈ pieces sep values) :
    ∃ whole ∈ pieces sep (before ++ values), piece <:+ whole := by
  induction before with
  | nil => exact ⟨piece, hpiece, List.suffix_rfl⟩
  | cons value before ih =>
      rcases ih with ⟨whole, hwhole, hsuffix⟩
      rw [List.cons_append, pieces]
      split
      · exact ⟨whole, List.mem_cons_of_mem _ hwhole, hsuffix⟩
      · split
        · next hnil =>
            rw [hnil] at hwhole
            exact absurd hwhole List.not_mem_nil
        · next first rest hcons =>
            rw [hcons] at hwhole
            rcases List.mem_cons.mp hwhole with heq | htail
            · rw [heq] at hsuffix
              exact ⟨value :: first, List.mem_cons_self,
                hsuffix.trans (List.suffix_cons value first)⟩
            · exact ⟨whole, List.mem_cons_of_mem _ htail, hsuffix⟩

end Lines

namespace Utf8

/-- The bytes of a text. -/
def encode (chars : List Char) : List UInt8 := chars.flatMap String.utf8EncodeChar

/-- The bytes are the encoding of some text. -/
def Valid (bytes : List UInt8) : Prop := ∃ chars, bytes = encode chars

theorem valid_iff_validateUTF8 (bytes : List UInt8) :
    Valid bytes ↔ bytes.toByteArray.validateUTF8 = true := by
  rw [ByteArray.validateUTF8_eq_true_iff]
  constructor
  · rintro ⟨chars, rfl⟩
    exact ⟨chars, rfl⟩
  · rintro ⟨chars, hchars⟩
    refine ⟨chars, ?_⟩
    have hlist := congrArg (fun array => array.data.toList) hchars
    simpa [List.utf8Encode, encode] using hlist

instance (bytes : List UInt8) : Decidable (Valid bytes) :=
  decidable_of_iff _ (valid_iff_validateUTF8 bytes).symm

/-- An ASCII byte is only ever the encoding of a character on its own. -/
theorem utf8EncodeChar_eq_singleton_of_mem {char : Char} {byte : UInt8}
    (hmem : byte ∈ String.utf8EncodeChar char) (hascii : byte < 128) :
    String.utf8EncodeChar char = [byte] := by
  have hbyte : byte.toNat < 128 := UInt8.lt_iff_toNat_lt.mp hascii
  unfold String.utf8EncodeChar at hmem ⊢
  dsimp only at hmem ⊢
  by_cases hone : char.val.toNat ≤ 0x7f
  · rw [if_pos hone] at hmem ⊢
    rw [List.mem_singleton] at hmem
    rw [hmem]
  · -- the bytes of a longer encoding all have their top bit set
    exfalso
    rw [if_neg hone] at hmem
    split at hmem
    · simp only [List.mem_cons, List.not_mem_nil, or_false] at hmem
      rcases hmem with rfl | rfl <;> simp [UInt8.toNat_ofNat'] at hbyte <;> omega
    · split at hmem
      · simp only [List.mem_cons, List.not_mem_nil, or_false] at hmem
        rcases hmem with rfl | rfl | rfl <;> simp [UInt8.toNat_ofNat'] at hbyte <;> omega
      · simp only [List.mem_cons, List.not_mem_nil, or_false] at hmem
        rcases hmem with rfl | rfl | rfl | rfl <;>
          simp [UInt8.toNat_ofNat'] at hbyte <;> omega

/-- UTF-8 text cut at an ASCII byte is UTF-8 text on both sides. -/
theorem encode_eq_append_ascii {byte : UInt8} (hascii : byte < 128) {chars : List Char}
    {first rest : List UInt8} (hsplit : encode chars = first ++ byte :: rest) :
    Valid first ∧ Valid rest := by
  induction chars generalizing first with
  | nil => exact absurd hsplit.symm (List.append_ne_nil_of_right_ne_nil first (List.cons_ne_nil _ _))
  | cons char chars ih =>
      have hcons : encode (char :: chars) = String.utf8EncodeChar char ++ encode chars := rfl
      rw [hcons] at hsplit
      rcases List.append_eq_append_iff.mp hsplit with
        ⟨inner, hfirst, hinner⟩ | ⟨inner, hchar, hinner⟩
      · rcases ih hinner with ⟨⟨before, hbefore⟩, hrest⟩
        refine ⟨⟨char :: before, ?_⟩, hrest⟩
        rw [hfirst, hbefore]
        rfl
      · cases inner with
        | nil =>
            rw [List.append_nil] at hchar
            rw [List.nil_append] at hinner
            have hempty : encode chars = [] ++ byte :: rest := hinner.symm
            have hfirst : Valid first := ⟨[char], by
              rw [← hchar, encode, List.flatMap_singleton]⟩
            exact ⟨hfirst, (ih hempty).2⟩
        | cons head inner =>
            rw [List.cons_append, List.cons.injEq] at hinner
            have hmem : byte ∈ String.utf8EncodeChar char := by
              rw [hchar, ← hinner.1]
              exact List.mem_append_right first List.mem_cons_self
            have hsingle := utf8EncodeChar_eq_singleton_of_mem hmem hascii
            rw [hsingle] at hchar
            have hlength := congrArg List.length hchar
            simp only [List.length_append, List.length_cons, List.length_nil] at hlength
            have hfirst : first = [] := List.length_eq_zero_iff.mp (by omega)
            have hnil : inner = [] := List.length_eq_zero_iff.mp (by omega)
            rw [hnil, List.nil_append] at hinner
            exact ⟨⟨[], hfirst⟩, ⟨chars, hinner.2⟩⟩

theorem Valid.of_append_ascii {byte : UInt8} (hascii : byte < 128) {first rest : List UInt8}
    (hvalid : Valid (first ++ byte :: rest)) : Valid first ∧ Valid rest := by
  rcases hvalid with ⟨chars, hchars⟩
  exact encode_eq_append_ascii hascii hchars.symm

end Utf8
