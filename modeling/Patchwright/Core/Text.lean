import Mathlib
import Patchwright.Library.Json

/-!
# Text predicates

The character classes and text operations that the validators of the core
crate apply: Unicode whitespace and control characters, trimming, a split at
the first separator, and the tests for hexadecimal digests.  Lengths are byte
lengths of the UTF-8 encoding.
-/

namespace Patchwright

/-- The Unicode property `White_Space`. -/
def isWhitespace (char : Char) : Bool :=
  let code := char.toNat
  (9 ≤ code && code ≤ 13) || code == 0x20 || code == 0x85 || code == 0xA0 ||
    code == 0x1680 || (0x2000 ≤ code && code ≤ 0x200A) || code == 0x2028 ||
    code == 0x2029 || code == 0x202F || code == 0x205F || code == 0x3000

/-- The general category `Cc`. -/
def isControl (char : Char) : Bool :=
  char.toNat < 0x20 || (0x7F ≤ char.toNat && char.toNat < 0xA0)

def isAsciiHexdigit (char : Char) : Bool :=
  ('0' ≤ char && char ≤ '9') || ('a' ≤ char && char ≤ 'f') || ('A' ≤ char && char ≤ 'F')

/-- The text without leading and trailing whitespace. -/
def trim (value : String) : String :=
  String.ofList (((value.toList.dropWhile isWhitespace).reverse.dropWhile isWhitespace).reverse)

/-- The parts before and after the first occurrence of a separator. -/
def splitOnce (value : String) (separator : Char) : Option (String × String) :=
  let chars := value.toList
  if separator ∈ chars then
    some (String.ofList (chars.takeWhile (· ≠ separator)),
      String.ofList ((chars.dropWhile (· ≠ separator)).drop 1))
  else none

def toAsciiLowercase (chars : List Char) : List Char :=
  chars.map fun char =>
    if 'A' ≤ char ∧ char ≤ 'Z' then Char.ofNat (char.toNat + 32) else char

/-- One of the markers occurs in the text, letter case aside. -/
def containsMarker (value : String) (markers : List String) : Bool :=
  markers.any fun marker => marker.toList <:+: toAsciiLowercase value.toList

/-- The longest start of the text that fits in a number of bytes. -/
def takeBytes : Nat → List Char → List Char
  | _, [] => []
  | limit, char :: chars =>
      if char.utf8Size ≤ limit then char :: takeBytes (limit - char.utf8Size) chars else []

/-- A git object name in the length of SHA-1 or of SHA-256. -/
def isGitSha (value : String) : Bool :=
  (value.utf8ByteSize == 40 || value.utf8ByteSize == 64) && value.toList.all isAsciiHexdigit

def isSha256Hex (value : String) : Bool :=
  value.utf8ByteSize == 64 && value.toList.all isAsciiHexdigit

/-- SHA-256 as its library offers it: the digest of the UTF-8 bytes of a text. -/
class Sha256 where
  digest : String → BitVec 256

/-- The digits of a number in lowercase hexadecimal, the most significant first. -/
def hexDigits (width number : Nat) : List Char :=
  (List.range width).map fun index =>
    Json.hexDigit (number >>> (4 * (width - 1 - index)) % 16)

/-- The hexadecimal form of a digest. -/
def sha256Hex [Sha256] (text : String) : String :=
  String.ofList (hexDigits 64 (Sha256.digest text).toNat)

theorem hexDigit_isAscii : ∀ digit < 16, isAsciiHexdigit (Json.hexDigit digit) = true ∧
    (Json.hexDigit digit).utf8Size = 1 := by
  decide

theorem utf8Len_of_ascii {chars : List Char} (hascii : ∀ char ∈ chars, char.utf8Size = 1) :
    String.utf8Len chars = chars.length := by
  induction chars with
  | nil => rfl
  | cons char chars ih =>
      rw [String.utf8Len_cons, List.length_cons, hascii char List.mem_cons_self,
        ih fun other hother => hascii other (List.mem_cons_of_mem char hother)]

theorem isSha256Hex_sha256Hex [Sha256] (text : String) : isSha256Hex (sha256Hex text) = true := by
  have hdigits : ∀ char ∈ hexDigits 64 (Sha256.digest text).toNat,
      isAsciiHexdigit char = true ∧ char.utf8Size = 1 := by
    intro char hchar
    obtain ⟨index, -, rfl⟩ := List.mem_map.mp hchar
    exact hexDigit_isAscii _ (Nat.mod_lt _ (by decide))
  have hsize : (sha256Hex text).utf8ByteSize = 64 := by
    rw [sha256Hex, String.utf8ByteSize_ofList,
      utf8Len_of_ascii fun char hchar => (hdigits char hchar).2, hexDigits, List.length_map,
      List.length_range]
  rw [isSha256Hex, Bool.and_eq_true, hsize, sha256Hex, String.toList_ofList]
  exact ⟨rfl, List.all_eq_true.mpr fun char hchar => (hdigits char hchar).1⟩

/-! ### Texts with decimal numbers in them -/

section Decimals

theorem toAsciiLowercase_append (left right : List Char) :
    toAsciiLowercase (left ++ right) = toAsciiLowercase left ++ toAsciiLowercase right :=
  List.map_append

theorem toAsciiLowercase_digits {chars : List Char} (hdigits : ∀ char ∈ chars, char.isDigit) :
    toAsciiLowercase chars = chars := by
  refine (List.map_congr_left fun char hchar => ?_).trans (List.map_id chars)
  have hdigit := hdigits char hchar
  rw [Char.isDigit, Bool.and_eq_true, decide_eq_true_iff, decide_eq_true_iff] at hdigit
  have hlower : ¬ ('A' ≤ char ∧ char ≤ 'Z') := fun hupper =>
    absurd (UInt32.le_trans hupper.1 hdigit.2) (by decide)
  rw [if_neg hlower, id]

/-- Around letters that a word does not have, the word is on one side. -/
theorem infix_append_append_iff {α : Type} {word left middle right : List α}
    (hne : middle ≠ []) (hmiddle : ∀ letter ∈ middle, letter ∉ word) :
    word <:+: left ++ (middle ++ right) ↔ word <:+: left ∨ word <:+: right := by
  constructor
  · intro hword
    rcases List.infix_append_iff_ne_nil.mp hword with hleft | hrest | ⟨first, second, _, hsecond,
      rfl, hsuffix, hprefix⟩
    · exact .inl hleft
    · rcases List.infix_append_iff_ne_nil.mp hrest with hin | hright | ⟨first, second, hfirst, _,
        rfl, hsuffix, hprefix⟩
      · cases word with
        | nil => exact .inl (List.nil_infix)
        | cons letter word => 
          exact absurd List.mem_cons_self (hmiddle letter (hin.subset List.mem_cons_self))
      · exact .inr hright
      · rcases List.exists_cons_of_ne_nil hfirst with ⟨letter, tail, rfl⟩
        exact absurd (List.mem_append_left _ List.mem_cons_self)
          (hmiddle letter (hsuffix.subset List.mem_cons_self))
    · rcases List.exists_cons_of_ne_nil hsecond with ⟨letter, tail, rfl⟩
      rcases List.exists_cons_of_ne_nil hne with ⟨head, rest, rfl⟩
      rw [List.cons_append, List.cons_prefix_cons] at hprefix
      rcases hprefix with ⟨rfl, _⟩
      exact absurd (List.mem_append_right _ List.mem_cons_self)
          (hmiddle letter List.mem_cons_self)
  · rintro (hleft | hright)
    · exact List.infix_append_of_infix_left hleft
    · exact List.infix_append_of_infix_right (List.infix_append_of_infix_right hright)

theorem toDigits_isDigit (number : Nat) : ∀ char ∈ Nat.toDigits 10 number, char.isDigit :=
  fun _ hchar => Nat.isDigit_of_mem_toDigits (by decide) (by decide) hchar

/-- A number in a text is no part of a marker without digits. -/
theorem containsMarker_decimal {markers : List String}
    (hmarkers : (markers.all fun marker => marker.toList.all fun char => !char.isDigit) = true)
    (left right : String) (number : Nat) :
    containsMarker (left ++ (toString number ++ right)) markers =
      (containsMarker left markers || containsMarker right markers) := by
  rw [Bool.eq_iff_iff, Bool.or_eq_true]
  simp only [containsMarker, List.any_eq_true, decide_eq_true_iff, ← exists_or, ← and_or_left]
  refine exists_congr fun marker => and_congr_right fun hmarker => ?_
  rw [String.toList_append, String.toList_append, Nat.toString_eq_repr, Nat.toList_repr,
    toAsciiLowercase_append, toAsciiLowercase_append,
    toAsciiLowercase_digits (toDigits_isDigit number)]
  refine infix_append_append_iff Nat.toDigits_ne_nil fun char hchar hmem => ?_
  have hletter := List.all_eq_true.mp (List.all_eq_true.mp hmarkers marker hmarker) char hmem
  rw [toDigits_isDigit number char hchar] at hletter
  exact Bool.false_ne_true hletter

theorem dropWhile_eq_self {α : Type} {drop : α → Bool} {values : List α}
    (hhead : ∀ value ∈ values.head?, ¬ drop value) : values.dropWhile drop = values := by
  cases values with
  | nil => rfl
  | cons value values => exact List.dropWhile_cons_of_neg (hhead value rfl)

/-- Trimming leaves a text alone whose ends are not whitespace. -/
theorem trim_eq_self {value : String} (hfirst : ∀ char ∈ value.toList.head?, ¬ isWhitespace char)
    (hlast : ∀ char ∈ value.toList.getLast?, ¬ isWhitespace char) : trim value = value := by
  rw [← List.head?_reverse] at hlast
  rw [trim, dropWhile_eq_self hfirst, dropWhile_eq_self hlast, List.reverse_reverse,
    String.ofList_toList]

theorem head?_dropWhile_not {α : Type} (drop : α → Bool) (values : List α) :
    ∀ value ∈ (values.dropWhile drop).head?, ¬ drop value := by
  intro value hvalue
  have hnot := List.head?_dropWhile_not drop values
  rw [Option.mem_def.mp hvalue] at hnot
  rw [Bool.not_eq_true]
  exact hnot

theorem trim_isPrefix (value : String) :
    (trim value).toList <+: value.toList.dropWhile isWhitespace := by
  have hsuffix := List.reverse_prefix.mpr
    (List.dropWhile_suffix (l := (value.toList.dropWhile isWhitespace).reverse) isWhitespace)
  rwa [List.reverse_reverse, ← String.toList_ofList (l := List.reverse _)] at hsuffix

theorem trim_within (value : String) : (trim value).toList <:+: value.toList :=
  (trim_isPrefix value).isInfix.trans (List.dropWhile_suffix isWhitespace).isInfix

/-- What trimming leaves begins and ends with other characters than
whitespace. -/
theorem trim_edges (value : String) :
    (∀ char ∈ (trim value).toList.head?, ¬ isWhitespace char) ∧
      ∀ char ∈ (trim value).toList.getLast?, ¬ isWhitespace char := by
  constructor
  · intro char hchar
    obtain ⟨rest, hrest⟩ := trim_isPrefix value
    apply head?_dropWhile_not isWhitespace value.toList char
    rw [← hrest, List.head?_append, Option.mem_def.mp hchar, Option.some_or]
    exact Option.mem_some_self char
  · rw [trim, String.toList_ofList, List.getLast?_reverse]
    exact head?_dropWhile_not isWhitespace _

theorem trim_trim (value : String) : trim (trim value) = trim value :=
  trim_eq_self (trim_edges value).1 (trim_edges value).2

theorem getLast?_append {left right : String} {last : Char}
    (hlast : right.toList.getLast? = some last) :
    (left ++ right).toList.getLast? = some last := by
  rw [String.toList_append, List.getLast?_append, hlast, Option.some_or]

/-- Trimming leaves a text alone that begins and ends with other characters. -/
theorem trim_append {left right : String} (first last : Char)
    (hfirst : left.toList.head? = some first) (hlast : right.toList.getLast? = some last)
    (hedges : ¬ isWhitespace first ∧ ¬ isWhitespace last) : trim (left ++ right) = left ++ right := by
  apply trim_eq_self
  · rw [String.toList_append, List.head?_append, hfirst, Option.some_or]
    rintro char ⟨⟩
    exact hedges.1
  · rw [getLast?_append hlast]
    rintro char ⟨⟩
    exact hedges.2

theorem utf8Len_le (chars : List Char) : String.utf8Len chars ≤ 4 * chars.length := by
  induction chars with
  | nil => exact Nat.le_refl 0
  | cons char chars ih =>
      rw [String.utf8Len_cons, List.length_cons, Nat.mul_succ]
      exact Nat.add_le_add ih char.utf8Size_le_four

theorem utf8ByteSize_decimal_le {number : Nat} (digits : Nat) (hpos : 0 < digits)
    (hnumber : number < 10 ^ digits) : (toString number).utf8ByteSize ≤ 4 * digits := by
  have hlength := (Nat.length_toDigits_le_iff (by decide) hpos).mpr hnumber
  rw [Nat.toString_eq_ofList_toDigits, String.utf8ByteSize_ofList]
  exact (utf8Len_le _).trans (Nat.mul_le_mul_left 4 hlength)

end Decimals

/-! ### Cutting a text -/

section Cutting

theorem utf8Len_takeBytes_le (limit : Nat) (chars : List Char) :
    String.utf8Len (takeBytes limit chars) ≤ limit := by
  induction chars generalizing limit with
  | nil => exact Nat.zero_le limit
  | cons char chars ih =>
      rw [takeBytes]
      split
      · rename_i hfits
        rw [String.utf8Len_cons]
        exact (Nat.add_le_add_right (ih _) _).trans (Nat.sub_add_cancel hfits).le
      · exact Nat.zero_le limit

/-- The text has a NUL among its first bytes. -/
def NulWithin (limit : Nat) (chars : List Char) : Prop :=
  ∃ before after, chars = before ++ '\x00' :: after ∧ String.utf8Len before < limit

theorem nulWithin_cons {limit : Nat} {char : Char} {chars : List Char} :
    NulWithin limit (char :: chars) ↔
      char = '\x00' ∧ 0 < limit ∨ char.utf8Size ≤ limit ∧ NulWithin (limit - char.utf8Size) chars := by
  constructor
  · rintro ⟨before, after, hchars, hlimit⟩
    cases before with
    | nil =>
        rw [List.nil_append, List.cons.injEq] at hchars
        exact .inl ⟨hchars.1, hlimit⟩
    | cons head before =>
        rw [List.cons_append, List.cons.injEq] at hchars
        rcases hchars with ⟨rfl, hrest⟩
        rw [String.utf8Len_cons] at hlimit
        exact .inr ⟨by omega, before, after, hrest, by omega⟩
  · rintro (⟨rfl, hlimit⟩ | ⟨hfits, before, after, rfl, hlimit⟩)
    · exact ⟨[], chars, rfl, hlimit⟩
    · refine ⟨char :: before, after, rfl, ?_⟩
      rw [String.utf8Len_cons]
      omega

/-- Cutting a text keeps the NULs among its first bytes, and no other. -/
theorem nul_mem_takeBytes {limit : Nat} {chars : List Char} :
    '\x00' ∈ takeBytes limit chars ↔ NulWithin limit chars := by
  induction chars generalizing limit with
  | nil =>
      refine iff_of_false (List.not_mem_nil) ?_
      rintro ⟨before, after, hnil, -⟩
      exact List.append_ne_nil_of_right_ne_nil before (List.cons_ne_nil _ after) hnil.symm
  | cons char chars ih =>
      rw [takeBytes, nulWithin_cons]
      have hpos := char.utf8Size_pos
      split
      · rename_i hfits
        rw [List.mem_cons, ih]
        constructor
        · rintro (hchar | hrest)
          · exact .inl ⟨hchar.symm, hpos.trans_le hfits⟩
          · exact .inr ⟨hfits, hrest⟩
        · rintro (⟨hchar, -⟩ | ⟨-, hrest⟩)
          · exact .inl hchar.symm
          · exact .inr hrest
      · rename_i hlarge
        refine iff_of_false (List.not_mem_nil) ?_
        rintro (⟨rfl, hlimit⟩ | ⟨hfits, -⟩)
        · exact hlarge hlimit
        · exact hlarge hfits

theorem nul_mem_iff_of_le {limit : Nat} {chars : List Char} (hlen : String.utf8Len chars ≤ limit) :
    '\x00' ∈ chars ↔ NulWithin limit chars := by
  constructor
  · intro hmem
    rcases List.append_of_mem hmem with ⟨before, after, rfl⟩
    rw [String.utf8Len_append, String.utf8Len_cons] at hlen
    have hpos := Char.utf8Size_pos '\x00'
    exact ⟨before, after, rfl, by omega⟩
  · rintro ⟨before, after, rfl, -⟩
    exact List.mem_append_right _ List.mem_cons_self

end Cutting

end Patchwright
