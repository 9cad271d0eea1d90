import Patchwright.Library.Membership

/-!
# Joining a relative reference to a URL

The rules by which a URL library resolves a reference that begins with a path
segment: `#` starts the fragment and `?` the query, segments end at a slash or
backslash, a segment is percent-encoded but keeps the escapes it has, and `.`
and `..` segments, escaped or not, are removed.  The last part says when a
reference written as a list of parts is resolved to those very parts, as a
server that decodes the segments reads them.
-/

/-- What a URL has behind its origin: the encoded segments of its path, the
query and the fragment. -/
structure Url where
  segments : List (List Char)
  query : Option (List Char)
  fragment : Option (List Char)
  deriving DecidableEq, Repr

namespace Url

/-- Facts about the characters of a list are decided along the list. -/
scoped instance (priority := high) decidableForallChar (chars : List Char) (p : Char → Prop)
    [DecidablePred p] : Decidable (∀ char ∈ chars, p char) := List.decidableBAll p chars

/-! ## Percent encoding -/

def isHex (char : Char) : Bool :=
  ('0' ≤ char && char ≤ '9') || ('a' ≤ char && char ≤ 'f') || ('A' ≤ char && char ≤ 'F')

def hexValue (char : Char) : Nat :=
  if char ≤ '9' then char.toNat - 48
  else if 'a' ≤ char then char.toNat - 87
  else char.toNat - 55

def hexDigit (value : Nat) : Char :=
  if value < 10 then Char.ofNat (48 + value) else Char.ofNat (55 + value)

/-- The characters that a path keeps as they are. -/
def keptInPath (char : Char) : Bool :=
  0x20 < char.toNat && char.toNat < 0x7f &&
    char ∉ ['"', '#', '<', '>', '?', '\x60', '\x7b', '\x7d']

def escapeByte (byte : UInt8) : List Char :=
  ['%', hexDigit (byte.toNat / 16), hexDigit (byte.toNat % 16)]

def encodeChar (char : Char) : List Char :=
  if keptInPath char then [char] else (String.utf8EncodeChar char).flatMap escapeByte

/-- A segment as it stands in a path.  A percent sign is kept. -/
def percentEncode (part : List Char) : List Char := part.flatMap encodeChar

/-- The text goes on with two hexadecimal digits. -/
def twoDigits : List Char → Bool
  | high :: low :: _ => isHex high && isHex low
  | _ => false

/-- The bytes that a segment of a path stands for. -/
def percentDecode : List Char → List UInt8
  | [] => []
  | '%' :: high :: low :: rest =>
      if isHex high && isHex low then
        UInt8.ofNat (16 * hexValue high + hexValue low) :: percentDecode rest
      else String.utf8EncodeChar '%' ++ percentDecode (high :: low :: rest)
  | char :: rest => String.utf8EncodeChar char ++ percentDecode rest

/-- The bytes of a text. -/
def utf8 (part : List Char) : List UInt8 := part.flatMap String.utf8EncodeChar

/-- The text has a percent sign with two hexadecimal digits behind it. -/
def hasEscape : List Char → Bool
  | [] => false
  | char :: rest => (char = '%' && twoDigits rest) || hasEscape rest

theorem percentEncode_cons (char : Char) (rest : List Char) :
    percentEncode (char :: rest) = encodeChar char ++ percentEncode rest := List.flatMap_cons

theorem encodeChar_percent : encodeChar '%' = ['%'] := by decide

theorem utf8_cons (char : Char) (rest : List Char) :
    utf8 (char :: rest) = String.utf8EncodeChar char ++ utf8 rest := List.flatMap_cons

theorem percentDecode_percent (rest : List Char) :
    percentDecode ('%' :: rest) =
      match rest with
      | high :: low :: tail =>
          if isHex high && isHex low then
            UInt8.ofNat (16 * hexValue high + hexValue low) :: percentDecode tail
          else String.utf8EncodeChar '%' ++ percentDecode rest
      | _ => String.utf8EncodeChar '%' ++ percentDecode rest := by
  rcases rest with _ | ⟨high, _ | ⟨low, tail⟩⟩ <;> rfl

theorem percentDecode_cons {char : Char} (hne : char ≠ '%') (rest : List Char) :
    percentDecode (char :: rest) = String.utf8EncodeChar char ++ percentDecode rest := by
  rw [percentDecode]
  intro high low tail hpercent _
  exact hne hpercent

theorem percentDecode_of_not_twoDigits {rest : List Char} (hdigits : twoDigits rest = false) :
    percentDecode ('%' :: rest) = String.utf8EncodeChar '%' ++ percentDecode rest := by
  rw [percentDecode_percent]
  rcases rest with _ | ⟨high, _ | ⟨low, tail⟩⟩
  · rfl
  · rfl
  · rw [twoDigits] at hdigits
    dsimp only
    rw [hdigits]
    rfl

theorem hexDigit_spec : ∀ value < 16, isHex (hexDigit value) = true ∧
    hexValue (hexDigit value) = value := by
  decide

theorem percentDecode_escapeByte (byte : UInt8) (rest : List Char) :
    percentDecode (escapeByte byte ++ rest) = byte :: percentDecode rest := by
  have hhigh := hexDigit_spec (byte.toNat / 16) (by have := byte.toNat_lt; omega)
  have hlow := hexDigit_spec (byte.toNat % 16) (Nat.mod_lt _ (by decide))
  rw [escapeByte, List.cons_append, List.cons_append, List.cons_append, List.nil_append,
    percentDecode_percent]
  dsimp only
  rw [hhigh.1, hlow.1, hhigh.2, hlow.2, Nat.div_add_mod]
  exact congrArg (· :: _) (UInt8.ofNat_toNat)

theorem percentDecode_flatMap (bytes : List UInt8) (rest : List Char) :
    percentDecode (bytes.flatMap escapeByte ++ rest) = bytes ++ percentDecode rest := by
  induction bytes with
  | nil => rfl
  | cons byte bytes ih =>
      rw [List.flatMap_cons, List.append_assoc, percentDecode_escapeByte, ih, List.cons_append]

/-- A character other than the percent sign is read back. -/
theorem percentDecode_encodeChar {char : Char} (hne : char ≠ '%') (rest : List Char) :
    percentDecode (encodeChar char ++ rest) = String.utf8EncodeChar char ++ percentDecode rest := by
  rw [encodeChar]
  split
  · exact percentDecode_cons hne rest
  · exact percentDecode_flatMap _ rest

theorem keptInPath_of_isHex {char : Char} (hhex : isHex char = true) : keptInPath char = true := by
  have hbounds : 0x20 < char.toNat ∧ char.toNat < 0x7f := by
    simp only [isHex, Bool.or_eq_true, Bool.and_eq_true, decide_eq_true_eq, Char.le_def,
      UInt32.le_iff_toNat_le] at hhex
    change ((48 ≤ char.toNat ∧ char.toNat ≤ 57) ∨ (97 ≤ char.toNat ∧ char.toNat ≤ 102)) ∨
      (65 ≤ char.toNat ∧ char.toNat ≤ 70) at hhex
    omega
  have hother : char ∉ ['"', '#', '<', '>', '?', '\x60', '\x7b', '\x7d'] := by
    intro hmem
    have hnone : ∀ other ∈ ['"', '#', '<', '>', '?', '\x60', '\x7b', '\x7d'],
        isHex other = false := by decide
    rw [hnone char hmem] at hhex
    cases hhex
  rw [keptInPath, decide_eq_true hbounds.1, decide_eq_true hbounds.2, decide_eq_true hother]
  rfl

theorem encodeChar_of_kept {char : Char} (hkept : keptInPath char = true) :
    encodeChar char = [char] := if_pos hkept

theorem encodeChar_escaped {char : Char} (hkept : keptInPath char = false) :
    ∃ tail, encodeChar char = '%' :: tail := by
  rw [encodeChar, hkept, if_neg Bool.false_ne_true]
  obtain ⟨byte, bytes, hbytes⟩ := List.exists_cons_of_ne_nil (String.utf8EncodeChar_ne_nil (c := char))
  rw [hbytes]
  exact ⟨_, rfl⟩

theorem twoDigits_percent (tail : List Char) : twoDigits ('%' :: tail) = false := by
  cases tail <;> rfl

theorem twoDigits_not_hex {char : Char} (hhex : isHex char = false) (tail : List Char) :
    twoDigits (char :: tail) = false := by
  cases tail with
  | nil => rfl
  | cons next tail => rw [twoDigits, hhex, Bool.false_and]

/-- Encoding adds and takes no digits in front. -/
theorem twoDigits_percentEncode (part : List Char) :
    twoDigits (percentEncode part) = twoDigits part := by
  have hescaped : ∀ {char : Char}, keptInPath char = false → isHex char = false := fun h =>
    Bool.eq_false_iff.mpr fun hhex => by rw [keptInPath_of_isHex hhex] at h; cases h
  cases part with
  | nil => rfl
  | cons high rest =>
      rw [percentEncode_cons]
      cases hhigh : keptInPath high with
      | false =>
          obtain ⟨tail, htail⟩ := encodeChar_escaped hhigh
          rw [htail, List.cons_append, twoDigits_percent, twoDigits_not_hex (hescaped hhigh)]
      | true =>
          rw [encodeChar_of_kept hhigh]
          cases rest with
          | nil => rfl
          | cons low rest =>
              rw [percentEncode_cons]
              cases hlow : keptInPath low with
              | true => rw [encodeChar_of_kept hlow]; rfl
              | false =>
                  obtain ⟨tail, htail⟩ := encodeChar_escaped hlow
                  rw [htail]
                  change (isHex high && isHex '%') = (isHex high && isHex low)
                  rw [hescaped hlow]
                  rfl

/-- A segment without escapes is decoded to the bytes of the text. -/
theorem percentDecode_percentEncode {part : List Char} (hplain : hasEscape part = false) :
    percentDecode (percentEncode part) = utf8 part := by
  induction part with
  | nil => rfl
  | cons char rest ih =>
      rw [hasEscape, Bool.or_eq_false_iff] at hplain
      rw [percentEncode_cons, utf8_cons, ← ih hplain.2]
      by_cases hpercent : char = '%'
      · subst hpercent
        rw [decide_eq_true rfl, Bool.true_and] at hplain
        have hdigits := (twoDigits_percentEncode rest).trans hplain.1
        rw [encodeChar_percent, List.singleton_append, percentDecode_of_not_twoDigits hdigits]
      · rw [percentDecode_encodeChar hpercent]

theorem percentEncode_of_twoDigits {rest : List Char} (hdigits : twoDigits rest = true) :
    ∃ high low tail, rest = high :: low :: tail ∧
      percentEncode rest = high :: low :: percentEncode tail ∧
      (isHex high && isHex low) = true := by
  rcases rest with _ | ⟨high, _ | ⟨low, tail⟩⟩
  · cases hdigits
  · cases hdigits
  · have hhex := Bool.and_eq_true_iff.mp hdigits
    refine ⟨high, low, tail, rfl, ?_, hdigits⟩
    rw [percentEncode_cons, percentEncode_cons, encodeChar_of_kept (keptInPath_of_isHex hhex.1),
      encodeChar_of_kept (keptInPath_of_isHex hhex.2)]
    rfl

/-- Decoding never yields more bytes than the text has, and fewer where it has
an escape. -/
theorem length_percentDecode (part : List Char) :
    (percentDecode (percentEncode part)).length ≤ (utf8 part).length ∧
      (hasEscape part = true →
        (percentDecode (percentEncode part)).length < (utf8 part).length) := by
  induction hlength : part.length using Nat.strong_induction_on generalizing part with
  | h length ih =>
      cases part with
      | nil => exact ⟨le_refl _, nofun⟩
      | cons char rest =>
          have hrest := ih rest.length (by rw [← hlength]; exact Nat.lt_succ_self _) rest rfl
          by_cases hescape : char = '%' ∧ twoDigits rest = true
          · obtain ⟨rfl, hdigits⟩ := hescape
            obtain ⟨high, low, tail, rfl, hencode, hhex⟩ := percentEncode_of_twoDigits hdigits
            have htail := (ih tail.length (by rw [← hlength]; simp; omega) tail rfl).1
            have hdecoded : percentDecode (percentEncode ('%' :: high :: low :: tail)) =
                UInt8.ofNat (16 * hexValue high + hexValue low) ::
                  percentDecode (percentEncode tail) := by
              rw [percentEncode_cons, encodeChar_percent, hencode, List.singleton_append,
                percentDecode_percent]
              dsimp only
              rw [if_pos hhex]
            have hbytes : (utf8 tail).length + 3 ≤ (utf8 ('%' :: high :: low :: tail)).length := by
              simp only [utf8_cons, List.length_append, String.length_utf8EncodeChar]
              have := high.utf8Size_pos
              have := low.utf8Size_pos
              have := Char.utf8Size_pos '%'
              omega
            have hless : (percentDecode (percentEncode ('%' :: high :: low :: tail))).length <
                (utf8 ('%' :: high :: low :: tail)).length := by
              rw [hdecoded, List.length_cons]
              omega
            exact ⟨hless.le, fun _ => hless⟩
          · have hdecoded : percentDecode (percentEncode (char :: rest)) =
                String.utf8EncodeChar char ++ percentDecode (percentEncode rest) := by
              rw [percentEncode_cons]
              by_cases hpercent : char = '%'
              · subst hpercent
                have hdigits : twoDigits rest = false :=
                  Bool.eq_false_iff.mpr fun h => hescape ⟨rfl, h⟩
                rw [encodeChar_percent, List.singleton_append]
                exact percentDecode_of_not_twoDigits
                  ((twoDigits_percentEncode rest).trans hdigits)
              · exact percentDecode_encodeChar hpercent _
            rw [hdecoded, utf8_cons, List.length_append, List.length_append]
            refine ⟨Nat.add_le_add_left hrest.1 _, fun hhas => Nat.add_lt_add_left (hrest.2 ?_) _⟩
            rw [hasEscape, Bool.or_eq_true, Bool.and_eq_true, decide_eq_true_eq] at hhas
            exact hhas.resolve_left hescape

/-- A segment is decoded to the bytes of the text exactly when the text has no
escapes. -/
theorem percentDecode_percentEncode_iff {part : List Char} :
    percentDecode (percentEncode part) = utf8 part ↔ hasEscape part = false := by
  constructor
  · intro hdecoded
    by_contra hescape
    have hless := (length_percentDecode part).2 (Bool.not_eq_false _ ▸ hescape)
    rw [hdecoded] at hless
    exact lt_irrefl _ hless
  · exact percentDecode_percentEncode

/-! ## Resolving a reference -/

def isSeparator (char : Char) : Bool := char = '/' || char = '\\'

def lowerE (part : List Char) : List Char := part.map fun char => if char = 'E' then 'e' else char

/-- A segment that stands for the directory it is in. -/
def isSingleDot (part : List Char) : Bool := lowerE part ∈ ["." , "%2e"].map String.toList

/-- A segment that stands for the directory above. -/
def isDoubleDot (part : List Char) : Bool :=
  lowerE part ∈ ["..", ".%2e", "%2e.", "%2e%2e"].map String.toList

/-- Walk along the segments of a reference.  A dot segment at the end leaves an
empty one. -/
def pushSegments (path : List (List Char)) : List (List Char) → List (List Char)
  | [] => path
  | [part] =>
      if isDoubleDot part then path.dropLast ++ [[]]
      else if isSingleDot part then path ++ [[]]
      else path ++ [percentEncode part]
  | part :: next :: parts =>
      if isDoubleDot part then pushSegments path.dropLast (next :: parts)
      else if isSingleDot part then pushSegments path (next :: parts)
      else pushSegments (path ++ [percentEncode part]) (next :: parts)

/-- The text before a mark, and the text behind it where there is one. -/
def cut (mark : Char) (text : List Char) : List Char × Option (List Char) :=
  (text.takeWhile (· ≠ mark),
    if mark ∈ text then some ((text.dropWhile (· ≠ mark)).drop 1) else none)

def isTabOrNewline (char : Char) : Bool := char = '\t' || char = '\n' || char = '\r'

def isC0ControlOrSpace (char : Char) : Bool := char.toNat ≤ 0x20

/-- A reference without the characters that are ignored in it. -/
def strip (reference : List Char) : List Char :=
  ((((reference.dropWhile isC0ControlOrSpace).reverse).dropWhile isC0ControlOrSpace).reverse).filter
    fun char => !isTabOrNewline char

/-- Resolve a reference that begins with a segment below a directory. -/
def resolve (directory : List (List Char)) (reference : List Char) : Url :=
  let (hierarchy, fragment) := cut '#' (strip reference)
  let (path, query) := cut '?' hierarchy
  { segments := pushSegments directory (path.splitOnP isSeparator), query, fragment }

/-- The reference begins with a segment of a path: there is no scheme, no host
and no slash in front of it. -/
def IsRelativeReference (reference : List Char) : Prop :=
  ∃ first rest, reference = first ++ rest ∧ first ≠ [] ∧
    (∀ char ∈ first, char.isAlphanum = true) ∧ ∀ char ∈ rest.head?, char = '/'

/-- A library that joins references to a base URL and takes URLs apart, by the
rules above. -/
structure Library where
  directory : List (List Char)
  join : String → Option String
  parse : String → Url
  join_resolves : ∀ reference, IsRelativeReference reference.toList →
    (join reference).map parse = some (resolve directory reference.toList)

/-! ### References that are read as they are written -/

section Literal

variable {directory : List (List Char)} {reference part : List Char}

/-- The segments as a server reads them. -/
def literal (url : Url) : List (List UInt8) := url.segments.map percentDecode

/-- A part of a path that is read as it is written. -/
def IsLiteral (part : List Char) : Prop :=
  isDoubleDot part = false ∧ isSingleDot part = false ∧ hasEscape part = false

instance (part : List Char) : Decidable (IsLiteral part) :=
  inferInstanceAs (Decidable (_ ∧ _ ∧ _))

theorem ne_nil_of_isDoubleDot (hdot : isDoubleDot part = true) : part ≠ [] := by
  rintro rfl
  exact absurd hdot (by decide)

theorem ne_nil_of_isSingleDot (hdot : isSingleDot part = true) : part ≠ [] := by
  rintro rfl
  exact absurd hdot (by decide)

theorem utf8_ne_nil (hne : part ≠ []) : utf8 part ≠ [] := by
  obtain ⟨char, rest, rfl⟩ := List.exists_cons_of_ne_nil hne
  rw [utf8_cons]
  exact List.append_ne_nil_of_left_ne_nil String.utf8EncodeChar_ne_nil _

/-- Along literal parts the walk adds each of them. -/
theorem map_pushSegments {parts : List (List Char)} (hparts : ∀ part ∈ parts, IsLiteral part)
    (directory : List (List Char)) :
    (pushSegments directory parts).map percentDecode =
      directory.map percentDecode ++ parts.map utf8 := by
  induction parts generalizing directory with
  | nil => rw [pushSegments, List.map_nil, List.append_nil]
  | cons part parts ih =>
      obtain ⟨hdouble, hsingle, hescape⟩ := hparts part List.mem_cons_self
      have hdecoded := percentDecode_percentEncode hescape
      cases parts with
      | nil =>
          rw [pushSegments, hdouble, hsingle, if_neg Bool.false_ne_true, if_neg Bool.false_ne_true,
            List.map_append, List.map_singleton, List.map_singleton, hdecoded]
      | cons next parts =>
          rw [pushSegments, hdouble, hsingle, if_neg Bool.false_ne_true,
            if_neg Bool.false_ne_true, ih fun other hother =>
              hparts other (List.mem_cons_of_mem _ hother), List.map_append, List.map_singleton,
            hdecoded, List.append_assoc]
          rfl

/-- A walk that ends at the parts has passed literal parts only. -/
theorem literal_of_map_pushSegments {parts : List (List Char)} {directory : List (List Char)}
    {expected : List (List UInt8)} (hlength : directory.length ≤ expected.length)
    (hparts : (pushSegments directory parts).map percentDecode = expected ++ parts.map utf8) :
    directory.map percentDecode = expected ∧ ∀ part ∈ parts, IsLiteral part := by
  induction parts generalizing directory expected with
  | nil =>
      rw [pushSegments, List.map_nil, List.append_nil] at hparts
      exact ⟨hparts, nofun⟩
  | cons part parts ih =>
      cases parts with
      | nil =>
          rw [pushSegments] at hparts
          split at hparts
          case isTrue hdouble =>
            rw [List.map_append, List.map_singleton] at hparts
            have hlast := List.singleton_inj.mp (List.append_inj' hparts rfl).2
            exact absurd hlast.symm (utf8_ne_nil (ne_nil_of_isDoubleDot hdouble))
          case isFalse hdouble =>
            split at hparts
            case isTrue hsingle =>
              rw [List.map_append, List.map_singleton] at hparts
              have hlast := List.singleton_inj.mp (List.append_inj' hparts rfl).2
              exact absurd hlast.symm (utf8_ne_nil (ne_nil_of_isSingleDot hsingle))
            case isFalse hsingle =>
              rw [List.map_append, List.map_singleton] at hparts
              obtain ⟨hdirectory, hlast⟩ := List.append_inj' hparts rfl
              have hescape := percentDecode_percentEncode_iff.1 (List.singleton_inj.mp hlast)
              refine ⟨hdirectory, List.forall_mem_singleton.mpr ?_⟩
              exact ⟨Bool.eq_false_iff.mpr hdouble, Bool.eq_false_iff.mpr hsingle, hescape⟩
      | cons next parts =>
          rw [List.map_cons, List.append_cons] at hparts
          have hlonger : (expected ++ [utf8 part]).length = expected.length + 1 :=
            List.length_append
          rw [pushSegments] at hparts
          split at hparts
          case isTrue hdouble =>
            have hpopped : directory.dropLast.length ≤ directory.length := by
              rw [List.length_dropLast]
              exact Nat.sub_le _ _
            obtain ⟨hdirectory, _⟩ := ih (by omega) hparts
            have hcount := congrArg List.length hdirectory
            rw [List.length_map] at hcount
            omega
          case isFalse hdouble =>
            split at hparts
            case isTrue hsingle =>
              obtain ⟨hdirectory, _⟩ := ih (by omega) hparts
              have hcount := congrArg List.length hdirectory
              rw [List.length_map] at hcount
              omega
            case isFalse hsingle =>
              have hpushed : (directory ++ [percentEncode part]).length = directory.length + 1 :=
                List.length_append
              obtain ⟨hdirectory, hrest⟩ := ih (by omega) hparts
              rw [List.map_append, List.map_singleton] at hdirectory
              obtain ⟨hleading, hlast⟩ := List.append_inj' hdirectory rfl
              have hescape := percentDecode_percentEncode_iff.1 (List.singleton_inj.mp hlast)
              refine ⟨hleading, List.forall_mem_cons.mpr ⟨?_, hrest⟩⟩
              exact ⟨Bool.eq_false_iff.mpr hdouble, Bool.eq_false_iff.mpr hsingle, hescape⟩

theorem lowerE_eq {part text : List Char} (hlower : lowerE part = text) (hnone : 'e' ∉ text) :
    part = text := by
  subst hlower
  refine (List.map_congr_left fun char hchar => ?_).trans (List.map_id part) |>.symm
  split
  case isTrue heq =>
    refine absurd (List.mem_map.mpr ⟨char, hchar, ?_⟩) hnone
    rw [if_pos heq]
  case isFalse => rfl

theorem percent_of_lowerE {part : List Char} (hpercent : '%' ∈ lowerE part) : '%' ∈ part := by
  obtain ⟨char, hchar, hlower⟩ := List.mem_map.mp hpercent
  split at hlower
  · exact absurd hlower (by decide)
  · exact hlower ▸ hchar

theorem hasEscape_of_notMem {part : List Char} (hpercent : '%' ∉ part) :
    hasEscape part = false := by
  induction part with
  | nil => rfl
  | cons char rest ih =>
      obtain ⟨hne, hrest⟩ := not_or.mp (List.mem_cons.not.mp hpercent)
      rw [hasEscape, ih hrest, decide_eq_false fun heq => hne heq.symm]
      rfl

/-- A name without percent signs is literal unless it is a dot segment. -/
theorem isLiteral_iff_of_notMem {part : List Char} (hpercent : '%' ∉ part) :
    IsLiteral part ↔ part ≠ ['.'] ∧ part ≠ ['.', '.'] := by
  have hsingle : isSingleDot part = true ↔ part = ['.'] := by
    rw [isSingleDot, decide_eq_true_iff]
    constructor
    · intro hmem
      rcases List.mem_cons.mp hmem with hdot | hmem
      · exact lowerE_eq hdot (by decide)
      · have hescaped := List.mem_singleton.mp hmem
        exact absurd (percent_of_lowerE (hescaped ▸ by decide)) hpercent
    · rintro rfl
      decide
  have hdouble : isDoubleDot part = true ↔ part = ['.', '.'] := by
    rw [isDoubleDot, decide_eq_true_iff]
    constructor
    · intro hmem
      rcases List.mem_cons.mp hmem with hdots | hmem
      · exact lowerE_eq hdots (by decide)
      · have hescaped : '%' ∈ lowerE part := by
          revert hmem
          generalize lowerE part = text
          revert text
          decide
        exact absurd (percent_of_lowerE hescaped) hpercent
    · rintro rfl
      decide
  rw [IsLiteral, hasEscape_of_notMem hpercent, ← Bool.not_eq_true, ← Bool.not_eq_true, hsingle,
    hdouble]
  exact ⟨fun ⟨hfirst, hsecond, _⟩ => ⟨hsecond, hfirst⟩,
    fun ⟨hfirst, hsecond⟩ => ⟨hsecond, hfirst, rfl⟩⟩

/-- A path is cut where its segments are joined, and within them. -/
theorem splitOnP_joined (text : List Char) (segments : List (List Char)) :
    (text ++ segments.flatMap fun segment => '/' :: segment).splitOnP isSeparator =
      text.splitOnP isSeparator ++
        segments.flatMap fun segment => segment.splitOnP isSeparator := by
  induction segments generalizing text with
  | nil => rw [List.flatMap_nil, List.append_nil, List.flatMap_nil, List.append_nil]
  | cons segment segments ih =>
      rw [List.flatMap_cons, List.cons_append, List.splitOnP_append_cons _ _ (by decide), ih,
        List.flatMap_cons]

theorem splitOnP_congr {p q : Char → Bool} {text : List Char}
    (hsame : ∀ char ∈ text, p char = q char) : text.splitOnP p = text.splitOnP q := by
  induction text with
  | nil => rfl
  | cons char rest ih =>
      rw [List.splitOnP_cons_eq_if_modifyHead, List.splitOnP_cons_eq_if_modifyHead,
        hsame char List.mem_cons_self, ih fun other hother =>
          hsame other (List.mem_cons_of_mem _ hother)]

/-- A reference without marks and without ignored characters. -/
def Unmarked (reference : List Char) : Prop :=
  ∀ char ∈ reference, char ≠ '#' ∧ char ≠ '?' ∧ 0x20 < char.toNat

theorem strip_eq_self (hprinted : ∀ char ∈ reference, 0x20 < char.toNat) :
    strip reference = reference := by
  have hkept : ∀ char ∈ reference, isC0ControlOrSpace char = false := fun char hchar =>
    decide_eq_false (Nat.not_le.mpr (hprinted char hchar))
  have hfront : ∀ text : List Char, (∀ char ∈ text, isC0ControlOrSpace char = false) →
      text.dropWhile isC0ControlOrSpace = text := by
    intro text htext
    cases text with
    | nil => rfl
    | cons char rest =>
        rw [List.dropWhile_cons_of_neg]
        rw [htext char List.mem_cons_self]
        exact Bool.false_ne_true
  rw [strip, hfront reference hkept,
    hfront reference.reverse fun char hchar => hkept char (List.mem_reverse.mp hchar),
    List.reverse_reverse, List.filter_eq_self]
  intro char hchar
  have hbound := hprinted char hchar
  rw [Bool.not_eq_true', isTabOrNewline]
  simp only [Bool.or_eq_false_iff, decide_eq_false_iff_not]
  refine ⟨⟨?_, ?_⟩, ?_⟩ <;> rintro rfl <;> exact absurd hbound (by decide)

theorem cut_of_notMem {mark : Char} {text : List Char} (hmark : mark ∉ text) :
    cut mark text = (text, none) := by
  rw [cut, if_neg hmark, List.takeWhile_eq_self_iff.mpr]
  intro char hchar
  exact decide_eq_true fun heq => hmark (heq ▸ hchar)

theorem resolve_of_unmarked (hunmarked : Unmarked reference) (directory : List (List Char)) :
    resolve directory reference =
      ⟨pushSegments directory (reference.splitOnP isSeparator), none, none⟩ := by
  rw [resolve, strip_eq_self fun char hchar => (hunmarked char hchar).2.2,
    cut_of_notMem fun hmem => (hunmarked '#' hmem).1 rfl]
  dsimp only
  rw [cut_of_notMem fun hmem => (hunmarked '?' hmem).2.1 rfl]

/-- A reference is read as it is written, without query and fragment, exactly
when it has no fragment mark and its parts are literal. -/
theorem resolve_literal_iff (hmarks : ∀ char ∈ reference, char ≠ '?' ∧ 0x20 < char.toNat) :
    ((resolve directory reference).literal =
        directory.map percentDecode ++ (reference.splitOnP isSeparator).map utf8 ∧
      (resolve directory reference).query = none ∧
      (resolve directory reference).fragment = none) ↔
    '#' ∉ reference ∧ ∀ part ∈ reference.splitOnP isSeparator, IsLiteral part := by
  by_cases hmark : '#' ∈ reference
  · apply iff_of_false
    · intro ⟨_, _, hfragment⟩
      have hsome : (resolve directory reference).fragment =
          (cut '#' (strip reference)).2 := rfl
      rw [hsome, strip_eq_self fun char hchar => (hmarks char hchar).2, cut, if_pos hmark]
        at hfragment
      cases hfragment
    · exact fun h => h.1 hmark
  · have hunmarked : Unmarked reference := fun char hchar =>
      ⟨fun heq => hmark (heq ▸ hchar), hmarks char hchar⟩
    rw [resolve_of_unmarked hunmarked, literal]
    constructor
    · intro ⟨hsegments, _, _⟩
      have hlength : directory.length ≤ (directory.map percentDecode).length := by
        rw [List.length_map]
      exact ⟨hmark, (literal_of_map_pushSegments hlength hsegments).2⟩
    · exact fun ⟨_, hparts⟩ => ⟨map_pushSegments hparts directory, rfl, rfl⟩

end Literal

end Url
