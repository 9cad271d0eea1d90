import Mathlib
import Std.Data.String.ToInt
import Patchwright.Library.Json

/-!
# Compact texts

The compact text of a value determines the value, as long as the value has no
number that is kept as a text.  What follows a text does not matter either, if
it is nothing or begins with a sign that separates values.
-/

namespace Json

/-! ### Characters of a literal -/

section Literals

/-- The value of a lowercase hexadecimal digit. -/
def hexValue (char : Char) : Nat :=
  if char.toNat < 58 then char.toNat - 48 else char.toNat - 87

/-- Read one character of a literal back. -/
def unescapeChar : List Char → Option (Char × List Char)
  | [] => none
  | char :: rest =>
      if char = '"' then none
      else if char ≠ '\\' then some (char, rest)
      else match rest with
        | [] => none
        | code :: rest =>
            if code = '"' then some ('"', rest)
            else if code = '\\' then some ('\\', rest)
            else if code = 'b' then some ('\x08', rest)
            else if code = 'f' then some ('\x0c', rest)
            else if code = 'n' then some ('\n', rest)
            else if code = 'r' then some ('\r', rest)
            else if code = 't' then some ('\t', rest)
            else match rest with
              | _ :: _ :: high :: low :: rest =>
                  some (Char.ofNat (16 * hexValue high + hexValue low), rest)
              | _ => none

theorem hexValue_hexDigit : ∀ digit < 16, hexValue (hexDigit digit) = digit := by
  decide

theorem unescapeChar_escapeChar (char : Char) (rest : List Char) :
    unescapeChar (escapeChar char ++ rest) = some (char, rest) := by
  unfold escapeChar
  split_ifs with hquote hslash hback hfeed hline hreturn htab hcontrol
  · rw [hquote]
    rfl
  · rw [hslash]
    rfl
  · rw [hback]
    rfl
  · rw [hfeed]
    rfl
  · rw [hline]
    rfl
  · rw [hreturn]
    rfl
  · rw [htab]
    rfl
  · have hhigh := hexValue_hexDigit (char.toNat / 16) (by omega)
    have hlow := hexValue_hexDigit (char.toNat % 16) (by omega)
    have hcode : 16 * hexValue (hexDigit (char.toNat / 16)) +
        hexValue (hexDigit (char.toNat % 16)) = char.toNat := by
      rw [hhigh, hlow, Nat.div_add_mod]
    calc unescapeChar (['\\', 'u', '0', '0', hexDigit (char.toNat / 16),
            hexDigit (char.toNat % 16)] ++ rest)
        = some (Char.ofNat (16 * hexValue (hexDigit (char.toNat / 16)) +
            hexValue (hexDigit (char.toNat % 16))), rest) := rfl
      _ = some (char, rest) := by rw [hcode, Char.ofNat_toNat]
  · rw [List.singleton_append]
    simp only [unescapeChar, if_neg hquote, if_pos hslash, ne_eq]

/-- A literal is determined, and so is what follows it. -/
theorem escape_append_inj {first second rest more : List Char}
    (htexts : first.flatMap escapeChar ++ '"' :: rest = second.flatMap escapeChar ++ '"' :: more) :
    first = second ∧ rest = more := by
  induction first generalizing second with
  | nil =>
      cases second with
      | nil => exact ⟨rfl, (List.cons.inj htexts).2⟩
      | cons char second =>
          have hread := congrArg unescapeChar htexts
          rw [List.flatMap_cons, List.append_assoc, unescapeChar_escapeChar] at hread
          cases hread
  | cons char first ih =>
      cases second with
      | nil =>
          have hread := congrArg unescapeChar htexts
          rw [List.flatMap_cons, List.append_assoc, unescapeChar_escapeChar] at hread
          cases hread
      | cons other second =>
          have hread := congrArg unescapeChar htexts
          rw [List.flatMap_cons, List.append_assoc, unescapeChar_escapeChar, List.flatMap_cons,
            List.append_assoc, unescapeChar_escapeChar, Option.some.injEq, Prod.mk.injEq] at hread
          obtain ⟨rfl, hrest⟩ := hread
          obtain ⟨rfl, hmore⟩ := ih hrest
          exact ⟨rfl, hmore⟩

theorem toList_quote (text : String) :
    (quote text).toList = '"' :: (text.toList.flatMap escapeChar ++ ['"']) := by
  simp only [quote, String.toList_append, String.toList_ofList]
  rfl

theorem quote_append_inj {first second : String} {rest more : List Char}
    (htexts : (quote first).toList ++ rest = (quote second).toList ++ more) :
    first = second ∧ rest = more := by
  rw [toList_quote, toList_quote, List.cons_append, List.cons_append, List.append_assoc,
    List.append_assoc] at htexts
  obtain ⟨hlist, hrest⟩ := escape_append_inj (List.cons.inj htexts).2
  exact ⟨String.toList_injective hlist, hrest⟩

end Literals

/-! ### Numbers -/

section Numbers

/-- A sign that stands between two values or after the last one. -/
def separators : List Char := [',', ']', '\x7d']

/-- What may follow a value in a compact text. -/
def Ends (rest : List Char) : Prop := ∀ char ∈ rest.head?, char ∈ separators

theorem ends_nil : Ends [] := fun _ hchar => absurd hchar (Option.not_mem_none _)

theorem ends_cons {char : Char} (hchar : char ∈ separators) (rest : List Char) :
    Ends (char :: rest) := by
  rintro _ ⟨⟩
  exact hchar

def isNumeric (char : Char) : Bool := char.isDigit || char = '-'

theorem separator_not_numeric : ∀ char ∈ separators, isNumeric char = false := by
  simp only [separators, List.forall_mem_cons]
  exact ⟨rfl, rfl, rfl, List.forall_mem_nil _⟩

theorem nat_isNumeric (number : Nat) : ∀ char ∈ number.repr.toList, isNumeric char = true := by
  intro char hchar
  rw [Nat.toList_repr] at hchar
  have hdigit : char.isDigit := Nat.isDigit_of_mem_toDigits (by decide) (by decide) hchar
  rw [isNumeric, hdigit, Bool.true_or]

theorem int_isNumeric (value : Int) : ∀ char ∈ (toString value).toList, isNumeric char = true := by
  rw [Int.toString_eq_repr, Int.repr_eq_if]
  split
  · exact nat_isNumeric value.toNat
  · intro char hchar
    rw [String.toList_append, List.mem_append] at hchar
    rcases hchar with hsign | hdigit
    · rw [List.mem_singleton.mp hsign]
      decide
    · exact nat_isNumeric (-value).toNat char hdigit

theorem takeWhile_numeric {rest : List Char} (value : Int) (hrest : Ends rest) :
    ((toString value).toList ++ rest).takeWhile isNumeric = (toString value).toList := by
  have hstop : rest.takeWhile isNumeric = [] := by
    cases rest with
    | nil => rfl
    | cons char rest =>
        have hother := separator_not_numeric char (hrest char rfl)
        rw [List.takeWhile_cons_of_neg (by rw [hother]; exact Bool.false_ne_true)]
  rw [List.takeWhile_append_of_pos (int_isNumeric value), hstop, List.append_nil]

theorem int_append_inj {first second : Int} {rest more : List Char} (hrest : Ends rest)
    (hmore : Ends more)
    (htexts : (toString first).toList ++ rest = (toString second).toList ++ more) :
    first = second ∧ rest = more := by
  have hnumbers := congrArg (List.takeWhile isNumeric) htexts
  rw [takeWhile_numeric first hrest, takeWhile_numeric second hmore] at hnumbers
  have hvalue : first = second := Int.repr_injective (String.toList_injective hnumbers)
  subst hvalue
  exact ⟨rfl, List.append_cancel_left htexts⟩

end Numbers

/-! ### Values -/

section Values

mutual

/-- The value has no number that is kept as a text. -/
def IsPlain : Json → Prop
  | float _ => False
  | arr items => ItemsPlain items
  | obj fields => FieldsPlain fields
  | _ => True

def ItemsPlain : List Json → Prop
  | [] => True
  | item :: items => item.IsPlain ∧ ItemsPlain items

def FieldsPlain : List (String × Json) → Prop
  | [] => True
  | (_, value) :: fields => value.IsPlain ∧ FieldsPlain fields

end

theorem isPlain_arr {items : List Json} : (arr items).IsPlain ↔ ∀ item ∈ items, item.IsPlain := by
  rw [IsPlain]
  induction items with
  | nil => exact iff_of_true trivial fun _ hitem => absurd hitem List.not_mem_nil
  | cons item items ih => rw [ItemsPlain, ih, List.forall_mem_cons]

theorem isPlain_obj {fields : List (String × Json)} :
    (obj fields).IsPlain ↔ ∀ field ∈ fields, field.2.IsPlain := by
  rw [IsPlain]
  induction fields with
  | nil => exact iff_of_true trivial fun _ hfield => absurd hfield List.not_mem_nil
  | cons field fields ih => rw [FieldsPlain, ih, List.forall_mem_cons]

/-- What the first letter of a compact text tells about the value. -/
inductive Shape where
  | null
  | bool (value : Bool)
  | int
  | str
  | arr
  | obj
  deriving DecidableEq

def shape? : Json → Option Shape
  | null => some .null
  | bool value => some (.bool value)
  | int _ => some .int
  | float _ => none
  | str _ => some .str
  | arr _ => some .arr
  | obj _ => some .obj

def leadingShape (char : Char) : Option Shape :=
  if char = 'n' then some .null
  else if char = 't' then some (.bool true)
  else if char = 'f' then some (.bool false)
  else if char = '"' then some .str
  else if char = '[' then some .arr
  else if char = '\x7b' then some .obj
  else if isNumeric char then some .int
  else none

theorem leadingShape_numeric {char : Char} (hnumeric : isNumeric char = true) :
    leadingShape char = some .int := by
  unfold leadingShape
  split_ifs with hn ht hf hquote hitems hfields
  · exact absurd (hn ▸ hnumeric) (by decide)
  · exact absurd (ht ▸ hnumeric) (by decide)
  · exact absurd (hf ▸ hnumeric) (by decide)
  · exact absurd (hquote ▸ hnumeric) (by decide)
  · exact absurd (hitems ▸ hnumeric) (by decide)
  · exact absurd (hfields ▸ hnumeric) (by decide)
  · rfl

theorem toList_int_ne_nil (value : Int) : (toString value).toList ≠ [] := by
  rw [Int.toString_eq_repr, Int.repr_eq_if]
  split
  · rw [Nat.toList_repr]
    exact Nat.toDigits_ne_nil
  · rw [String.toList_append]
    exact List.cons_ne_nil _ _

theorem toList_arr (items : List Json) :
    (arr items).compact.toList = '[' :: ((compactItems items).toList ++ [']']) := by
  rw [compact, String.toList_append, String.toList_append]
  rfl

theorem toList_obj (fields : List (String × Json)) :
    (obj fields).compact.toList = '\x7b' :: ((compactFields fields).toList ++ ['\x7d']) := by
  rw [compact, String.toList_append, String.toList_append]
  rfl

theorem compact_head {value : Json} (hplain : value.IsPlain) :
    ∃ char tail, value.compact.toList = char :: tail ∧ leadingShape char = value.shape? := by
  cases value with
  | null => exact ⟨_, _, rfl, rfl⟩
  | bool value =>
      cases value with
      | false => exact ⟨_, _, rfl, rfl⟩
      | true => exact ⟨_, _, rfl, rfl⟩
  | int value =>
      obtain ⟨char, tail, htext⟩ := List.exists_cons_of_ne_nil (toList_int_ne_nil value)
      have hnumeric := int_isNumeric value char (htext ▸ List.mem_cons_self)
      exact ⟨char, tail, htext, leadingShape_numeric hnumeric⟩
  | float text => exact hplain.elim
  | str value => exact ⟨_, _, toList_quote value, rfl⟩
  | arr items => exact ⟨_, _, toList_arr items, rfl⟩
  | obj fields => exact ⟨_, _, toList_obj fields, rfl⟩

theorem shape_eq {first second : Json} {rest more : List Char} (hfirst : first.IsPlain)
    (hsecond : second.IsPlain)
    (htexts : first.compact.toList ++ rest = second.compact.toList ++ more) :
    first.shape? = second.shape? := by
  obtain ⟨char, tail, htext, hshape⟩ := compact_head hfirst
  obtain ⟨other, others, hother, hsame⟩ := compact_head hsecond
  rw [htext, hother, List.cons_append, List.cons_append, List.cons.injEq] at htexts
  rw [← hshape, htexts.1, hsame]

/-! ### Items between separators -/

variable {α : Type*} {write : α → List Char} {close : Char}

/-- Texts with commas between them. -/
def separated (write : α → List Char) : List α → List Char
  | [] => []
  | [entry] => write entry
  | entry :: next :: entries => write entry ++ ',' :: separated write (next :: entries)

/-- The entries are determined by their texts, whatever follows. -/
def Readable (write : α → List Char) (first second : List α) : Prop :=
  ∀ entry ∈ first, ∀ other ∈ second, ∀ rest more, Ends rest → Ends more →
    write entry ++ rest = write other ++ more → entry = other ∧ rest = more

theorem separated_cons (entry : α) (entries : List α) (rest : List Char) (hrest : Ends rest) :
    ∃ tail, separated write (entry :: entries) ++ rest = write entry ++ tail ∧ Ends tail ∧
      (entries = [] → tail = rest) ∧
      (entries ≠ [] → tail = ',' :: (separated write entries ++ rest)) := by
  cases entries with
  | nil => exact ⟨rest, rfl, hrest, fun _ => rfl, fun hne => absurd rfl hne⟩
  | cons next entries =>
      refine ⟨',' :: (separated write (next :: entries) ++ rest), ?_,
        ends_cons List.mem_cons_self _, fun hnil => absurd hnil (List.cons_ne_nil _ _), fun _ => rfl⟩
      rw [separated, List.append_assoc, List.cons_append]

/-- No text of an entry begins with the closing sign. -/
def Avoids (write : α → List Char) (close : Char) (entries : List α) : Prop :=
  ∀ entry ∈ entries, ∀ tail rest, write entry ++ tail ≠ close :: rest

theorem separated_append_inj (hclose : close ∈ separators) (hcomma : close ≠ ',')
    {first second : List α} {rest more : List Char} (hread : Readable write first second)
    (hfirst : Avoids write close first) (hsecond : Avoids write close second)
    (htexts : separated write first ++ close :: rest = separated write second ++ close :: more) :
    first = second ∧ rest = more := by
  have hrest : Ends (close :: rest) := ends_cons hclose rest
  have hmore : Ends (close :: more) := ends_cons hclose more
  induction first generalizing second with
  | nil =>
      cases second with
      | nil => exact ⟨rfl, (List.cons.inj htexts).2⟩
      | cons other others =>
          obtain ⟨tail, htail, -⟩ := separated_cons other others (close :: more) hmore
          rw [htail] at htexts
          exact absurd htexts.symm (hsecond other List.mem_cons_self tail rest)
  | cons entry entries ih =>
      obtain ⟨tail, htail, hends, hlast, hnext⟩ :=
        separated_cons entry entries (close :: rest) hrest
      rw [htail] at htexts
      cases second with
      | nil => exact absurd htexts (hfirst entry List.mem_cons_self tail more)
      | cons other others =>
          obtain ⟨after, hafter, hstops, hfinal, hfurther⟩ :=
            separated_cons other others (close :: more) hmore
          rw [hafter] at htexts
          obtain ⟨rfl, hsame⟩ := hread entry List.mem_cons_self other List.mem_cons_self tail after
            hends hstops htexts
          by_cases hnil : entries = []
          · by_cases hempty : others = []
            · rw [hlast hnil, hfinal hempty] at hsame
              exact ⟨by rw [hnil, hempty], (List.cons.inj hsame).2⟩
            · rw [hlast hnil, hfurther hempty] at hsame
              exact absurd (List.cons.inj hsame).1 hcomma
          · by_cases hempty : others = []
            · rw [hnext hnil, hfinal hempty] at hsame
              exact absurd (List.cons.inj hsame).1.symm hcomma
            · rw [hnext hnil, hfurther hempty] at hsame
              have hinner : Readable write entries others := fun value hvalue same hmem =>
                hread value (List.mem_cons_of_mem _ hvalue) same (List.mem_cons_of_mem _ hmem)
              obtain ⟨rfl, hend⟩ := ih hinner
                (fun value hvalue => hfirst value (List.mem_cons_of_mem _ hvalue))
                (fun value hvalue => hsecond value (List.mem_cons_of_mem _ hvalue))
                (List.cons.inj hsame).2
              exact ⟨rfl, hend⟩

theorem toList_compactItems (items : List Json) :
    (compactItems items).toList = separated (fun item => item.compact.toList) items := by
  induction items with
  | nil => rfl
  | cons item items ih =>
      cases items with
      | nil => rfl
      | cons next items =>
          rw [compactItems, String.toList_append, String.toList_append, ih, separated,
            List.append_assoc]
          rfl

/-- The text of a field of an object. -/
def fieldText (field : String × Json) : List Char :=
  (quote field.1).toList ++ ':' :: field.2.compact.toList

theorem toList_compactFields (fields : List (String × Json)) :
    (compactFields fields).toList = separated fieldText fields := by
  induction fields with
  | nil => rfl
  | cons field fields ih =>
      cases fields with
      | nil =>
          rw [compactFields, String.toList_append, String.toList_append, separated, fieldText,
            List.append_assoc]
          rfl
      | cons next fields =>
          rw [compactFields]
          simp only [String.toList_append, ih, separated, fieldText, List.append_assoc]
          rfl

/-! ### The text of a value -/

theorem compact_avoids {items : List Json} (hplain : ∀ item ∈ items, item.IsPlain) :
    Avoids (fun item => item.compact.toList) ']' items := by
  intro item hitem tail rest htext
  obtain ⟨char, letters, hletters, hshape⟩ := compact_head (hplain item hitem)
  dsimp only at htext
  rw [hletters, List.cons_append, List.cons.injEq] at htext
  have hnone : leadingShape ']' = none := by decide
  rw [htext.1, hnone] at hshape
  have hitem := hplain item hitem
  cases item with
  | float text => exact hitem
  | null => cases hshape
  | bool value => cases hshape
  | int value => cases hshape
  | str value => cases hshape
  | arr items => cases hshape
  | obj fields => cases hshape

theorem fieldText_avoids (fields : List (String × Json)) : Avoids fieldText '\x7d' fields := by
  intro field _ tail rest htext
  rw [fieldText, toList_quote, List.cons_append, List.cons_append, List.cons.injEq] at htext
  exact absurd htext.1 (by decide)

/-- The values of one shape that are not determined by their shape. -/
theorem of_shape (value : Json) (hplain : value.IsPlain) :
    match value.shape? with
    | some .null => value = null
    | some (.bool flag) => value = bool flag
    | some .int => ∃ number, value = int number
    | some .str => ∃ text, value = str text
    | some .arr => ∃ items, value = arr items
    | some .obj => ∃ fields, value = obj fields
    | none => False := by
  cases value with
  | null => rfl
  | bool flag => rfl
  | int number => exact ⟨number, rfl⟩
  | float text => exact hplain.elim
  | str text => exact ⟨text, rfl⟩
  | arr items => exact ⟨items, rfl⟩
  | obj fields => exact ⟨fields, rfl⟩

theorem compact_append_inj (first : Json) {second : Json} {rest more : List Char}
    (hfirst : first.IsPlain) (hsecond : second.IsPlain) (hrest : Ends rest) (hmore : Ends more)
    (htexts : first.compact.toList ++ rest = second.compact.toList ++ more) :
    first = second ∧ rest = more := by
  have hshape := of_shape second hsecond
  rw [← shape_eq hfirst hsecond htexts] at hshape
  match first with
  | null =>
      cases hshape
      exact ⟨rfl, List.append_cancel_left htexts⟩
  | bool flag =>
      cases hshape
      exact ⟨rfl, List.append_cancel_left htexts⟩
  | int number =>
      obtain ⟨other, rfl⟩ := hshape
      obtain ⟨rfl, hsame⟩ := int_append_inj hrest hmore htexts
      exact ⟨rfl, hsame⟩
  | float text => exact hfirst.elim
  | str text =>
      obtain ⟨other, rfl⟩ := hshape
      obtain ⟨rfl, hsame⟩ := quote_append_inj htexts
      exact ⟨rfl, hsame⟩
  | arr items =>
      obtain ⟨others, rfl⟩ := hshape
      rw [isPlain_arr] at hfirst hsecond
      rw [toList_arr, toList_arr, List.cons_append, List.cons_append, List.cons.injEq,
        List.append_assoc, List.append_assoc, toList_compactItems, toList_compactItems] at htexts
      have hread : Readable (fun item => item.compact.toList) items others :=
        fun item hitem other hother _ _ hends hstops hsame =>
          compact_append_inj item (hfirst item hitem) (hsecond other hother) hends hstops hsame
      obtain ⟨rfl, hsame⟩ := separated_append_inj (by decide) (by decide) hread
        (compact_avoids hfirst) (compact_avoids hsecond) htexts.2
      exact ⟨rfl, hsame⟩
  | obj fields =>
      obtain ⟨others, rfl⟩ := hshape
      rw [isPlain_obj] at hfirst hsecond
      rw [toList_obj, toList_obj, List.cons_append, List.cons_append, List.cons.injEq,
        List.append_assoc, List.append_assoc, toList_compactFields, toList_compactFields] at htexts
      have hread : Readable fieldText fields others := by
        rintro ⟨name, value⟩ hfield ⟨title, other⟩ hother tail after hends hstops hsame
        rw [fieldText, fieldText, List.append_assoc, List.append_assoc] at hsame
        obtain ⟨rfl, hvalues⟩ := quote_append_inj hsame
        rw [List.cons_append, List.cons_append, List.cons.injEq] at hvalues
        obtain ⟨rfl, hends⟩ := compact_append_inj value (hfirst _ hfield) (hsecond _ hother) hends
          hstops hvalues.2
        exact ⟨rfl, hends⟩
      obtain ⟨rfl, hsame⟩ := separated_append_inj (by decide) (by decide) hread
        (fieldText_avoids fields) (fieldText_avoids others) htexts.2
      exact ⟨rfl, hsame⟩
termination_by sizeOf first
decreasing_by
  · have hlt := List.sizeOf_lt_of_mem hitem
    rw [arr.sizeOf_spec]
    omega
  · have hlt := List.sizeOf_lt_of_mem hfield
    rw [Prod.mk.sizeOf_spec] at hlt
    rw [obj.sizeOf_spec]
    omega

/-- A plain value is determined by its compact text. -/
theorem compact_inj {first second : Json} (hfirst : first.IsPlain) (hsecond : second.IsPlain) :
    first.compact = second.compact ↔ first = second := by
  constructor
  · intro htexts
    refine (compact_append_inj first hfirst hsecond ends_nil ends_nil ?_).1
    rw [htexts]
  · intro hsame
    rw [hsame]

end Values

end Json
