import Mathlib
import Patchwright.Core.Text

/-!
# Link headers

The header that names the next page of a list is cut at its commas, and the
first part that is a target, a semicolon and the relation `next` gives the
link.  A link value may be written in other ways: its parameters come in any
order, bare or quoted, and its target and quoted texts may hold commas and
semicolons.  The next link is found exactly where the first value with that
relation is written as the reading expects and nothing before it looks like it.
-/

namespace Patchwright

/-! ## Reading -/

def trimStartMatches (value : String) (char : Char) : String :=
  String.ofList (value.toList.dropWhile (· = char))

def trimEndMatches (value : String) (char : Char) : String :=
  String.ofList ((value.toList.reverse.dropWhile (· = char)).reverse)

/-- The target of a part, without its brackets. -/
def linkTarget (url : String) : String :=
  trimEndMatches (trimStartMatches (trim url) '<') '>'

/-- The link of a part of the header, if it is one to the next page. -/
def partLink (part : String) : Option String := do
  let (url, relation) ← splitOnce (trim part) ';'
  if trim relation = "rel=\"next\"" then some (linkTarget url) else none

def nextLink (header : String) : Option String :=
  ((header.toList.splitOn ',').map String.ofList).findSome? partLink

/-! ## Trimming and splitting -/

section Trimming

variable {space before core after text target relation : List Char}

/-- Only whitespace. -/
def IsBlank (space : List Char) : Prop := ∀ char ∈ space, isWhitespace char = true

theorem trim_blank_left (hspace : IsBlank space) :
    trim (String.ofList (space ++ text)) = trim (String.ofList text) := by
  rw [trim, trim, String.toList_ofList, String.toList_ofList,
    List.dropWhile_append_of_pos hspace]

theorem trim_blank_right (hspace : IsBlank space) :
    trim (String.ofList (text ++ space)) = trim (String.ofList text) := by
  have hreverse : ∀ char ∈ space.reverse, isWhitespace char = true :=
    fun char hchar => hspace char (List.mem_reverse.mp hchar)
  rw [trim, trim, String.toList_ofList, String.toList_ofList, List.dropWhile_append]
  split
  next hempty =>
    have hnone : text.dropWhile isWhitespace = [] := by simpa using hempty
    have hblank : space.dropWhile isWhitespace = [] := by
      rw [List.dropWhile_eq_nil_iff]
      exact hspace
    rw [hnone, hblank]
  next => rw [List.reverse_append, List.dropWhile_append_of_pos hreverse]

/-- A text is what trimming leaves of it between whitespace. -/
theorem exists_trim (text : List Char) : ∃ before after, IsBlank before ∧ IsBlank after ∧
    text = before ++ (trim (String.ofList text)).toList ++ after := by
  refine ⟨text.takeWhile isWhitespace,
    ((text.dropWhile isWhitespace).reverse.takeWhile isWhitespace).reverse, ?_, ?_, ?_⟩
  · exact fun char hchar => List.mem_takeWhile_imp hchar
  · exact fun char hchar => List.mem_takeWhile_imp (List.mem_reverse.mp hchar)
  · rw [trim, String.toList_ofList, String.toList_ofList, List.append_assoc, ← List.reverse_append,
      List.takeWhile_append_dropWhile, List.reverse_reverse, List.takeWhile_append_dropWhile]

/-- What is no whitespace survives the trimming. -/
theorem mem_trim {char : Char} (hchar : char ∈ text) (hword : isWhitespace char = false) :
    char ∈ (trim (String.ofList text)).toList := by
  obtain ⟨before, after, hbefore, hafter, htext⟩ := exists_trim text
  rw [htext, List.mem_append, List.mem_append] at hchar
  rcases hchar with (hchar | hchar) | hchar
  · cases (hbefore char hchar).symm.trans hword
  · exact hchar
  · cases (hafter char hchar).symm.trans hword

theorem splitOnce_eq_some {sep : Char} {first second : String} :
    splitOnce (String.ofList text) sep = some (first, second) ↔
      sep ∉ first.toList ∧ text = first.toList ++ sep :: second.toList := by
  rw [splitOnce, String.toList_ofList]
  constructor
  · intro hsplit
    split at hsplit
    next hmem =>
      obtain ⟨rfl, rfl⟩ := Prod.mk.inj (Option.some.inj hsplit)
      rw [String.toList_ofList, String.toList_ofList]
      refine ⟨fun hfirst => by simpa using List.mem_takeWhile_imp hfirst, ?_⟩
      have hrest : text.dropWhile (· ≠ sep) ≠ [] := fun hnone => by
        simpa using List.dropWhile_eq_nil_iff.mp hnone sep hmem
      have hhead : (text.dropWhile (· ≠ sep)).head hrest = sep := by
        simpa using List.head_dropWhile_not (· ≠ sep) hrest
      calc text = text.takeWhile (· ≠ sep) ++ text.dropWhile (· ≠ sep) :=
            List.takeWhile_append_dropWhile.symm
        _ = _ := by rw [← List.cons_head_tail hrest, hhead, List.drop_one, List.tail_cons]
    next => cases hsplit
  · rintro ⟨hfirst, rfl⟩
    have htake : ∀ char ∈ first.toList, decide (char ≠ sep) = true := fun char hchar =>
      decide_eq_true fun heq => hfirst (heq ▸ hchar)
    rw [if_pos (List.mem_append_right _ List.mem_cons_self),
      List.takeWhile_append_of_pos htake, List.dropWhile_append_of_pos htake,
      List.takeWhile_cons_of_neg (by simp), List.dropWhile_cons_of_neg (by simp), List.append_nil,
      List.drop_one, List.tail_cons, String.ofList_toList, String.ofList_toList]

/-- A text is split at the first occurrence of a letter in one way only. -/
theorem append_sep_inj {sep : Char} {first second first' second' : List Char}
    (hfirst : sep ∉ first) (hfirst' : sep ∉ first')
    (heq : first ++ sep :: second = first' ++ sep :: second') :
    first = first' ∧ second = second' := by
  have hsplit : splitOnce (String.ofList (first ++ sep :: second)) sep =
      some (String.ofList first, String.ofList second) := by
    rw [splitOnce_eq_some, String.toList_ofList, String.toList_ofList]
    exact ⟨hfirst, rfl⟩
  have hsplit' : splitOnce (String.ofList (first ++ sep :: second)) sep =
      some (String.ofList first', String.ofList second') := by
    rw [splitOnce_eq_some, String.toList_ofList, String.toList_ofList]
    exact ⟨hfirst', heq⟩
  obtain ⟨hone, htwo⟩ := Prod.mk.inj (Option.some.inj (hsplit.symm.trans hsplit'))
  exact ⟨String.ofList_injective hone, String.ofList_injective htwo⟩

/-- A part is cut at its first semicolon and its two sides are trimmed. -/
theorem partLink_eq_some {part : List Char} {link : String} :
    partLink (String.ofList part) = some link ↔
      ∃ target relation, ';' ∉ target ∧ part = target ++ ';' :: relation ∧
        trim (String.ofList relation) = "rel=\"next\"" ∧
        linkTarget (String.ofList target) = link := by
  obtain ⟨before, after, hbefore, hafter, hpart⟩ := exists_trim part
  have hblank : ∀ {space : List Char}, IsBlank space → ';' ∉ space :=
    fun hspace hmem => absurd (hspace _ hmem) (by decide)
  rw [partLink, Option.bind_eq_bind, Option.bind_eq_some_iff]
  constructor
  · rintro ⟨⟨url, relation⟩, hsplit, hrelation⟩
    rw [← String.ofList_toList (s := trim _), splitOnce_eq_some] at hsplit
    rw [Option.ite_none_right_eq_some] at hrelation
    refine ⟨before ++ url.toList, relation.toList ++ after, ?_, ?_, ?_, ?_⟩
    · rw [List.mem_append]
      exact fun hmem => hmem.elim (hblank hbefore) hsplit.1
    · rw [hpart, hsplit.2]
      simp only [List.append_assoc, List.cons_append]
    · rw [trim_blank_right hafter, String.ofList_toList]
      exact hrelation.1
    · rw [linkTarget, trim_blank_left hbefore, String.ofList_toList]
      exact Option.some.inj hrelation.2
  · rintro ⟨target, relation, htarget, heq, hrelation, rfl⟩
    have hmem : ';' ∈ (trim (String.ofList part)).toList :=
      mem_trim (heq ▸ List.mem_append_right _ List.mem_cons_self) (by decide)
    obtain ⟨url, rest, htrim, hurl⟩ := List.eq_append_cons_of_mem hmem
    have hbefore' : ';' ∉ before ++ url := by
      rw [List.mem_append]
      exact fun hmem => hmem.elim (hblank hbefore) hurl
    have hsplit : (before ++ url) ++ ';' :: (rest ++ after) = target ++ ';' :: relation := by
      rw [← heq, hpart, htrim]
      simp only [List.append_assoc, List.cons_append]
    obtain ⟨rfl, rfl⟩ := append_sep_inj hbefore' htarget hsplit
    rw [trim_blank_right hafter] at hrelation
    refine ⟨(String.ofList url, String.ofList rest), ?_, ?_⟩
    · rw [← String.ofList_toList (s := trim _), splitOnce_eq_some, String.toList_ofList,
        String.toList_ofList]
      exact ⟨hurl, htrim⟩
    · refine (if_pos hrelation).trans ?_
      rw [linkTarget, linkTarget, trim_blank_left hbefore]

end Trimming

/-! ## Well-formed headers -/

/-- Spaces and tabs. -/
abbrev Blank := { space : List Char // ∀ char ∈ space, char = ' ' ∨ char = '\t' }

def isTokenChar (char : Char) : Bool :=
  char.isAlphanum || "!#$%&'*+-.^_`|~".toList.contains char

abbrev Token := { word : List Char // word ≠ [] ∧ ∀ char ∈ word, isTokenChar char = true }

/-- A character between quotes, behind a backslash or plain. -/
structure QuotedChar where
  escaped : Bool
  char : Char
  plain : escaped = false → char ≠ '"' ∧ char ≠ '\\'

def QuotedChar.text (quoted : QuotedChar) : List Char :=
  if quoted.escaped then ['\\', quoted.char] else [quoted.char]

inductive ParamValue where
  | token (word : Token)
  | quoted (chars : List QuotedChar)

namespace ParamValue

def text : ParamValue → List Char
  | token word => word.1
  | quoted chars => '"' :: (chars.flatMap QuotedChar.text ++ ['"'])

/-- The value that a text stands for. -/
def meaning : ParamValue → List Char
  | token word => word.1
  | quoted chars => chars.map QuotedChar.char

end ParamValue

/-- A parameter with the blanks around its semicolon and its equals sign. -/
structure LinkParam where
  before : Blank
  after : Blank
  name : Token
  value : Option (Blank × Blank × ParamValue)

namespace LinkParam

def text (param : LinkParam) : List Char :=
  match param.value with
  | none => param.name.1
  | some (before, after, value) => param.name.1 ++ (before.1 ++ '=' :: (after.1 ++ value.text))

def render (param : LinkParam) : List Char :=
  param.before.1 ++ ';' :: (param.after.1 ++ param.text)

end LinkParam

/-- A target between angle brackets and its parameters. -/
structure LinkValue where
  before : Blank
  url : List Char
  unbroken : '>' ∉ url
  params : List LinkParam
  after : Blank

namespace LinkValue

def render (value : LinkValue) : List Char :=
  value.before.1 ++ '<' :: (value.url ++ '>' :: (value.params.flatMap LinkParam.render ++
    value.after.1))

/-- The relation that the first parameter of that name gives. -/
def rel (value : LinkValue) : Option (List Char) :=
  (value.params.find? fun param => param.name.1 = "rel".toList).bind fun param =>
    param.value.map fun assigned => assigned.2.2.meaning

def isNext (value : LinkValue) : Bool :=
  value.rel = some "next".toList

end LinkValue

def headerText (values : List LinkValue) : String :=
  String.ofList ([','].intercalate (values.map LinkValue.render))

/-! ## Parts of a header -/

/-- The part of a header is `target; rel="next"`, with this link as target. -/
def Spells (part : List Char) (link : String) : Prop :=
  ∃ target relation, ';' ∉ target ∧ part = target ++ ';' :: relation ∧
    trim (String.ofList relation) = "rel=\"next\"" ∧ linkTarget (String.ofList target) = link

/-- The part does not look like a link to the next page. -/
def NoNextLink (part : List Char) : Prop := ∀ link, ¬ Spells part link

def readPart (part : List Char) : Option String := partLink (String.ofList part)

theorem readPart_eq_some {part : List Char} {link : String} :
    readPart part = some link ↔ Spells part link :=
  partLink_eq_some

theorem readPart_eq_none {part : List Char} : readPart part = none ↔ NoNextLink part := by
  rw [Option.eq_none_iff_forall_ne_some]
  exact forall_congr' fun link => not_congr readPart_eq_some

theorem not_mem_of_mem_splitOn {sep : Char} {text part : List Char}
    (hpart : part ∈ text.splitOn sep) : sep ∉ part := by
  induction text generalizing part with
  | nil =>
      rw [List.splitOn_nil, List.mem_singleton] at hpart
      rw [hpart]
      exact List.not_mem_nil
  | cons char text ih =>
      obtain ⟨first, rest, hsplit⟩ := List.exists_cons_of_ne_nil (List.splitOn_ne_nil sep text)
      rw [hsplit] at ih
      rw [List.splitOn_cons_eq_if_modifyHead, hsplit] at hpart
      split at hpart
      next =>
        rcases List.mem_cons.mp hpart with rfl | hpart
        · exact List.not_mem_nil
        · exact ih hpart
      next hne =>
        rcases List.mem_cons.mp hpart with rfl | hpart
        · rw [List.mem_cons]
          rintro (rfl | hmem)
          · exact hne (beq_self_eq_true _)
          · exact ih List.mem_cons_self hmem
        · exact ih (List.mem_cons_of_mem _ hpart)

theorem linkTarget_within (url : String) : (linkTarget url).toList <:+: url.toList := by
  have hstart : (trimStartMatches (trim url) '<').toList <:+: (trim url).toList := by
    rw [trimStartMatches, String.toList_ofList]
    exact (List.dropWhile_suffix _).isInfix
  have hend : (linkTarget url).toList <:+: (trimStartMatches (trim url) '<').toList := by
    rw [linkTarget, trimEndMatches, String.toList_ofList]
    have hprefix := List.reverse_prefix.mpr (List.dropWhile_suffix
      (l := (trimStartMatches (trim url) '<').toList.reverse) (· = '>'))
    rw [List.reverse_reverse] at hprefix
    exact hprefix.isInfix
  exact hend.trans (hstart.trans (trim_within url))

theorem linkTarget_head (url : String) : (linkTarget url).toList.head? ≠ some '<' := by
  intro hhead
  have hprefix : (linkTarget url).toList <+: (trim url).toList.dropWhile (· = '<') := by
    have hsuffix := List.reverse_prefix.mpr (List.dropWhile_suffix
      (l := ((trim url).toList.dropWhile (· = '<')).reverse) (· = '>'))
    rw [List.reverse_reverse] at hsuffix
    rw [linkTarget, trimEndMatches, String.toList_ofList, trimStartMatches, String.toList_ofList]
    exact hsuffix
  obtain ⟨rest, hrest⟩ := hprefix
  refine head?_dropWhile_not (· = '<') (trim url).toList '<' ?_ (decide_eq_true rfl)
  rw [← hrest, List.head?_append, hhead, Option.some_or]
  exact Option.mem_some_self _

/-- A link that a part spells has no comma, and no bracket in front. -/
theorem Spells.clean {part : List Char} {link : String} (hspells : Spells part link)
    (hpart : ',' ∉ part) : ',' ∉ link.toList ∧ link.toList.head? ≠ some '<' := by
  obtain ⟨target, relation, -, rfl, -, rfl⟩ := hspells
  refine ⟨fun hmem => hpart (List.mem_append_left _ ?_), linkTarget_head _⟩
  simpa using (linkTarget_within (String.ofList target)).subset hmem

namespace LinkValue

def parts (value : LinkValue) : List (List Char) := value.render.splitOn ','

/-- The part that begins the value. -/
def firstPart (value : LinkValue) : List Char := value.render.takeWhile (· ≠ ',')

def restParts (value : LinkValue) : List (List Char) := value.parts.tail

theorem parts_eq (value : LinkValue) : value.parts = value.firstPart :: value.restParts := by
  rw [restParts, parts, firstPart]
  by_cases hmem : ',' ∈ value.render
  · obtain ⟨first, rest, hrender, hfirst⟩ := List.eq_append_cons_of_mem hmem
    have htake : ∀ char ∈ first, decide (char ≠ ',') = true := fun char hchar =>
      decide_eq_true fun heq => hfirst (heq ▸ hchar)
    rw [hrender, List.splitOn_append_cons_self_of_not_mem hfirst,
      List.takeWhile_append_of_pos htake, List.takeWhile_cons_of_neg (by simp), List.append_nil,
      List.tail_cons]
  · have htake : value.render.takeWhile (· ≠ ',') = value.render :=
      List.takeWhile_eq_self_iff.mpr fun char hchar =>
        decide_eq_true fun heq => hmem (heq ▸ hchar)
    rw [List.splitOn_eq_singleton hmem, htake, List.tail_cons]

end LinkValue

theorem nextLink_eq (header : String) :
    nextLink header = (header.toList.splitOn ',').findSome? readPart := by
  rw [nextLink, List.findSome?_map]
  rfl

/-- The parts of a header are those of its values. -/
theorem nextLink_headerText (values : List LinkValue) :
    nextLink (headerText values) = (values.flatMap LinkValue.parts).findSome? readPart := by
  induction values with
  | nil => decide
  | cons value values ih =>
      rw [nextLink_eq, headerText, String.toList_ofList] at ih ⊢
      rw [List.flatMap_cons, List.findSome?_append, ← ih]
      cases values with
      | nil =>
          have hnone : ([] : List Char).splitOn ',' = [[]] := List.splitOn_nil _
          have hread : readPart [] = none := by decide
          rw [List.map_cons, List.map_nil, List.intercalate_singleton, List.intercalate_nil, hnone,
            List.findSome?_cons, hread, List.findSome?_nil, Option.or_none]
          rfl
      | cons other values =>
          rw [List.map_cons, List.map_cons, List.intercalate_cons_cons, List.append_assoc,
            List.singleton_append, List.splitOn_append_cons_self, List.findSome?_append]
          rfl

/-! ## The part that begins a value -/

section FirstPart

theorem isTokenChar_spec {char : Char} (htoken : isTokenChar char = true) :
    isWhitespace char = false ∧ char ≠ ',' ∧ char ≠ ';' ∧ char ≠ '"' := by
  refine ⟨?_, ?_, ?_, ?_⟩
  · have hmarks : ("!#$%&'*+-.^_`|~".toList.all fun mark => !isWhitespace mark) = true := by
      decide
    rw [isTokenChar, Bool.or_eq_true, List.contains_iff_mem] at htoken
    rcases htoken with halnum | hmark
    · rw [Char.isAlphanum, Char.isAlpha, Char.isUpper, Char.isLower, Char.isDigit] at halnum
      have hcode : char.val.toNat = char.toNat := rfl
      simp [UInt32.le_iff_toNat_le, hcode] at halnum
      simp [isWhitespace]
      omega
    · exact Bool.not_eq_true' _ |>.mp (List.all_eq_true.mp hmarks char hmark)
  all_goals
    rintro rfl
    exact absurd htoken (by decide)

theorem Blank.isBlank (space : Blank) : IsBlank space.1 := by
  intro char hchar
  rcases space.2 char hchar with rfl | rfl <;> decide

theorem takeWhile_comma_append {left right : List Char} (hleft : ',' ∉ left) :
    (left ++ right).takeWhile (· ≠ ',') = left ++ right.takeWhile (· ≠ ',') :=
  List.takeWhile_append_of_pos fun _ hchar => decide_eq_true fun heq => hleft (heq ▸ hchar)

theorem takeWhile_comma_of_mem {left right : List Char} (hleft : ',' ∈ left) :
    (left ++ right).takeWhile (· ≠ ',') = left.takeWhile (· ≠ ',') := by
  obtain ⟨first, rest, rfl, hfirst⟩ := List.eq_append_cons_of_mem hleft
  rw [List.append_assoc, List.cons_append, takeWhile_comma_append hfirst,
    takeWhile_comma_append hfirst, List.takeWhile_cons_of_neg (by simp),
    List.takeWhile_cons_of_neg (by simp)]

/-- Between quotes a quotation mark is behind a backslash. -/
theorem backslash_of_quote {chars : List QuotedChar}
    (hquote : '"' ∈ (chars.flatMap QuotedChar.text).takeWhile (· ≠ ',')) :
    '\\' ∈ (chars.flatMap QuotedChar.text).takeWhile (· ≠ ',') := by
  induction chars with
  | nil => exact absurd hquote (by simp)
  | cons quoted chars ih =>
      rw [List.flatMap_cons, QuotedChar.text] at hquote ⊢
      split at hquote
      next hescaped =>
        rw [if_pos hescaped, List.cons_append, List.takeWhile_cons_of_pos (by decide)]
        exact List.mem_cons_self
      next hescaped =>
        rw [if_neg hescaped, List.singleton_append] at *
        rw [List.takeWhile_cons] at hquote ⊢
        split at hquote
        next hcomma =>
          have hplain := quoted.plain (Bool.not_eq_true _ |>.mp hescaped)
          rw [if_pos hcomma]
          rcases List.mem_cons.mp hquote with heq | hquote
          · exact absurd heq.symm hplain.1
          · exact List.mem_cons_of_mem _ (ih hquote)
        next => exact absurd hquote List.not_mem_nil

theorem ParamValue.text_last (value : ParamValue) :
    ∃ last, value.text.getLast? = some last ∧ isWhitespace last = false := by
  cases value with
  | token word =>
      refine ⟨word.1.getLast word.2.1, List.getLast?_eq_some_getLast word.2.1, ?_⟩
      exact (isTokenChar_spec (word.2.2 _ (List.getLast_mem word.2.1))).1
  | quoted chars =>
      refine ⟨'"', ?_, by decide⟩
      rw [text, ← List.cons_append, List.getLast?_append, List.getLast?_singleton, Option.some_or]

namespace LinkParam

theorem render_append (param : LinkParam) (rest : List Char) :
    param.render ++ rest = param.before.1 ++ ';' :: (param.after.1 ++ (param.text ++ rest)) := by
  simp only [render, List.append_assoc, List.cons_append]

theorem text_eq {param : LinkParam} {before after : Blank} {value : ParamValue}
    (hvalue : param.value = some (before, after, value)) :
    param.text = (param.name.1 ++ (before.1 ++ '=' :: after.1)) ++ value.text := by
  rw [text, hvalue]
  simp only [List.append_assoc, List.cons_append]

theorem text_of_none {param : LinkParam} (hvalue : param.value = none) :
    param.text = param.name.1 := by
  rw [text, hvalue]

/-- A parameter has no whitespace at its ends. -/
theorem trim_text (param : LinkParam) :
    trim (String.ofList param.text) = String.ofList param.text := by
  obtain ⟨hname, htoken⟩ := param.name.2
  apply trim_eq_self
  · intro char hchar
    have hhead : char ∈ param.name.1.head? := by
      rw [String.toList_ofList, text] at hchar
      split at hchar
      next => exact hchar
      next =>
        rw [List.head?_append_of_ne_nil _ hname] at hchar
        exact hchar
    rw [Bool.not_eq_true]
    exact (isTokenChar_spec (htoken char (List.mem_of_mem_head? hhead))).1
  · intro char hchar
    rw [Bool.not_eq_true]
    rw [String.toList_ofList] at hchar
    rcases hvalue : param.value with _ | ⟨before, after, value⟩
    · rw [text_of_none hvalue] at hchar
      exact (isTokenChar_spec (htoken char (List.mem_of_mem_getLast? hchar))).1
    · obtain ⟨last, hlast, hword⟩ := value.text_last
      rw [text_eq hvalue, List.getLast?_append, hlast, Option.some_or] at hchar
      cases hchar
      exact hword

/-- What is read up to a comma between quotes is not the relation `next`. -/
theorem no_comma_of_trim {param : LinkParam} {rest : List Char}
    (htrim : trim (String.ofList ((param.text ++ rest).takeWhile (· ≠ ','))) = "rel=\"next\"") :
    ',' ∉ param.text := by
  intro hcomma
  have hname : ∀ char ∈ param.name.1, char ≠ ',' ∧ char ≠ '"' := fun char hchar =>
    have hspec := isTokenChar_spec (param.name.2.2 char hchar)
    ⟨hspec.2.1, hspec.2.2.2⟩
  rcases hvalue : param.value with _ | ⟨before, after, value⟩
  · rw [text_of_none hvalue] at hcomma
    exact (hname ',' hcomma).1 rfl
  have hblank : ∀ space : Blank, ∀ char ∈ space.1, char ≠ ',' ∧ char ≠ '"' := by
    intro space char hchar
    rcases space.2 char hchar with rfl | rfl <;> decide
  have hfront : ∀ char ∈ param.name.1 ++ (before.1 ++ '=' :: after.1), char ≠ ',' ∧ char ≠ '"' := by
    intro char hchar
    rw [List.mem_append, List.mem_append, List.mem_cons] at hchar
    rcases hchar with hchar | hchar | rfl | hchar
    · exact hname char hchar
    · exact hblank before char hchar
    · decide
    · exact hblank after char hchar
  rw [text_eq hvalue] at hcomma htrim
  have hvaluecomma : ',' ∈ value.text := (List.mem_append.mp hcomma).resolve_left fun hmem =>
    (hfront ',' hmem).1 rfl
  cases value with
  | token word => exact (isTokenChar_spec (word.2.2 ',' hvaluecomma)).2.1 rfl
  | quoted chars =>
      -- Only the opening quotation mark stands without a backslash before the comma.
      have hbody : ',' ∈ chars.flatMap QuotedChar.text := by
        simpa [ParamValue.text] using hvaluecomma
      have hread : ((param.name.1 ++ (before.1 ++ '=' :: after.1)) ++
          (ParamValue.quoted chars).text ++ rest).takeWhile (· ≠ ',') =
          (param.name.1 ++ (before.1 ++ '=' :: after.1)) ++
            '"' :: (chars.flatMap QuotedChar.text).takeWhile (· ≠ ',') := by
        rw [takeWhile_comma_of_mem hcomma, takeWhile_comma_append fun hmem => (hfront _ hmem).1 rfl,
          ParamValue.text, List.takeWhile_cons_of_pos (by decide), takeWhile_comma_of_mem hbody]
      rw [hread] at htrim
      obtain ⟨lead, trail, hlead, htrail, htext⟩ := exists_trim
        ((param.name.1 ++ (before.1 ++ '=' :: after.1)) ++
          '"' :: (chars.flatMap QuotedChar.text).takeWhile (· ≠ ','))
      rw [htrim] at htext
      have hnone : ∀ {space : List Char}, IsBlank space → List.count '"' space = 0 :=
        fun hspace => List.count_eq_zero.mpr fun hmem => absurd (hspace _ hmem) (by decide)
      have hzero : List.count '"' (param.name.1 ++ (before.1 ++ '=' :: after.1)) = 0 :=
        List.count_eq_zero.mpr fun hmem => (hfront _ hmem).2 rfl
      have hcount := congrArg (List.count '"') htext
      rw [List.count_append, hzero, List.count_cons_self, List.count_append, List.count_append,
        hnone hlead, hnone htrail] at hcount
      have htwo : List.count '"' "rel=\"next\"".toList = 2 := by decide
      have hquote : '"' ∈ (chars.flatMap QuotedChar.text).takeWhile (· ≠ ',') :=
        List.count_pos_iff.mp (by omega)
      have hbackslash := mem_trim (List.mem_append_right
        (param.name.1 ++ (before.1 ++ '=' :: after.1))
        (List.mem_cons_of_mem '"' (backslash_of_quote hquote))) (by decide)
      rw [htrim] at hbackslash
      exact absurd hbackslash (by decide)

end LinkParam

namespace LinkValue

/-- A value whose target is free of commas, semicolons and an opening bracket
and whose only parameter is spelled as the reading expects. -/
structure IsPlain (value : LinkValue) : Prop where
  no_comma : ',' ∉ value.url
  no_semicolon : ';' ∉ value.url
  no_bracket : value.url.head? ≠ some '<'
  only_rel : value.params.map LinkParam.text = ["rel=\"next\"".toList]

theorem isPlain_of_spells {value : LinkValue} {link : String} (hcomma : ',' ∉ value.url)
    (hhead : value.url.head? ≠ some '<') (hspells : Spells value.firstPart link) :
    value.IsPlain := by
  obtain ⟨target, relation, htarget, hpart, hrelation, -⟩ := hspells
  have hword : ∀ char ∈ relation, isWhitespace char = false → char ∈ "rel=\"next\"".toList :=
    fun char hchar hchar' => hrelation ▸ mem_trim hchar hchar'
  have hblank : ∀ space : Blank, ',' ∉ space.1 ∧ ';' ∉ space.1 := fun space =>
    ⟨fun hmem => absurd (space.isBlank _ hmem) (by decide),
      fun hmem => absurd (space.isBlank _ hmem) (by decide)⟩
  have hfront : ',' ∉ value.before.1 ++ '<' :: value.url := by
    rw [List.mem_append, List.mem_cons]
    rintro (hmem | hmem | hmem)
    exacts [(hblank value.before).1 hmem, absurd hmem (by decide), hcomma hmem]
  have hrender : value.firstPart = (value.before.1 ++ '<' :: value.url) ++
      '>' :: (value.params.flatMap LinkParam.render ++ value.after.1).takeWhile (· ≠ ',') := by
    rw [firstPart, render, ← List.cons_append, ← List.append_assoc, takeWhile_comma_append hfront,
      List.takeWhile_cons_of_pos (by decide)]
  -- The bracket that ends the target is before the semicolon.
  obtain ⟨middle, htarget', hrest⟩ : ∃ middle,
      target = (value.before.1 ++ '<' :: value.url) ++ '>' :: middle ∧
        (value.params.flatMap LinkParam.render ++ value.after.1).takeWhile (· ≠ ',') =
          middle ++ ';' :: relation := by
    rw [hrender] at hpart
    rcases List.append_eq_append_iff.mp hpart with ⟨middle, htarget', hrest⟩ |
      ⟨middle, -, hrest⟩
    · cases middle with
      | nil => exact absurd (List.cons.inj hrest).1 (by decide)
      | cons char middle =>
          obtain ⟨rfl, hrest'⟩ := List.cons.inj hrest
          exact ⟨middle, htarget', hrest'⟩
    · cases middle with
      | nil => exact absurd (List.cons.inj hrest).1 (by decide)
      | cons char middle =>
          have hmem : '>' ∈ relation := (List.cons.inj hrest).2 ▸
            List.mem_append_right _ List.mem_cons_self
          exact absurd (hword _ hmem (by decide)) (by decide)
  rw [htarget', List.mem_append, List.mem_append, List.mem_cons, List.mem_cons] at htarget
  push Not at htarget
  obtain ⟨⟨-, -, hsemicolon⟩, -, hmiddle⟩ := htarget
  refine ⟨hcomma, hsemicolon, hhead, ?_⟩
  rcases hparams : value.params with _ | ⟨param, params⟩
  · rw [hparams, List.flatMap_nil, List.nil_append] at hrest
    have hmem : ';' ∈ value.after.1 := (List.takeWhile_prefix _).subset
      (hrest ▸ List.mem_append_right _ List.mem_cons_self)
    exact absurd hmem (hblank _).2
  · rw [hparams, List.flatMap_cons, List.append_assoc, LinkParam.render_append,
      takeWhile_comma_append (hblank _).1, List.takeWhile_cons_of_pos (by decide),
      takeWhile_comma_append (hblank _).1] at hrest
    obtain ⟨-, hrelation'⟩ := append_sep_inj (hblank _).2 hmiddle hrest
    rw [← hrelation', trim_blank_left (Blank.isBlank _)] at hrelation
    have htext := LinkParam.no_comma_of_trim hrelation
    rw [takeWhile_comma_append htext] at hrelation
    cases params with
    | nil =>
        have hafter : value.after.1.takeWhile (· ≠ ',') = value.after.1 := by
          have htake := @takeWhile_comma_append value.after.1 [] (hblank value.after).1
          rwa [List.append_nil, List.takeWhile_nil, List.append_nil] at htake
        rw [List.flatMap_nil, List.nil_append, hafter, trim_blank_right (Blank.isBlank _),
          param.trim_text] at hrelation
        rw [List.map_cons, List.map_nil, ← String.toList_ofList (l := param.text), hrelation]
    | cons other params =>
        rw [List.flatMap_cons, List.append_assoc, LinkParam.render_append,
          takeWhile_comma_append (hblank _).1, List.takeWhile_cons_of_pos (by decide)] at hrelation
        have hmem : ';' ∈ "rel=\"next\"".toList := hrelation ▸ mem_trim (List.mem_append_right
          param.text (List.mem_append_right other.before.1 List.mem_cons_self)) (by decide)
        exact absurd hmem (by decide)

theorem IsPlain.spells {value : LinkValue} (hplain : value.IsPlain) :
    Spells value.firstPart (String.ofList value.url) := by
  obtain ⟨param, hparams, htext⟩ := List.map_eq_singleton_iff.mp hplain.only_rel
  have hblank : ∀ space : Blank, ',' ∉ space.1 ∧ ';' ∉ space.1 := fun space =>
    ⟨fun hmem => absurd (space.isBlank _ hmem) (by decide),
      fun hmem => absurd (space.isBlank _ hmem) (by decide)⟩
  have hrender : value.render = (value.before.1 ++ ('<' :: (value.url ++ ['>']) ++
      param.before.1)) ++ ';' :: (param.after.1 ++ ("rel=\"next\"".toList ++ value.after.1)) := by
    rw [render, hparams, List.flatMap_cons, List.flatMap_nil, List.append_nil,
      LinkParam.render_append, htext]
    simp only [List.append_assoc, List.cons_append, List.nil_append]
  have hwhole : value.firstPart = value.render := by
    rw [firstPart, hrender, List.takeWhile_eq_self_iff]
    intro char hchar
    refine decide_eq_true fun heq => ?_
    subst heq
    simp only [List.mem_append, List.mem_cons, List.not_mem_nil, or_false] at hchar
    rcases hchar with (hmem | (hmem | hmem | hmem) | hmem) | hmem | hmem | hmem | hmem
    exacts [(hblank _).1 hmem, absurd hmem (by decide), hplain.no_comma hmem,
      absurd hmem (by decide), (hblank _).1 hmem, absurd hmem (by decide), (hblank _).1 hmem,
      absurd hmem (by decide), (hblank _).1 hmem]
  have hturl : linkTarget (String.ofList (value.before.1 ++ ('<' :: (value.url ++ ['>']) ++
      param.before.1))) = String.ofList value.url := by
    have htrim : trim (String.ofList ('<' :: (value.url ++ ['>']))) =
        String.ofList ('<' :: (value.url ++ ['>'])) := by
      apply trim_eq_self
      · rw [String.toList_ofList]
        rintro char ⟨⟩
        decide
      · rw [String.toList_ofList, ← List.cons_append, List.getLast?_append]
        rintro char ⟨⟩
        decide
    have hstart : (value.url ++ ['>']).dropWhile (· = '<') = value.url ++ ['>'] := by
      apply dropWhile_eq_self
      intro char hchar heq
      rw [of_decide_eq_true heq, List.head?_append, Option.mem_def] at hchar
      rcases hurl : value.url with _ | ⟨first, rest⟩
      · rw [hurl] at hchar
        exact absurd hchar (by decide)
      · rw [hurl, List.head?_cons, Option.some_or] at hchar
        exact hplain.no_bracket (hurl ▸ hchar)
    have hend : value.url.reverse.dropWhile (· = '>') = value.url.reverse :=
      dropWhile_eq_self fun char hchar heq => value.unbroken <| List.mem_reverse.mp <|
        of_decide_eq_true heq ▸ List.mem_of_mem_head? hchar
    rw [linkTarget, trim_blank_left (Blank.isBlank _), trim_blank_right (Blank.isBlank _), htrim,
      trimStartMatches, String.toList_ofList, List.dropWhile_cons_of_pos (by decide), hstart,
      trimEndMatches, String.toList_ofList, List.reverse_append, List.reverse_singleton,
      List.singleton_append, List.dropWhile_cons_of_pos (by decide), hend, List.reverse_reverse]
  refine ⟨_, _, ?_, hwhole.trans hrender, ?_, hturl⟩
  · simp only [List.mem_append, List.mem_cons, List.not_mem_nil, or_false]
    rintro (hmem | (hmem | hmem | hmem) | hmem)
    exacts [(hblank _).2 hmem, absurd hmem (by decide), hplain.no_semicolon hmem,
      absurd hmem (by decide), (hblank _).2 hmem]
  · rw [trim_blank_left (Blank.isBlank _), trim_blank_right (Blank.isBlank _)]
    decide

end LinkValue

end FirstPart

/-! ## The next page -/

/-- Among the parts of the header other than the one that begins the value,
the first that looks like a link to the next page spells the value's target. -/
def ReadElsewhere (before : List LinkValue) (value : LinkValue) (after : List LinkValue) : Prop :=
  ∃ front part back,
    before.flatMap LinkValue.parts ++ (value.restParts ++ after.flatMap LinkValue.parts) =
      front ++ part :: back ∧
    Spells part (String.ofList value.url) ∧ ∀ other ∈ front, NoNextLink other

/-- Either no value has the relation `next` and nothing looks like it, or the
first that has it is plainly written with nothing before it that looks like it,
or else its target is read from another place by chance. -/
def FindsNext (values : List LinkValue) : Prop :=
  (∀ value ∈ values, value.isNext = false ∧ ∀ part ∈ value.parts, NoNextLink part) ∨
    ∃ before value after, values = before ++ value :: after ∧
      (∀ other ∈ before, other.isNext = false) ∧ value.isNext = true ∧
      (((∀ other ∈ before, ∀ part ∈ other.parts, NoNextLink part) ∧ value.IsPlain) ∨
        ReadElsewhere before value after)

/-- The parts of a header around the one that begins a value. -/
theorem nextLink_around (before : List LinkValue) (value : LinkValue) (after : List LinkValue) :
    nextLink (headerText (before ++ value :: after)) =
      ((before.flatMap LinkValue.parts).findSome? readPart).or
        ((readPart value.firstPart).or
          ((value.restParts ++ after.flatMap LinkValue.parts).findSome? readPart)) := by
  rw [nextLink_headerText, List.flatMap_append, List.flatMap_cons, value.parts_eq,
    List.cons_append, List.findSome?_append, List.findSome?_cons]
  cases readPart value.firstPart <;> rfl

theorem readElsewhere_iff {before after : List LinkValue} {value : LinkValue} :
    ReadElsewhere before value after ↔
      ((before.flatMap LinkValue.parts).findSome? readPart).or
        ((value.restParts ++ after.flatMap LinkValue.parts).findSome? readPart) =
          some (String.ofList value.url) := by
  rw [← List.findSome?_append, List.findSome?_eq_some_iff]
  simp only [readPart_eq_some, readPart_eq_none]
  rfl

theorem noNextLink_iff (values : List LinkValue) :
    (∀ value ∈ values, ∀ part ∈ value.parts, NoNextLink part) ↔
      (values.flatMap LinkValue.parts).findSome? readPart = none := by
  simp only [List.findSome?_eq_none_iff, readPart_eq_none, List.mem_flatMap, forall_exists_index,
    and_imp]
  exact ⟨fun hnone part value hvalue hpart => hnone value hvalue part hpart,
    fun hnone value hvalue part hpart => hnone part value hvalue hpart⟩

theorem clean_of_read {values : List (List Char)} {link : String}
    (hparts : ∀ part ∈ values, ',' ∉ part) (hread : values.findSome? readPart = some link) :
    ',' ∉ link.toList ∧ link.toList.head? ≠ some '<' := by
  obtain ⟨part, hpart, hsome⟩ := List.exists_of_findSome?_eq_some hread
  exact (readPart_eq_some.1 hsome).clean (hparts part hpart)

theorem nextLink_around_iff (before : List LinkValue) (value : LinkValue)
    (after : List LinkValue) :
    nextLink (headerText (before ++ value :: after)) = some (String.ofList value.url) ↔
      ((∀ other ∈ before, ∀ part ∈ other.parts, NoNextLink part) ∧ value.IsPlain) ∨
        ReadElsewhere before value after := by
  have hbefore : ∀ part ∈ before.flatMap LinkValue.parts, ',' ∉ part := by
    intro part hpart
    obtain ⟨other, -, hother⟩ := List.mem_flatMap.mp hpart
    exact not_mem_of_mem_splitOn hother
  have hfirst : ',' ∉ value.firstPart :=
    not_mem_of_mem_splitOn (value.parts_eq ▸ List.mem_cons_self)
  have hrest : ∀ part ∈ value.restParts ++ after.flatMap LinkValue.parts, ',' ∉ part := by
    intro part hpart
    rcases List.mem_append.mp hpart with hpart | hpart
    · exact not_mem_of_mem_splitOn (value.parts_eq ▸ List.mem_cons_of_mem _ hpart)
    · obtain ⟨other, -, hother⟩ := List.mem_flatMap.mp hpart
      exact not_mem_of_mem_splitOn hother
  have hplain : ∀ {link}, readPart value.firstPart = some link →
      ',' ∉ value.url ∧ value.url.head? ≠ some '<' → value.IsPlain := fun hread hclean =>
    LinkValue.isPlain_of_spells hclean.1 hclean.2 (readPart_eq_some.1 hread)
  have hurl : (String.ofList value.url).toList = value.url := String.toList_ofList
  rw [nextLink_around, readElsewhere_iff, noNextLink_iff]
  constructor
  · intro hread
    rcases hfront : (before.flatMap LinkValue.parts).findSome? readPart with _ | link
    · rw [hfront, Option.none_or] at hread
      rcases hown : readPart value.firstPart with _ | link
      · rw [hown, Option.none_or] at hread
        exact .inr hread
      · rw [hown, Option.some_or] at hread
        have hclean := (readPart_eq_some.1 (hown.trans hread)).clean hfirst
        rw [hurl] at hclean
        exact .inl ⟨rfl, hplain hown hclean⟩
    · rw [hfront, Option.some_or] at hread
      exact .inr hread
  · rintro (⟨hfront, hvalue⟩ | hread)
    · rw [hfront, readPart_eq_some.2 hvalue.spells]
      rfl
    · rcases hfront : (before.flatMap LinkValue.parts).findSome? readPart with _ | link
      · rw [hfront, Option.none_or] at hread
        have hclean := clean_of_read hrest hread
        rw [hurl] at hclean
        rcases hown : readPart value.firstPart with _ | link
        · exact hread
        · have hspells := readPart_eq_some.2 (hplain hown hclean).spells
          exact congrArg (Option.none.or ·) (congrArg (Option.or · _) (hown.symm.trans hspells))
      · rw [hfront, Option.some_or] at hread
        exact hread

/-- The target of the first value with the relation `next`. -/
def nextPage (values : List LinkValue) : Option String :=
  (values.find? LinkValue.isNext).map fun value => String.ofList value.url

theorem nextLink_eq_nextPage_iff (values : List LinkValue) :
    nextLink (headerText values) = nextPage values ↔ FindsNext values := by
  constructor
  · intro hread
    rcases hfind : values.find? LinkValue.isNext with _ | value
    · have hnone : ∀ value ∈ values, value.isNext = false := fun value hvalue =>
        Bool.not_eq_true _ |>.mp (List.find?_eq_none.mp hfind value hvalue)
      rw [nextPage, hfind, Option.map_none, nextLink_headerText, ← noNextLink_iff] at hread
      exact .inl fun value hvalue => ⟨hnone value hvalue, hread value hvalue⟩
    · obtain ⟨hnext, before, after, rfl, hbefore⟩ := List.find?_eq_some_iff_append.mp hfind
      rw [nextPage, hfind, Option.map_some, nextLink_around_iff] at hread
      exact .inr ⟨before, value, after, rfl,
        fun other hother => by simpa using hbefore other hother, hnext, hread⟩
  · rintro (hnone | ⟨before, value, after, rfl, hbefore, hnext, hread⟩)
    · have hfind : values.find? LinkValue.isNext = none :=
        List.find?_eq_none.mpr fun value hvalue => Bool.not_eq_true _ |>.mpr (hnone value hvalue).1
      rw [nextPage, hfind, Option.map_none, nextLink_headerText, ← noNextLink_iff]
      exact fun value hvalue => (hnone value hvalue).2
    · have hfind : (before ++ value :: after).find? LinkValue.isNext = some value :=
        List.find?_eq_some_iff_append.mpr ⟨hnext, before, after, rfl, fun other hother => by
          simpa using hbefore other hother⟩
      rw [nextPage, hfind, Option.map_some, nextLink_around_iff]
      exact hread

example : nextLink "</user/repos?per_page=100&page=2>; rel=\"next\"" =
    some "/user/repos?per_page=100&page=2" := by decide

namespace Sample

/-- A link value with one parameter, whose relation is written without quotes. -/
def bareNext : LinkValue where
  before := ⟨[], nofun⟩
  url := "https://api.github.com/user/repos?page=2".toList
  unbroken := by decide +kernel
  params :=
    [{ before := ⟨[], nofun⟩
       after := ⟨[' '], fun _ hchar => .inl (List.mem_singleton.mp hchar)⟩
       name := ⟨"rel".toList, by decide, List.all_eq_true.mp (by decide +kernel)⟩
       value := some (⟨[], nofun⟩, ⟨[], nofun⟩,
         .token ⟨"next".toList, by decide, List.all_eq_true.mp (by decide +kernel)⟩) }]
  after := ⟨[], nofun⟩

end Sample

/-- The link of `<https://api.github.com/user/repos?page=2>; rel=next` is not found. -/
theorem nextLink_misses_page :
    ¬ ∀ values, nextLink (headerText values) = nextPage values := by
  intro hall
  exact absurd (hall [Sample.bareNext]) (by decide)

end Patchwright
