import Patchwright.Library.JsonText
import Patchwright.Library.Lines

/-!
# Framed streams

A stream is read frame by frame, where a frame ends with a separator and may not
be longer than a limit.  A stream has one division into frames and a tail, which
is what is left when the end of the stream or a frame beyond the limit is met.
The other end may get the stream in chunks: it collects them up to a limit until
a separator has come.  The last part shows that the compact text of a JSON value
has no line break, so that it is the content of one frame.
-/

universe u

namespace Framing

variable {α : Type u} [DecidableEq α]

/-! ## Reading frames -/

/-- Read through the next separator, but no more than a limit. -/
def readUntil (sep : α) : Nat → List α → List α × List α
  | _, [] => ([], [])
  | 0, stream => ([], stream)
  | limit + 1, value :: values =>
      if value = sep then ([value], values)
      else (value :: (readUntil sep limit values).1, (readUntil sep limit values).2)

/-- What a read of one frame has found. -/
inductive Frame (α : Type u) where
  | ended
  | line (content rest : List α)
  | refused

/-- Read one frame, and one value more than the limit at most. -/
def nextFrame (sep : α) (limit : Nat) (stream : List α) : Frame α :=
  let (frame, rest) := readUntil sep (limit + 1) stream
  if frame = [] then .ended
  else if limit < frame.length ∨ frame.getLast? ≠ some sep then .refused
  else .line frame.dropLast rest

/-- The stream of some frames. -/
def framed (sep : α) (contents : List (List α)) : List α :=
  contents.flatMap fun content => content ++ [sep]

/-- A content that one frame may have. -/
def Fits (sep : α) (limit : Nat) (content : List α) : Prop :=
  sep ∉ content ∧ content.length < limit

variable {sep : α} {limit : Nat}

theorem readUntil_line {content : List α} (hsep : sep ∉ content) (hlength : content.length < limit)
    (rest : List α) : readUntil sep limit (content ++ sep :: rest) = (content ++ [sep], rest) := by
  induction content generalizing limit with
  | nil =>
      obtain ⟨limit, rfl⟩ := Nat.exists_eq_add_one_of_ne_zero (Nat.ne_of_gt hlength)
      rw [List.nil_append, readUntil, if_pos rfl, List.nil_append]
  | cons value values ih =>
      obtain ⟨limit, rfl⟩ := Nat.exists_eq_add_one_of_ne_zero
        (Nat.ne_of_gt (Nat.lt_of_le_of_lt (Nat.zero_le _) hlength))
      rw [List.mem_cons, not_or] at hsep
      rw [List.length_cons] at hlength
      rw [List.cons_append, readUntil, if_neg (Ne.symm hsep.1), ih hsep.2 (by omega)]
      rfl

theorem readUntil_none {stream : List α} (hsep : sep ∉ stream.take limit) :
    readUntil sep limit stream = (stream.take limit, stream.drop limit) := by
  induction stream generalizing limit with
  | nil => rw [readUntil, List.take_nil, List.drop_nil]
  | cons value values ih =>
      cases limit with
      | zero => rfl
      | succ limit =>
          rw [List.take_succ_cons, List.mem_cons, not_or] at hsep
          rw [readUntil, if_neg (Ne.symm hsep.1), ih hsep.2]
          rfl

@[simp]
theorem nextFrame_nil : nextFrame sep limit [] = .ended := by
  rw [nextFrame, readUntil]
  rfl

theorem nextFrame_line {content : List α} (hfits : Fits sep limit content) (rest : List α) :
    nextFrame sep limit (content ++ sep :: rest) = .line content rest := by
  rw [nextFrame, readUntil_line hfits.1 (Nat.lt_succ_of_lt hfits.2)]
  dsimp only
  rw [if_neg (List.append_ne_nil_of_right_ne_nil _ (List.cons_ne_nil _ _)), if_neg,
    List.dropLast_concat]
  rw [List.getLast?_concat, List.length_append, List.length_singleton]
  have hlength := hfits.2
  simp only [ne_eq, not_true_eq_false, or_false]
  omega

/-- A stream without a separator in reach is refused. -/
theorem nextFrame_refused {stream : List α} (hne : stream ≠ [])
    (hsep : sep ∉ stream.take limit) : nextFrame sep limit stream = .refused := by
  by_cases hnext : sep ∉ stream.take (limit + 1)
  · rw [nextFrame, readUntil_none hnext]
    dsimp only
    rw [if_neg, if_pos]
    · right
      intro hlast
      exact hnext (List.mem_of_getLast? hlast)
    · cases stream with
      | nil => exact absurd rfl hne
      | cons value values => exact List.cons_ne_nil _ _
  · -- the separator is right behind the limit
    rw [not_not] at hnext
    have hlt : limit < stream.length := by
      by_contra hle
      rw [List.take_of_length_le (by omega)] at hsep hnext
      exact hsep hnext
    rw [List.take_succ_eq_append_getElem hlt, List.mem_append, List.mem_singleton,
      or_iff_right hsep] at hnext
    have hsplit : stream = stream.take limit ++ sep :: stream.drop (limit + 1) := by
      rw [hnext, ← List.drop_eq_getElem_cons hlt, List.take_append_drop]
    have hlength : (stream.take limit).length = limit := by
      rw [List.length_take]
      omega
    rw [hsplit, nextFrame, readUntil_line hsep (by omega)]
    dsimp only
    rw [if_neg (List.append_ne_nil_of_right_ne_nil _ (List.cons_ne_nil _ _)), if_pos]
    left
    rw [List.length_append, hlength]
    exact Nat.lt_succ_self limit

/-- One of the three is read from any stream. -/
theorem nextFrame_cases (sep : α) (limit : Nat) (stream : List α) :
    stream = [] ∨
    (∃ content rest, Fits sep limit content ∧ stream = content ++ sep :: rest) ∨
    stream ≠ [] ∧ sep ∉ stream.take limit := by
  by_cases hne : stream = []
  · exact Or.inl hne
  · right
    by_cases hsep : sep ∈ stream.take limit
    · left
      obtain ⟨content, rest, hcontent, hsplit⟩ :=
        (Lines.exists_append_sep_or_not_mem sep (stream.take limit)).resolve_right (not_not_intro hsep)
      refine ⟨content, rest ++ stream.drop limit, ⟨hcontent, ?_⟩, ?_⟩
      · have hlength := congrArg List.length hsplit
        rw [List.length_take, List.length_append, List.length_cons] at hlength
        omega
      · rw [← List.cons_append, ← List.append_assoc, ← hsplit, List.take_append_drop]
    · exact Or.inr ⟨hne, hsep⟩

theorem nextFrame_eq_line {stream content rest : List α}
    (hread : nextFrame sep limit stream = .line content rest) :
    Fits sep limit content ∧ stream = content ++ sep :: rest := by
  rcases nextFrame_cases sep limit stream with rfl | ⟨found, more, hfits, rfl⟩ | ⟨hne, hsep⟩
  · rw [nextFrame_nil] at hread
    cases hread
  · rw [nextFrame_line hfits] at hread
    cases hread
    exact ⟨hfits, rfl⟩
  · rw [nextFrame_refused hne hsep] at hread
    cases hread

theorem nextFrame_eq_refused {stream : List α} (hread : nextFrame sep limit stream = .refused) :
    stream ≠ [] ∧ sep ∉ stream.take limit := by
  rcases nextFrame_cases sep limit stream with rfl | ⟨found, more, hfits, rfl⟩ | hrefused
  · rw [nextFrame_nil] at hread
    cases hread
  · rw [nextFrame_line hfits] at hread
    cases hread
  · exact hrefused

theorem nextFrame_eq_ended {stream : List α} (hread : nextFrame sep limit stream = .ended) :
    stream = [] := by
  rcases nextFrame_cases sep limit stream with rfl | ⟨found, more, hfits, rfl⟩ | ⟨hne, hsep⟩
  · rfl
  · rw [nextFrame_line hfits] at hread
    cases hread
  · rw [nextFrame_refused hne hsep] at hread
    cases hread

omit [DecidableEq α] in
theorem framed_append (first second : List (List α)) :
    framed sep (first ++ second) = framed sep first ++ framed sep second :=
  List.flatMap_append

omit [DecidableEq α] in
theorem framed_singleton (content : List α) : framed sep [content] = content ++ [sep] :=
  List.flatMap_singleton ..

omit [DecidableEq α] in
theorem framed_cons (content : List α) (contents : List (List α)) :
    framed sep (content :: contents) = content ++ sep :: framed sep contents := by
  rw [framed, List.flatMap_cons, List.append_assoc, List.singleton_append, framed]

omit [DecidableEq α] in
/-- A stream of one frame begins with no frame or with that one. -/
theorem framed_prefix_line {contents : List (List α)} {content : List α}
    (hcontent : sep ∉ content) (hbegins : framed sep contents <+: content ++ [sep]) :
    contents = [] ∨ contents = [content] := by
  cases contents with
  | nil => exact Or.inl rfl
  | cons first contents =>
      right
      obtain ⟨more, hsplit⟩ := hbegins
      rw [framed_cons, List.append_assoc, List.cons_append] at hsplit
      obtain ⟨rfl, -, hrest⟩ :=
        (List.append_cons_inj_of_notMem hcontent List.not_mem_nil).mp hsplit.symm
      cases contents with
      | nil => rfl
      | cons second contents =>
          rw [framed_cons, List.append_assoc] at hrest
          exact absurd hrest.symm (List.append_ne_nil_of_right_ne_nil _ (List.cons_ne_nil _ _))

/-! ## Receiving chunks -/

inductive Received (α : Type u) where
  | waiting (buffer : List α)
  | line (content : List α)
  | overflow
  deriving DecidableEq

/-- Take one more chunk. -/
def takeChunk (sep : α) (limit : Nat) (buffer chunk : List α) : Received α :=
  if limit < buffer.length + chunk.length then .overflow
  else if sep ∈ buffer ++ chunk then .line ((buffer ++ chunk).takeWhile (· ≠ sep))
  else .waiting (buffer ++ chunk)

def takeChunks (sep : α) (limit : Nat) : List α → List (List α) → Received α
  | buffer, [] => .waiting buffer
  | buffer, chunk :: chunks =>
      match takeChunk sep limit buffer chunk with
      | .waiting joined => takeChunks sep limit joined chunks
      | done => done

theorem takeWhile_line {content : List α} (hsep : sep ∉ content) (rest : List α) :
    (content ++ sep :: rest).takeWhile (· ≠ sep) = content := by
  induction content with
  | nil => simp
  | cons value values ih =>
      rw [List.mem_cons, not_or] at hsep
      rw [List.cons_append, List.takeWhile_cons_of_pos (by simpa using Ne.symm hsep.1), ih hsep.2]

omit [DecidableEq α] in
/-- A part of a stream that has the first separator has all of the first content. -/
theorem exists_rest_of_mem {content rest part more : List α} (hsep : sep ∉ content)
    (hsplit : part ++ more = content ++ sep :: rest) (hmem : sep ∈ part) :
    ∃ found, part = content ++ sep :: found := by
  rcases List.append_eq_append_iff.mp hsplit with ⟨inner, hpart, -⟩ | ⟨inner, hpart, hinner⟩
  · have hcontent : sep ∈ content := by
      rw [hpart]
      exact List.mem_append_left _ hmem
    exact absurd hcontent hsep
  · cases inner with
    | nil =>
        rw [List.append_nil] at hpart
        exact absurd (hpart ▸ hmem) hsep
    | cons head found =>
        rw [List.cons_append, List.cons.injEq] at hinner
        exact ⟨found, by rw [hpart, hinner.1]⟩

/-- However a stream within the limit is cut, its first content is received. -/
theorem takeChunks_line {chunks : List (List α)} {buffer content rest : List α}
    (hsep : sep ∉ content) (hbuffer : sep ∉ buffer)
    (hsplit : buffer ++ chunks.flatten = content ++ sep :: rest)
    (hlength : (content ++ sep :: rest).length ≤ limit) :
    takeChunks sep limit buffer chunks = .line content := by
  induction chunks generalizing buffer with
  | nil =>
      rw [List.flatten_nil, List.append_nil] at hsplit
      rw [hsplit] at hbuffer
      exact absurd (List.mem_append_right _ List.mem_cons_self) hbuffer
  | cons chunk chunks ih =>
      rw [List.flatten_cons, ← List.append_assoc] at hsplit
      have hshort : ¬ limit < buffer.length + chunk.length := by
        have hwhole := congrArg List.length hsplit
        rw [List.length_append, List.length_append] at hwhole
        omega
      rw [takeChunks, takeChunk, if_neg hshort]
      by_cases hmem : sep ∈ buffer ++ chunk
      · obtain ⟨found, hfound⟩ := exists_rest_of_mem hsep hsplit hmem
        rw [if_pos hmem, hfound, takeWhile_line hsep]
      · rw [if_neg hmem]
        exact ih hmem hsplit

/-- However one frame beyond the limit is cut, it is given up. -/
theorem takeChunks_overflow {chunks : List (List α)} {buffer content : List α}
    (hsep : sep ∉ content) (hbuffer : sep ∉ buffer)
    (hsplit : buffer ++ chunks.flatten = content ++ [sep]) (hlength : limit ≤ content.length) :
    takeChunks sep limit buffer chunks = .overflow := by
  induction chunks generalizing buffer with
  | nil =>
      rw [List.flatten_nil, List.append_nil] at hsplit
      rw [hsplit] at hbuffer
      exact absurd (List.mem_append_right _ List.mem_cons_self) hbuffer
  | cons chunk chunks ih =>
      rw [List.flatten_cons, ← List.append_assoc] at hsplit
      rw [takeChunks, takeChunk]
      split
      next hlimit =>
        split at hlimit
        · cases hlimit
        · split at hlimit
          · cases hlimit
          next hmem =>
            cases hlimit
            exact ih hmem hsplit
      next hdone =>
        split
        · rfl
        next hshort =>
          split
          next hmem =>
            obtain ⟨found, hfound⟩ := exists_rest_of_mem hsep hsplit hmem
            have hwhole := congrArg List.length hfound
            rw [List.length_append, List.length_append, List.length_cons] at hwhole
            omega
          next hmem =>
            exfalso
            rw [if_neg hshort, if_neg hmem] at hdone
            exact hdone _ rfl

end Framing

/-! ## Texts on one line -/

namespace Json

mutual

/-- No number of the value is written with a line break. -/
def OnLine : Json → Prop
  | float text => '\n' ∉ text.toList
  | arr items => ItemsOnLine items
  | obj fields => FieldsOnLine fields
  | _ => True

def ItemsOnLine : List Json → Prop
  | [] => True
  | item :: items => item.OnLine ∧ ItemsOnLine items

def FieldsOnLine : List (String × Json) → Prop
  | [] => True
  | (_, value) :: fields => value.OnLine ∧ FieldsOnLine fields

end

theorem newline_notMem_escapeChar (char : Char) : '\n' ∉ escapeChar char := by
  have hdigits : ∀ digit < 32, '\n' ≠ hexDigit digit := by decide
  unfold escapeChar
  split_ifs with hquote hslash hback hfeed hnewline hreturn htab hcontrol
  iterate 7 · decide
  · have hhigh := hdigits (char.toNat / 16) (by omega)
    have hlow := hdigits (char.toNat % 16) (by omega)
    simp [hhigh, hlow]
  · simpa using Ne.symm hnewline

theorem newline_notMem_quote (text : String) : '\n' ∉ (quote text).toList := by
  rw [toList_quote]
  simp [newline_notMem_escapeChar]

mutual

theorem newline_notMem_compact : (value : Json) → value.OnLine → '\n' ∉ value.compact.toList
  | null, _ => by decide
  | bool true, _ => by decide
  | bool false, _ => by decide
  | int value, _ => fun hmem => absurd (int_isNumeric value _ hmem) (by decide)
  | float _, hline => hline
  | str text, _ => newline_notMem_quote text
  | arr items, hline => by
      have hitems := newline_notMem_compactItems items hline
      simp [compact, hitems]
  | obj fields, hline => by
      have hfields := newline_notMem_compactFields fields hline
      simp [compact, hfields]

theorem newline_notMem_compactItems :
    (items : List Json) → ItemsOnLine items → '\n' ∉ (compactItems items).toList
  | [], _ => by decide
  | [item], hline => by
      have hitem := newline_notMem_compact item hline.1
      simpa [compactItems] using hitem
  | item :: next :: items, hline => by
      have hitem := newline_notMem_compact item hline.1
      have hitems := newline_notMem_compactItems (next :: items) hline.2
      simp [compactItems, hitem, hitems]

theorem newline_notMem_compactFields :
    (fields : List (String × Json)) → FieldsOnLine fields → '\n' ∉ (compactFields fields).toList
  | [], _ => by decide
  | [(name, value)], hline => by
      have hvalue := newline_notMem_compact value hline.1
      simp [compactFields, hvalue, newline_notMem_quote]
  | (name, value) :: next :: fields, hline => by
      have hvalue := newline_notMem_compact value hline.1
      have hfields := newline_notMem_compactFields (next :: fields) hline.2
      simp [compactFields, hvalue, hfields, newline_notMem_quote]

end

/-- The bytes of a compact text. -/
def render (value : Json) : List UInt8 := Utf8.encode value.compact.toList

/-- The compact text of a value takes one line. -/
theorem newline_notMem_render {value : Json} (hline : value.OnLine) : 10 ∉ value.render := by
  intro hmem
  obtain ⟨char, hchar, hbyte⟩ := List.mem_flatMap.mp hmem
  have hsingle := Utf8.utf8EncodeChar_eq_singleton_of_mem hbyte (by decide)
  have hsize : char.utf8Size = 1 := by
    rw [← String.length_utf8EncodeChar, hsingle, List.length_singleton]
  have hnewline : char = '\n' := by
    rw [String.utf8EncodeChar_eq_singleton hsize, List.singleton_inj] at hsingle
    have hvalue := congrArg UInt8.toNat hsingle
    have hascii := UInt32.le_iff_toNat_le.mp (Char.utf8Size_eq_one_iff.mp hsize)
    apply Char.ext
    apply UInt32.toNat_inj.mp
    rw [UInt32.toNat_toUInt8] at hvalue
    change char.val.toNat ≤ 127 at hascii
    change char.val.toNat % 256 = 10 at hvalue
    change char.val.toNat = 10
    omega
  exact newline_notMem_compact value hline (hnewline ▸ hchar)

end Json
