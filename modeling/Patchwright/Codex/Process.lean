import Patchwright.Library.Lines
import Patchwright.Library.Runs

/-!
# Reading protocol lines from the Codex app-server

The app-server writes one JSON message a line to a pipe.  A reader keeps what
it took from the pipe and has not returned yet in a buffer, and every read has a
deadline.  The bytes of a line whose end has not arrived are held by the read
itself, so they are dropped with it when its deadline passes.

A run is given by the chunks in which the pipe delivers the stream and by how
many of them each call lives to see.
-/

namespace Patchwright

open Lines

/-- Rust's `String`. -/
structure Utf8Text where
  bytes : List UInt8
  valid : Utf8.Valid bytes

def lineFeed : UInt8 := 10

def carriageReturn : UInt8 := 13

def maxLineBytes : Nat := 4 * 1024 * 1024

inductive CodexProcessError where
  | timeout (operation : String) (duration : Nat)
  | unexpectedEof
  | protocolLineTooLarge (actual : Nat)
  | invalidUtf8
  deriving DecidableEq, Repr

/-- What one read of the pipe yields; an empty read is its end. -/
abbrev Chunk := { bytes : List UInt8 // bytes ≠ [] }

def arriving (chunks : List Chunk) : List UInt8 := chunks.flatMap Subtype.val

/-- The buffered pipe: bytes taken from it and not consumed, and what it has
still to deliver before it ends. -/
structure Reader where
  buffer : List UInt8
  incoming : List Chunk

def Reader.unread (reader : Reader) : List UInt8 := reader.buffer ++ arriving reader.incoming

/-- A call with its deadline.  `patience` counts the arrivals on the pipe, its
end among them, that come before the deadline of the call or of a caller around
it; without one the deadline never passes first.  Durations are milliseconds. -/
structure ReadCall where
  operation : String
  duration : Nat
  patience : Option Nat
  deriving DecidableEq, Repr

def readLine (requestTimeout : Nat) (patience : Option Nat) : ReadCall :=
  { operation := "read Codex response", duration := requestTimeout, patience }

def readLineFor (duration : Nat) (patience : Option Nat) : ReadCall :=
  { operation := "poll Codex event", duration, patience }

/-- One turn of the loop, on the bytes `fill_buf` returned. -/
inductive Turn where
  | tooLarge
  | line (bytes rest : List UInt8)
  | more (bytes : List UInt8)
  deriving DecidableEq, Repr

def takeAvailable (bytes available : List UInt8) : Turn :=
  let newline := available.findIdx? (· = lineFeed)
  let take := newline.getD available.length
  if bytes.length + take > maxLineBytes then .tooLarge
  else
    match newline with
    | some _ => .line (bytes ++ available.take take) (available.drop (take + 1))
    | none => .more (bytes ++ available.take take)

/-- The loop once the buffer is empty, so that every turn waits for the pipe.
`bytes` lives in the call, and a deadline that passes drops it. -/
def readArrivals (call : ReadCall) (bytes : List UInt8) :
    Option Nat → List Chunk → Except CodexProcessError (List UInt8) × Reader
  | some 0, incoming => (.error (.timeout call.operation call.duration), ⟨[], incoming⟩)
  | _, [] => (if bytes = [] then .error .unexpectedEof else .ok bytes, ⟨[], []⟩)
  | patience, chunk :: incoming =>
      match takeAvailable bytes chunk.val with
      | .tooLarge => (.error (.protocolLineTooLarge (maxLineBytes + 1)), ⟨chunk.val, incoming⟩)
      | .line line rest => (.ok line, ⟨rest, incoming⟩)
      | .more more => readArrivals call more (patience.map (· - 1)) incoming

/-- A buffer that holds bytes is returned without waiting. -/
def readBoundedProtocolLine (call : ReadCall) (reader : Reader) :
    Except CodexProcessError (List UInt8) × Reader :=
  if reader.buffer = [] then readArrivals call [] call.patience reader.incoming
  else
    match takeAvailable [] reader.buffer with
    | .tooLarge => (.error (.protocolLineTooLarge (maxLineBytes + 1)), reader)
    | .line line rest => (.ok line, ⟨rest, reader.incoming⟩)
    | .more bytes => readArrivals call bytes call.patience reader.incoming

/-- A line without one trailing carriage return. -/
def popCarriageReturn (bytes : List UInt8) : List UInt8 :=
  if bytes.getLast? = some carriageReturn then bytes.dropLast else bytes

/-- `String::from_utf8` on the line. -/
def decodeLine (bytes : List UInt8) : Except CodexProcessError Utf8Text :=
  if valid : Utf8.Valid (popCarriageReturn bytes) then .ok ⟨popCarriageReturn bytes, valid⟩
  else .error .invalidUtf8

def readLineWithTimeout (call : ReadCall) (reader : Reader) :
    Except CodexProcessError Utf8Text × Reader :=
  ((readBoundedProtocolLine call reader).1.bind decodeLine,
    (readBoundedProtocolLine call reader).2)

/-- The lines of the calls that succeed, and the reader after them. -/
def readLines : Reader → List ReadCall → List Utf8Text × Reader
  | reader, [] => ([], reader)
  | reader, call :: calls =>
      let read := readLineWithTimeout call reader
      let later := readLines read.2 calls
      (read.1.toOption.toList ++ later.1, later.2)

/-! ## One call -/

@[simp]
theorem arriving_nil : arriving [] = [] := rfl

@[simp]
theorem arriving_cons (chunk : Chunk) (chunks : List Chunk) :
    arriving (chunk :: chunks) = chunk.val ++ arriving chunks := rfl

theorem arriving_take_append_drop (count : Nat) (chunks : List Chunk) :
    arriving (chunks.take count) ++ arriving (chunks.drop count) = arriving chunks := by
  rw [arriving, arriving, arriving, ← List.flatMap_append, List.take_append_drop]

theorem takeAvailable_append_lineFeed {bytes first : List UInt8} (rest : List UInt8)
    (hfirst : lineFeed ∉ first) (hlimit : bytes.length + first.length ≤ maxLineBytes) :
    takeAvailable bytes (first ++ lineFeed :: rest) = .line (bytes ++ first) rest := by
  have hnewline : (first ++ lineFeed :: rest).findIdx? (· = lineFeed) = some first.length := by
    have hnone : first.findIdx? (· = lineFeed) = none := by
      rw [List.findIdx?_eq_none_iff]
      intro byte hbyte
      rw [decide_eq_false_iff_not]
      exact fun heq => hfirst (heq ▸ hbyte)
    rw [List.findIdx?_append, hnone, List.findIdx?_cons]
    simp
  rw [takeAvailable, hnewline]
  dsimp only [Option.getD_some]
  rw [if_neg (Nat.not_lt.mpr hlimit), List.take_left, List.drop_append]
  simp

theorem takeAvailable_of_not_mem {bytes available : List UInt8}
    (havailable : lineFeed ∉ available)
    (hlimit : bytes.length + available.length ≤ maxLineBytes) :
    takeAvailable bytes available = .more (bytes ++ available) := by
  have hnewline : available.findIdx? (· = lineFeed) = none := by
    rw [List.findIdx?_eq_none_iff]
    intro byte hbyte
    rw [decide_eq_false_iff_not]
    exact fun heq => havailable (heq ▸ hbyte)
  rw [takeAvailable, hnewline]
  dsimp only [Option.getD_none]
  rw [if_neg (Nat.not_lt.mpr hlimit), List.take_length]

/-- No line of the stream is longer than the limit. -/
def WithinLimit (bytes : List UInt8) : Prop :=
  ∀ line ∈ pieces lineFeed bytes, line.length ≤ maxLineBytes

instance (bytes : List UInt8) : Decidable (WithinLimit bytes) :=
  inferInstanceAs (Decidable (∀ line ∈ pieces lineFeed bytes, line.length ≤ maxLineBytes))

theorem WithinLimit.length_le {first rest : List UInt8} (hlimit : WithinLimit (first ++ rest))
    (hfirst : lineFeed ∉ first) : first.length ≤ maxLineBytes := by
  rcases exists_append_sep_or_not_mem lineFeed rest with ⟨more, later, hmore, hrest⟩ | hnone
  · have hline : lineFeed ∉ first ++ more := by
      rw [List.mem_append, not_or]
      exact ⟨hfirst, hmore⟩
    have hpieces := pieces_append_sep hline later
    rw [List.append_assoc, ← hrest] at hpieces
    have hlength := hlimit (first ++ more) (hpieces ▸ List.mem_cons_self)
    rw [List.length_append] at hlength
    omega
  · by_cases hempty : first ++ rest = []
    · rw [(List.append_eq_nil_iff.mp hempty).1]
      exact Nat.zero_le _
    · have hline : lineFeed ∉ first ++ rest := by
        rw [List.mem_append, not_or]
        exact ⟨hfirst, hnone⟩
      have hlength := hlimit (first ++ rest)
        (pieces_of_not_mem hline hempty ▸ List.mem_singleton_self _)
      rw [List.length_append] at hlength
      omega

theorem WithinLimit.of_append {before bytes : List UInt8}
    (hlimit : WithinLimit (before ++ bytes)) : WithinLimit bytes := by
  intro line hline
  rcases exists_piece_of_append before hline with ⟨whole, hwhole, hsuffix⟩
  exact Nat.le_trans hsuffix.length_le (hlimit whole hwhole)

/-- A read that takes the first line of what is unread: up to a newline, up to
the end of the stream, or the end itself. -/
inductive TakesFirst (unread : List UInt8) :
    Except CodexProcessError (List UInt8) × Reader → Prop where
  | line {line : List UInt8} {reader : Reader} (hline : lineFeed ∉ line)
      (hunread : unread = line ++ lineFeed :: reader.unread) :
      TakesFirst unread (.ok line, reader)
  | last (hunread : lineFeed ∉ unread) (hne : unread ≠ []) :
      TakesFirst unread (.ok unread, ⟨[], []⟩)
  | eof (hunread : unread = []) : TakesFirst unread (.error .unexpectedEof, ⟨[], []⟩)

/-- A deadline that passes while the loop waits drops the bytes in hand. -/
theorem readArrivals_cut {call : ReadCall} {bytes : List UInt8} {incoming : List Chunk}
    {count : Nat} (hbytes : lineFeed ∉ bytes)
    (hlimit : WithinLimit (bytes ++ arriving incoming)) (hcount : count ≤ incoming.length)
    (hcut : lineFeed ∉ arriving (incoming.take count)) :
    readArrivals call bytes (some count) incoming =
      (.error (.timeout call.operation call.duration), ⟨[], incoming.drop count⟩) := by
  induction count generalizing bytes incoming with
  | zero => rw [readArrivals, List.drop_zero]
  | succ count ih =>
      cases incoming with
      | nil => exact absurd hcount (Nat.not_succ_le_zero count)
      | cons chunk incoming =>
          rw [List.take_succ_cons, arriving_cons, List.mem_append, not_or] at hcut
          rw [arriving_cons, ← List.append_assoc] at hlimit
          have hmore : lineFeed ∉ bytes ++ chunk.val := by
            rw [List.mem_append, not_or]
            exact ⟨hbytes, hcut.1⟩
          have hlength := hlimit.length_le hmore
          rw [List.length_append] at hlength
          rw [readArrivals, takeAvailable_of_not_mem hcut.1 hlength, List.drop_succ_cons]
          · exact ih hmore hlimit (Nat.le_of_succ_le_succ hcount) hcut.2
          · nofun

/-- A read that is not cut takes the first line. -/
theorem readArrivals_takesFirst {call : ReadCall} {bytes : List UInt8}
    {incoming : List Chunk} {patience : Option Nat} (hbytes : lineFeed ∉ bytes)
    (hlimit : WithinLimit (bytes ++ arriving incoming))
    (hdone : ∀ count, patience = some count → count ≤ incoming.length →
      lineFeed ∈ arriving (incoming.take count)) :
    TakesFirst (bytes ++ arriving incoming) (readArrivals call bytes patience incoming) := by
  induction incoming generalizing bytes patience with
  | nil =>
      have hpositive : patience ≠ some 0 := by
        intro hzero
        exact List.not_mem_nil (hdone 0 hzero (Nat.le_refl 0))
      rw [arriving_nil, List.append_nil, readArrivals]
      · by_cases hempty : bytes = []
        · rw [if_pos hempty]
          exact .eof hempty
        · rw [if_neg hempty]
          exact .last hbytes hempty
      · exact hpositive
  | cons chunk incoming ih =>
      have hpositive : patience ≠ some 0 := by
        intro hzero
        exact List.not_mem_nil (hdone 0 hzero (Nat.zero_le _))
      rw [arriving_cons] at hlimit ⊢
      rw [readArrivals]
      · rcases exists_append_sep_or_not_mem lineFeed chunk.val with
          ⟨first, rest, hfirst, hchunk⟩ | hnone
        · have hline : lineFeed ∉ bytes ++ first := by
            rw [List.mem_append, not_or]
            exact ⟨hbytes, hfirst⟩
          have hunread : bytes ++ (chunk.val ++ arriving incoming) =
              (bytes ++ first) ++ lineFeed :: (rest ++ arriving incoming) := by
            rw [hchunk, List.append_assoc, List.append_assoc, List.cons_append]
          rw [hunread] at hlimit ⊢
          have hlength := hlimit.length_le hline
          rw [List.length_append] at hlength
          rw [hchunk, takeAvailable_append_lineFeed rest hfirst hlength]
          exact .line hline rfl
        · have hmore : lineFeed ∉ bytes ++ chunk.val := by
            rw [List.mem_append, not_or]
            exact ⟨hbytes, hnone⟩
          rw [← List.append_assoc] at hlimit ⊢
          have hlength := hlimit.length_le hmore
          rw [List.length_append] at hlength
          rw [takeAvailable_of_not_mem hnone hlength]
          apply ih hmore hlimit
          intro count hcount hle
          cases patience with
          | none => exact absurd hcount nofun
          | some patience =>
              rw [Option.map_some, Option.some.injEq] at hcount
              have hsucc : patience = count + 1 := by
                have : patience ≠ 0 := fun hzero => hpositive (by rw [hzero])
                omega
              have hmem := hdone (count + 1) (by rw [hsucc]) (Nat.succ_le_succ hle)
              rw [List.take_succ_cons, arriving_cons, List.mem_append] at hmem
              exact hmem.resolve_left hnone
      · exact hpositive

/-! ## Deadlines -/

/-- What a call has seen once the given number of chunks has arrived. -/
def Reader.arrivedBy (reader : Reader) (count : Nat) : List UInt8 :=
  reader.buffer ++ arriving (reader.incoming.take count)

theorem Reader.arrivedBy_append_drop (reader : Reader) (count : Nat) :
    reader.arrivedBy count ++ arriving (reader.incoming.drop count) = reader.unread := by
  rw [Reader.arrivedBy, List.append_assoc, arriving_take_append_drop, Reader.unread]

/-- The deadline passes before a newline or the end of the stream arrives. -/
def Cut (reader : Reader) (call : ReadCall) (count : Nat) : Prop :=
  call.patience = some count ∧ count ≤ reader.incoming.length ∧
    lineFeed ∉ reader.arrivedBy count

/-- A call whose deadline passes has seen nothing of the line, or has seen the
carriage return of an otherwise empty line and nothing else. -/
def SparesLine (reader : Reader) (call : ReadCall) : Prop :=
  ∀ count, Cut reader call count → reader.arrivedBy count = [] ∨
    reader.arrivedBy count = [carriageReturn] ∧
      (arriving (reader.incoming.drop count)).head? = some lineFeed

theorem readBoundedProtocolLine_cut {call : ReadCall} {reader : Reader} {count : Nat}
    (hlimit : WithinLimit reader.unread) (hcut : Cut reader call count) :
    readBoundedProtocolLine call reader =
      (.error (.timeout call.operation call.duration), ⟨[], reader.incoming.drop count⟩) := by
  rcases hcut with ⟨hpatience, hcount, hline⟩
  rw [Reader.arrivedBy, List.mem_append, not_or] at hline
  rw [Reader.unread] at hlimit
  rw [readBoundedProtocolLine, hpatience]
  by_cases hbuffer : reader.buffer = []
  · rw [hbuffer] at hlimit
    rw [if_pos hbuffer]
    exact readArrivals_cut List.not_mem_nil hlimit hcount hline.2
  · have hlength := hlimit.length_le hline.1
    have hsum : ([] : List UInt8).length + reader.buffer.length ≤ maxLineBytes := by
      rwa [List.length_nil, Nat.zero_add]
    rw [if_neg hbuffer, takeAvailable_of_not_mem hline.1 hsum]
    exact readArrivals_cut hline.1 hlimit hcount hline.2

theorem readBoundedProtocolLine_takesFirst {call : ReadCall} {reader : Reader}
    (hlimit : WithinLimit reader.unread) (hdone : ∀ count, ¬ Cut reader call count) :
    TakesFirst reader.unread (readBoundedProtocolLine call reader) := by
  have hseen : ∀ count, call.patience = some count → count ≤ reader.incoming.length →
      lineFeed ∈ reader.buffer ++ arriving (reader.incoming.take count) := by
    intro count hpatience hcount
    by_contra hnone
    exact hdone count ⟨hpatience, hcount, hnone⟩
  rw [Reader.unread] at hlimit ⊢
  rw [readBoundedProtocolLine]
  by_cases hbuffer : reader.buffer = []
  · rw [hbuffer] at hlimit hseen ⊢
    rw [if_pos rfl]
    exact readArrivals_takesFirst List.not_mem_nil hlimit hseen
  · rw [if_neg hbuffer]
    rcases exists_append_sep_or_not_mem lineFeed reader.buffer with
      ⟨first, rest, hfirst, hsplit⟩ | hnone
    · have hunread : reader.buffer ++ arriving reader.incoming =
          first ++ lineFeed :: (rest ++ arriving reader.incoming) := by
        rw [hsplit, List.append_assoc, List.cons_append]
      rw [hunread] at hlimit ⊢
      have hlength := hlimit.length_le hfirst
      have hsum : ([] : List UInt8).length + first.length ≤ maxLineBytes := by
        rwa [List.length_nil, Nat.zero_add]
      rw [hsplit, takeAvailable_append_lineFeed rest hfirst hsum]
      exact .line hfirst rfl
    · have hlength := hlimit.length_le hnone
      have hsum : ([] : List UInt8).length + reader.buffer.length ≤ maxLineBytes := by
        rwa [List.length_nil, Nat.zero_add]
      rw [takeAvailable_of_not_mem hnone hsum]
      apply readArrivals_takesFirst hnone hlimit
      intro count hpatience hcount
      exact (List.mem_append.mp (hseen count hpatience hcount)).resolve_left hnone

/-! ## What is left to return -/

/-- The lines of a stream as a reader should return them. -/
def protocolLines (bytes : List UInt8) : List (List UInt8) :=
  (pieces lineFeed bytes).map popCarriageReturn

/-- Characters and line ends of the lines. -/
def textSize (lines : List (List UInt8)) : Nat := (lines.map (·.length + 1)).sum

@[simp]
theorem textSize_nil : textSize [] = 0 := rfl

@[simp]
theorem textSize_cons (line : List UInt8) (lines : List (List UInt8)) :
    textSize (line :: lines) = line.length + 1 + textSize lines := by
  rw [textSize, textSize, List.map_cons, List.sum_cons]

theorem textSize_append (first second : List (List UInt8)) :
    textSize (first ++ second) = textSize first + textSize second := by
  rw [textSize, textSize, textSize, List.map_append, List.sum_append]

@[simp]
theorem protocolLines_nil : protocolLines [] = [] := rfl

theorem protocolLines_append_lineFeed {line : List UInt8} (hline : lineFeed ∉ line)
    (rest : List UInt8) :
    protocolLines (line ++ lineFeed :: rest) = popCarriageReturn line :: protocolLines rest := by
  rw [protocolLines, pieces_append_sep hline, List.map_cons, protocolLines]

theorem protocolLines_of_not_mem {bytes : List UInt8} (hline : lineFeed ∉ bytes)
    (hne : bytes ≠ []) : protocolLines bytes = [popCarriageReturn bytes] := by
  rw [protocolLines, pieces_of_not_mem hline hne, List.map_singleton]

theorem popCarriageReturn_cons {byte : UInt8} {bytes : List UInt8} (hne : bytes ≠ []) :
    popCarriageReturn (byte :: bytes) = byte :: popCarriageReturn bytes := by
  rw [popCarriageReturn, popCarriageReturn, List.getLast?_cons_of_ne_nil hne,
    List.dropLast_cons_of_ne_nil hne]
  split <;> rfl

/-- The carriage return of an empty line does not matter. -/
theorem protocolLines_carriageReturn {bytes : List UInt8}
    (hnext : bytes.head? = some lineFeed) :
    protocolLines (carriageReturn :: bytes) = protocolLines bytes := by
  cases bytes with
  | nil => exact absurd hnext nofun
  | cons next rest =>
      rw [List.head?_cons, Option.some.injEq] at hnext
      have hreturn : lineFeed ∉ [carriageReturn] := by decide
      have hempty : lineFeed ∉ ([] : List UInt8) := List.not_mem_nil
      have hwith := protocolLines_append_lineFeed hreturn rest
      have hwithout := protocolLines_append_lineFeed hempty rest
      rw [hnext]
      exact hwith.trans hwithout.symm

/-- A byte more in front never makes the text to return smaller, and leaves it
as it is only as the carriage return of an empty line. -/
theorem textSize_protocolLines_cons {byte : UInt8} (hbyte : byte ≠ lineFeed)
    (bytes : List UInt8) :
    textSize (protocolLines bytes) < textSize (protocolLines (byte :: bytes)) ∨
      byte = carriageReturn ∧ bytes.head? = some lineFeed := by
  have hsingle : lineFeed ∉ [byte] := by
    rw [List.mem_singleton]
    exact hbyte.symm
  rcases exists_append_sep_or_not_mem lineFeed bytes with ⟨first, rest, hfirst, hbytes⟩ | hnone
  · have hcons : lineFeed ∉ byte :: first := by
      rw [List.mem_cons, not_or]
      exact ⟨hbyte.symm, hfirst⟩
    rw [hbytes, protocolLines_append_lineFeed hfirst, ← List.cons_append,
      protocolLines_append_lineFeed hcons]
    by_cases hempty : first = []
    · rw [hempty]
      by_cases hreturn : byte = carriageReturn
      · exact Or.inr ⟨hreturn, rfl⟩
      · left
        have hkept : popCarriageReturn [byte] = [byte] := by
          rw [popCarriageReturn, List.getLast?_singleton, if_neg]
          rwa [Option.some.injEq]
        rw [hkept, textSize_cons, textSize_cons]
        exact Nat.add_lt_add_right (Nat.lt_add_one 1) _
    · left
      rw [popCarriageReturn_cons hempty, textSize_cons, textSize_cons, List.length_cons]
      omega
  · left
    by_cases hempty : bytes = []
    · rw [hempty, protocolLines_of_not_mem hsingle (List.cons_ne_nil _ _), protocolLines_nil,
        textSize_cons, textSize_nil]
      omega
    · have hcons : lineFeed ∉ byte :: bytes := by
        rw [List.mem_cons, not_or]
        exact ⟨hbyte.symm, hnone⟩
      rw [protocolLines_of_not_mem hnone hempty,
        protocolLines_of_not_mem hcons (List.cons_ne_nil _ _), popCarriageReturn_cons hempty,
        textSize_cons, textSize_cons, List.length_cons]
      omega

/-- What follows a lost prefix holds no more text. -/
theorem textSize_protocolLines_append {lost : List UInt8} (hlost : lineFeed ∉ lost)
    (bytes : List UInt8) :
    textSize (protocolLines bytes) ≤ textSize (protocolLines (lost ++ bytes)) := by
  induction lost with
  | nil => exact Nat.le_refl _
  | cons byte lost ih =>
      rw [List.mem_cons, not_or] at hlost
      have hlater := ih hlost.2
      rw [List.cons_append]
      rcases textSize_protocolLines_cons (Ne.symm hlost.1) (lost ++ bytes) with
        hless | ⟨hbyte, hnext⟩
      · omega
      · rwa [hbyte, protocolLines_carriageReturn hnext]

/-- It holds less, unless the prefix is the carriage return of an empty line. -/
theorem textSize_protocolLines_lt {lost bytes : List UInt8} (hlost : lineFeed ∉ lost)
    (hne : lost ≠ []) (hreturn : ¬ (lost = [carriageReturn] ∧ bytes.head? = some lineFeed)) :
    textSize (protocolLines bytes) < textSize (protocolLines (lost ++ bytes)) := by
  cases lost with
  | nil => exact absurd rfl hne
  | cons byte lost =>
      rw [List.mem_cons, not_or] at hlost
      have hlater := textSize_protocolLines_append hlost.2 bytes
      rw [List.cons_append]
      rcases textSize_protocolLines_cons (Ne.symm hlost.1) (lost ++ bytes) with
        hless | ⟨hbyte, hhead⟩
      · omega
      · exfalso
        cases lost with
        | nil => exact hreturn ⟨by rw [hbyte], hhead⟩
        | cons second lost =>
            rw [List.cons_append, List.head?_cons, Option.some.injEq] at hhead
            exact hlost.2 (hhead ▸ List.mem_cons_self)

/-! ## Runs of calls -/

/-- The lines a call returns: one when it succeeds. -/
def returnedBy (call : ReadCall) (reader : Reader) : List (List UInt8) :=
  (readLineWithTimeout call reader).1.toOption.toList.map Utf8Text.bytes

/-- The lines returned and the lines left to return are those of the stream. -/
def Lossless (reader : Reader) (calls : List ReadCall) : Prop :=
  (readLines reader calls).1.map Utf8Text.bytes ++
      protocolLines (readLines reader calls).2.unread =
    protocolLines reader.unread

/-- The reader as a transition system over its calls. -/
def readerStep (reader : Reader) (call : ReadCall) : Option Reader :=
  some (readLineWithTimeout call reader).2

theorem decodeLine_of_valid {bytes : List UInt8} (hvalid : Utf8.Valid bytes) :
    ∃ text, decodeLine bytes = .ok text ∧ text.bytes = popCarriageReturn bytes := by
  have hpopped : Utf8.Valid (popCarriageReturn bytes) := by
    rw [popCarriageReturn]
    split
    · next hreturn =>
        have hsplit := List.dropLast_append_getLast? carriageReturn hreturn
        rw [← hsplit] at hvalid
        exact (Utf8.Valid.of_append_ascii (by decide) hvalid).1
    · exact hvalid
  exact ⟨⟨popCarriageReturn bytes, hpopped⟩, by rw [decodeLine, dif_pos hpopped], rfl⟩

theorem decodeLine_eq_ok {bytes : List UInt8} {text : Utf8Text}
    (hdecode : decodeLine bytes = .ok text) : text.bytes = popCarriageReturn bytes := by
  rw [decodeLine] at hdecode
  split at hdecode
  · cases hdecode
    rfl
  · exact absurd hdecode nofun

/-- A deadline that passes inside a line drops what arrived of it. -/
theorem readLineWithTimeout_cut {call : ReadCall} {reader : Reader} {count : Nat}
    (hlimit : WithinLimit reader.unread) (hcut : Cut reader call count) :
    returnedBy call reader = [] ∧
      (readLineWithTimeout call reader).2.unread = arriving (reader.incoming.drop count) := by
  rw [returnedBy, readLineWithTimeout, readBoundedProtocolLine_cut hlimit hcut]
  exact ⟨rfl, rfl⟩

/-- A call leaves a part of the stream, within the same limits. -/
theorem readLineWithTimeout_unread (call : ReadCall) {reader : Reader}
    (hlimit : WithinLimit reader.unread) :
    ∃ taken, reader.unread = taken ++ (readLineWithTimeout call reader).2.unread := by
  by_cases hcut : ∃ count, Cut reader call count
  · rcases hcut with ⟨count, hcut⟩
    rw [(readLineWithTimeout_cut hlimit hcut).2]
    exact ⟨reader.arrivedBy count, (reader.arrivedBy_append_drop count).symm⟩
  · rw [readLineWithTimeout]
    have htakes := readBoundedProtocolLine_takesFirst hlimit (not_exists.mp hcut)
    generalize readBoundedProtocolLine call reader = result at htakes
    cases htakes with
    | @line line after hline hunread =>
        refine ⟨line ++ [lineFeed], ?_⟩
        rw [List.append_assoc, List.singleton_append]
        exact hunread
    | last hunread hne => exact ⟨reader.unread, (List.append_nil _).symm⟩
    | eof hunread => exact ⟨[], hunread⟩

theorem readLineWithTimeout_withinLimit (call : ReadCall) {reader : Reader}
    (hlimit : WithinLimit reader.unread) :
    WithinLimit (readLineWithTimeout call reader).2.unread := by
  rcases readLineWithTimeout_unread call hlimit with ⟨taken, hunread⟩
  rw [hunread] at hlimit
  exact hlimit.of_append

/-- A call that cuts no line returns the next line of the stream, or nothing
while it leaves the lines as they are. -/
theorem readLineWithTimeout_spares {call : ReadCall} {reader : Reader}
    (hlimit : WithinLimit reader.unread) (hvalid : Utf8.Valid reader.unread)
    (hspares : SparesLine reader call) :
    returnedBy call reader ++ protocolLines (readLineWithTimeout call reader).2.unread =
        protocolLines reader.unread ∧
      Utf8.Valid (readLineWithTimeout call reader).2.unread := by
  by_cases hcut : ∃ count, Cut reader call count
  · rcases hcut with ⟨count, hcut⟩
    rcases readLineWithTimeout_cut hlimit hcut with ⟨hreturned, hleft⟩
    have hwhole := reader.arrivedBy_append_drop count
    rw [hreturned, hleft, List.nil_append]
    rcases hspares count hcut with hnone | ⟨hreturn, hnext⟩
    · rw [hnone, List.nil_append] at hwhole
      rw [hwhole]
      exact ⟨rfl, hvalid⟩
    · rw [hreturn, List.singleton_append] at hwhole
      rw [← hwhole] at hvalid ⊢
      have hempty : Utf8.Valid ([] ++ carriageReturn :: arriving (reader.incoming.drop count)) :=
        hvalid
      exact ⟨(protocolLines_carriageReturn hnext).symm,
        (Utf8.Valid.of_append_ascii (by decide) hempty).2⟩
  · rw [returnedBy, readLineWithTimeout]
    have htakes := readBoundedProtocolLine_takesFirst hlimit (not_exists.mp hcut)
    generalize readBoundedProtocolLine call reader = result at htakes
    cases htakes with
    | @line line after hline hunread =>
        rw [hunread] at hvalid ⊢
        rcases Utf8.Valid.of_append_ascii (by decide) hvalid with ⟨hfirst, hrest⟩
        rcases decodeLine_of_valid hfirst with ⟨text, hdecode, htext⟩
        have hresult : (Except.ok line).bind decodeLine = .ok text := hdecode
        rw [hresult, protocolLines_append_lineFeed hline, ← htext]
        exact ⟨rfl, hrest⟩
    | last hunread hne =>
        rcases decodeLine_of_valid hvalid with ⟨text, hdecode, htext⟩
        have hresult : (Except.ok reader.unread).bind decodeLine = .ok text := hdecode
        rw [hresult, protocolLines_of_not_mem hunread hne, ← htext]
        exact ⟨rfl, ⟨[], rfl⟩⟩
    | eof hunread =>
        rw [hunread]
        exact ⟨rfl, ⟨[], rfl⟩⟩

/-- No call makes the text returned and left to return larger. -/
theorem readLineWithTimeout_textSize (call : ReadCall) {reader : Reader}
    (hlimit : WithinLimit reader.unread) :
    textSize (returnedBy call reader) +
        textSize (protocolLines (readLineWithTimeout call reader).2.unread) ≤
      textSize (protocolLines reader.unread) := by
  by_cases hcut : ∃ count, Cut reader call count
  · rcases hcut with ⟨count, hcut⟩
    rcases readLineWithTimeout_cut hlimit hcut with ⟨hreturned, hleft⟩
    have hless := textSize_protocolLines_append hcut.2.2 (arriving (reader.incoming.drop count))
    rw [reader.arrivedBy_append_drop] at hless
    rw [hreturned, hleft, textSize_nil, Nat.zero_add]
    exact hless
  · rw [returnedBy, readLineWithTimeout]
    have htakes := readBoundedProtocolLine_takesFirst hlimit (not_exists.mp hcut)
    have hdecoded : ∀ line, textSize ((decodeLine line).toOption.toList.map Utf8Text.bytes) ≤
        (popCarriageReturn line).length + 1 := by
      intro line
      cases hdecode : decodeLine line with
      | error failure => exact Nat.zero_le _
      | ok text =>
          rw [← decodeLine_eq_ok hdecode]
          exact Nat.le_refl _
    generalize readBoundedProtocolLine call reader = result at htakes
    cases htakes with
    | @line line after hline hunread =>
        rw [hunread, protocolLines_append_lineFeed hline, textSize_cons]
        exact Nat.add_le_add_right (hdecoded line) _
    | last hunread hne =>
        rw [protocolLines_of_not_mem hunread hne, textSize_cons]
        exact Nat.add_le_add_right (hdecoded reader.unread) _
    | eof hunread => exact Nat.zero_le _

/-- A call that cuts a line makes it smaller. -/
theorem readLineWithTimeout_cuts {call : ReadCall} {reader : Reader}
    (hlimit : WithinLimit reader.unread) (hcuts : ¬ SparesLine reader call) :
    textSize (returnedBy call reader) +
        textSize (protocolLines (readLineWithTimeout call reader).2.unread) <
      textSize (protocolLines reader.unread) := by
  rw [SparesLine] at hcuts
  simp only [not_forall, not_or] at hcuts
  rcases hcuts with ⟨count, hcut, hne, hreturn⟩
  rcases readLineWithTimeout_cut hlimit hcut with ⟨hreturned, hleft⟩
  have hless := textSize_protocolLines_lt hcut.2.2 hne hreturn
  rw [reader.arrivedBy_append_drop] at hless
  rw [hreturned, hleft, textSize_nil, Nat.zero_add]
  exact hless

theorem readLines_cons (reader : Reader) (call : ReadCall) (calls : List ReadCall) :
    (readLines reader (call :: calls)).1.map Utf8Text.bytes =
        returnedBy call reader ++
          (readLines (readLineWithTimeout call reader).2 calls).1.map Utf8Text.bytes ∧
      (readLines reader (call :: calls)).2 =
        (readLines (readLineWithTimeout call reader).2 calls).2 := by
  constructor
  · rw [readLines, List.map_append, returnedBy]
  · rfl

theorem readLines_textSize (calls : List ReadCall) {reader : Reader}
    (hlimit : WithinLimit reader.unread) :
    textSize ((readLines reader calls).1.map Utf8Text.bytes) +
        textSize (protocolLines (readLines reader calls).2.unread) ≤
      textSize (protocolLines reader.unread) := by
  induction calls generalizing reader with
  | nil => exact Nat.le_of_eq (Nat.zero_add _)
  | cons call calls ih =>
      have hcall := readLineWithTimeout_textSize call hlimit
      have hlater := ih (readLineWithTimeout_withinLimit call hlimit)
      rcases readLines_cons reader call calls with ⟨hlines, hafter⟩
      rw [hlines, hafter, textSize_append]
      omega

/-- Framing loses nothing exactly when no deadline passes inside a line. -/
theorem readLines_lossless_iff (reader : Reader) (calls : List ReadCall)
    (hvalid : Utf8.Valid reader.unread) (hlimit : WithinLimit reader.unread) :
    Lossless reader calls ↔ Runs.EveryStep readerStep SparesLine reader calls := by
  induction calls generalizing reader with
  | nil => exact iff_of_true rfl trivial
  | cons call calls ih =>
      have hlimit' := readLineWithTimeout_withinLimit call hlimit
      have hsize := readLines_textSize calls hlimit'
      rcases readLines_cons reader call calls with ⟨hlines, hafter⟩
      rw [Lossless, hlines, hafter, Runs.EveryStep]
      by_cases hspares : SparesLine reader call
      · rcases readLineWithTimeout_spares hlimit hvalid hspares with ⟨hcall, hvalid'⟩
        have hlater := ih (readLineWithTimeout call reader).2 hvalid' hlimit'
        rw [← hcall, List.append_assoc, List.append_cancel_left_eq, and_iff_right hspares]
        constructor
        · intro hlossless next hnext
          cases hnext
          exact hlater.mp hlossless
        · intro hevery
          exact hlater.mpr (hevery _ rfl)
      · have hless := readLineWithTimeout_cuts hlimit hspares
        constructor
        · intro hlossless
          have hequal := congrArg textSize hlossless
          rw [textSize_append, textSize_append] at hequal
          omega
        · intro hevery
          exact absurd hevery.1 hspares

/-! ## A line that arrives in two chunks -/

namespace Sample

/-- The line `ab`, cut after its first byte. -/
def splitLine : Reader :=
  { buffer := []
    incoming := [⟨[97], List.cons_ne_nil _ _⟩, ⟨[98, lineFeed], List.cons_ne_nil _ _⟩] }

end Sample

open Sample

/-- A poll that sees the first chunk only takes it along: the next call returns
`b`. -/
theorem readLines_not_lossless :
    Utf8.Valid splitLine.unread ∧ WithinLimit splitLine.unread ∧
      (readLines splitLine [readLineFor 5 (some 1), readLine 30000 none]).1.map Utf8Text.bytes =
        [[98]] ∧
      ¬ Lossless splitLine [readLineFor 5 (some 1), readLine 30000 none] := by
  unfold Lossless
  decide

/-- A poll that comes before the first chunk leaves the line alone. -/
theorem readLines_lossless_early :
    Lossless splitLine [readLineFor 5 (some 0), readLine 30000 none] := by
  rw [readLines_lossless_iff _ _ (by decide) (by decide)]
  constructor
  · intro count hcut
    have hzero : count = 0 := (Option.some.inj hcut.1).symm
    left
    rw [hzero]
    rfl
  · intro next _
    refine ⟨?_, fun _ _ => trivial⟩
    intro count hcut
    exact absurd hcut.1 nofun

end Patchwright
