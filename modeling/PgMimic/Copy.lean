import Mathlib.Data.List.DropRight
import PgMimic.Lib.Splitter
import PgMimic.Lib.Utf8

/-!
# The COPY codecs

`CopyEncoder` turns a row into the payload of one CopyData message, and
`CopyInDecoder` turns payloads cut anywhere back into rows. A text is a list of
characters. A record is split off the pending text before it is split into
fields, and the two scanners follow the quotes independently.
-/

namespace PgMimic.Copy

/-- A Python `str` that UTF-8 can carry. -/
abbrev Text := List Char

/-- A row of a COPY: None is NULL. -/
abbrev Row := List (Option Text)

inductive Format where
  | text
  | csv
deriving DecidableEq, Repr

/-- The options as `parse_copy` resolves them: delimiter, quote and escape are single
characters. -/
structure CopyOptions where
  format : Format := .text
  delimiter : Char := '\t'
  nullString : Text := ['\\', 'N']
  header : Bool := false
  quote : Char := '"'
  escape : Char := '"'
deriving DecidableEq, Repr

/-! ## Encoding -/

/-- `_TEXT_ESCAPES`. -/
def textEscape (char : Char) : Option Text :=
  if char = '\\' then some ['\\', '\\']
  else if char = '\x08' then some ['\\', 'b']
  else if char = '\x0c' then some ['\\', 'f']
  else if char = '\n' then some ['\\', 'n']
  else if char = '\r' then some ['\\', 'r']
  else if char = '\t' then some ['\\', 't']
  else if char = '\x0b' then some ['\\', 'v']
  else none

/-- One character of a text-format field. -/
def escapeText (o : CopyOptions) (char : Char) : Text :=
  match textEscape char with
  | some escaped => escaped
  | none => if char = o.delimiter then ['\\', char] else [char]

def textField (o : CopyOptions) : Option Text → Text
  | none => o.nullString
  | some value => value.flatMap (escapeText o)

/-- `needs_quotes`. -/
def needsQuotes (o : CopyOptions) (value : Text) : Bool :=
  value = o.nullString || o.delimiter ∈ value || o.quote ∈ value || '\n' ∈ value || '\r' ∈ value

/-- One character of a quoted CSV field. -/
def escapeCsv (o : CopyOptions) (char : Char) : Text :=
  if char = o.quote ∨ char = o.escape then [o.escape, char] else [char]

def csvField (o : CopyOptions) : Option Text → Text
  | none => o.nullString
  | some value =>
    if needsQuotes o value then o.quote :: (value.flatMap (escapeCsv o) ++ [o.quote]) else value

def field (o : CopyOptions) : Option Text → Text :=
  match o.format with
  | .text => textField o
  | .csv => csvField o

/-- `delimiter.join(fields)`. -/
def join (delimiter : Char) : List Text → Text
  | [] => []
  | [one] => one
  | one :: two :: more => one ++ delimiter :: join delimiter (two :: more)

/-- A row's line, its newline left out. -/
def line (o : CopyOptions) (row : Row) : Text := join o.delimiter (row.map (field o))

/-- `CopyEncoder.row`. -/
def encodeRow (o : CopyOptions) (row : Row) : List UInt8 := Utf8.encode (line o row ++ ['\n'])

/-! ## Fields of a text record -/

/-- The raw fields of a record, the one being read in `current`. A backslash takes the
next character with it, if there is one. -/
def rawFields (delimiter : Char) (current : Text) (escaped : Bool) : Text → List Text
  | [] => [current]
  | char :: rest =>
    if escaped then rawFields delimiter (current ++ [char]) false rest
    else if char = '\\' ∧ rest ≠ [] then rawFields delimiter (current ++ [char]) true rest
    else if char = delimiter then current :: rawFields delimiter [] false rest
    else rawFields delimiter (current ++ [char]) false rest

/-- `_TEXT_UNESCAPES`. -/
def textUnescape (marker : Char) : Option Char :=
  if marker = 'b' then some '\x08'
  else if marker = 'f' then some '\x0c'
  else if marker = 'n' then some '\n'
  else if marker = 'r' then some '\r'
  else if marker = 't' then some '\t'
  else if marker = 'v' then some '\x0b'
  else none

def isOctal (char : Char) : Bool := '0' ≤ char && char ≤ '7'

def isHex (char : Char) : Bool :=
  '0' ≤ char && char ≤ '9' || 'a' ≤ char && char ≤ 'f' || 'A' ≤ char && char ≤ 'F'

def takeDigits (text : Text) (allowed : Char → Bool) (limit : Nat) : Text :=
  (text.take limit).takeWhile allowed

/-- The value of one digit of any base up to sixteen. -/
def digitValue (digit : Char) : Nat :=
  if digit ≤ '9' then digit.toNat - '0'.toNat
  else if digit ≤ 'F' then digit.toNat - 'A'.toNat + 10
  else digit.toNat - 'a'.toNat + 10

/-- `int(digits, base)`. -/
def parseInt (base : Nat) (digits : Text) : Nat :=
  digits.foldl (fun value digit => value * base + digitValue digit) 0

/-- The character an escape stands for and how many characters after the backslash it takes. -/
def unescapeMarker (marker : Char) (rest : Text) : Char × Nat :=
  match textUnescape marker with
  | some char => (char, 1)
  | none =>
    let hex := takeDigits rest isHex 2
    let octal := takeDigits (marker :: rest) isOctal 3
    if marker = 'x' ∧ hex ≠ [] then (Char.ofNat (parseInt 16 hex), 1 + hex.length)
    else if isOctal marker then (Char.ofNat (parseInt 8 octal), octal.length)
    else (marker, 1)

/-- The loop of `_unescape_text`; `skip` characters belong to the escape just read. -/
def unescapeFrom : Nat → Text → Text
  | _, [] => []
  | skip + 1, _ :: rest => unescapeFrom skip rest
  | 0, char :: rest =>
    match rest with
    | [] => [char]
    | marker :: later =>
      if char = '\\' then
        (unescapeMarker marker later).1 :: unescapeFrom (unescapeMarker marker later).2 rest
      else char :: unescapeFrom 0 rest

def unescapeText (field : Text) : Text :=
  if '\\' ∈ field then unescapeFrom 0 field else field

/-- The null string is compared with the raw field. -/
def textFields (o : CopyOptions) (record : Text) : Row :=
  (rawFields o.delimiter [] false record).map fun raw =>
    if raw = o.nullString then none else some (unescapeText raw)

/-! ## Fields of a CSV record -/

def csvValue (o : CopyOptions) (text : Text) (quoted : Bool) : Option Text :=
  if quoted = false ∧ text = o.nullString then none else some text

/-- Where a scanner of CSV stands. `literal` is inside the quotes, at a character that an
escape or the first of two quotes has already decided. -/
inductive Quoting where
  | outside
  | inside
  | literal
deriving DecidableEq, Repr

/-- The fields of a record, the one being read in `current`. -/
def csvFieldsFrom (o : CopyOptions) (current : Text) (quoted : Bool) : Quoting → Text → Row
  | _, [] => [csvValue o current quoted]
  | .literal, char :: rest => csvFieldsFrom o (current ++ [char]) quoted .inside rest
  | .inside, char :: rest =>
    if o.escape ≠ o.quote ∧ char = o.escape ∧ rest ≠ [] then
      csvFieldsFrom o current quoted .literal rest
    else if char = o.quote then
      if o.escape = o.quote ∧ rest.head? = some o.quote then
        csvFieldsFrom o current quoted .literal rest
      else csvFieldsFrom o current quoted .outside rest
    else csvFieldsFrom o (current ++ [char]) quoted .inside rest
  | .outside, char :: rest =>
    if char = o.quote then csvFieldsFrom o current true .inside rest
    else if char = o.delimiter then
      csvValue o current quoted :: csvFieldsFrom o [] false .outside rest
    else csvFieldsFrom o (current ++ [char]) quoted .outside rest

def csvFields (o : CopyOptions) (record : Text) : Row := csvFieldsFrom o [] false .outside record

/-! ## Records -/

/-- The same cut with some characters more in front of the record. -/
def inFront (front : Text) (cut : Option (Text × Text)) : Option (Text × Text) :=
  cut.map fun (record, remainder) => (front ++ record, remainder)

/-- A record of the text format ends with the first newline. -/
def splitTextRecord : Text → Option (Text × Text)
  | [] => none
  | char :: rest => if char = '\n' then some ([], rest) else inFront [char] (splitTextRecord rest)

/-- A CSV record ends with the first newline outside quotes. A quote at the end of what
has arrived may be the first of two. -/
def splitCsvRecord (o : CopyOptions) : Quoting → Text → Option (Text × Text)
  | _, [] => none
  | .literal, char :: rest => inFront [char] (splitCsvRecord o .inside rest)
  | .inside, char :: rest =>
    if o.escape ≠ o.quote ∧ char = o.escape then inFront [char] (splitCsvRecord o .literal rest)
    else if char = o.quote then
      if o.escape ≠ o.quote then inFront [char] (splitCsvRecord o .outside rest)
      else
        match rest.head? with
        | none => none
        | some following =>
          if following = o.quote then inFront [char] (splitCsvRecord o .literal rest)
          else inFront [char] (splitCsvRecord o .outside rest)
    else inFront [char] (splitCsvRecord o .inside rest)
  | .outside, char :: rest =>
    if char = o.quote then inFront [char] (splitCsvRecord o .inside rest)
    else if char = '\n' then some ([], rest)
    else inFront [char] (splitCsvRecord o .outside rest)

def splitRecord (o : CopyOptions) (buffer : Text) : Option (Text × Text) :=
  match o.format with
  | .text => splitTextRecord buffer
  | .csv => splitCsvRecord o .outside buffer

/-- What the records so far have settled. -/
structure Progress where
  ended : Bool
  skipHeader : Bool
deriving DecidableEq, Repr

def endOfData : Text := ['\\', '.']

/-- `_record`, with the carriage return of a CRLF dropped. -/
def record (o : CopyOptions) (p : Progress) (text : Text) : Progress × List Row :=
  let text := if text.getLast? = some '\r' then text.dropLast else text
  if text = endOfData then ({ p with ended := true }, [])
  else if p.skipHeader then ({ p with skipHeader := false }, [])
  else
    match o.format with
    | .csv => (p, [csvFields o text])
    | .text => (p, [textFields o text])

/-- A cut that takes the newline off with the record, and is the same however the text
goes on. -/
def Cuts (next : Text → Option (Text × Text)) (buffer : Text) : Prop :=
  ∀ record remainder, next buffer = some (record, remainder) →
    remainder.length < buffer.length ∧
      ∀ more, next (buffer ++ more) = some (record, remainder ++ more)

theorem inFront_eq_some_iff {front record remainder : Text} {cut : Option (Text × Text)} :
    inFront front cut = some (record, remainder) ↔
      ∃ behind, cut = some (behind, remainder) ∧ record = front ++ behind := by
  simp only [inFront, Option.map_eq_some_iff, Prod.exists, Prod.mk.injEq]
  constructor
  · rintro ⟨behind, remainder', hcut, rfl, rfl⟩
    exact ⟨behind, hcut, rfl⟩
  · rintro ⟨behind, hcut, rfl⟩
    exact ⟨behind, remainder, hcut, rfl, rfl⟩

/-- A cut further on, with one character more in front of it. -/
theorem Cuts.inFront {next next' : Text → Option (Text × Text)} {char : Char} {rest : Text}
    (h : Cuts next rest)
    (go : ∀ more, next' (char :: (rest ++ more)) = Copy.inFront [char] (next (rest ++ more))) :
    Cuts next' (char :: rest) := by
  intro record remainder hcut
  have now := go []
  rw [List.append_nil] at now
  rw [now] at hcut
  obtain ⟨behind, found, rfl⟩ := inFront_eq_some_iff.mp hcut
  obtain ⟨shorter, stable⟩ := h behind remainder found
  refine ⟨Nat.lt_succ_of_lt shorter, fun more => ?_⟩
  rw [List.cons_append, go]
  exact inFront_eq_some_iff.mpr ⟨behind, stable more, rfl⟩

/-- The newline that ends a record, with what follows it. -/
theorem cuts_newline {next : Text → Option (Text × Text)} {char : Char} {rest : Text}
    (go : ∀ text, next (char :: text) = some ([], text)) : Cuts next (char :: rest) := by
  intro record remainder hcut
  rw [go, Option.some.injEq, Prod.mk.injEq] at hcut
  obtain ⟨rfl, rfl⟩ := hcut
  exact ⟨Nat.lt_succ_self _, fun more => go (rest ++ more)⟩

theorem splitTextRecord_cuts (buffer : Text) : Cuts splitTextRecord buffer := by
  induction buffer with
  | nil => intro record remainder h; cases h
  | cons char rest ih =>
    by_cases newline : char = '\n'
    · exact cuts_newline fun text => by simp only [splitTextRecord, if_pos newline]
    · exact ih.inFront fun more => by simp only [splitTextRecord, if_neg newline]

theorem splitCsvRecord_cuts (o : CopyOptions) (quoting : Quoting) (buffer : Text) :
    Cuts (splitCsvRecord o quoting) buffer := by
  induction buffer generalizing quoting with
  | nil => intro record remainder h; cases quoting <;> cases h
  | cons char rest ih =>
    cases quoting with
    | literal => exact (ih .inside).inFront fun more => rfl
    | outside =>
      by_cases opens : char = o.quote
      · exact (ih .inside).inFront fun more => by simp only [splitCsvRecord, if_pos opens]
      · by_cases newline : char = '\n'
        · exact cuts_newline fun text => by
            simp only [splitCsvRecord, if_neg opens, if_pos newline]
        · exact (ih .outside).inFront fun more => by
            simp only [splitCsvRecord, if_neg opens, if_neg newline]
    | inside =>
      by_cases escapes : o.escape ≠ o.quote ∧ char = o.escape
      · exact (ih .literal).inFront fun more => by simp only [splitCsvRecord, if_pos escapes]
      by_cases closes : char = o.quote
      · by_cases separate : o.escape ≠ o.quote
        · exact (ih .outside).inFront fun more => by
            simp only [splitCsvRecord, if_neg escapes, if_pos closes, if_pos separate]
        -- A quote is decided by what follows it, so the last one is not cut yet.
        · cases rest with
          | nil =>
            intro record remainder h
            simp only [splitCsvRecord, if_neg escapes, if_pos closes, if_neg separate,
              List.head?_nil, reduceCtorEq] at h
          | cons following later =>
            by_cases doubled : following = o.quote
            · exact (ih .literal).inFront fun more => by
                simp only [splitCsvRecord, if_neg escapes, if_pos closes, if_neg separate,
                  List.cons_append, List.head?_cons, if_pos doubled]
            · exact (ih .outside).inFront fun more => by
                simp only [splitCsvRecord, if_neg escapes, if_pos closes, if_neg separate,
                  List.cons_append, List.head?_cons, if_neg doubled]
      · exact (ih .inside).inFront fun more => by
          simp only [splitCsvRecord, if_neg escapes, if_neg closes]

theorem splitRecord_cuts (o : CopyOptions) (buffer : Text) : Cuts (splitRecord o) buffer := by
  cases hformat : o.format with
  | text => simpa only [Cuts, splitRecord, hformat] using splitTextRecord_cuts buffer
  | csv => simpa only [Cuts, splitRecord, hformat] using splitCsvRecord_cuts o .outside buffer

/-! ## The decoder -/

/-- `_split_record`: nothing that arrives later changes a record once it is complete. -/
def records (o : CopyOptions) : Splitter Char Text where
  next := splitRecord o
  shorter := fun h => (splitRecord_cuts o _ _ _ h).1
  stable := fun more h => (splitRecord_cuts o _ _ _ h).2 more

/-- What `_consume` does with the records, up to the end-of-data marker. -/
def reader (o : CopyOptions) : Splitter.Consumer Progress Text Row where
  accept := record o
  stopped := Progress.ended

/-- The loop of `_consume`: the rows, what they settled, and the text still pending. -/
def consume (o : CopyOptions) (p : Progress) (pending : Text) : List Row × Progress × Text :=
  (records o).consume (reader o) p pending

structure CopyInDecoder where
  held : List UInt8
  pending : Text
  progress : Progress
deriving DecidableEq, Repr

namespace CopyInDecoder

def start (o : CopyOptions) : CopyInDecoder := ⟨[], [], ⟨false, o.header⟩⟩

/-- None is a `UnicodeDecodeError`. -/
def feed (o : CopyOptions) (d : CopyInDecoder) (data : List UInt8) :
    Option (List Row × CopyInDecoder) :=
  (Utf8.decode d.held data).map fun (text, held) =>
    let (rows, progress, pending) := consume o d.progress (d.pending ++ text)
    (rows, ⟨held, pending, progress⟩)

/-- A last record with no newline is still a record. -/
def leftover (o : CopyOptions) (p : Progress) (pending : Text) : List Row :=
  let text := pending.rdropWhile fun char => char = '\r' || char = '\n'
  if text ≠ [] ∧ p.ended = false then (record o p text).2 else []

/-- The final call of the incremental decoder refuses a truncated character. -/
def finish (o : CopyOptions) (d : CopyInDecoder) : Option (List Row) :=
  if d.held = [] then
    let (rows, progress, pending) := consume o d.progress d.pending
    some (rows ++ leftover o progress pending)
  else none

/-- `feed` on every piece in turn, then `finish`. -/
def decode (o : CopyOptions) (d : CopyInDecoder) : List (List UInt8) → Option (List Row)
  | [] => d.finish o
  | piece :: pieces =>
    (d.feed o piece).bind fun (rows, d') => (decode o d' pieces).map fun later => rows ++ later

end CopyInDecoder

/-- The rows the pieces of one COPY come to. -/
def rowsOf (o : CopyOptions) (pieces : List (List UInt8)) : Option (List Row) :=
  (CopyInDecoder.start o).decode o pieces

end PgMimic.Copy
