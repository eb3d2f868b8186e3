import PgMimic.CopyEndpoint
import PgMimic.CopyLines
import PgMimic.Lib.Outcomes
import PgMimic.Lib.Overlay

/-!
# What an option list asks for

`_parse_options` goes over the items of the list once the format is known, and each lays
its value over what was there. An option reads as the last item of its name, or as the
default of the format where there is none.
-/

namespace PgMimic.Endpoint

open Outcomes (bind_ok foldlM_relates)
open Overlay (latest latest_append)
open PgMimic.Copy (Text CopyOptions Format ToldApart CsvApart Unambiguous escapeLetters encodeRow
  unambiguous_iff)

/-- An option and its value, as `_option_items` lists them. -/
abbrev Item := String × OptionValue

section Resolution

variable (t : TextTables)

/-- The text under a name: its last item, or the default. -/
def asked (items : List Item) (name : String) (default : Text) : Text :=
  ((latest items name).map (str t)).getD default

/-- The options after the items, over what they were before. -/
structure Resolves (items : List Item) (before after : Resolved) : Prop where
  delimiter : [after.delimiter] = asked t items "DELIMITER" [before.delimiter]
  nullString : after.nullString = asked t items "NULL" before.nullString
  header : after.header = ((latest items "HEADER").map fun value => decide (value ≠ .flag false)).getD
    before.header
  quote : [after.quote] = asked t items "QUOTE" [before.quote]
  escape : after.escape.map (fun c => [c]) =
    ((latest items "ESCAPE").map (str t)).or (before.escape.map fun c => [c])

variable {t}

theorem asked_append (items more : List Item) (name : String) (default : Text) :
    asked t (items ++ more) name default = asked t more name (asked t items name default) := by
  rw [asked, asked, asked, latest_append]
  cases latest more name with
  | none => rfl
  | some value => rfl

theorem Resolves.refl (o : Resolved) : Resolves t [] o o := by
  refine ⟨rfl, rfl, rfl, rfl, ?_⟩
  rw [latest, Option.map_none, Option.none_or]

theorem Resolves.append {items more : List Item} {o o' o'' : Resolved} (h : Resolves t items o o')
    (h' : Resolves t more o' o'') : Resolves t (items ++ more) o o'' where
  delimiter := by rw [asked_append, ← h.delimiter, h'.delimiter]
  nullString := by rw [asked_append, ← h.nullString, h'.nullString]
  header := by
    rw [h'.header, h.header, latest_append]
    cases latest more "HEADER" with
    | none => rfl
    | some value => rfl
  quote := by rw [asked_append, ← h.quote, h'.quote]
  escape := by
    rw [h'.escape, h.escape, latest_append]
    cases latest more "ESCAPE" with
    | none => rfl
    | some value => rfl

theorem singleCharacter_ok {name : String} {value : OptionValue} {c : Char}
    (h : singleCharacter t name value = .ok c) : str t value = [c] := by
  rw [singleCharacter] at h
  split at h
  · rename_i d text
    rw [text, Except.ok.inj h]
  · cases h

/-- One item sets the option of its name and no other. -/
theorem applyOption_resolves {o o' : Resolved} {item : Item} (h : applyOption t o item = .ok o') :
    Resolves t [item] o o' := by
  obtain ⟨name, value⟩ := item
  simp only [applyOption] at h
  split_ifs at h with format delimiter null header isMatch quote escape encoding known
  · obtain rfl := Except.ok.inj h
    simp only [List.mem_cons, List.not_mem_nil, or_false] at format
    rcases format with rfl | rfl | rfl
    all_goals exact ⟨rfl, rfl, rfl, rfl, rfl⟩
  · obtain ⟨c, one, same⟩ := bind_ok.mp h
    obtain rfl := Except.ok.inj same
    obtain rfl := delimiter
    exact ⟨(singleCharacter_ok one).symm, rfl, rfl, rfl, rfl⟩
  · obtain rfl := Except.ok.inj h
    obtain rfl := null
    exact ⟨rfl, rfl, rfl, rfl, rfl⟩
  · obtain rfl := Except.ok.inj h
    obtain rfl := header
    exact ⟨rfl, rfl, rfl, rfl, rfl⟩
  · obtain ⟨c, one, same⟩ := bind_ok.mp h
    obtain rfl := Except.ok.inj same
    obtain rfl := quote
    exact ⟨rfl, rfl, rfl, (singleCharacter_ok one).symm, rfl⟩
  · obtain ⟨c, one, same⟩ := bind_ok.mp h
    obtain rfl := Except.ok.inj same
    obtain rfl := escape
    exact ⟨rfl, rfl, rfl, rfl, congrArg some (singleCharacter_ok one).symm⟩
  · obtain rfl := Except.ok.inj h
    obtain rfl := encoding
    exact ⟨rfl, rfl, rfl, rfl, rfl⟩

theorem foldlM_resolves {items : List Item} {o o' : Resolved}
    (run : items.foldlM (applyOption t) o = .ok o') : Resolves t items o o' :=
  foldlM_relates Resolves.refl applyOption_resolves Resolves.append run

/-! ## The options of a list -/

/-- What the options are before any item. -/
def defaults (csv : Bool) : Resolved :=
  { delimiter := if csv then ',' else '\t', nullString := if csv then [] else ['\\', 'N'] }

/-- The options as `_parse_options` returns them. -/
def resolved (csv : Bool) (o : Resolved) : CopyOptions :=
  { format := if csv then .csv else .text, delimiter := o.delimiter, nullString := o.nullString,
    header := o.header, quote := o.quote, escape := o.escape.getD o.quote }

def formatName (csv : Bool) : Text := if csv then "csv".toList else "text".toList

theorem parseOptions_ok_iff {text : Text} {items : List Item} {o : CopyOptions}
    (read : optionItems t text = .ok items) : parseOptions t text = .ok o ↔
      ∃ csv r, formatOf t items = formatName csv ∧
        items.foldlM (applyOption t) (defaults csv) = .ok r ∧
        (csv = false → ∀ item ∈ items, item.1 ∉ ["QUOTE", "ESCAPE"]) ∧ o = resolved csv r := by
  have listed : parseOptions t text =
      if formatOf t items = "binary".toList then .error binaryCopy
      else if formatOf t items ≠ "text".toList ∧ formatOf t items ≠ "csv".toList then
        .error (syntaxError ("COPY format \"" ++ String.ofList (formatOf t items) ++ "\" does not exist"))
      else (do
        let csv := decide (formatOf t items = "csv".toList)
        let r ← items.foldlM (applyOption t) (defaults csv)
        if csv = false ∧ (∃ item ∈ items, item.1 ∈ ["QUOTE", "ESCAPE"]) then
          .error (unsupported "COPY quote/escape available only in CSV mode")
        else .ok (resolved csv r)) := by
    rw [parseOptions, read]
    rfl
  rw [listed]
  constructor
  · intro h
    split_ifs at h with binary other
    obtain ⟨r, run, h⟩ := bind_ok.mp h
    split_ifs at h with mixed
    refine ⟨_, r, ?_, run, ?_, (Except.ok.inj h).symm⟩
    · by_cases csv : formatOf t items = "csv".toList
      · simp [csv, formatName]
      · have text : formatOf t items = "text".toList := by tauto
        simp [text, formatName]
    · intro csv item inside named
      exact mixed ⟨csv, item, inside, named⟩
  · rintro ⟨csv, r, format, run, unquoted, rfl⟩
    have binary : formatName csv ≠ "binary".toList := by cases csv <;> decide
    have known : ¬ (formatName csv ≠ "text".toList ∧ formatName csv ≠ "csv".toList) := by
      cases csv <;> decide
    have decided : decide (formatName csv = "csv".toList) = csv := by cases csv <;> decide
    rw [format, if_neg binary, if_neg known]
    simp only [decided]
    refine bind_ok.mpr ⟨r, run, ?_⟩
    rw [if_neg]
    rintro ⟨csv, item, inside, named⟩
    exact unquoted csv item inside named

/-! ## Statements whose lines tell the rows apart -/

/-- What the list asks for leaves no two rows alike: in text a delimiter that is no letter of an
escape, in CSV one that is not the quote, unless another character escapes the quote and no field
is empty without quotes. -/
def AskedApart (t : TextTables) (items : List Item) : Prop :=
  if formatOf t items = "csv".toList then
    asked t items "DELIMITER" [','] ≠ asked t items "QUOTE" ['"'] ∨
      asked t items "ESCAPE" (asked t items "QUOTE" ['"']) ≠ asked t items "QUOTE" ['"'] ∧
        (asked t items "NULL" [] = [] ∨
          asked t items "ESCAPE" (asked t items "QUOTE" ['"']) ∈ [['\n'], ['\r']])
  else asked t items "DELIMITER" ['\t'] ∉ escapeLetters.map fun c => [c]

theorem toldApart_resolved_iff {items : List Item} {csv : Bool} {r : Resolved}
    (format : formatOf t items = formatName csv) (run : Resolves t items (defaults csv) r) :
    ToldApart (resolved csv r) ↔ AskedApart t items := by
  obtain ⟨delimiter, nullString, -, quote, escape⟩ := run
  cases csv with
  | false =>
    have other : formatOf t items ≠ "csv".toList := by rw [format]; decide
    have asks : asked t items "DELIMITER" ['\t'] = [r.delimiter] := delimiter.symm
    rw [AskedApart, if_neg other, asks, List.mem_map]
    constructor
    · rintro apart ⟨c, letter, same⟩
      obtain rfl := (List.cons.inj same).1
      exact apart letter
    · intro apart letter
      exact apart ⟨r.delimiter, letter, rfl⟩
  | true =>
    have asksDelimiter : asked t items "DELIMITER" [','] = [r.delimiter] := delimiter.symm
    have asksQuote : asked t items "QUOTE" ['"'] = [r.quote] := quote.symm
    have asksNull : asked t items "NULL" [] = r.nullString := nullString.symm
    have asksEscape : asked t items "ESCAPE" [r.quote] = [r.escape.getD r.quote] := by
      have given : r.escape.map (fun c => [c]) = (latest items "ESCAPE").map (str t) :=
        escape.trans Option.or_none
      rw [asked, ← given]
      cases r.escape with
      | none => rfl
      | some c => rfl
    have single : ∀ c d : Char, [c] = [d] ↔ c = d := fun c d => by simp
    have isCsv : formatOf t items = "csv".toList := format
    rw [AskedApart, if_pos isCsv, asksDelimiter, asksQuote, asksNull, asksEscape]
    simp only [ToldApart, CsvApart, resolved, if_true, Ne, single, List.mem_cons, List.not_mem_nil,
      or_false]

end Resolution

theorem parseOptions_of_parseCopy {t : TextTables} {sql target text : Text} {direction : Direction}
    {parsed : ParsedCopy} (found : findEndpoint t sql = some (direction, target, text))
    (accepted : parseCopy t sql = .ok (some parsed)) :
    parseOptions t text = .ok parsed.options := by
  simp only [parseCopy, found] at accepted
  obtain ⟨o, options, same⟩ := bind_ok.mp accepted
  rw [options, ← Option.some.inj (Except.ok.inj same)]

/-- A statement `parse_copy` accepts gives different rows different lines exactly if what its
option list asks for keeps them apart. -/
theorem parseCopy_unambiguous_iff {t : TextTables} {sql target text : Text} {direction : Direction}
    {items : List Item} {parsed : ParsedCopy}
    (found : findEndpoint t sql = some (direction, target, text))
    (read : optionItems t text = .ok items) (accepted : parseCopy t sql = .ok (some parsed)) :
    Unambiguous parsed.options ↔ AskedApart t items := by
  have options := parseOptions_of_parseCopy found accepted
  obtain ⟨csv, r, format, run, _, same⟩ := (parseOptions_ok_iff read).mp options
  rw [unambiguous_iff, same]
  exact toldApart_resolved_iff format (foldlM_resolves run)

/-- `COPY t TO STDOUT (DELIMITER '|')`. -/
def pipeDelimited : Text := "COPY t TO STDOUT (DELIMITER '|')".toList

theorem pipeDelimited_unambiguous :
    parseCopy asciiTables pipeDelimited =
        .ok (some ⟨.copyOut, some ['t'], none, { delimiter := '|' }⟩) ∧
      Unambiguous { delimiter := '|' } := by
  have found : findEndpoint asciiTables pipeDelimited =
      some (.copyOut, ['t'], "(DELIMITER '|')".toList) := by decide +kernel
  have read : optionItems asciiTables "(DELIMITER '|')".toList =
      .ok [("DELIMITER", .text ['|'])] := by decide +kernel
  have accepted : parseCopy asciiTables pipeDelimited =
      .ok (some ⟨.copyOut, some ['t'], none, { delimiter := '|' }⟩) := by decide +kernel
  refine ⟨accepted, (parseCopy_unambiguous_iff found read accepted).mpr ?_⟩
  unfold AskedApart
  decide +kernel

/-- `COPY t TO STDOUT (DELIMITER 'n')`. -/
def letterDelimited : Text := "COPY t TO STDOUT (DELIMITER 'n')".toList

/-- The delimiter in a field is escaped as a newline is. -/
theorem letterDelimited_collides :
    parseCopy asciiTables letterDelimited =
        .ok (some ⟨.copyOut, some ['t'], none, { delimiter := 'n' }⟩) ∧
      encodeRow { delimiter := 'n' } ([['n']].map some) =
        encodeRow { delimiter := 'n' } ([['\n']].map some) ∧
      ¬ Unambiguous { delimiter := 'n' } := by
  have same : encodeRow { delimiter := 'n' } ([['n']].map some) =
      encodeRow { delimiter := 'n' } ([['\n']].map some) := by decide +kernel
  exact ⟨by decide +kernel, same, fun apart => apart [['n']] [['\n']] (by decide) (by decide)
    (by decide) same⟩

end PgMimic.Endpoint
