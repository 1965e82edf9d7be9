import CorpusKit.Library.Lines
import CorpusKit.Library.Words

/-! # Comma-separated values

A writer that quotes only the fields that need it and ends rows with a line
feed, and a reader of lines that works one character at a time. A row of fields
without line breaks is one line, and reading that line gives the row back. -/

namespace Csv

def isBreak (c : Char) : Bool := c == '\n' || c == '\r'

/-- A delimiter, a quote and how strictly they are read. -/
structure Dialect where
  delimiter : Char
  quote : Char
  strict : Bool
  fieldLimit : Nat
  distinct : delimiter ≠ quote
  unbroken : isBreak delimiter = false ∧ isBreak quote = false

abbrev Row := List (List Char)

/-! ## Writing -/

variable (d : Dialect)

/-- The characters a field is quoted for. -/
def isSpecial (c : Char) : Bool := c == d.delimiter || c == d.quote || c == '\n'

/-- Quotes are written twice. -/
def escape : List Char → List Char
  | [] => []
  | c :: text => if c = d.quote then c :: c :: escape text else c :: escape text

def quoted (field : List Char) : List Char := d.quote :: (escape d field ++ [d.quote])

def writeField (field : List Char) : List Char :=
  if field.any (isSpecial d) then quoted d field else field

/-- A row and its line feed; a row of one empty field must not look like no row. -/
def writeRow (row : Row) : List Char :=
  if row = [[]] then quoted d [] ++ ['\n']
  else Words.join d.delimiter (row.map (writeField d)) ++ ['\n']

/-! ## Reading -/

inductive Mode
  | startRecord
  | startField
  | inField
  | inQuoted
  | quoteInQuoted
  | eatBreak
  deriving DecidableEq, Repr

inductive Fault
  | fieldLimit
  | delimiterExpected
  | newlineInField
  | endOfData
  deriving DecidableEq, Repr

/-- The reader within a record: the field it is in and the fields before. -/
structure Reader where
  mode : Mode
  field : List Char
  fields : Row
  deriving DecidableEq, Repr

def Reader.fresh : Reader := ⟨.startRecord, [], []⟩

def Reader.saveField (r : Reader) (mode : Mode) : Reader := ⟨mode, [], r.fields ++ [r.field]⟩

def Reader.addChar (r : Reader) (mode : Mode) (c : Char) : Except Fault Reader :=
  if d.fieldLimit ≤ r.field.length then .error .fieldLimit
  else .ok { r with mode := mode, field := r.field ++ [c] }

def Reader.startField (r : Reader) (c : Char) : Except Fault Reader :=
  if isBreak c then .ok (r.saveField .eatBreak)
  else if c = d.quote then .ok { r with mode := .inQuoted }
  else if c = d.delimiter then .ok (r.saveField .startField)
  else r.addChar d .inField c

/-- One character. -/
def Reader.step (r : Reader) (c : Char) : Except Fault Reader :=
  match r.mode with
  | .startRecord => if isBreak c then .ok { r with mode := .eatBreak } else r.startField d c
  | .startField => r.startField d c
  | .inField =>
    if isBreak c then .ok (r.saveField .eatBreak)
    else if c = d.delimiter then .ok (r.saveField .startField)
    else r.addChar d .inField c
  | .inQuoted => if c = d.quote then .ok { r with mode := .quoteInQuoted } else r.addChar d .inQuoted c
  | .quoteInQuoted =>
    if c = d.quote then r.addChar d .inQuoted c
    else if c = d.delimiter then .ok (r.saveField .startField)
    else if isBreak c then .ok (r.saveField .eatBreak)
    else if d.strict then .error .delimiterExpected
    else r.addChar d .inField c
  | .eatBreak => if isBreak c then .ok r else .error .newlineInField

/-- The characters of a line, one after the other. -/
def Reader.feed (r : Reader) : List Char → Except Fault Reader
  | [] => .ok r
  | c :: text => (r.step d c).bind fun r => r.feed text

/-- The end of a line. -/
def Reader.endLine (r : Reader) : Reader :=
  match r.mode with
  | .startRecord | .inQuoted => r
  | .startField | .inField | .quoteInQuoted => r.saveField .startRecord
  | .eatBreak => { r with mode := .startRecord }

/-- The rows of the lines, from a reader within a record. A record ends with the
line that leaves the reader at the start of one. -/
def readRows (r : Reader) : List (List Char) → Except Fault (List Row)
  | [] =>
    if r.field ≠ [] ∨ r.mode = .inQuoted then
      if d.strict then .error .endOfData else .ok [r.fields ++ [r.field]]
    else .ok []
  | line :: lines =>
    (r.feed d line).bind fun r =>
      if r.endLine.mode = .startRecord then
        (readRows .fresh lines).map fun rows => r.endLine.fields :: rows
      else readRows r.endLine lines

/-! ## Reading what was written -/

variable {d}
variable {r r' : Reader} {field text : List Char} {fields : Row}

theorem Reader.feed_append (left right : List Char) :
    r.feed d (left ++ right) = (r.feed d left).bind fun r => r.feed d right := by
  induction left generalizing r with
  | nil => rfl
  | cons c left ih =>
    show (r.step d c).bind (fun r => r.feed d (left ++ right)) = _
    simp only [ih, Reader.feed]
    cases r.step d c <;> rfl

theorem Reader.feed_cons {c : Char} (h : r.step d c = .ok r') :
    r.feed d (c :: text) = r'.feed d text := by
  show (r.step d c).bind _ = _
  rw [h]
  rfl

theorem Reader.feed_trans {left right : List Char} (h : r.feed d left = .ok r') :
    r.feed d (left ++ right) = r'.feed d right := by
  rw [Reader.feed_append, h]
  rfl

/-- What is neither special nor a line break is kept as it is. -/
structure Ordinary (d : Dialect) (c : Char) : Prop where
  delimiter : c ≠ d.delimiter
  quote : c ≠ d.quote
  unbroken : isBreak c = false

theorem ordinary_of_not_special {c : Char} (hspecial : isSpecial d c = false)
    (hbreak : isBreak c = false) : Ordinary d c := by
  simp only [isSpecial, Bool.or_eq_false_iff, beq_eq_false_iff_ne] at hspecial
  exact ⟨hspecial.1.1, hspecial.1.2, hbreak⟩

/-- Inside an unquoted field ordinary characters are added to it. -/
theorem feed_inField (hordinary : ∀ c ∈ text, Ordinary d c)
    (hlimit : (field ++ text).length ≤ d.fieldLimit) :
    Reader.feed d ⟨.inField, field, fields⟩ text = .ok ⟨.inField, field ++ text, fields⟩ := by
  induction text generalizing field with
  | nil => rw [List.append_nil]; rfl
  | cons c text ih =>
    have hc := hordinary c List.mem_cons_self
    have hroom : ¬ d.fieldLimit ≤ field.length := by
      simp only [List.length_append, List.length_cons] at hlimit
      omega
    have hstep : Reader.step d ⟨.inField, field, fields⟩ c =
        .ok ⟨.inField, field ++ [c], fields⟩ := by
      simp [Reader.step, Reader.addChar, hc.unbroken, hc.delimiter, hroom]
    rw [Reader.feed_cons hstep, ih (fun e he => hordinary e (List.mem_cons_of_mem _ he)) (by simpa using hlimit),
      List.append_assoc, List.singleton_append]

/-- Inside a quoted field an escaped text is added to it. -/
theorem feed_escape (hlimit : (field ++ text).length ≤ d.fieldLimit) :
    Reader.feed d ⟨.inQuoted, field, fields⟩ (escape d text) =
      .ok ⟨.inQuoted, field ++ text, fields⟩ := by
  induction text generalizing field with
  | nil => rw [List.append_nil]; rfl
  | cons c text ih =>
    have hroom : ¬ d.fieldLimit ≤ field.length := by
      simp only [List.length_append, List.length_cons] at hlimit
      omega
    have hrest := @ih (field ++ [c]) (by simpa using hlimit)
    rw [List.append_assoc, List.singleton_append] at hrest
    unfold escape
    split
    · next hquote =>
      -- the quote is read twice and kept once
      have hopen : Reader.step d ⟨.inQuoted, field, fields⟩ c =
          .ok ⟨.quoteInQuoted, field, fields⟩ := by
        simp [Reader.step, hquote]
      have hkept : Reader.step d ⟨.quoteInQuoted, field, fields⟩ c =
          .ok ⟨.inQuoted, field ++ [c], fields⟩ := by
        simp [Reader.step, Reader.addChar, hquote, hroom]
      rw [Reader.feed_cons hopen, Reader.feed_cons hkept]
      exact hrest
    · next hquote =>
      have hstep : Reader.step d ⟨.inQuoted, field, fields⟩ c =
          .ok ⟨.inQuoted, field ++ [c], fields⟩ := by
        simp [Reader.step, Reader.addChar, hquote, hroom]
      rw [Reader.feed_cons hstep]
      exact hrest

/-- A reader that may start a field after `fields`. -/
structure Reader.Starts (r : Reader) (fields : Row) : Prop where
  mode : r.mode = .startRecord ∨ r.mode = .startField
  field : r.field = []
  fields : r.fields = fields

/-- A reader at the end of a field: all of it is read, and it can be saved. -/
structure Reader.Holds (r : Reader) (field : List Char) (fields : Row) : Prop where
  mode : r.mode = .startRecord ∧ field = [] ∨ r.mode = .startField ∨ r.mode = .inField ∨
    r.mode = .quoteInQuoted
  field : r.field = field
  fields : r.fields = fields

theorem Reader.Starts.step (h : r.Starts fields) {c : Char} (hbreak : isBreak c = false) :
    r.step d c = r.startField d c := by
  obtain hmode | hmode := h.mode <;> simp [Reader.step, hmode, hbreak]

theorem feed_quoted (h : r.Starts fields) (hlimit : field.length ≤ d.fieldLimit) :
    r.feed d (quoted d field) = .ok ⟨.quoteInQuoted, field, fields⟩ := by
  have hopen : r.step d d.quote = .ok ⟨.inQuoted, [], fields⟩ := by
    rw [h.step d.unbroken.2, Reader.startField]
    simp [d.unbroken.2, ← h.field, ← h.fields]
  have hclose : Reader.feed d ⟨.inQuoted, field, fields⟩ [d.quote] =
      .ok ⟨.quoteInQuoted, field, fields⟩ := by
    simp [Reader.feed, Reader.step, Except.bind]
  unfold quoted
  rw [Reader.feed_cons hopen, Reader.feed_trans (feed_escape (by simpa using hlimit))]
  exact hclose

/-- A written field is read whole. -/
theorem feed_field (h : r.Starts fields) (hline : ∀ c ∈ field, isBreak c = false)
    (hlimit : field.length ≤ d.fieldLimit) :
    ∃ r', r.feed d (writeField d field) = .ok r' ∧ r'.Holds field fields := by
  unfold writeField
  split
  · exact ⟨_, feed_quoted h hlimit, .inr (.inr (.inr rfl)), rfl, rfl⟩
  · next hplain =>
    have hordinary : ∀ c ∈ field, Ordinary d c := by
      intro c hc
      refine ordinary_of_not_special ?_ (hline c hc)
      rw [List.any_eq_true, not_exists] at hplain
      simpa [hc] using hplain c
    cases field with
    | nil =>
      refine ⟨r, rfl, ?_, h.field, h.fields⟩
      obtain hmode | hmode := h.mode
      · exact .inl ⟨hmode, rfl⟩
      · exact .inr (.inl hmode)
    | cons c field =>
      have hc := hordinary c List.mem_cons_self
      have hroom : ¬ d.fieldLimit ≤ 0 := by
        simp only [List.length_cons] at hlimit
        omega
      have hstep : r.step d c = .ok ⟨.inField, [c], fields⟩ := by
        rw [h.step hc.unbroken, Reader.startField]
        simp [Reader.addChar, hc.unbroken, hc.quote, hc.delimiter, h.field, h.fields, hroom]
      refine ⟨⟨.inField, c :: field, fields⟩, ?_, .inr (.inr (.inl rfl)), rfl, rfl⟩
      rw [Reader.feed_cons hstep]
      exact feed_inField (fun e he => hordinary e (List.mem_cons_of_mem _ he)) hlimit

/-- A delimiter saves the field. -/
theorem Reader.Holds.delimiter (h : r.Holds field fields) :
    r.step d d.delimiter = .ok ⟨.startField, [], fields ++ [field]⟩ := by
  have hbreak := d.unbroken.1
  have hquote := d.distinct
  obtain ⟨hmode, -⟩ | hmode | hmode | hmode := h.mode <;>
    simp [Reader.step, Reader.startField, Reader.saveField, hmode, hbreak, hquote, h.field, h.fields]

/-- So does the end of the row, unless nothing was read of it. -/
theorem Reader.Holds.lineFeed (h : r.Holds field fields) (hmode : r.mode ≠ .startRecord) :
    r.feed d ['\n'] = .ok ⟨.eatBreak, [], fields ++ [field]⟩ := by
  have hbreak : isBreak '\n' = true := by decide
  have hdelimiter : '\n' ≠ d.delimiter := by
    intro hd
    exact Bool.noConfusion (hbreak.symm.trans (hd ▸ d.unbroken.1))
  have hquote : '\n' ≠ d.quote := by
    intro hq
    exact Bool.noConfusion (hbreak.symm.trans (hq ▸ d.unbroken.2))
  obtain ⟨hstart, -⟩ | hmode | hmode | hmode := h.mode
  · exact absurd hstart hmode
  all_goals
    simp [Reader.feed, Reader.step, Reader.startField, Reader.saveField, Except.bind, hmode, hbreak,
      hdelimiter, hquote, h.field, h.fields]

/-- Fields as a line can hold them. -/
structure Fits (d : Dialect) (field : List Char) : Prop where
  line : ∀ c ∈ field, isBreak c = false
  limit : field.length ≤ d.fieldLimit

/-- The fields of a row are read one after the other. Only a lone empty field
leaves the reader at the start of the record. -/
theorem feed_fields {row : Row} (hne : row ≠ []) (h : r.Starts fields)
    (hrow : ∀ field ∈ row, Fits d field) (hsome : r.mode = .startRecord → row ≠ [[]]) :
    r.feed d (Words.join d.delimiter (row.map (writeField d)) ++ ['\n']) =
      .ok ⟨.eatBreak, [], fields ++ row⟩ := by
  induction row generalizing r fields with
  | nil => exact absurd rfl hne
  | cons field row ih =>
    have hfield := hrow field List.mem_cons_self
    obtain ⟨r', hfed, hholds⟩ := feed_field h hfield.line hfield.limit
    cases row with
    | nil =>
      show r.feed d (writeField d field ++ ['\n']) = _
      rw [Reader.feed_trans hfed]
      refine hholds.lineFeed fun hmode => ?_
      -- then nothing was written for the field, and the record has no other
      obtain ⟨-, hnil⟩ | hmode' | hmode' | hmode' := hholds.mode
      · have hwritten : r.feed d [] = .ok r' := by
          rw [hnil] at hfed
          exact hfed
        cases hwritten
        exact hsome hmode (by rw [hnil])
      all_goals
        rw [hmode] at hmode'
        cases hmode'
    | cons next row =>
      show r.feed d ((writeField d field ++ d.delimiter ::
        Words.join d.delimiter ((next :: row).map (writeField d))) ++ ['\n']) = _
      have hrest := ih (r := ⟨.startField, [], fields ++ [field]⟩) (List.cons_ne_nil _ _)
        ⟨.inr rfl, rfl, rfl⟩ (fun f hf => hrow f (List.mem_cons_of_mem _ hf)) nofun
      rw [List.append_assoc, Reader.feed_trans hfed, List.cons_append,
        Reader.feed_cons hholds.delimiter, hrest, List.append_assoc, List.singleton_append]

theorem fresh_starts : Reader.fresh.Starts [] := ⟨.inl rfl, rfl, rfl⟩

/-- Reading a written row. -/
theorem feed_row {row : Row} (hne : row ≠ []) (hrow : ∀ field ∈ row, Fits d field) :
    Reader.fresh.feed d (writeRow d row) = .ok ⟨.eatBreak, [], row⟩ := by
  unfold writeRow
  split
  · next hlone =>
    subst hlone
    have hquoted := @feed_quoted d .fresh [] [] fresh_starts (Nat.zero_le _)
    have hholds : Reader.Holds ⟨.quoteInQuoted, [], []⟩ [] [] :=
      ⟨.inr (.inr (.inr rfl)), rfl, rfl⟩
    rw [Reader.feed_trans hquoted, hholds.lineFeed (by decide)]
    rfl
  · next hlone => exact feed_fields hne fresh_starts hrow fun _ => hlone

theorem mem_escape {c : Char} (h : c ∈ escape d text) : c ∈ text := by
  induction text with
  | nil => exact h
  | cons e text ih =>
    unfold escape at h
    split at h
    · simp only [List.mem_cons] at h
      obtain h | h | h := h
      · exact h ▸ List.mem_cons_self
      · exact h ▸ List.mem_cons_self
      · exact List.mem_cons_of_mem _ (ih h)
    · obtain h | h := List.mem_cons.mp h
      · exact h ▸ List.mem_cons_self
      · exact List.mem_cons_of_mem _ (ih h)

theorem writeField_unbroken (hline : ∀ c ∈ field, isBreak c = false) :
    ∀ c ∈ writeField d field, isBreak c = false := by
  intro c hc
  unfold writeField at hc
  split at hc
  · simp only [quoted, List.mem_cons, List.mem_append, List.not_mem_nil, or_false] at hc
    obtain rfl | hc | rfl := hc
    · exact d.unbroken.2
    · exact hline c (mem_escape hc)
    · exact d.unbroken.2
  · exact hline c hc

/-- A row is written as one line. -/
theorem writeRow_line {row : Row} (hrow : ∀ field ∈ row, Fits d field) :
    ∃ line, writeRow d row = line ++ ['\n'] ∧ ∀ c ∈ line, isBreak c = false := by
  unfold writeRow
  split
  · refine ⟨_, rfl, fun c hc => ?_⟩
    simp only [quoted, escape, List.nil_append, List.mem_cons, List.not_mem_nil, or_false,
      or_self] at hc
    exact hc ▸ d.unbroken.2
  · refine ⟨_, rfl, fun c hc => ?_⟩
    obtain rfl | ⟨written, hwritten, hc⟩ := Words.mem_join hc
    · exact d.unbroken.1
    · obtain ⟨field, hfield, rfl⟩ := List.mem_map.mp hwritten
      exact writeField_unbroken (hrow field hfield).line c hc

/-- The text of the rows. -/
def write (d : Dialect) (rows : List Row) : List Char := rows.flatMap (writeRow d)

/-- The lines of the text are the written rows. -/
theorem splitlines_write {rows : List Row} (hrows : ∀ row ∈ rows, ∀ field ∈ row, Fits d field) :
    Lines.splitlines isBreak true (write d rows) = rows.map (writeRow d) := by
  induction rows with
  | nil => rfl
  | cons row rows ih =>
    have hrest := ih fun row' hrow' => hrows row' (List.mem_cons_of_mem _ hrow')
    obtain ⟨line, hline, hfree⟩ := writeRow_line (hrows row List.mem_cons_self)
    show Lines.splitlines isBreak true (writeRow d row ++ write d rows) = _
    rw [List.map_cons, hline, List.append_assoc, List.singleton_append,
      Lines.splitlines_line (by decide) (by decide) hfree, hrest]
    rfl

/-- **Rows round-trip.** The lines of written rows are read as the rows. -/
theorem readRows_writeRow {rows : List Row}
    (hrows : ∀ row ∈ rows, row ≠ [] ∧ ∀ field ∈ row, Fits d field) :
    readRows d .fresh (rows.map (writeRow d)) = .ok rows := by
  induction rows with
  | nil => rfl
  | cons row rows ih =>
    obtain ⟨hne, hrow⟩ := hrows row List.mem_cons_self
    have hrest := ih fun row' hrow' => hrows row' (List.mem_cons_of_mem _ hrow')
    rw [List.map_cons, readRows, feed_row hne hrow]
    show (readRows d .fresh (rows.map (writeRow d))).map (fun rows => row :: rows) = _
    rw [hrest]
    rfl

/-- The rows of a written text. -/
theorem readRows_write {rows : List Row}
    (hrows : ∀ row ∈ rows, row ≠ [] ∧ ∀ field ∈ row, Fits d field) :
    readRows d .fresh (Lines.splitlines isBreak true (write d rows)) = .ok rows := by
  rw [splitlines_write fun row hrow => (hrows row hrow).2]
  exact readRows_writeRow hrows

end Csv
