import CorpusKit.Domain.Corpora
import CorpusKit.Domain.Errors
import CorpusKit.Library.Csv
import CorpusKit.Library.Lines

/-! # Corpus files

`build_export` and `parse_corpus_upload`: a version is written as text, JSON or
CSV, and an uploaded file of one of these formats is read as sentences.
`json.loads` is the parameter `loads`. -/

namespace CorpusKit

/-- UTF-8. -/
def encodeUtf8 (text : List Char) : List UInt8 := text.flatMap String.utf8EncodeChar

def decodeUtf8 (bytes : List UInt8) : Option (List Char) :=
  bytes.toByteArray.utf8Decode?.map Array.toList

/-- U+FEFF, which the codec `utf-8-sig` takes for a byte order mark at the start. -/
def byteOrderMark : Char := Char.ofNat 0xFEFF

def dropMark : List Char → List Char
  | [] => []
  | c :: text => if c = byteOrderMark then text else c :: text

/-- `bytes.decode("utf-8-sig")`. -/
def decodeUtf8Sig (bytes : List UInt8) : Option (List Char) := (decodeUtf8 bytes).map dropMark

/-- `_CONTROL_CHARACTERS`. -/
def isControl (c : Char) : Bool := c.toNat < 0x20 || c.toNat == 0x7F

/-- The boundaries of `str.splitlines`. -/
def isLineBoundary (c : Char) : Bool :=
  let n := c.toNat
  decide (10 ≤ n ∧ n ≤ 13) || decide (28 ≤ n ∧ n ≤ 30) || n == 0x85 || n == 0x2028 || n == 0x2029

/-! ## Exports -/

inductive CorpusFileFormat
  | txt
  | csv
  | json
  deriving DecidableEq, Repr

structure SentenceSnapshot where
  ordinal : Nat
  originalText : String
  normalizedText : String
  deriving DecidableEq, Repr

/-- What the JSON export says of the corpus and its version. -/
structure ExportedVersion where
  corpusId : String
  corpusName : String
  versionId : String
  versionNumber : Nat
  language : String
  contentSha256 : String
  deriving DecidableEq, Repr

structure ExportedCorpus where
  content : List UInt8
  mediaType : String
  deriving DecidableEq, Repr

/-- `_CSV_FORMULA_PREFIXES`. -/
def csvFormulaPrefixes : List Char := ['=', '+', '-', '@', '\t', '\r']

def isFormula (value : List Char) : Bool := value.head?.any (csvFormulaPrefixes.contains ·)

/-- `_neutralize_csv_formula`. -/
def neutralizeCsvFormula (value : List Char) : List Char :=
  if isFormula value then '\'' :: value else value

/-- The dialect `excel`, read strictly, with the module's field size limit. -/
def excel : Csv.Dialect where
  delimiter := ','
  quote := '"'
  strict := true
  fieldLimit := 131072
  distinct := by decide
  unbroken := by decide

def exportTxt (ordered : List SentenceSnapshot) : List Char :=
  Words.join '\n' (ordered.map fun sentence => sentence.normalizedText.toList) ++ ['\n']

def exportJson (version : ExportedVersion) (ordered : List SentenceSnapshot) : List Char :=
  Json.dumps (.obj [
    ("corpus".toList, .obj [("id".toList, .str version.corpusId.toList),
      ("name".toList, .str version.corpusName.toList)]),
    ("schema_version".toList, .str "corpuskit.corpus-export.v1".toList),
    ("sentences".toList, .arr (ordered.map fun sentence =>
      .obj [("ordinal".toList, .int sentence.ordinal),
        ("text".toList, .str sentence.normalizedText.toList)])),
    ("version".toList, .obj [("content_sha256".toList, .str version.contentSha256.toList),
      ("id".toList, .str version.versionId.toList),
      ("language".toList, .str version.language.toList),
      ("number".toList, .int version.versionNumber)])]) ++ ['\n']

def csvHeader : Csv.Row := ["ordinal".toList, "text".toList]

def csvRow (sentence : SentenceSnapshot) : Csv.Row :=
  [Nat.toDigits 10 sentence.ordinal, neutralizeCsvFormula sentence.normalizedText.toList]

def exportCsv (ordered : List SentenceSnapshot) : List Char :=
  Csv.write excel (csvHeader :: ordered.map csvRow)

/-- `sorted(sentences, key=lambda sentence: sentence.ordinal)`. -/
def inOrder (sentences : List SentenceSnapshot) : List SentenceSnapshot :=
  sentences.insertionSort fun a b => a.ordinal ≤ b.ordinal

/-- `_EXPORT_MEDIA_TYPES`. -/
def exportMediaType : CorpusFileFormat → String
  | .txt => "text/plain; charset=utf-8"
  | .json => "application/json; charset=utf-8"
  | .csv => "text/csv; charset=utf-8"

/-- Encode a version in ordinal order. -/
def buildExport (version : ExportedVersion) (sentences : List SentenceSnapshot)
    (exportFormat : CorpusFileFormat) : ExportedCorpus :=
  let ordered := inOrder sentences
  let content := match exportFormat with
    | .txt => exportTxt ordered
    | .json => exportJson version ordered
    | .csv => exportCsv ordered
  ⟨encodeUtf8 content, exportMediaType exportFormat⟩

/-! ## Imports -/

structure CorpusUpload where
  language : String
  filename : String
  contentType : String
  fileFormat : CorpusFileFormat
  content : List UInt8
  textColumn : Option String

def CorpusFileFormat.value : CorpusFileFormat → String
  | .txt => "txt"
  | .csv => "csv"
  | .json => "json"

/-- `_FORMAT_MEDIA_TYPES`. -/
def formatMediaTypes : CorpusFileFormat → List (List Char)
  | .txt => ["text/plain".toList]
  | .csv => ["text/csv".toList, "application/csv".toList]
  | .json => ["application/json".toList]

/-- `PurePath(filename.replace("\\", "/")).name`. -/
def baseName (filename : List Char) : List Char :=
  let parts := (filename.map fun c => if c = '\\' then '/' else c).splitOn '/'
  ((parts.filter fun part => part ≠ [] ∧ part ≠ ['.']).getLast?).getD []

/-- The checks of the file's name and media type. -/
def acceptsFile (filename contentType : List Char) (fileFormat : CorpusFileFormat) : Bool :=
  let name := baseName filename
  let mediaType := (strip (contentType.takeWhile (· ≠ ';'))).map lowerChar
  !name.isEmpty && !name.any isControl &&
    ('.' :: fileFormat.value.toList).isSuffixOf (name.map lowerChar) &&
    (formatMediaTypes fileFormat).contains mediaType

/-- A row of a `DictReader`: its text, unless it has too many fields or too few. -/
def rowText (headers : Csv.Row) (textColumn : List Char) (row : Csv.Row) : Option (List Char) :=
  if headers.length < row.length then none else row[headers.idxOf textColumn]?

/-- The header row a `DictReader` may have. -/
def acceptsHeaders (headers : Csv.Row) (textColumn : List Char) : Bool :=
  !headers.isEmpty && decide headers.Nodup &&
    !headers.any (fun header => header.isEmpty || header.any isControl) &&
    headers.contains textColumn

/-- `_parse_csv`; the reader skips rows without fields. -/
def parseCsv (decoded textColumn : List Char) (operation : String) :
    Except Error (List (List Char)) :=
  match Csv.readRows excel .fresh (Lines.splitlines Csv.isBreak true decoded) with
  | .error _ | .ok [] => .error (.invalidRequest operation)
  | .ok (headers :: rows) =>
    if acceptsHeaders headers textColumn then
      match (rows.filter fun row => !row.isEmpty).mapM (rowText headers textColumn) with
      | some values => .ok values
      | none => .error (.invalidRequest operation)
    else .error (.invalidRequest operation)

/-- `_parse_json`. -/
def parseJson (loads : List Char → Option Json.Value) (decoded : List Char) (operation : String) :
    Except Error (List (List Char)) :=
  let text : Json.Value → Option (List Char)
    | .str value => some value
    | _ => none
  match loads decoded with
  | some (.obj [(key, .arr items)]) =>
    match items.mapM text with
    | some values =>
      if key = "sentences".toList then .ok values else .error (.invalidRequest operation)
    | none => .error (.invalidRequest operation)
  | _ => .error (.invalidRequest operation)

/-- Validate extension, media type, UTF-8 and a format-specific sentence schema. -/
def parseCorpusUpload (loads : List Char → Option Json.Value) (upload : CorpusUpload)
    (operation : String) : Except Error (List (List Char)) :=
  if acceptsFile upload.filename.toList upload.contentType.toList upload.fileFormat then
    match decodeUtf8Sig upload.content, upload.fileFormat, upload.textColumn with
    | some decoded, .txt, none => .ok (Lines.splitlines isLineBoundary false decoded)
    | some decoded, .csv, some textColumn =>
      if textColumn.toList.any isControl then .error (.invalidRequest operation)
      else parseCsv decoded textColumn.toList operation
    | some decoded, .json, none => parseJson loads decoded operation
    | _, _, _ => .error (.invalidRequest operation)
  else .error (.invalidRequest operation)

/-- The sentences `import_corpus` prepares, before it stores them. -/
def importCorpus (nfc : List Char → List Char) (sha256 : List Char → Sha256)
    (loads : List Char → Option Json.Value) (maxUploadBytes : Nat) (limits : CorpusImportLimits)
    (upload : CorpusUpload) (operation : String) : Except Error PreparedCorpus :=
  if upload.content = [] ∨ maxUploadBytes < upload.content.length then
    .error (.invalidRequest operation)
  else do
    let sentences ← parseCorpusUpload loads upload operation
    match corpusImportRequest upload.language (sentences.map String.ofList) with
    | none => .error (.invalidRequest operation)
    | some request =>
      match prepareCorpus nfc sha256 limits request with
      | .error _ => .error (.invalidRequest operation)
      | .ok prepared => .ok prepared

end CorpusKit
