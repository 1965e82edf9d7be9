import CorpusKit.Services.Exports
import Mathlib.Data.List.DropRight

/-! # Download names

The names artifacts and exports are downloaded under, and the header that carries
them. The compatibility decomposition of a name can be longer than the name, so a
name is cut to its limit after everything else. -/

namespace CorpusKit.Filenames

def maxFilenameBytes : Nat := 255

/-- What `_UNSAFE_FILENAME` leaves alone. -/
def isFilenameChar (c : Char) : Bool := c.isAlphanum || ['.', '_', '-'].contains c

def formulaPrefixes : List Char := ['=', '+', '-', '@', '\t', '\r']

/-- `encode("ascii", "ignore")`. -/
def asciiOnly (text : List Char) : List Char := text.filter fun c => decide (c.toNat < 128)

/-- `_UNSAFE_FILENAME.sub("-", text)`: a dash for every run of other characters. -/
def replaceUnsafe (inRun : Bool) : List Char → List Char
  | [] => []
  | c :: text =>
    if isFilenameChar c then c :: replaceUnsafe false text
    else if inRun then replaceUnsafe true text
    else '-' :: replaceUnsafe true text

/-- `strip(characters)`. -/
def strip (p : Char → Bool) (text : List Char) : List Char := (text.dropWhile p).rdropWhile p

def isDot (c : Char) : Bool := c == '.'

/-- The names `safe_download_filename` refuses. -/
def isUnsafeName (value : List Char) : Bool :=
  value.isEmpty || decide (maxFilenameBytes < (encodeUtf8 value).length) || value.any isControl ||
    value.contains '/' || value.contains '\\' || value == ['.'] || value == ['.', '.']

/-- The name before it is cut. -/
def cleanedName (nfkd : List Char → List Char) (value : List Char) : List Char :=
  let normalized := strip isDot (replaceUnsafe false (asciiOnly (nfkd value)))
  let normalized := if normalized.isEmpty then "artifact.bin".toList else normalized
  if normalized.head?.any (formulaPrefixes.contains ·) then
    '_' :: normalized.dropWhile (['=', '+', '-', '@'].contains ·)
  else normalized

/-- `safe_download_filename`, none for its `ValueError`; `nfkd` is the platform's
`unicodedata.normalize("NFKD", _)`. -/
def safeDownloadFilename (nfkd : List Char → List Char) (value : List Char) : Option (List Char) :=
  if isUnsafeName value then none else some ((cleanedName nfkd value).take maxFilenameBytes)

/-! ## The header -/

def hexDigits : List Char := "0123456789ABCDEF".toList

/-- The characters `quote(_, safe="")` does not escape. -/
def isUnreserved (c : Char) : Bool := c.isAlphanum || ['_', '.', '-', '~'].contains c

def quoteByte (byte : UInt8) : List Char :=
  if isUnreserved (Char.ofNat byte.toNat) && decide (byte.toNat < 128) then [Char.ofNat byte.toNat]
  else ['%', hexDigits.getD (byte.toNat / 16) '0', hexDigits.getD (byte.toNat % 16) '0']

/-- `quote(text, safe="")`. -/
def quote (text : List Char) : List Char := (encodeUtf8 text).flatMap quoteByte

def dispositionHead : List Char := "attachment; filename=\"".toList

def dispositionMiddle : List Char := "\"; filename*=UTF-8''".toList

def disposition (filename encoded : List Char) : List Char :=
  dispositionHead ++ filename ++ dispositionMiddle ++ encoded

/-- `content_disposition`. -/
def contentDisposition (nfkd : List Char → List Char) (filename : List Char) : Option (List Char) :=
  (safeDownloadFilename nfkd filename).map fun safe => disposition safe (quote safe)

/-- What `_download_name` takes from the platform. -/
structure Unicode where
  nfkc : List Char → List Char
  nfkd : List Char → List Char
  /-- The categories Cc and Cf. -/
  isControlOrFormat : Char → Bool

def isDashOrDot (c : Char) : Bool := c == '.' || c == '-'

/-- Quotation marks, separators of paths and of header parameters. -/
def droppedCharacters : List Char := ['"', '\'', '/', '\\', ';']

/-- The Unicode stem of an export. -/
def exportStem (unicode : Unicode) (name : List Char) : List Char :=
  let joined := Words.join '-' (Words.words isSpace (unicode.nfkc name))
  let kept := strip isDashOrDot (joined.filter fun c =>
    !(droppedCharacters.contains c) && !unicode.isControlOrFormat c)
  (if kept.isEmpty then "corpus".toList else kept).take 80

def exportSuffix (versionNumber : Nat) (format : CorpusFileFormat) : List Char :=
  "-v".toList ++ Nat.toDigits 10 versionNumber ++ '.' :: format.value.toList

/-- The ASCII file name of an export. -/
def exportFilename (unicode : Unicode) (name : List Char) (versionNumber : Nat)
    (format : CorpusFileFormat) : List Char :=
  let stem := strip isDashOrDot
    (replaceUnsafe false (asciiOnly (unicode.nfkd (exportStem unicode name))))
  (if stem.isEmpty then "corpus".toList else stem).take 60 ++ exportSuffix versionNumber format

/-- The header of `_download_name`. -/
def exportDisposition (unicode : Unicode) (name : List Char) (versionNumber : Nat)
    (format : CorpusFileFormat) : List Char :=
  disposition (exportFilename unicode name versionNumber format)
    (quote (exportStem unicode name ++ exportSuffix versionNumber format))

/-! ## The web proxy -/

/-- `[A-Za-z0-9._~%+-]`. -/
def isEncodedChar (c : Char) : Bool := c.isAlphanum || ['.', '_', '~', '%', '+', '-'].contains c

/-- `contentDispositionPattern.test`. The quotation mark ends the only run of name
characters that can match. -/
def matchesDisposition (value : List Char) : Bool :=
  dispositionHead.isPrefixOf value &&
    let rest := value.drop dispositionHead.length
    let filename := rest.takeWhile isFilenameChar
    let rest := rest.drop filename.length
    decide (1 ≤ filename.length ∧ filename.length ≤ 128) && dispositionMiddle.isPrefixOf rest &&
      let encoded := rest.drop dispositionMiddle.length
      encoded.all isEncodedChar && decide (1 ≤ encoded.length ∧ encoded.length ≤ 1024)

/-- The header the proxy passes on. -/
def forwarded (header : List Char) : Option (List Char) :=
  if !header.isEmpty && matchesDisposition header then some header else none

end CorpusKit.Filenames
