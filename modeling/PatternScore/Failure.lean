import PatternScore.Text.Digit
import PatternScore.Text.Quoted
import PatternScore.Text.Utf8

/-!
# What can go wrong

`Failure` lists the causes for which a step of a conversion gives no result, over all stages, so
that a failure can pass from any stage to the caller unchanged. `Failure.message` is the one place
where a cause gets its wording, and `Failure.kind` sorts the causes by what a caller does about
them: input that cannot be used ends a conversion, a bar grid that cannot be built drops one voice.
-/

namespace PatternScore

/-- What a failure is about. -/
inductive FailureKind where
  /-- The document cannot be turned into events. -/
  | source
  /-- The header gives no usable bar grid. -/
  | configuration
  /-- A value is outside what its place allows. -/
  | value
  /-- A bar literal is not in the notation. -/
  | literal
  /-- A division by zero. -/
  | division
  /-- A number too large for its place. -/
  | overflow
  /-- A name that is in no table. -/
  | lookup
  /-- A position outside its list. -/
  | position
  /-- A value of the wrong shape. -/
  | shape
  /-- A value without the parts that are asked of it. -/
  | member
  /-- A key signature of a recording that names no key. -/
  | signature
  /-- The system refused. -/
  | system
  /-- An encoding that is not known as one of texts. -/
  | encoding
  /-- Characters that an encoding has no place for. -/
  | characters
  /-- Bytes that are no characters. -/
  | decoding
  /-- A feature that is not supported. -/
  | unsupported
  /-- Compressed bytes that are damaged. -/
  | compression
  /-- Bytes compressed in another way that are damaged. -/
  | rangeCompression
  /-- Bytes that end too early. -/
  | truncation
  /-- Values that stand too deep within each other. -/
  | depth
  /-- Any other report of a document. -/
  | runtime
  deriving DecidableEq, Repr

/-- The word for a failure that has no message of its own. -/
def FailureKind.word : FailureKind → String
  | .source => "SourceError"
  | .configuration => "ConfigurationError"
  | .value => "ValueError"
  | .literal => "MiniNotationError"
  | .division => "ZeroDivisionError"
  | .overflow => "OverflowError"
  | .lookup => "KeyError"
  | .position => "IndexError"
  | .shape => "TypeError"
  | .member => "AttributeError"
  | .signature => "KeySignatureError"
  | .system => "OSError"
  | .encoding => "LookupError"
  | .characters => "UnicodeError"
  | .decoding => "UnicodeDecodeError"
  | .unsupported => "NotImplementedError"
  | .compression => "error"
  | .rangeCompression => "LZMAError"
  | .truncation => "EOFError"
  | .depth => "RecursionError"
  | .runtime => "RuntimeError"

/-- Why a document cannot be turned into events. -/
inductive SourceFailure where
  /-- No extension that names a format. -/
  | unsupportedFile (extension : String)
  /-- A MIDI file is missing or malformed. -/
  | unreadableMidi (path : String)
  /-- A score file is missing or malformed. -/
  | unreadableScore (path : String)
  /-- A tune file is missing or malformed. -/
  | unreadableTune (path : String)
  /-- A compressed score holds no score. -/
  | noScoreInside (path : String)
  /-- A list of tunes is empty. -/
  | noTunes (path : String)
  /-- A tune file holds something else. -/
  | unexpectedTune (path : String)
  /-- A tune without music. -/
  | noMusicLines
  /-- A recording without tracks. -/
  | noTracks
  /-- A recording without audible notes. -/
  | noNotes
  /-- A score without text. -/
  | emptyScore
  /-- A score that is not well-formed. -/
  | malformedScore
  /-- A score of another layout, whose root element is given. -/
  | unexpectedRoot (tag : String)
  /-- A score without parts. -/
  | noParts
  /-- A time signature that cannot be read, and why. -/
  | unreadableMeter (reason : String)
  /-- A key signature that cannot be read, and why. -/
  | unreadableSignature (reason : String)
  /-- A key that cannot be read, and why. -/
  | unreadableKey (reason : String)
  deriving DecidableEq, Repr

/-- The wording of a source failure. -/
def SourceFailure.message : SourceFailure → String
  | .unsupportedFile extension =>
    "Unsupported file type " ++ Text.quoted extension ++
      "; expected one of ['.json', '.mid', '.midi', '.musicxml', '.mxl', '.xml']"
  | .unreadableMidi path => "Cannot read MIDI file " ++ path
  | .unreadableScore path => "Cannot read MusicXML file " ++ path
  | .unreadableTune path => "Cannot read parsed ABC tune " ++ path
  | .noScoreInside path => "No score found inside " ++ path
  | .noTunes path => "No tunes in " ++ path
  | .unexpectedTune path => "Unexpected parsed tune in " ++ path
  | .noMusicLines => "ABC tune has no music lines"
  | .noTracks => "MIDI file has no tracks"
  | .noNotes => "MIDI file contains no notes"
  | .emptyScore => "Empty MusicXML input"
  | .malformedScore => "Malformed MusicXML"
  | .unexpectedRoot tag => "Expected <score-partwise>, got <" ++ tag ++ ">"
  | .noParts => "Score has no parts"
  | .unreadableMeter reason => "Unreadable time signature: " ++ reason
  | .unreadableSignature reason => "Unreadable key signature: " ++ reason
  | .unreadableKey reason => "Unreadable key: " ++ reason

/-- Why the encoding that a document declares cannot be used. -/
inductive EncodingFailure where
  /-- No encoding of the name is known. -/
  | unknown (name : String)
  /-- What is known by the name writes no texts. -/
  | notOfText (name : String)
  /-- A character takes several bytes. -/
  | wide
  /-- The encoding of the names of hosts, which does not pass over what it cannot read. -/
  | hostNames (name : String)
  /-- The encoding of the parts of such names, which has no bytes beyond ASCII. -/
  | hostLabels
  /-- The encoding that refuses everything. -/
  | undefined (name : String)
  deriving DecidableEq, Repr

namespace EncodingFailure

/-- What the failure is about. -/
def kind : EncodingFailure → FailureKind
  | unknown _ | notOfText _ => .encoding
  | wide => .value
  | hostNames _ | undefined _ => .characters
  | hostLabels => .decoding

/-- The wording of the failure. -/
def message : EncodingFailure → String
  | unknown name => "unknown encoding: " ++ name
  | notOfText name =>
    "'" ++ String.ofList (name.toList.take 400) ++
      "' is not a text encoding; use codecs.decode() to handle arbitrary codecs"
  | wide => "multi-byte encodings are not supported"
  | hostNames name =>
    "decoding with '" ++ name ++
      "' codec failed (UnicodeError: Unsupported error handling replace)"
  | hostLabels =>
    "'ascii' codec can't decode byte 0x80 in position 82: ordinal not in range(128)"
  | undefined name =>
    "decoding with '" ++ name ++ "' codec failed (UnicodeError: undefined encoding)"

end EncodingFailure

/-- What is wrong with compressed data of blocks. -/
inductive DeflateFault where
  /-- A block of no known kind. -/
  | blockType
  /-- The length of a stored block and its complement do not fit. -/
  | storedLengths
  /-- A code for more symbols than there are. -/
  | tooManySymbols
  /-- The lengths of the code for lengths make no code. -/
  | lengthsSet
  /-- A run of lengths without a first one, or past the last. -/
  | lengthRepeat
  /-- A block that cannot end. -/
  | noBlockEnd
  /-- The lengths of the code for bytes and lengths make no code. -/
  | literalsSet
  /-- The lengths of the code for distances make no code. -/
  | distancesSet
  /-- Bits that stand for no byte and no length. -/
  | literalCode
  /-- Bits that stand for no distance. -/
  | distanceCode
  /-- A distance to before the first byte. -/
  | distanceTooFar
  deriving DecidableEq, Repr

/-- The wording of the fault. -/
def DeflateFault.message : DeflateFault → String
  | blockType => "invalid block type"
  | storedLengths => "invalid stored block lengths"
  | tooManySymbols => "too many length or distance symbols"
  | lengthsSet => "invalid code lengths set"
  | lengthRepeat => "invalid bit length repeat"
  | noBlockEnd => "invalid code -- missing end-of-block"
  | literalsSet => "invalid literal/lengths set"
  | distancesSet => "invalid distances set"
  | literalCode => "invalid literal/length code"
  | distanceCode => "invalid distance code"
  | distanceTooFar => "invalid distance too far back"

/-- Why a member of an archive cannot be taken out, if the archive is not simply damaged. -/
inductive ArchiveFailure where
  /-- A name is not in UTF-8, although it says so. -/
  | nameBytes (failure : Text.Utf8Failure)
  /-- A version that is not known yet, in tenths. -/
  | version (tenths : Nat)
  /-- The member is given as a patch. -/
  | patched
  /-- The member is encrypted, and the directory with it. -/
  | stronglyEncrypted
  /-- The member is encrypted. -/
  | encrypted (name : String)
  /-- The member is compressed in a way that is not known. -/
  | method
  /-- The compressed data is damaged. -/
  | deflated (fault : DeflateFault)
  /-- The parameters of the range code make no sense. -/
  | rangeOptions
  /-- The data in the range code is damaged. -/
  | rangeData
  /-- The archive ends within the member. -/
  | truncated
  deriving DecidableEq, Repr

namespace ArchiveFailure

/-- What the failure is about. -/
def kind : ArchiveFailure → FailureKind
  | nameBytes _ => .decoding
  | version _ | patched | stronglyEncrypted | method => .unsupported
  | encrypted _ => .runtime
  | deflated _ => .compression
  | rangeOptions | rangeData => .rangeCompression
  | truncated => .truncation

/-- The wording of the failure. -/
def message : ArchiveFailure → String
  | nameBytes failure => failure.message
  | version tenths => "zip file version " ++ Text.nat (tenths / 10) ++ "." ++ Text.nat (tenths % 10)
  | patched => "compressed patched data (flag bit 5)"
  | stronglyEncrypted => "strong encryption (flag bit 6)"
  | encrypted name =>
    "File " ++ Text.quoted name ++ " is encrypted, password required for extraction"
  | method => "That compression method is not supported"
  | deflated fault => "Error -3 while decompressing data: " ++ fault.message
  | rangeOptions => "Invalid or unsupported options"
  | rangeData => "Corrupt input data"
  | truncated => ""

end ArchiveFailure

/-- Why a step of a conversion gives no result. -/
inductive Failure where
  /-- The document cannot be turned into events. -/
  | source (reason : SourceFailure)
  /-- A meter whose numerator or denominator is not positive. -/
  | degenerateMeter (numerator denominator : Int)
  /-- A tempo that is not positive. -/
  | tempoNotPositive (tempo : String)
  /-- A bar length that is not positive. -/
  | barLengthNotPositive (length : String)
  /-- A negative tolerance. -/
  | toleranceNegative (tolerance : String)
  /-- Division of a measured quantity by zero. -/
  | divisionByZero
  /-- Division of an integer by zero. -/
  | integerDivisionByZero
  /-- Rounding of what is not a number. -/
  | notANumber
  /-- Rounding of infinity. -/
  | infinite
  /-- An integer beyond the range of the number type. -/
  | integerTooLarge
  /-- A quotient of integers beyond the range of the number type. -/
  | quotientTooLarge
  /-- A text that is no integer. -/
  | notAnInteger (text : String)
  /-- An integer of more digits than are read. -/
  | tooManyDigits (count : Nat)
  /-- A text that is no decimal. -/
  | notADecimal (text : String)
  /-- A tonic that no note name spells. -/
  | unknownRoot (root : String)
  /-- A mode other than major and minor. -/
  | unknownMode (mode : String)
  /-- A key text that begins with no note letter. -/
  | unreadableKey (text : String)
  /-- A key signature of more than seven sharps or flats. -/
  | signatureOutOfRange (fifths : Int)
  /-- A name that is missing from the table it is looked up in. -/
  | unknownName (name : String)
  /-- A code that is missing from the table it is looked up in. -/
  | unknownCode (code : Nat)
  /-- A way of measuring durations that does not exist. -/
  | unknownQuantizeMode (mode : String)
  /-- A way of finding chords that does not exist. -/
  | unknownChordMode (mode : String)
  /-- A setting for the way of finding chords that does not exist. -/
  | chordModeSetting (mode : String)
  /-- A setting for the way of measuring durations that does not exist. -/
  | quantizeModeSetting (mode : String)
  /-- A limit of the search for units below one. -/
  | limitsTooSmall
  /-- A step of a bar literal that is not in the notation. -/
  | unreadableStep (step : String)
  /-- A step of a bar literal that takes no time. -/
  | weightNotPositive (step : String)
  /-- A composition of no voices. -/
  | noVoices
  /-- A section that reaches past the last bar. -/
  | noSuchBar
  /-- A note without pitches. -/
  | noPitch
  /-- A message of a recording with too few bytes. -/
  | shortMessage
  /-- A number of a message that takes more than seven bits. -/
  | notADataByte
  /-- A channel that does not exist. -/
  | notAChannel
  /-- A number of a message about the track that is not between its bounds. -/
  | attributeOutOfRange (least greatest : Int)
  /-- The lower number of a meter that is no power of two. -/
  | notAPowerOfTwo
  /-- A key that has no signature. -/
  | invalidKey (name : String)
  /-- A settings file that cannot be read. -/
  | unreadableSettings
  /-- A value of the given kind in the place of a pattern. -/
  | unrenderable (kind : String)
  /-- A value of the given kind in the place of a number. -/
  | notNumeric (kind : String)
  /-- A value of the given kind in the place of a decimal. -/
  | notDecimal (kind : String)
  /-- A value of the given kind in the place of an object, and the part that was asked of it. -/
  | notAnObject (kind part : String)
  /-- A value of the given kind in the place of a list. -/
  | notAList (kind : String)
  /-- A text that is asked for a member. -/
  | textByName
  /-- A list that is asked for a member. -/
  | listByName
  /-- A value of the given kind, which has no parts, that is asked for a member. -/
  | noMembers (kind : String)
  /-- A value of the given kind that no table can be searched for. -/
  | noEntry (kind : String)
  /-- A value of the given kind in the place of a text. -/
  | notText (kind : String)
  /-- Values of two kinds that are compared by a sign, but have no order. -/
  | notOrdered (sign left right : String)
  /-- A value of the given kind that a measured quantity is multiplied by. -/
  | notAFactor (kind : String)
  /-- A value of the given kind in the place of a whole number. -/
  | notWhole (kind : String)
  /-- A key signature of a recording, in sharps or flats, that names no key. -/
  | recordedSignature (fifths : Int) (mode : Nat)
  /-- An encoding that cannot be used. -/
  | encoding (reason : EncodingFailure)
  /-- A member of an archive that cannot be taken out. -/
  | archive (reason : ArchiveFailure)
  /-- JSON values that stand too deep within each other, and what the last of them is. -/
  | tooDeep (nest : String)
  /-- A text that is not in UTF-8. -/
  | notUtf8 (failure : Text.Utf8Failure)
  /-- What a document itself reports. -/
  | reported (kind : FailureKind) (message : String)
  deriving DecidableEq, Repr

namespace Failure

open Text

/-- What a failure is about. -/
def kind : Failure → FailureKind
  | source _ => .source
  | degenerateMeter .. | tempoNotPositive _ | barLengthNotPositive _ | toleranceNegative _ =>
    .configuration
  | divisionByZero | integerDivisionByZero => .division
  | infinite | integerTooLarge | quotientTooLarge => .overflow
  | notANumber | notAnInteger _ | tooManyDigits _ | notADecimal _ | unknownRoot _ | unknownMode _
  | unreadableKey _ | signatureOutOfRange _ | unknownQuantizeMode _ | unknownChordMode _
  | chordModeSetting _ | quantizeModeSetting _ | limitsTooSmall | noVoices | notADataByte
  | notAChannel | attributeOutOfRange .. | notAPowerOfTwo | invalidKey _ => .value
  | unknownName _ | unknownCode _ => .lookup
  | unreadableStep _ | weightNotPositive _ => .literal
  | noSuchBar | noPitch | shortMessage => .position
  | unreadableSettings => .runtime
  | unrenderable _ | notNumeric _ | notDecimal _ | notAList _ | textByName | listByName
  | noMembers _ | noEntry _ | notText _ | notOrdered .. | notAFactor _ | notWhole _ => .shape
  | notAnObject .. => .member
  | recordedSignature .. => .signature
  | encoding reason => reason.kind
  | archive reason => reason.kind
  | tooDeep _ => .depth
  | notUtf8 _ => .decoding
  | reported kind _ => kind

/-- A text shown in full, or its beginning if it is long. -/
def shownBeginning (s : String) : String :=
  String.ofList ((quoted s).toList.take 200)

/-- The wording of a failure. -/
def message : Failure → String
  | source reason => reason.message
  | degenerateMeter numerator denominator =>
    "Degenerate meter " ++ int numerator ++ "/" ++ int denominator
  | tempoNotPositive tempo => "Tempo must be positive, got " ++ tempo
  | barLengthNotPositive length => "Bar length must be positive, got " ++ length
  | toleranceNegative tolerance => "Tolerance cannot be negative, got " ++ tolerance
  | divisionByZero => "float division by zero"
  | integerDivisionByZero => "division by zero"
  | notANumber => "cannot convert float NaN to integer"
  | infinite => "cannot convert float infinity to integer"
  | integerTooLarge => "int too large to convert to float"
  | quotientTooLarge => "integer division result too large for a float"
  | notAnInteger text => "invalid literal for int() with base 10: " ++ shownBeginning text
  | tooManyDigits count =>
    "Exceeds the limit (4300 digits) for integer string conversion: value has " ++ nat count ++
      " digits; use sys.set_int_max_str_digits() to increase the limit"
  | notADecimal text => "could not convert string to float: " ++ quoted text
  | unknownRoot root =>
    "Unknown key root: " ++ quoted root ++ ". Expected e.g. 'C', 'F#', 'Bb'."
  | unknownMode mode => "Unknown key mode: " ++ quoted mode ++ ". Expected 'major' or 'minor'."
  | unreadableKey text => "Cannot read key from " ++ quoted text
  | signatureOutOfRange fifths => "Key signature out of range: " ++ int fifths
  | unknownName name => quoted name
  | unknownCode code => nat code
  | unknownQuantizeMode mode =>
    "Unknown quantize mode: " ++ quoted mode ++ ". Expected one of ('minimal', 'fixed')"
  | unknownChordMode mode =>
    "Unknown chord mode: " ++ quoted mode ++ ". Expected one of ('group', 'timing')"
  | chordModeSetting mode =>
    "chord_mode must be one of ('group', 'timing'), got " ++ mode
  | quantizeModeSetting mode =>
    "quantize_mode must be one of ('minimal', 'fixed'), got " ++ mode
  | limitsTooSmall => "max_subdivision and max_multiplier must be at least 1"
  | unreadableStep step => "Cannot read step " ++ quoted step
  | weightNotPositive step => "Step " ++ quoted step ++ " has a non-positive weight"
  | noVoices => "Nothing to combine: no voices"
  | noSuchBar | shortMessage => "list index out of range"
  | notADataByte => "data byte must be in range 0..127"
  | notAChannel => "channel must be in range 0..15"
  | attributeOutOfRange least greatest =>
    "attribute must be in range " ++ int least ++ ".." ++ int greatest
  | notAPowerOfTwo => "denominator must be a power of 2"
  | invalidKey name => "invalid key " ++ quoted name
  | unreadableSettings => "Cannot read settings"
  | noPitch => "tuple index out of range"
  | unrenderable kind => "Cannot render " ++ kind
  | notNumeric kind =>
    "int() argument must be a string, a bytes-like object or a real number, not '" ++ kind ++ "'"
  | notDecimal kind =>
    "float() argument must be a string or a real number, not '" ++ kind ++ "'"
  | notAnObject kind part => "'" ++ kind ++ "' object has no attribute '" ++ part ++ "'"
  | notAList kind => "'" ++ kind ++ "' object is not iterable"
  | textByName => "string indices must be integers, not 'str'"
  | listByName => "list indices must be integers or slices, not str"
  | noMembers kind => "'" ++ kind ++ "' object is not subscriptable"
  | noEntry kind => "unhashable type: '" ++ kind ++ "'"
  | notText kind => "expected string or bytes-like object, got '" ++ kind ++ "'"
  | notOrdered sign left right =>
    "'" ++ sign ++ "' not supported between instances of '" ++ left ++ "' and '" ++ right ++ "'"
  | notAFactor kind =>
    if kind = "str" ∨ kind = "list" then "can't multiply sequence by non-int of type 'float'"
    else "unsupported operand type(s) for *: '" ++ kind ++ "' and 'float'"
  | notWhole kind => "'" ++ kind ++ "' object cannot be interpreted as an integer"
  | recordedSignature fifths mode =>
    "Could not decode key with " ++ nat fifths.natAbs ++
      (if fifths < 7 then " flats" else " sharps") ++ " and mode " ++ nat mode
  | encoding reason => reason.message
  | archive reason => reason.message
  | tooDeep nest =>
    "maximum recursion depth exceeded while decoding a JSON " ++ nest ++ " from a unicode string"
  | notUtf8 failure => failure.message
  | reported _ message => message

/-- The failure's message, or the word for its kind when the message is empty. -/
def summary (f : Failure) : String :=
  if f.message.isEmpty then f.kind.word else f.message

end Failure

/-- A list that is read item by item: an item that could not be read is a failure only for the one
who gets to it. -/
abbrev Listing (α : Type) := List (Except Failure α)

end PatternScore
