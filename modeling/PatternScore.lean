import PatternScore.Abc.Extraction
import PatternScore.Abc.Header
import PatternScore.Abc.Reader
import PatternScore.Abc.Tune
import PatternScore.Abc.Voice
import PatternScore.Archive.Bits
import PatternScore.Archive.BlockSort
import PatternScore.Archive.Chain
import PatternScore.Archive.Deflate
import PatternScore.Archive.Directory
import PatternScore.Archive.PrefixCode
import PatternScore.Archive.RangeCode
import PatternScore.Bar.Catalog
import PatternScore.Bar.Layout
import PatternScore.Bar.Segmentation
import PatternScore.Bar.Slot
import PatternScore.Bar.Token
import PatternScore.Bar.Units
import PatternScore.CommandLine.Arguments
import PatternScore.CommandLine.Run
import PatternScore.Conversion.Bars
import PatternScore.Conversion.Run
import PatternScore.Conversion.Settings
import PatternScore.Failure
import PatternScore.Input.File
import PatternScore.Input.Format
import PatternScore.Input.Settings
import PatternScore.Input.Source
import PatternScore.Json.Access
import PatternScore.Json.Basic
import PatternScore.Json.Display
import PatternScore.Json.Number
import PatternScore.Json.Reader
import PatternScore.Key.Basic
import PatternScore.Key.Degree
import PatternScore.Key.Reader
import PatternScore.Main
import PatternScore.Midi.Extraction
import PatternScore.Midi.File
import PatternScore.Midi.Message
import PatternScore.Midi.Pairing
import PatternScore.Midi.Validity
import PatternScore.MusicXml.Extraction
import PatternScore.MusicXml.Reader
import PatternScore.MusicXml.Score
import PatternScore.MusicXml.Walk
import PatternScore.Notation.Printer
import PatternScore.Notation.Reader
import PatternScore.Number.Binary64
import PatternScore.Number.Numeral
import PatternScore.Number.Scalar
import PatternScore.Number.Shortest
import PatternScore.Number.Value
import PatternScore.Pattern.Arrangement
import PatternScore.Pattern.Basic
import PatternScore.Pattern.Printer
import PatternScore.Pattern.Reader
import PatternScore.Section
import PatternScore.Sound
import PatternScore.Text.Blank
import PatternScore.Text.Case
import PatternScore.Text.CaseTable
import PatternScore.Text.CodePage.Basic
import PatternScore.Text.CodePage.Names
import PatternScore.Text.CodePage.Standard
import PatternScore.Text.CodePage.Vendor
import PatternScore.Text.Digit
import PatternScore.Text.PrintableTable
import PatternScore.Text.Quoted
import PatternScore.Text.Utf8
import PatternScore.Text.WordTable
import PatternScore.Timeline.Event
import PatternScore.Timeline.Header
import PatternScore.Xml.Basic
import PatternScore.Xml.Declaration
import PatternScore.Xml.DocumentType
import PatternScore.Xml.Encoding
import PatternScore.Xml.Markup
import PatternScore.Xml.Name
import PatternScore.Xml.NameTable
import PatternScore.Xml.Reader
import PatternScore.Xml.Value
import PatternScore.Yaml.Reader
import PatternScore.Yaml.Scalar
import PatternScore.Proofs.Text.Decimal
import PatternScore.Proofs.Text.Joining
import PatternScore.Proofs.Bar.Key
import PatternScore.Proofs.Bar.Catalog
import PatternScore.Proofs.Bar.History
import PatternScore.Proofs.Sequence
import PatternScore.Proofs.Pattern.Names
import PatternScore.Proofs.Bar.Cutting
import PatternScore.Proofs.Pattern.Resolution
import PatternScore.Proofs.Bar.Survival
import PatternScore.Proofs.Bar.FixedUnits
import PatternScore.Proofs.Notation.ReadBack
import PatternScore.Proofs.Notation.Agreement
import PatternScore.Proofs.Bar.Holding
import PatternScore.Proofs.Bar.Collecting
import PatternScore.Proofs.Bar.ChordMarks
import PatternScore.Proofs.Tiling
import PatternScore.Proofs.Bar.Playing
import PatternScore.Proofs.Bar.Sequential
import PatternScore.Proofs.Bar.Layers
import PatternScore.Proofs.Bar.Rendering
import PatternScore.Proofs.Bar.Aligned
import PatternScore.Proofs.Bar.Performance
import PatternScore.Proofs.Conversion.ExactTiming
import PatternScore.Proofs.Conversion.Line
import PatternScore.Proofs.Conversion.Staves
import PatternScore.Proofs.Interval
import PatternScore.Proofs.Bar.Forming
import PatternScore.Proofs.Bar.Measuring
import PatternScore.Proofs.Bar.Filling
import PatternScore.Proofs.Bar.Grouping
import PatternScore.Proofs.Bar.Shortfall
import PatternScore.Proofs.Conversion.Bars
import PatternScore.Proofs.Conversion.Shortfall
import PatternScore.Proofs.Text.Literal
import PatternScore.Proofs.Text.Delimited
import PatternScore.Proofs.Pattern.Unambiguous
import PatternScore.Proofs.Pattern.ProgramText
import PatternScore.Proofs.Pattern.Strings
import PatternScore.Proofs.Midi.Matching
import PatternScore.Proofs.Midi.Conservation
import PatternScore.Proofs.Abc.Reading
import PatternScore.Proofs.Abc.Repeats
import PatternScore.Proofs.Bar.Shifting
import PatternScore.Proofs.Conversion.Tokenizing
import PatternScore.Proofs.Conversion.ChordMarks
import PatternScore.Proofs.Conversion.LeadingSilence
import PatternScore.Proofs.Text.Unbroken
import PatternScore.Proofs.Bar.Fatal
import PatternScore.Proofs.Conversion.ErrorLine
import PatternScore.Proofs.Bar.DurationUnit
import PatternScore.Proofs.Bar.NoteGroup
import PatternScore.Proofs.Bar.Sounding
import PatternScore.Proofs.Bar.Coverage
import PatternScore.Proofs.Bar.Silence
import PatternScore.Proofs.Bar.MinimalUnit
import PatternScore.Proofs.Bar.Jitter
import PatternScore.Proofs.Bar.Rearranging
import PatternScore.Proofs.Bar.Remeasuring
import PatternScore.Proofs.Bar.Tempo
import PatternScore.Proofs.Section.Boundaries
import PatternScore.Proofs.Conversion.Trimming
import PatternScore.Proofs.Bar.Scanning
import PatternScore.Proofs.Bar.Gapless
import PatternScore.Proofs.Key.Spelling
import PatternScore.Proofs.Key.Scale
import PatternScore.Proofs.MusicXml.Alignment
import PatternScore.Proofs.Bar.Multiplier
import PatternScore.Proofs.Abc.HeaderLines
import PatternScore.Proofs.Abc.Voices
import PatternScore.Proofs.Abc.Ties
import PatternScore.Proofs.Abc.Renumbering
import PatternScore.Proofs.Abc.LineBreaks
