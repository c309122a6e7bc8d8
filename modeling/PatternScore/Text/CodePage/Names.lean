import PatternScore.Text.CodePage.Standard
import PatternScore.Text.CodePage.Vendor

/-!
# Encodings by name

A name tells a code page, or an encoding that is none: one with characters of several bytes, one in
which the ASCII bytes mean something else, or one that is no encoding of text at all.
-/

namespace PatternScore.Text

/-- All code pages. -/
def CodePage.all : List CodePage :=
  [.latin1, .ascii, .tildeEscaped] ++ CodePage.standard ++ CodePage.vendor

/-- Encodings with characters of several bytes. -/
def wideEncodings : EncodingNames where
  names := ["big5", "big5hkscs", "cp932", "cp949", "cp950", "euc_jis_2004", "euc_jisx0213",
            "euc_jp", "euc_kr", "gb18030", "gb2312", "gbk", "iso2022_kr", "johab", "shift_jis",
            "shift_jis_2004", "shift_jisx0213", "utf_16", "utf_16_be", "utf_16_le", "utf_32",
            "utf_32_be", "utf_32_le", "utf_7"]
  aliases := ["big5_hkscs", "big5_tw", "chinese", "cp1361", "cp936", "csbig5", "csiso2022kr",
              "csiso58gb231280", "csshiftjis", "euc_cn", "euc_jis2004", "euccn", "eucgb2312_cn",
              "eucjis2004", "eucjisx0213", "eucjp", "euckr", "gb18030_2000", "gb2312_1980",
              "gb2312_80", "hkscs", "iso2022kr", "iso_2022_kr", "iso_ir_58", "jisx0213",
              "korean", "ks_c_5601", "ks_c_5601_1987", "ks_x_1001", "ksc5601", "ksx1001",
              "ms1361", "ms932", "ms936", "ms949", "ms950", "ms_kanji", "mskanji", "s_jis",
              "s_jis_2004", "s_jisx0213", "shiftjis", "shiftjis2004", "shiftjisx0213", "sjis",
              "sjis_2004", "sjisx0213", "u16", "u32", "u7", "u_jis", "uhc", "ujis",
              "unicode_1_1_utf_7", "unicodebigunmarked", "unicodelittleunmarked", "utf16",
              "utf32", "utf7", "utf_16be", "utf_16le", "utf_32be", "utf_32le", "x_mac_japanese",
              "x_mac_korean", "x_mac_simp_chinese", "x_mac_trad_chinese"]

/-- Encodings in which some ASCII bytes have another meaning. -/
def foreignEncodings : EncodingNames where
  names := ["cp037", "cp1026", "cp1140", "cp273", "cp424", "cp500", "cp864", "cp875",
            "mac_arabic", "mac_farsi"]
  aliases := ["csibm037", "csibm1026", "csibm273", "csibm424", "csibm500", "csibm864",
              "ebcdic_cp_be", "ebcdic_cp_ca", "ebcdic_cp_ch", "ebcdic_cp_he", "ebcdic_cp_nl",
              "ebcdic_cp_us", "ebcdic_cp_wt", "ibm037", "ibm039", "ibm1026", "ibm1140",
              "ibm273", "ibm424", "ibm500", "ibm864"]

/-- Ways of writing bytes as bytes or text as text. -/
def transformations : EncodingNames where
  names := ["base64_codec", "bz2_codec", "hex_codec", "quopri_codec", "rot_13", "uu_codec",
            "zlib_codec"]
  aliases := ["base64", "base_64", "bz2", "hex", "quopri", "quoted_printable",
              "quotedprintable", "rot13", "uu", "zip", "zlib"]

/-- What the name of an encoding tells. -/
inductive NamedEncoding where
  /-- A code page. -/
  | page (p : CodePage)
  /-- An encoding with characters of several bytes. -/
  | wide
  /-- An encoding in which some ASCII bytes have another meaning. -/
  | foreign
  /-- No encoding of text. -/
  | transformation
  /-- The encoding of the names of hosts. -/
  | hostNames
  /-- The encoding of the parts of such names. -/
  | hostLabels
  /-- The encoding that refuses everything. -/
  | undefined
  deriving Repr

/-- The encoding of a name. -/
def NamedEncoding.ofName? (name : String) : Option NamedEncoding :=
  match CodePage.all.find? (·.has name) with
  | some p => some (.page p)
  | none =>
    if wideEncodings.has name then some .wide
    else if foreignEncodings.has name then some .foreign
    else if transformations.has name then some .transformation
    else [("idna", .hostNames), ("punycode", .hostLabels), ("undefined", .undefined)].lookup
      (encodingName name)

end PatternScore.Text
