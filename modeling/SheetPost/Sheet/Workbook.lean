/-
Workbooks: the parts of the file that spreadsheet programs open, for a table of text on one worksheet. Nothing in them
depends on when or where they are written, so the same table always gives the same bytes.
-/
import SheetPost.Sheet.Archive
import SheetPost.Sheet.Theme
import SheetPost.Sheet.Worksheet

namespace SheetPost.Sheet

open Xml

/-- a file of a workbook by its name in the archive -/
structure Part where
  name : String
  text : List Char
deriving DecidableEq, Repr

namespace Workbook

/-! ## Names that the format fixes -/

/-- the name of the worksheet -/
def sheetName : String := "Sheet1"

/-- where the worksheet is -/
def sheetPart : String := "xl/worksheets/sheet1.xml"

/-- where the table of texts is -/
def stringsPart : String := "xl/sharedStrings.xml"

/-- the media type of workbooks -/
def mimeType : String := "application/vnd.openxmlformats-officedocument.spreadsheetml.sheet"

/-- the root of the format's names -/
def base : String := "http://schemas.openxmlformats.org/"

/-- names of a package's own parts -/
def packageBase : String := base ++ "package/2006/"

/-- names of document parts -/
def documentBase : String := base ++ "officeDocument/2006/"

/-! ## Contents and relations -/

/-- the kind of the parts with an ending -/
def defaultKind (ending kind : String) : Xml := leaf "Default" [("Extension", ending), ("ContentType", kind)]

/-- the kind of one part -/
def partKind (name kind : String) : Xml :=
  leaf "Override" [("PartName", "/" ++ name), ("ContentType", "application/vnd.openxmlformats-" ++ kind ++ "+xml")]

/-- the kinds of all parts -/
def kinds (hasStrings : Bool) : Xml :=
  .element "Types" [("xmlns", packageBase ++ "content-types")]
    ([defaultKind "rels" "application/vnd.openxmlformats-package.relationships+xml",
      defaultKind "xml" "application/xml",
      partKind "docProps/app.xml" "officedocument.extended-properties",
      partKind "docProps/core.xml" "package.core-properties",
      partKind "xl/styles.xml" "officedocument.spreadsheetml.styles",
      partKind "xl/theme/theme1.xml" "officedocument.theme",
      partKind "xl/workbook.xml" "officedocument.spreadsheetml.sheet.main",
      partKind sheetPart "officedocument.spreadsheetml.worksheet"] ++
      if hasStrings then [partKind stringsPart "officedocument.spreadsheetml.sharedStrings"] else [])

/-- what a part relates to: the kind of relation and the part -/
def relations (targets : List (String × String)) : Xml :=
  .element "Relationships" [("xmlns", packageBase ++ "relationships")]
    (targets.zipIdx.map fun ((kind, target), i) =>
      leaf "Relationship" [("Id", "rId" ++ toString (i + 1)), ("Type", kind), ("Target", target)])

/-- where a reader begins -/
def packageRelations : Xml :=
  relations [(documentBase ++ "relationships/officeDocument", "xl/workbook.xml"),
    (packageBase ++ "relationships/metadata/core-properties", "docProps/core.xml"),
    (documentBase ++ "relationships/extended-properties", "docProps/app.xml")]

/-- the parts of the workbook -/
def workbookRelations (hasStrings : Bool) : Xml :=
  relations ([(documentBase ++ "relationships/worksheet", "worksheets/sheet1.xml"),
    (documentBase ++ "relationships/theme", "theme/theme1.xml"),
    (documentBase ++ "relationships/styles", "styles.xml")] ++
    if hasStrings then [(documentBase ++ "relationships/sharedStrings", "sharedStrings.xml")] else [])

/-! ## Properties -/

/-- what the workbook says about the program and its sheets -/
def application : Xml :=
  .element "Properties"
    [("xmlns", documentBase ++ "extended-properties"), ("xmlns:vt", documentBase ++ "docPropsVTypes")]
    [word "Application" "Microsoft Excel", word "DocSecurity" "0", word "ScaleCrop" "false",
      group "HeadingPairs"
        [.element "vt:vector" [("size", "2"), ("baseType", "variant")]
          [group "vt:variant" [word "vt:lpstr" "Worksheets"], group "vt:variant" [word "vt:i4" "1"]]],
      group "TitlesOfParts" [.element "vt:vector" [("size", "1"), ("baseType", "lpstr")] [word "vt:lpstr" sheetName]],
      word "Company" "", word "LinksUpToDate" "false", word "SharedDoc" "false", word "HyperlinksChanged" "false",
      word "AppVersion" "12.0000"]

/-- the time that every workbook was made: always the same -/
def created : String := "2000-01-01T00:00:00Z"

/-- who made the workbook and when -/
def core : Xml :=
  let time (name : String) : Xml := .element name [("xsi:type", "dcterms:W3CDTF")] [.text created.toList]
  .element "cp:coreProperties"
    [("xmlns:cp", packageBase ++ "metadata/core-properties"), ("xmlns:dc", "http://purl.org/dc/elements/1.1/"),
      ("xmlns:dcterms", "http://purl.org/dc/terms/"), ("xmlns:dcmitype", "http://purl.org/dc/dcmitype/"),
      ("xmlns:xsi", "http://www.w3.org/2001/XMLSchema-instance")]
    [word "dc:creator" "", word "cp:lastModifiedBy" "", time "dcterms:created", time "dcterms:modified"]

/-! ## The workbook and its styles -/

/-- the one sheet and how it is shown -/
def book : Xml :=
  .element "workbook" [("xmlns", SharedStrings.mainNamespace), ("xmlns:r", Worksheet.relationNamespace)]
    [leaf "fileVersion" [("appName", "xl"), ("lastEdited", "4"), ("lowestEdited", "4"), ("rupBuild", "4505")],
      leaf "workbookPr" [("defaultThemeVersion", "124226")],
      group "bookViews"
        [leaf "workbookView"
          [("xWindow", "240"), ("yWindow", "15"), ("windowWidth", "16095"), ("windowHeight", "9660")]],
      group "sheets" [leaf "sheet" [("name", sheetName), ("sheetId", "1"), ("r:id", "rId1")]],
      leaf "calcPr" [("calcId", "124519"), ("fullCalcOnLoad", "1")]]

/-- a list of styles with their number -/
def counted (name : String) (styles : List Xml) : Xml := .element name [("count", toString styles.length)] styles

/-- a pattern to fill cells with -/
def fill (pattern : String) : Xml := group "fill" [leaf "patternFill" [("patternType", pattern)]]

/-- a cell format that takes the first of everything -/
def format (parents : List (String × String)) : Xml :=
  leaf "xf" ([("numFmtId", "0"), ("fontId", "0"), ("fillId", "0"), ("borderId", "0")] ++ parents)

/-- the styles of cells -/
def styles : Xml :=
  .element "styleSheet" [("xmlns", SharedStrings.mainNamespace)]
    [counted "fonts"
      [group "font"
        [leaf "sz" [("val", "11")], leaf "color" [("theme", "1")], leaf "name" [("val", "Calibri")],
          leaf "family" [("val", "2")], leaf "scheme" [("val", "minor")]]],
      counted "fills" [fill "none", fill "gray125"],
      counted "borders"
        [group "border" [leaf "left" [], leaf "right" [], leaf "top" [], leaf "bottom" [], leaf "diagonal" []]],
      counted "cellStyleXfs" [format []], counted "cellXfs" [format [("xfId", "0")]],
      counted "cellStyles" [leaf "cellStyle" [("name", "Normal"), ("xfId", "0"), ("builtinId", "0")]],
      counted "dxfs" [],
      leaf "tableStyles" [("count", "0"), ("defaultTableStyle", "TableStyleMedium9"),
        ("defaultPivotStyle", "PivotStyleLight16")]]

/-! ## The whole file -/

/-- the parts of a workbook with one worksheet; the table of texts is left out if it is empty -/
def parts (w : Worksheet) : List Part :=
  let hasStrings := !w.strings.texts.isEmpty
  [⟨"[Content_Types].xml", document (kinds hasStrings)⟩, ⟨"_rels/.rels", document packageRelations⟩,
    ⟨"docProps/app.xml", document application⟩, ⟨"docProps/core.xml", document core⟩,
    ⟨"xl/_rels/workbook.xml.rels", document (workbookRelations hasStrings)⟩] ++
    (if hasStrings then [⟨stringsPart, document w.strings.xml⟩] else []) ++
    [⟨"xl/styles.xml", document styles⟩, ⟨"xl/theme/theme1.xml", Theme.document⟩,
      ⟨"xl/workbook.xml", document book⟩, ⟨sheetPart, document w.xml⟩]

/-- the archive of parts -/
def archive (parts : List Part) : List UInt8 :=
  Archive.encode (parts.map fun p => ⟨p.name, Text.Utf8.encode p.text⟩)

/-- the parts of the archive of a workbook, if every file in it is text -/
def readParts? (bytes : List UInt8) : Option (List Part) :=
  (Archive.entries bytes).mapM fun e => (Text.Utf8.decode? e.content).map fun t => ⟨e.name, t⟩

end Workbook

namespace Document

/-- the parts of the workbook of a table -/
def parts (d : Document) : Except SheetError (List Part) := (Worksheet.ofDocument d).map Workbook.parts

/-- the workbook of a table as a file -/
def workbook (d : Document) : Except SheetError (List UInt8) := d.parts.map Workbook.archive

end Document

end SheetPost.Sheet
