/-
The theme of a workbook: its colours, its fonts for each script, and the styles of shapes. Spreadsheet programs expect
one, and this is the plain one that they come with.
-/
import SheetPost.Sheet.Xml

namespace SheetPost.Sheet.Theme

open Xml

/-! ## Colours -/

/-- a colour by its red, green and blue parts -/
def rgb (value : String) : Xml := leaf "a:srgbClr" [("val", value)]

/-- a colour of the user's screen, with what it was last -/
def system (name last : String) : Xml := leaf "a:sysClr" [("val", name), ("lastClr", last)]

/-- the colours by their roles -/
def colours : Xml :=
  .element "a:clrScheme" [("name", "Office")]
    [group "a:dk1" [system "windowText" "000000"], group "a:lt1" [system "window" "FFFFFF"],
      group "a:dk2" [rgb "1F497D"], group "a:lt2" [rgb "EEECE1"], group "a:accent1" [rgb "4F81BD"],
      group "a:accent2" [rgb "C0504D"], group "a:accent3" [rgb "9BBB59"], group "a:accent4" [rgb "8064A2"],
      group "a:accent5" [rgb "4BACC6"], group "a:accent6" [rgb "F79646"], group "a:hlink" [rgb "0000FF"],
      group "a:folHlink" [rgb "800080"]]

/-! ## Fonts -/

/-- the fonts that differ between headings and text, for East Asia none of them -/
structure Faces where
  latin : String
  arabic : String
  hebrew : String
  khmer : String
  vietnamese : String

/-- fonts of headings -/
def headingFaces : Faces := ⟨"Cambria", "Times New Roman", "Times New Roman", "MoolBoran", "Times New Roman"⟩

/-- fonts of text -/
def textFaces : Faces := ⟨"Calibri", "Arial", "Arial", "DaunPenh", "Arial"⟩

/-- the font of each script -/
def scripts (f : Faces) : List (String × String) :=
  [("Jpan", "ＭＳ Ｐゴシック"), ("Hang", "맑은 고딕"), ("Hans", "宋体"), ("Hant", "新細明體"), ("Arab", f.arabic),
    ("Hebr", f.hebrew), ("Thai", "Tahoma"), ("Ethi", "Nyala"), ("Beng", "Vrinda"), ("Gujr", "Shruti"),
    ("Khmr", f.khmer), ("Knda", "Tunga"), ("Guru", "Raavi"), ("Cans", "Euphemia"), ("Cher", "Plantagenet Cherokee"),
    ("Yiii", "Microsoft Yi Baiti"), ("Tibt", "Microsoft Himalaya"), ("Thaa", "MV Boli"), ("Deva", "Mangal"),
    ("Telu", "Gautami"), ("Taml", "Latha"), ("Syrc", "Estrangelo Edessa"), ("Orya", "Kalinga"), ("Mlym", "Kartika"),
    ("Laoo", "DokChampa"), ("Sinh", "Iskoola Pota"), ("Mong", "Mongolian Baiti"), ("Viet", f.vietnamese),
    ("Uigh", "Microsoft Uighur")]

/-- the fonts of one kind of text -/
def fonts (name : String) (f : Faces) : Xml :=
  group name
    (leaf "a:latin" [("typeface", f.latin)] :: leaf "a:ea" [("typeface", "")] :: leaf "a:cs" [("typeface", "")] ::
      (scripts f).map fun (script, face) => leaf "a:font" [("script", script), ("typeface", face)])

/-- all fonts -/
def fontScheme : Xml :=
  .element "a:fontScheme" [("name", "Office")] [fonts "a:majorFont" headingFaces, fonts "a:minorFont" textFaces]

/-! ## Shapes -/

/-- the colour of the shape itself, changed by effects of given strengths -/
def shapeColour (effects : List (String × String)) : Xml :=
  .element "a:schemeClr" [("val", "phClr")] (effects.map fun (name, value) => leaf name [("val", value)])

/-- one colour all over -/
def solid (effects : List (String × String)) : Xml := group "a:solidFill" [shapeColour effects]

/-- colours that run into each other, each from its place on -/
def gradient (stops : List (String × List (String × String))) (course : Xml) : Xml :=
  .element "a:gradFill" [("rotWithShape", "1")]
    [group "a:gsLst" (stops.map fun (place, effects) => .element "a:gs" [("pos", place)] [shapeColour effects]), course]

/-- a gradient along a line -/
def line (scaled : String) : Xml := leaf "a:lin" [("ang", "16200000"), ("scaled", scaled)]

/-- a gradient around a rectangle -/
def circle (l t r b : String) : Xml :=
  .element "a:path" [("path", "circle")] [leaf "a:fillToRect" [("l", l), ("t", t), ("r", r), ("b", b)]]

/-- fillings of shapes -/
def fills : Xml :=
  group "a:fillStyleLst"
    [solid [],
      gradient [("0", [("a:tint", "50000"), ("a:satMod", "300000")]),
        ("35000", [("a:tint", "37000"), ("a:satMod", "300000")]),
        ("100000", [("a:tint", "15000"), ("a:satMod", "350000")])] (line "1"),
      gradient [("0", [("a:shade", "51000"), ("a:satMod", "130000")]),
        ("80000", [("a:shade", "93000"), ("a:satMod", "130000")]),
        ("100000", [("a:shade", "94000"), ("a:satMod", "135000")])] (line "0")]

/-- an outline -/
def outline (width : String) (effects : List (String × String)) : Xml :=
  .element "a:ln" [("w", width), ("cap", "flat"), ("cmpd", "sng"), ("algn", "ctr")]
    [solid effects, leaf "a:prstDash" [("val", "solid")]]

/-- outlines of shapes -/
def outlines : Xml :=
  group "a:lnStyleLst"
    [outline "9525" [("a:shade", "95000"), ("a:satMod", "105000")], outline "25400" [], outline "38100" []]

/-- a shadow -/
def shadow (distance strength : String) : Xml :=
  group "a:effectLst"
    [.element "a:outerShdw" [("blurRad", "40000"), ("dist", distance), ("dir", "5400000"), ("rotWithShape", "0")]
      [.element "a:srgbClr" [("val", "000000")] [leaf "a:alpha" [("val", strength)]]]]

/-- a turn in space -/
def turn (rev : String) : Xml := leaf "a:rot" [("lat", "0"), ("lon", "0"), ("rev", rev)]

/-- how a shape with depth is seen -/
def scene : Xml :=
  group "a:scene3d"
    [.element "a:camera" [("prst", "orthographicFront")] [turn "0"],
      .element "a:lightRig" [("rig", "threePt"), ("dir", "t")] [turn "1200000"]]

/-- effects of shapes -/
def effects : Xml :=
  group "a:effectStyleLst"
    [group "a:effectStyle" [shadow "20000" "38000"], group "a:effectStyle" [shadow "23000" "35000"],
      group "a:effectStyle"
        [shadow "23000" "35000", scene, group "a:sp3d" [leaf "a:bevelT" [("w", "63500"), ("h", "25400")]]]]

/-- fillings of backgrounds -/
def backgrounds : Xml :=
  group "a:bgFillStyleLst"
    [solid [],
      gradient [("0", [("a:tint", "40000"), ("a:satMod", "350000")]),
        ("40000", [("a:tint", "45000"), ("a:shade", "99000"), ("a:satMod", "350000")]),
        ("100000", [("a:shade", "20000"), ("a:satMod", "255000")])] (circle "50000" "-80000" "50000" "180000"),
      gradient [("0", [("a:tint", "80000"), ("a:satMod", "300000")]),
        ("100000", [("a:shade", "30000"), ("a:satMod", "200000")])]
        (circle "50000" "50000" "50000" "50000")]

/-- the theme -/
def xml : Xml :=
  .element "a:theme"
    [("xmlns:a", "http://schemas.openxmlformats.org/drawingml/2006/main"), ("name", "Office Theme")]
    [group "a:themeElements"
      [colours, fontScheme, .element "a:fmtScheme" [("name", "Office")] [fills, outlines, effects, backgrounds]],
      leaf "a:objectDefaults" [], leaf "a:extraClrSchemeLst" []]

/-- the theme as a document, which ends its last line -/
def document : List Char := Xml.document xml ++ ['\n']

end SheetPost.Sheet.Theme
