/-
Archives of named files in the zip format, without compression: each file behind a header of its own, then a directory,
then where the directory stands. Numbers are little-endian and a CRC-32 guards each file.
-/
import SheetPost.Text.Utf8

namespace SheetPost.Sheet

/-- a file in an archive -/
structure Entry where
  name : String
  content : List UInt8
deriving DecidableEq, Repr

namespace Archive

/-! ## Numbers -/

/-- the low bytes of a number, the lowest first -/
def littleEndian (width n : Nat) : List UInt8 := (List.range width).map fun i => UInt8.ofNat (n / Nat.pow 256 i)

/-- a number from its bytes -/
def number (bytes : List UInt8) : Nat := bytes.foldr (fun b n => n * 256 + b.toNat) 0

/-- one bit of the check sum's division -/
def crcBit (c : UInt32) : UInt32 := if c &&& 1 == 1 then (c >>> 1) ^^^ 0xEDB88320 else c >>> 1

/-- one byte of the check sum -/
def crcByte (c : UInt32) (b : UInt8) : UInt32 := Nat.repeat crcBit 8 (c ^^^ b.toUInt32)

/-- the check sum of some bytes -/
def crc32 (bytes : List UInt8) : UInt32 := bytes.foldl crcByte 0xFFFFFFFF ^^^ 0xFFFFFFFF

/-! ## Writing -/

/-- the first day that the format can name -/
def date : Nat := 0x21

/-- what both headers of a file say: version, flags, method, time, date, check sum, sizes, lengths of name and extras -/
def common (e : Entry) : List UInt8 :=
  let name := Text.Utf8.encode e.name.toList
  littleEndian 2 20 ++ littleEndian 2 0 ++ littleEndian 2 0 ++ littleEndian 2 0 ++ littleEndian 2 date ++
    littleEndian 4 (crc32 e.content).toNat ++ littleEndian 4 e.content.length ++ littleEndian 4 e.content.length ++
    littleEndian 2 name.length ++ littleEndian 2 0

/-- a file behind its header -/
def localRecord (e : Entry) : List UInt8 :=
  littleEndian 4 0x04034B50 ++ common e ++ Text.Utf8.encode e.name.toList ++ e.content

/-- the directory's line for a file that begins at `offset` -/
def directoryRecord (e : Entry) (offset : Nat) : List UInt8 :=
  littleEndian 4 0x02014B50 ++ littleEndian 2 20 ++ common e ++ littleEndian 2 0 ++ littleEndian 2 0 ++
    littleEndian 2 0 ++ littleEndian 4 0 ++ littleEndian 4 offset ++ Text.Utf8.encode e.name.toList

/-- the directory of files that begin at `offset` one after the other -/
def directory : Nat → List Entry → List UInt8
  | _, [] => []
  | offset, e :: r => directoryRecord e offset ++ directory (offset + (localRecord e).length) r

/-- where the directory stands, and how much is in it -/
def ending (count size offset : Nat) : List UInt8 :=
  littleEndian 4 0x06054B50 ++ littleEndian 2 0 ++ littleEndian 2 0 ++ littleEndian 2 count ++ littleEndian 2 count ++
    littleEndian 4 size ++ littleEndian 4 offset ++ littleEndian 2 0

/-- the archive of some files -/
def encode (entries : List Entry) : List UInt8 :=
  let files := entries.flatMap localRecord
  let list := directory 0 entries
  files ++ list ++ ending entries.length list.length files.length

/-! ## Reading -/

/-- the length of a file's header without the name -/
def headerLength : Nat := 30

/-- the file at the front, if one begins there, and what follows it -/
def readEntry? (bytes : List UInt8) : Option (Entry × List UInt8) :=
  let header := bytes.take headerLength
  if header.length = headerLength ∧ number (header.take 4) = 0x04034B50 then
    let nameLength := number ((header.drop 26).take 2)
    let size := number ((header.drop 22).take 4)
    let rest := bytes.drop headerLength
    match Text.Utf8.decode? (rest.take nameLength) with
    | some name =>
      let content := (rest.drop nameLength).take size
      if content.length = size ∧ number ((header.drop 14).take 4) = (crc32 content).toNat then
        some (⟨String.ofList name, content⟩, rest.drop (nameLength + size))
      else none
    | none => none
  else none

/-- the files of an archive, read one after the other -/
def entries (bytes : List UInt8) : List Entry :=
  match readEntry? bytes with
  | some (e, rest) => if rest.length < bytes.length then e :: entries rest else []
  | none => []
termination_by bytes.length

end Archive

end SheetPost.Sheet
