/-! # Archives

Files joined into one archive in the ZIP format. Each file is stored as it is, behind a record with
its name, length and checksum; the records are repeated in a directory at the end. -/

namespace MarkdownWord.Archive

/-- A number as `width` octets, the least significant one first. -/
def littleEndian (width n : Nat) : List UInt8 :=
  (List.range width).map fun i => UInt8.ofNat (n / Nat.pow 256 i)

def fields (values : List (Nat × Nat)) : List UInt8 :=
  values.flatMap fun (width, n) => littleEndian width n

/-! ## Checksums -/

/-- The remainder of a division by the checksum's polynomial, one bit further. -/
def remainderBit (c : UInt32) : UInt32 :=
  if c &&& 1 = 1 then (c >>> 1) ^^^ 0xEDB88320 else c >>> 1

def remainderOctet (c : UInt32) (b : UInt8) : UInt32 :=
  Nat.repeat remainderBit 8 (c ^^^ b.toUInt32)

/-- The checksum of some octets: the remainder with all bits inverted before and after. -/
def checksum (contents : ByteArray) : UInt32 :=
  contents.foldl remainderOctet 0xFFFFFFFF ^^^ 0xFFFFFFFF

/-! ## Records -/

/-- A file of an archive. -/
structure Member where
  name : String
  contents : ByteArray
  deriving Inhabited

namespace Member

def nameOctets (m : Member) : List UInt8 := m.name.toUTF8.toList

/-- What both records of a file share: the version needed, no flags, no compression, the earliest
date, the checksum, the length before and after, and the length of the name. -/
def sharedFields (m : Member) : List (Nat × Nat) := [
  (2, 20), (2, 0), (2, 0), (2, 0), (2, 33), (4, (checksum m.contents).toNat),
  (4, m.contents.size), (4, m.contents.size), (2, m.nameOctets.length), (2, 0)]

def localRecord (m : Member) : List UInt8 :=
  fields ((4, 0x04034B50) :: m.sharedFields) ++ m.nameOctets

/-- The record in the directory of a file whose first record starts at `offset`. -/
def directoryRecord (offset : Nat) (m : Member) : List UInt8 :=
  fields ([(4, 0x02014B50), (2, 20)] ++ m.sharedFields ++
    [(2, 0), (2, 0), (2, 0), (4, 0), (4, offset)]) ++ m.nameOctets

def size (m : Member) : Nat := 30 + m.nameOctets.length + m.contents.size

end Member

/-- The directory of some files, the first of which starts at `offset`. -/
def directory (offset : Nat) : List Member → List UInt8
  | [] => []
  | m :: rest => m.directoryRecord offset ++ directory (offset + m.size) rest

/-- The record after a directory of `count` files and `size` octets that starts at `offset`. -/
def endRecord (count size offset : Nat) : List UInt8 :=
  fields [(4, 0x06054B50), (2, 0), (2, 0), (2, count), (2, count), (4, size), (4, offset), (2, 0)]

def encode (members : List Member) : ByteArray :=
  let files := members.foldl (fun out m => out ++ m.localRecord.toByteArray ++ m.contents)
    ByteArray.empty
  let records := directory 0 members
  files ++ (records ++ endRecord members.length records.length files.size).toByteArray

end MarkdownWord.Archive
