import FileCatalog.Collection
import FileCatalog.Json

/-!
# Records in JSON

The JSON form of a record is an object with its fields in the order of their declaration. Byte
strings are arrays of numbers and maps are objects by ascending key. The names of attributes are
byte strings, so a record with attributes has a form that cannot be written to its end.
-/

namespace FileCatalog

namespace Json

/-- An object with named members. -/
def fields (members : List (String × Json)) : Json :=
  .object (members.map fun m => (.text m.1, m.2))

/-- An unsigned number. -/
def nat (n : Nat) : Json := .number n

/-- A byte string, as the numbers of its octets. -/
def octets (bs : Bytes) : Json := .array (bs.map fun b => nat b.toNat)

end Json

open Json

/-- An extent as an object of its three numbers. -/
def Extent.toJson (e : Extent) : Json :=
  fields [
    ("file_offset", nat e.fileOffset.toNat),
    ("partition_id", nat e.partition.toNat),
    ("extent_id", nat e.extent.toNat),
    ("extent_offset", nat e.extentOffset.toNat),
    ("size", nat e.size.toNat),
    ("crc", nat e.crc.toNat)]

/-- An inode as an object: its numbers, its flags, the link as an array of octets, its extents in
order. -/
def Inode.toJson (i : Inode) : Json :=
  fields [
    ("inode", nat i.number.toNat),
    ("mode", nat i.mode.toNat),
    ("uid", nat i.uid.toNat),
    ("gid", nat i.gid.toNat),
    ("size", nat i.size.toNat),
    ("generation", nat i.generation.toNat),
    ("create_time", .number i.createTime.toInt),
    ("access_time", .number i.accessTime.toInt),
    ("modify_time", .number i.modifyTime.toInt),
    ("link_target", octets i.linkTarget),
    ("nlink", nat i.linkCount.toNat),
    ("flag", nat i.flag.toNat),
    ("extents", .array (i.extents.map Extent.toJson))]

/-- A directory entry as an object. -/
def Dentry.toJson (d : Dentry) : Json :=
  fields [
    ("parent_id", nat d.parent.toNat),
    ("name", .text d.name),
    ("inode", nat d.inode.toNat),
    ("mode", nat d.mode.toNat)]

/-- Attributes as an object of the inode and of the map, whose keys and values are octets. -/
def Attributes.toJson (a : Attributes) : Json :=
  fields [
    ("inode", nat a.inode.toNat),
    ("attrs", .object (a.values.entries.map fun e => (octets e.1, octets e.2)))]

/-- A part as an object. -/
def Part.toJson (p : Part) : Json :=
  fields [
    ("id", nat p.number.toNat),
    ("upload_time", .number p.uploadTime.toInt),
    ("md5", .text p.md5),
    ("size", nat p.size.toNat),
    ("inode", nat p.inode.toNat)]

/-- An upload as an object: its parts as an array, its extensions as a map of texts. -/
def Upload.toJson (u : Upload) : Json :=
  fields [
    ("key", .text u.key),
    ("upload_id", .text u.upload),
    ("init_time", .number u.startTime.toInt),
    ("parts", .array (u.parts.map Part.toJson)),
    ("extend", .object (u.extend.entries.map fun e => (.text e.1, .text e.2)))]

/-- The JSON form of a record. -/
def Collection.toJson : (c : Collection) → c.Record → Json
  | .inode, r => Inode.toJson r
  | .dentry, r => Dentry.toJson r
  | .attributes, r => Attributes.toJson r
  | .upload, r => Upload.toJson r

end FileCatalog
