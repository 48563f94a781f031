import FileCatalog.Layout

/-!
# The octets of records

Each record is laid out field after field. `Collection.layout` collects the four layouts, and
`Collection.encode` and `Collection.decode` write and read the records of a collection. Inodes and
directory entries have one form each. Records with a map inside have one form that is written, and
are read from any order of the entries.
-/

namespace FileCatalog

open Layout

/-- An extent: offset in the file, partition, extent, offset in it, size, checksum. -/
def Extent.layout : Layout Extent :=
  (word64.pair <| word64.pair <| word64.pair <| word64.pair <| word32.pair word32).via
    (fun (fileOffset, partition, extent, extentOffset, size, crc) =>
      { fileOffset, partition, extent, extentOffset, size, crc })
    (fun e => (e.fileOffset, e.partition, e.extent, e.extentOffset, e.size, e.crc))

/-- An inode, its fields in the order of their declaration. -/
def Inode.layout : Layout Inode :=
  (word64.pair <| word32.pair <| word32.pair <| word32.pair <| word64.pair <| word64.pair <|
    signed64.pair <| signed64.pair <| signed64.pair <| bytes.pair <| word32.pair <| word32.pair <|
    list Extent.layout).via
    (fun (number, mode, uid, gid, size, generation, createTime, accessTime, modifyTime, linkTarget,
        linkCount, flag, extents) =>
      { number, mode, uid, gid, size, generation, createTime, accessTime, modifyTime, linkTarget,
        linkCount, flag, extents })
    (fun i => (i.number, i.mode, i.uid, i.gid, i.size, i.generation, i.createTime, i.accessTime,
      i.modifyTime, i.linkTarget, i.linkCount, i.flag, i.extents))

/-- A directory entry: parent, name, inode, mode. -/
def Dentry.layout : Layout Dentry :=
  (word64.pair <| text.pair <| word64.pair word32).via
    (fun (parent, name, inode, mode) => { parent, name, inode, mode })
    (fun d => (d.parent, d.name, d.inode, d.mode))

/-- Attributes: the inode, then the map. -/
def Attributes.layout : Layout Attributes :=
  (word64.pair <| map bytes bytes).via
    (fun (inode, values) => { inode, values })
    (fun a => (a.inode, a.values))

/-- A part of an upload: number, time, digest, size, inode. -/
def Part.layout : Layout Part :=
  (word16.pair <| signed64.pair <| text.pair <| word64.pair word64).via
    (fun (number, uploadTime, md5, size, inode) => { number, uploadTime, md5, size, inode })
    (fun p => (p.number, p.uploadTime, p.md5, p.size, p.inode))

/-- An upload: object key, upload, start, parts, then the map. -/
def Upload.layout : Layout Upload :=
  (text.pair <| text.pair <| signed64.pair <| (list Part.layout).pair <| map text text).via
    (fun (key, upload, startTime, parts, extend) => { key, upload, startTime, parts, extend })
    (fun u => (u.key, u.upload, u.startTime, u.parts, u.extend))

namespace Collection

/-- The layout of a collection's records. -/
def layout : (c : Collection) → Layout c.Record
  | inode => Inode.layout
  | dentry => Dentry.layout
  | attributes => Attributes.layout
  | upload => Upload.layout

/-- The octets of a record. -/
def encode (c : Collection) (r : c.Record) : Bytes := c.layout.write r

/-- The record that octets hold. -/
def decode (c : Collection) (bs : Bytes) : Except StoreError c.Record :=
  match c.layout.decode bs with
  | .ok r => .ok r
  | .error fault => .error (.decode c fault)

end Collection

end FileCatalog
