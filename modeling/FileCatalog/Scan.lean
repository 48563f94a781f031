import FileCatalog.Error

/-!
# Scans

A scan offers the items of a list one after another to a visitor. The visitor has a state of its
own and answers each item with a `Verdict`: to go on, to end, or to end with an error. The items
are fixed before the first visit, so nothing that a visitor does can change what it is offered.

Two kinds of error end a scan, told apart by `ScanFault`: the visitor's, and the store's, which
arises where an item cannot be read. `decoding` turns a visitor of records into a visitor of the
octets that hold them; an item that cannot be read is not offered, and ends the scan.
-/

namespace FileCatalog

/-- What a visitor says to an item. -/
inductive Verdict (ε : Type) where
  | more
  | enough
  | fail (e : ε)
  deriving DecidableEq, Repr

/-- The verdict with its error told in another type. -/
def Verdict.mapFail {ε ζ : Type} (f : ε → ζ) : Verdict ε → Verdict ζ
  | .more => .more
  | .enough => .enough
  | .fail e => .fail (f e)

/-- What ends a scan with an error. -/
inductive ScanFault (ε : Type) where
  | store (e : StoreError)
  | visitor (e : ε)
  deriving DecidableEq, Repr

namespace Scan

variable {σ α β ε : Type}

/-- A visitor with a state: what it does with an item, and what it says to it. -/
abbrev Visitor (σ α ε : Type) := σ → α → σ × Verdict ε

/-- Offers items to a visitor until it has had enough; the result tells the visitor's last state
and the error that ended the scan, if one did. -/
def walk (visit : Visitor σ α ε) : σ → List α → σ × Option ε
  | s, [] => (s, none)
  | s, a :: rest =>
    match visit s a with
    | (s', .more) => walk visit s' rest
    | (s', .enough) => (s', none)
    | (s', .fail e) => (s', some e)

/-- A visitor whose errors are told apart from the store's. -/
def plain (visit : Visitor σ α ε) : Visitor σ α (ScanFault ε) := fun s a =>
  let (s', verdict) := visit s a
  (s', verdict.mapFail .visitor)

/-- A visitor of items that are read from others first. -/
def decoding (read : α → Except StoreError β) (visit : Visitor σ β (ScanFault ε)) :
    Visitor σ α (ScanFault ε) := fun s a =>
  match read a with
  | .ok b => visit s b
  | .error e => (s, .fail (.store e))

end Scan

end FileCatalog
