import FileCatalog.Files.Volume
import FileCatalog.Main
import FileCatalog.Proofs.Isolation
import FileCatalog.Proofs.Recovery
import FileCatalog.Proofs.Refinement
import FileCatalog.Proofs.Replay
import FileCatalog.Session
import FileCatalog.Proofs.Canonical
import FileCatalog.Proofs.KeyOrder
import FileCatalog.Proofs.WriteBuffer
import FileCatalog.Proofs.Range
import FileCatalog.Proofs.Dump
import FileCatalog.Proofs.Emptiness
import FileCatalog.Proofs.Position
import FileCatalog.Proofs.Contention
import FileCatalog.Proofs.Lifecycle
import FileCatalog.Proofs.Provenance
import FileCatalog.Proofs.Truncation
import FileCatalog.Proofs.Directory
import FileCatalog.Proofs.Inspection
import FileCatalog.Proofs.LastWrite
import FileCatalog.Proofs.Visits
import FileCatalog.Proofs.Rebuilding
import FileCatalog.Proofs.PartMap
import FileCatalog.Proofs.AttributeMap
import FileCatalog.Proofs.Growth
import FileCatalog.Proofs.Lines
