import FileCatalog.Admin
import FileCatalog.Proofs.Dump
import FileCatalog.Proofs.Image
import FileCatalog.Proofs.Position

/-!
# Inspecting a store

The admin tool looks at a store that was left in a directory. It opens the store, which stamps
nothing, performs one command and saves what the release leaves. `inspection_leaves_store` says that
after any number of its runs every path of the volume reads as before, and that every run told what
is in the store: the log position of the last commit, the sizes of the collections, the records.

- `Admin.Tells` says of each command what it prints of given records and a log position, and what
  fault it meets. `Records.StandIn.tells` proves it of a store that was opened on them. The texts
  are said line by line, apart from the printer: `Admin.report` for the sizes, `Inode.LinesOf` for
  an inode, with the values of its fields under their names.
- `Admin.Speaks` adds what happens before a store is opened: refused arguments, questions, and
  configurations that are not to be had. `Admin.run_speaks` is the step from one run to the next.

The runs aim at directories that keep what the store left (`Admin.AimsAt`), under whatever names. Of
a run elsewhere nothing is said. The texts of numbers are those of the language; that they can be
read back is not shown.
-/

namespace FileCatalog

/-! ## What is known of a table -/

/-- The table holds the records, each under its own identity, and tells the log position. -/
structure Records.StandIn (m : Records) (position : UInt64) (t : Table) : Prop where
  held : m.HeldBy t
  keyed : m.Keyed
  position : t.applyIndex = .ok position

/-- The log position of the last commit; zero if there is none. -/
def Ledger.lastPosition (l : Ledger) : UInt64 := (l.commits.getLast?.map Commit.position).getD 0

/-- In a ledger that began at zero, the position of the last commit is the last that was announced
with one. -/
theorem Ledger.position_current {l : Ledger} (fresh : l.origin.position = 0) :
    l.current.position = l.lastPosition := by
  have last : l.current = l.commits.getLastD l.origin := by
    rw [current, recovered, commits]
    rcases List.eq_nil_or_concat l.volatile with none | ⟨before, c, some⟩
    · simp [none]
    · simp [some]
  rw [last, lastPosition, List.getLastD_eq_getLast?]
  cases l.commits.getLast? with
  | none => exact fresh
  | some c => rfl

namespace Admin

/-! ## What commands tell -/

/-- The word for the kind of file-system object that a mode tells. -/
def kindWord (mode : UInt32) : String :=
  if mode &&& 0o170000 = 0o100000 then "file"
  else if mode &&& 0o170000 = 0o040000 then "dir"
  else if mode &&& 0o170000 = 0o120000 then "symlink"
  else "other"

/-- An inode of a kind is told by the word for it. -/
theorem text_fileType (i : Inode) : i.fileType.text = kindWord i.mode := by
  simp only [Inode.fileType, FileType.ofMode, apply_ite FileType.text]
  rfl

/-- What is told about a root directory: the word for its kind and the number of its links. -/
def rootText : Option Inode → String
  | some root => kindWord root.mode ++ " (nlink " ++ toString root.linkCount.toNat ++ ")"
  | none => "missing"

/-- Nothing that is told of an inode reads as if there were none. -/
theorem rootText_eq_missing_iff {root? : Option Inode} :
    rootText root? = "missing" ↔ root? = none := by
  constructor
  · intro same
    cases root? with
    | none => rfl
    | some root =>
      have ends : (rootText (some root)).toList.getLast? = some ')' := by
        show (_ ++ ")" : String).toList.getLast? = some ')'
        have paren : ")".toList = [')'] := by decide
        rw [String.toList_append, paren, List.getLast?_concat]
      rw [same] at ends
      exact absurd ends (by decide)
  · rintro rfl
    rfl

/-- The report on a store. The log position is told twice, as announced and as recorded. -/
def report (directory : String) (position : UInt64) (m : Records) : String :=
  String.join [
    "path:          " ++ directory ++ "\n",
    "apply index:   " ++ toString position.toNat ++ "\n",
    "persisted:     " ++ toString position.toNat ++ "\n",
    "root:          " ++ rootText ((m .inode).lookup (1 : UInt64)) ++ "\n",
    "inode:         " ++ toString (m .inode).keys.card ++ "\n",
    "dentry:        " ++ toString (m .dentry).keys.card ++ "\n",
    "extend:        " ++ toString (m .attributes).keys.card ++ "\n",
    "multipart:     " ++ toString (m .upload).keys.card ++ "\n"]

/-- The labels of the report, and what stands before the values. -/
def columns : List (String × String) :=
  [("path", "path:          "), ("apply index", "apply index:   "),
    ("persisted", "persisted:     "), ("root", "root:          "), ("inode", "inode:         "),
    ("dentry", "dentry:        "), ("extend", "extend:        "), ("multipart", "multipart:     ")]

/-- A label is padded up to its column. -/
theorem labelled_eq_column : ∀ column ∈ columns, ∀ value,
    labelled column.1 value = column.2 ++ value ++ "\n" := by
  have padding : ∀ column ∈ columns, column.1 ++ ":" ++
      String.ofList (List.replicate (14 - (column.1 ++ ":").length) ' ') ++ " " = column.2 := by
    decide
  intro column listed value
  simp only [labelled, padding column listed]

/-- The report, label by label. -/
theorem report_eq_labelled (directory : String) (position : UInt64) (m : Records) :
    report directory position m =
      labelled "path" directory ++ labelled "apply index" (toString position.toNat) ++
        labelled "persisted" (toString position.toNat) ++
        labelled "root" (rootText ((m .inode).lookup (1 : UInt64))) ++
        String.join (Collection.all.map fun c => labelled c.name (toString (m c).keys.card)) := by
  have column := labelled_eq_column
  simp only [columns, List.forall_mem_cons] at column
  obtain ⟨path, index, persisted, root, inode, dentry, extend, multipart, -⟩ := column
  simp only [report, ← path, ← index, ← persisted, ← root, ← inode, ← dentry, ← extend, ← multipart,
    Collection.all, List.map_cons, Collection.name, List.map_nil, String.join_cons,
    String.append_assoc]

/-- What a command prints of these records and this log position, and what fault it meets. -/
def Tells (directory : String) (position : UInt64) (m : Records) : Command → Output → Prop
  | .stat, out => out = { text := report directory position m }
  | .dump c, out => ∃ rs, m.Lists c rs ∧ Prints c rs out
  | .getInode number, out =>
    match (m .inode).lookup number with
    | some i => ∃ t, i.LinesOf t ∧ out = { text := String.ofList t ++ "\n" }
    | none =>
      let key : Bytes := 0 :: Bytes.bigEndian 8 number.toNat
      let fault : Fault := .store (.notFound .inode key.hex)
      out = { fault := some fault } ∧ fault.message = "inode not found: " ++ key.hex
  | .flush, out => out = {}

end Admin

namespace Records.StandIn

open Admin

variable {m : Records} {position : UInt64} {s : Store}

/-- `stat` prints the report of the maps. -/
theorem stat_eq (standIn : m.StandIn position s.committed) (inUse : s.isClosed = false)
    (announced : s.applyIndex = position) :
    stat s = { text := report s.directory position m } := by
  have persisted : s.persistedIndex = .ok position := by
    rw [Store.persistedIndex, Store.table_of_inUse inUse]
    exact standIn.position
  have root : rootLine (s.get .inode Inode.root) =
      .ok (labelled "root" (rootText ((m .inode).lookup (1 : UInt64)))) := by
    rw [standIn.held.get inUse (c := .inode) trivial, Inode.root]
    cases (m .inode).lookup (1 : UInt64) with
    | none => rfl
    | some i =>
      rw [rootText, ← text_fileType]
      rfl
  have count : ∀ c, Snapshot.count ⟨s.directory, s.committed⟩ c = (m c).keys.card := fun c => by
    rw [Snapshot.count_eq, ← standIn.held.length_range c]
  simp only [stat, Store.snapshot_of_inUse inUse, persisted, root, Output.after, count, announced,
    report_eq_labelled, String.empty_append, String.append_assoc]

/-- `get-inode` prints the record of the map under the number, or says that there is none. -/
theorem getInode_tells (standIn : m.StandIn position s.committed) (inUse : s.isClosed = false)
    (number : UInt64) :
    Tells s.directory position m (.getInode number) (getInode s number) := by
  have proper : Key.IsProper .inode number := trivial
  have got := standIn.held.get inUse proper
  rw [Tells, getInode, got]
  cases (m .inode).lookup number with
  | none =>
    have label : "inode" ++ " not found: " = "inode not found: " := by decide
    exact ⟨rfl, congrArg (· ++ Bytes.hex (0 :: Bytes.bigEndian 8 number.toNat)) label⟩
  | some i =>
    refine ⟨_, Inode.linesOf_iff.mpr rfl, ?_⟩
    simp [Output.after]

/-- A command tells what is in the store, and leaves the table that it found. -/
theorem tells (standIn : m.StandIn position s.committed) (inUse : s.isClosed = false)
    (announced : s.applyIndex = position) (command : Command) :
    Tells s.directory position m command (command.run s).2 ∧
      (command.run s).1.directory = s.directory ∧
      (command.run s).1.release.durable = s.committed := by
  have released : s.release.durable = s.committed := by
    rw [Store.release, inUse]
    rfl
  cases command with
  | stat => exact ⟨standIn.stat_eq inUse announced, rfl, released⟩
  | dump c =>
    obtain ⟨rs, lists, entries⟩ := standIn.held.exists_lists standIn.keyed c
    exact ⟨⟨rs, lists, dump_prints inUse standIn.held lists entries⟩, rfl, released⟩
  | getInode number => exact ⟨standIn.getInode_tells inUse number, rfl, released⟩
  | flush =>
    rw [Command.run, Store.flush_of_inUse inUse]
    refine ⟨rfl, rfl, ?_⟩
    simp only [Store.release, inUse]
    rfl

end Records.StandIn

namespace Admin

/-! ## One run -/

variable {v v' : Volume} {t : Table} {m : Records} {position : UInt64} {arguments : List String}

/-- The outcome of a command that printed this and met this fault. -/
def Output.outcome (out : Output) : Outcome :=
  match out.fault with
  | none => { exit := 0, stdout := out.text }
  | some fault => { exit := 1, stdout := out.text, error := some fault.message }

/-- The settings of a request on a volume, or the error about its configuration. -/
def settingsOn (v : Volume) (r : Request) : Except String Settings :=
  ((settings Volume.files r).run v).1

/-- Settings are read by path, and nothing is written for them. -/
private theorem settings_run (alike : v.Alike v') (r : Request) :
    ∃ found, (settings Volume.files r).run v = (found, v) ∧
      (settings Volume.files r).run v' = (found, v') := by
  have read : ∀ (w : Volume) (path : String),
      (Volume.files.read path).run w = pure (w.read path, w) := fun _ _ => rfl
  unfold settings
  cases r.config with
  | none => exact ⟨_, rfl, rfl⟩
  | some path =>
    simp only [Files.readText, StateT.run_bind, read, alike.read, pure_bind]
    cases v'.read path with
    | nothing | unreadable => exact ⟨_, rfl, rfl⟩
    | file octets =>
      simp only
      cases Utf8.decode octets with
      | error fault => exact ⟨_, rfl, rfl⟩
      | ok text =>
        simp only [StateT.run_pure, pure_bind]
        cases Settings.parse text <;> exact ⟨_, rfl, rfl⟩

/-- The settings are read without a change to the volume. -/
theorem settings_eq (v : Volume) (r : Request) :
    (settings Volume.files r).run v = (settingsOn v r, v) := by
  obtain ⟨found, same, -⟩ := settings_run (.refl v) r
  rw [settingsOn, same]

/-- Volumes that look alike have the same settings. -/
theorem settingsOn_of_alike (alike : v.Alike v') (r : Request) :
    settingsOn v r = settingsOn v' r := by
  obtain ⟨found, same, same'⟩ := settings_run alike r
  rw [settingsOn, settingsOn, same, same']

/-- A directory that is named needs no configuration. -/
theorem settingsOn_of_directory (v : Volume) (directory : String) (command : Command) :
    settingsOn v { directory := some directory, command } = .ok { directory } := rfl

/-- If the arguments come to a store at all, it is in a directory that keeps the table. -/
def AimsAt (v : Volume) (t : Table) (arguments : List String) : Prop :=
  ∀ r s, ask arguments = .request r → settingsOn v r = .ok s → v.Keeps s.directory t

/-- Arguments aim at the same table in volumes that look alike. -/
theorem AimsAt.of_alike (alike : v.Alike v') (aims : AimsAt v t arguments) :
    AimsAt v' t arguments := by
  intro r s asked found
  rw [← settingsOn_of_alike alike] at found
  exact (aims r s asked found).of_alike alike

/-- Without a configuration a store is looked for in the directory that the arguments name. -/
theorem AimsAt.of_directory {directory : String} {command : Command}
    (asked : ask arguments = .request { directory := some directory, command })
    (keeps : v.Keeps directory t) : AimsAt v t arguments := by
  intro r s asked' found
  rw [asked, Asked.request.injEq] at asked'
  rw [← asked', settingsOn_of_directory, Except.ok.injEq] at found
  rw [← found]
  exact keeps

/-- Arguments that are refused come to no store. -/
theorem AimsAt.of_refused (refused : ask arguments = .refused) : AimsAt v t arguments := by
  intro r s asked
  rw [refused] at asked
  cases asked

/-- What a run with these arguments comes to, if a store that it opens has these records and this
log position. -/
def Speaks (v : Volume) (position : UInt64) (m : Records) (arguments : List String)
    (o : Outcome) : Prop :=
  match ask arguments with
  | .refused => o = { exit := 2 }
  | .question q => o = { exit := 0, stdout := answer q }
  | .request r =>
    match settingsOn v r with
    | .error message => o = { exit := 1, error := some message }
    | .ok s => ∃ out, Tells s.directory position m r.command out ∧ o = out.outcome

/-- What the tool says fits one volume as it fits another that looks alike. -/
theorem Speaks.of_alike (alike : v.Alike v') {o : Outcome}
    (speaks : Speaks v' position m arguments o) : Speaks v position m arguments o := by
  unfold Speaks at speaks ⊢
  simp only [settingsOn_of_alike alike]
  exact speaks

/-- A command on a directory that keeps a table. -/
theorem runOn_tells (standIn : m.StandIn position t) {s : Settings}
    (keeps : v.Keeps s.directory t) (command : Command) :
    v.Alike ((runOn Volume.files s command).run v).2 ∧
      ∃ out, Tells s.directory position m command out ∧
        ((runOn Volume.files s command).run v).1 = out.outcome := by
  let store : Store := {
    directory := s.directory, committed := t, durable := t, applyIndex := position,
    writeBuffer := s.writeBuffer }
  have loaded : Volume.files.openStore s.directory s.writeBuffer v = (.ok store, v) := by
    rw [keeps.openStore, Store.load_eq_ok_iff.mpr ⟨position, standIn.position, rfl⟩]
  obtain ⟨tells, home, left⟩ := Records.StandIn.tells (s := store) standIn rfl rfl command
  have saved := keeps.saveStore home left
  simp only [runOn, bind, StateT.bind, StateT.run, loaded]
  rcases ran : command.run store with ⟨after, out⟩
  rw [ran] at tells saved
  rcases wrote : Volume.files.saveStore after v with ⟨ok, v'⟩
  rw [wrote] at saved
  rcases out with ⟨text, _ | fault⟩
  · exact ⟨saved, _, tells, rfl⟩
  · exact ⟨saved, _, tells, rfl⟩

/-- A run tells what is in the store that it opens, and leaves the volume looking as it did. -/
theorem run_speaks (standIn : m.StandIn position t) (aims : AimsAt v t arguments) :
    v.Alike ((run Volume.files arguments).run v).2 ∧
      Speaks v position m arguments ((run Volume.files arguments).run v).1 := by
  unfold run Speaks
  cases asked : ask arguments with
  | refused => exact ⟨.refl v, rfl⟩
  | question q => exact ⟨.refl v, rfl⟩
  | request r =>
    simp only [StateT.run_bind, settings_eq]
    cases found : settingsOn v r with
    | error message => exact ⟨.refl v, rfl⟩
    | ok s => exact runOn_tells standIn (aims r s asked found) r.command

/-! ## Runs in turn -/

/-- Runs in turn tell what is in the store that they open, all of them the same. -/
theorem runs_speak (standIn : m.StandIn position t) {runs : List (List String)}
    (aims : ∀ arguments ∈ runs, AimsAt v t arguments) :
    v.Alike ((runs.mapM (run Volume.files)).run v).2 ∧
      List.Forall₂ (Speaks v position m) runs ((runs.mapM (run Volume.files)).run v).1 := by
  induction runs generalizing v with
  | nil => exact ⟨.refl v, .nil⟩
  | cons arguments rest ih =>
    obtain ⟨alike, speaks⟩ := run_speaks standIn (aims arguments List.mem_cons_self)
    have later := fun a ha => (aims a (List.mem_cons_of_mem _ ha)).of_alike alike
    obtain ⟨alikeLater, speakLater⟩ := ih later
    rw [List.mapM_cons]
    refine ⟨alike.trans alikeLater, .cons speaks ?_⟩
    exact speakLater.imp fun _ _ => Speaks.of_alike alike

end Admin

/-! ## What operations on records leave to be inspected -/

open Admin

namespace Catalog

/-- The steps of catalog operations are operations of the session. -/
theorem Operation.areOperations (ops : List Operation) : Step.AreOperations (ops.map step) := by
  induction ops with
  | nil => trivial
  | cons op rest ih => exact ⟨by cases op <;> trivial, ih⟩

/-- A released store leaves the records of the catalog and the last log position of the ledger. -/
theorem standIn_run (base : String) (writeBuffer : UInt64) {ops : List Operation}
    (bounded : ∀ op ∈ ops, op.IsBounded) :
    let ran := (Session.start base writeBuffer).run (ops.map Operation.step)
    let l := (Ledger.opened Commit.empty writeBuffer writeBuffer).follow
      (Step.eventsOf (ops.map Operation.step) ran.2)
    (empty.run ops).1.records.StandIn l.lastPosition ran.1.store.release.durable := by
  intro ran l
  have represents := ((represents_start base writeBuffer).run bounded).1
  have start : empty.records.Keyed := Records.keyed_empty
  have opened : Store.load (Session.start base writeBuffer).store.directory Commit.empty.table
      writeBuffer = .ok (Session.start base writeBuffer).store := rfl
  have course := Session.Course.run_extends _ (Operation.areOperations ops)
    (.start (s := Session.start base writeBuffer))
  obtain ⟨described, -⟩ := course.described (Ledger.opened_describes opened writeBuffer) rfl
  have origin : l.origin = Commit.empty := Ledger.origin_follow _ _
  have last : l.current.position = l.lastPosition :=
    Ledger.position_current (congrArg Commit.position origin)
  rw [show ran.1.store.release.durable = _ from represents.release_durable]
  refine ⟨represents.held, run_keyed start ops, ?_⟩
  rw [← last, described.committed]
  exact l.current.recorded

end Catalog

/-- **Inspecting a store leaves it as it is, and tells what is in it.** After any run of operations
on records, from a store that holds nothing, let `t` be what the store leaves when it is released
and `l` the ledger of the run. Let the tool be run any number of times on a volume, each time at a
directory that keeps `t`, or so that it comes to no store at all. Then every path of the volume
reads as before; a directory that kept `t` opens with all of its entries, the log position of the
last commit among them; and every run told the records and this log position, or failed for its own
arguments. No directory is told to have no root where it has one. -/
theorem inspection_leaves_store (base : String) (writeBuffer : UInt64)
    {ops : List Catalog.Operation} (bounded : ∀ op ∈ ops, op.IsBounded) {v : Volume}
    {runs : List (List String)}
    (aims : ∀ arguments ∈ runs, AimsAt v
      ((Session.start base writeBuffer).run
        (ops.map Catalog.Operation.step)).1.store.release.durable arguments) :
    let ran := (Session.start base writeBuffer).run (ops.map Catalog.Operation.step)
    let t := ran.1.store.release.durable
    let l := (Ledger.opened Commit.empty writeBuffer writeBuffer).follow
      (Step.eventsOf (ops.map Catalog.Operation.step) ran.2)
    let records := (Catalog.empty.run ops).1.records
    let after := (runs.mapM (run Volume.files)).run v
    (∀ path, after.2.read path = v.read path) ∧
      (∀ directory w, v.Keeps directory t → ∃ store,
        (Volume.files.openStore directory w).run after.2 = (.ok store, after.2) ∧
          store.committed = t ∧ store.durable = t ∧ store.applyIndex = l.lastPosition ∧
          store.persistedIndex = .ok l.lastPosition) ∧
      List.Forall₂ (Speaks v l.lastPosition records) runs after.1 ∧
      (rootText ((records .inode).lookup (1 : UInt64)) = "missing" ↔
        (1 : UInt64) ∉ records .inode) := by
  intro ran t l records after
  have standIn : records.StandIn l.lastPosition t := Catalog.standIn_run base writeBuffer bounded
  obtain ⟨alike, speak⟩ := runs_speak standIn aims
  refine ⟨fun path => (alike.read path).symm, ?_, speak, ?_⟩
  · intro directory w keeps
    have found := (keeps.of_alike alike).openStore w
    rw [Store.load_eq_ok_iff.mpr ⟨l.lastPosition, standIn.position, rfl⟩] at found
    exact ⟨_, found, rfl, rfl, rfl, standIn.position⟩
  · rw [rootText_eq_missing_iff, Finmap.lookup_eq_none]

/-- Of four runs one reports, one prints an inode, one misses an inode and one is refused its
arguments. The position that was announced last has not been committed. -/
theorem inspection_leaves_small_store :
    let link : Inode := {
      number := 7, mode := 0o120777, modifyTime := -1, linkTarget := [47, 97], linkCount := 1,
      extents := [⟨0, 1, 2, 0, 5, 9⟩] }
    let ops : List Catalog.Operation :=
      [.setApplyIndex 9, .create .inode { number := 1, mode := 0o40755, linkCount := 2 },
        .create .inode link, .put .dentry ⟨1, "a", 7, 0⟩, .flush, .setApplyIndex 12, .release]
    let store := ((Session.start "/data" 64).run (ops.map Catalog.Operation.step)).1.store
    let empty : Volume := ⟨[("data", .directory [("store", .directory [])])]⟩
    let saved := (Volume.files.saveStore store).run empty
    let runs : List (List String) :=
      [["--data-dir", "/data/store", "stat"], ["-d/data/store", "get-inode", "7"],
        ["-d/data/store", "get-inode", "8"], ["flush", "now"]]
    (∀ op ∈ ops, op.IsBounded) ∧
      (∀ arguments ∈ runs, AimsAt saved.2 store.release.durable arguments) ∧
      ((runs.mapM (run Volume.files)).run saved.2).1 =
        [{ exit := 0, stdout :=
            "path:          /data/store\napply index:   9\npersisted:     9\n" ++
            "root:          dir (nlink 2)\ninode:         2\ndentry:        1\n" ++
            "extend:        0\nmultipart:     0\n" },
          { exit := 0, stdout :=
            "\x7b\n  \"inode\": 7,\n  \"mode\": 41471,\n  \"uid\": 0,\n  \"gid\": 0,\n" ++
            "  \"size\": 0,\n  \"generation\": 0,\n  \"create_time\": 0,\n" ++
            "  \"access_time\": 0,\n  \"modify_time\": -1,\n" ++
            "  \"link_target\": [\n    47,\n    97\n  ],\n  \"nlink\": 1,\n  \"flag\": 0,\n" ++
            "  \"extents\": [\n    \x7b\n      \"file_offset\": 0,\n" ++
            "      \"partition_id\": 1,\n      \"extent_id\": 2,\n" ++
            "      \"extent_offset\": 0,\n      \"size\": 5,\n      \"crc\": 9\n    \x7d\n" ++
            "  ]\n\x7d\n" },
          { exit := 1, error := some "inode not found: 000000000000000008" }, { exit := 2 }] := by
  intro link ops store empty saved runs
  have inode : Inode.Fits { number := 1, mode := 0o40755, linkCount := 2 } := ⟨by decide, by decide⟩
  have linked : link.Fits := ⟨by decide, by decide⟩
  have name : Text.Fits "a" := by decide
  have bounded : ∀ op ∈ ops, op.IsBounded := by
    simp [ops, Catalog.Operation.IsBounded, Collection.Fits, inode, linked, name]
  have present : empty.HasDirectory store.directory :=
    ⟨["data", "store"], by decide +kernel, by decide +kernel⟩
  have wrote : saved.1 = true := by decide +kernel
  have home : store.directory = "/data/store" := by decide +kernel
  have fits : (Image.write store.release.durable).length < UInt64.size := by decide +kernel
  have keeps := Volume.keeps_of_saveStore present wrote fits
  rw [home] at keeps
  have report : ask ["--data-dir", "/data/store", "stat"] =
      .request { directory := some "/data/store", command := .stat } := by decide +kernel
  have found : ask ["-d/data/store", "get-inode", "7"] =
      .request { directory := some "/data/store", command := .getInode 7 } := by decide +kernel
  have lookup : ask ["-d/data/store", "get-inode", "8"] =
      .request { directory := some "/data/store", command := .getInode 8 } := by decide +kernel
  have refused : ask ["flush", "now"] = .refused := by decide +kernel
  have aims : ∀ arguments ∈ runs, AimsAt saved.2 store.release.durable arguments := by
    simp only [runs, List.forall_mem_cons]
    refine ⟨.of_directory report keeps, .of_directory found keeps, .of_directory lookup keeps,
      .of_refused refused, ?_⟩
    intro arguments none
    exact absurd none List.not_mem_nil
  obtain ⟨-, -, speak, -⟩ := inspection_leaves_store "/data" 64 bounded aims
  refine ⟨bounded, aims, ?_⟩
  generalize ((runs.mapM (run Volume.files)).run saved.2).1 = outcomes at speak ⊢
  simp only [runs, List.forall₂_cons_left_iff, List.forall₂_nil_left_iff] at speak
  obtain ⟨first, -, told, ⟨second, -, shown, ⟨third, -, missed, ⟨fourth, -, nothing, rfl, rfl⟩,
    rfl⟩, rfl⟩, rfl⟩ := speak
  simp only [Speaks, report, found, lookup, refused, settingsOn_of_directory, Tells]
    at told shown missed nothing
  have present : ((Catalog.empty.run ops).1.records .inode).lookup (7 : UInt64) = some link := by
    decide
  have missing : ((Catalog.empty.run ops).1.records .inode).lookup (8 : UInt64) = none := by decide
  rw [present] at shown
  rw [missing] at missed
  obtain ⟨-, rfl, rfl⟩ := told
  obtain ⟨-, ⟨t, lines, rfl⟩, rfl⟩ := shown
  obtain ⟨-, ⟨rfl, -⟩, rfl⟩ := missed
  rw [nothing, Inode.linesOf_iff.mp lines]
  decide +kernel

end FileCatalog
