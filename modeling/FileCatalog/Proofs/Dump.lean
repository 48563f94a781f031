import FileCatalog.Admin.Command
import FileCatalog.Proofs.Range
import FileCatalog.Proofs.RecordJson

/-!
# What printing a collection prints

The records of a collection are printed as lines, one for each, in the order of their identities.
A line is the record in JSON, as `Collection.LineOf` tells it. The printing has a fault of its own
where a record cannot be written whole: the record has attributes, and their names are no texts.
What stands before it has been printed then, the beginning of its own line included.

`Admin.Prints` says which of the two happens, by the list of the records. `dump_prints_records` says
so of every store that was left by operations on records and is opened to be printed.
-/

namespace FileCatalog

namespace Admin

variable {c : Collection}

/-- The line on which a record is printed. -/
def line (c : Collection) (r : c.Record) : String :=
  String.ofList (c.toJson r).compact.text ++ "\n"

/-- The lines of records in turn. -/
def lines (c : Collection) (rs : List c.Record) : String := String.join (rs.map (line c))

/-- The line of the first record comes first. -/
theorem lines_cons (r : c.Record) (rest : List c.Record) :
    lines c (r :: rest) = line c r ++ lines c rest := by
  rw [lines, List.map_cons, String.join_cons, lines]

/-- A line is what is written of its record, and the line break behind it. -/
theorem toList_line (r : c.Record) : (line c r).toList = (c.toJson r).compact.text ++ ['\n'] := by
  have ends : "\n".toList = ['\n'] := by decide
  rw [line, String.toList_append, String.toList_ofList, ends]

/-- The line of a record that can be written whole is the record in JSON. -/
theorem lineOf_line {r : c.Record} (keys : c.HasTextKeys r) :
    ∃ t, c.LineOf r t ∧ line c r = String.ofList t ++ "\n" :=
  ⟨_, Collection.lineOf_compact keys, rfl⟩

/-- The beginning of the line of a record with attributes. -/
def begun : (c : Collection) → c.Record → String
  | .attributes, a => "\x7b\"inode\":" ++ toString (a.inode.toNat : Int) ++ ",\"attrs\":\x7b"
  | _, _ => ""

/-- What is written of a record with attributes. -/
theorem text_eq_begun {r : c.Record} (broken : ¬ c.HasTextKeys r) :
    String.ofList (c.toJson r).compact.text = begun c r := by
  cases c with
  | inode | dentry | upload => exact absurd trivial broken
  | attributes =>
    show String.ofList (Attributes.toJson r).compact.text = _
    rw [Attributes.compact_text broken, String.ofList_append, String.ofList_append,
      String.ofList_toList, String.ofList_toList, String.ofList_toList]
    rfl

/-- Each record has a line of its own. -/
theorem count_newline_lines (rs : List c.Record) : (lines c rs).toList.count '\n' = rs.length := by
  induction rs with
  | nil => rfl
  | cons r rest ih =>
    have own : (c.toJson r).compact.text.count '\n' = 0 :=
      List.count_eq_zero.mpr (Json.compact_isLine (c.toJson r))
    rw [lines_cons, String.toList_append, List.count_append, ih, toList_line, List.count_append, own,
      List.count_singleton_self, List.length_cons]
    omega

/-! ## Walks -/

/-- Behind a record that can be written whole the printing goes on. -/
theorem dumpRecord_eq {r : c.Record} (keys : c.HasTextKeys r) (text : String) :
    dumpRecord c text r = (text ++ line c r, .more) := by
  rw [dumpRecord, if_pos ((c.compact_isWhole_iff r).mpr keys), line, String.append_assoc]

/-- Records that can be written whole are printed before the printing goes on behind them. -/
theorem walk_dumpRecord_whole {rs : List c.Record} (whole : ∀ r ∈ rs, c.HasTextKeys r)
    (rest : List c.Record) (text : String) :
    Scan.walk (dumpRecord c) text (rs ++ rest) =
      Scan.walk (dumpRecord c) (text ++ lines c rs) rest := by
  induction rs generalizing text with
  | nil => rw [lines, List.map_nil, String.join_nil, String.append_empty, List.nil_append]
  | cons r rs ih =>
    have printed := dumpRecord_eq (whole r List.mem_cons_self) text
    have next := ih fun r' hr => whole r' (List.mem_cons_of_mem _ hr)
    rw [List.cons_append, Scan.walk, printed]
    simp only [next]
    rw [lines_cons, String.append_assoc]

/-- At a record with attributes the printing breaks off, whatever comes behind. -/
theorem walk_dumpRecord_broken {r : c.Record} (broken : ¬ c.HasTextKeys r)
    (rest : List c.Record) (text : String) :
    Scan.walk (dumpRecord c) text (r :: rest) =
      (text ++ begun c r, some (.visitor .keyNotText)) := by
  have cut : ¬ (c.toJson r).compact.isWhole = true := fun whole =>
    broken ((c.compact_isWhole_iff r).mp whole)
  have printed : dumpRecord c text r = (text ++ begun c r, .fail (.visitor .keyNotText)) := by
    rw [dumpRecord, if_neg cut, text_eq_begun broken]
  rw [Scan.walk, printed]

/-- What the printing of records in this order prints: all lines, or the lines before the first
record that cannot be written whole, the beginning of its line, and a fault. Each line is the record
in JSON. -/
structure Prints (c : Collection) (rs : List c.Record) (out : Output) : Prop where
  spelled : ∀ r ∈ rs, c.HasTextKeys r → ∃ t, c.LineOf r t ∧ line c r = String.ofList t ++ "\n"
  whole : (∀ r ∈ rs, c.HasTextKeys r) → out = { text := lines c rs }
  broken : ∀ before r behind, rs = before ++ r :: behind → (∀ r ∈ before, c.HasTextKeys r) →
    ¬ c.HasTextKeys r → out = { text := lines c before ++ begun c r, fault := some .keyNotText }

/-- A store in use prints the records that its table lists. -/
theorem dump_prints {s : Store} (inUse : s.isClosed = false) {m : Records}
    (held : m.HeldBy s.committed) {rs : List c.Record} (lists : m.Lists c rs)
    (entries : s.committed.range c.least c.boundary = rs.map c.entry) : Prints c rs (dump s c) := by
  have walked : Snapshot.scan ⟨s.directory, s.committed⟩ c (dumpRecord c) "" =
      Scan.walk (dumpRecord c) "" rs :=
    lists.rangeBytes_eq held entries (List.Subset.refl rs) (dumpRecord c) ""
  rw [dump, Store.snapshot_of_inUse inUse]
  simp only [Output.after, walked, String.empty_append]
  refine ⟨fun _ _ keys => lineOf_line keys, ?whole, ?broken⟩
  case whole =>
    intro whole
    have all := walk_dumpRecord_whole whole [] ""
    rw [List.append_nil, String.empty_append] at all
    rw [all]
    rfl
  case broken =>
    rintro before r behind rfl whole broken
    rw [walk_dumpRecord_whole whole, walk_dumpRecord_broken broken, String.empty_append]

end Admin

/-- All that was committed is durable once the store is released. -/
theorem Catalog.Represents.release_durable {cat : Catalog} {s : Session} (h : cat.Represents s) :
    s.store.release.durable = s.store.committed := by
  unfold Store.release
  split
  · next released => exact h.settled released
  · rfl

/-- **Printing a collection.** After any run of operations on records, from a store that holds
nothing, every collection has a list of its records, each once and in the order of their identities.
What the store leaves when it is released can be opened, under any directory and with any write
buffer, and printing the collection there prints the list: a line for each record, if no record of
attributes has any; otherwise the lines before the first that has, the beginning of its own, and a
fault. -/
theorem dump_prints_records (base : String) (writeBuffer : UInt64) {ops : List Catalog.Operation}
    (bounded : ∀ op ∈ ops, op.IsBounded) (c : Collection) :
    let ran := (Session.start base writeBuffer).run (ops.map Catalog.Operation.step)
    let left := ran.1.store.release
    ∃ rs, (Catalog.empty.run ops).1.records.Lists c rs ∧
      (Admin.lines c rs).toList.count '\n' = rs.length ∧
      ∀ directory w, ∃ store, Store.load directory left.durable w = .ok store ∧
        ∃ out, (Admin.Command.dump c).run store = (store, out) ∧ Admin.Prints c rs out := by
  intro ran left
  have represents := ((Catalog.represents_start base writeBuffer).run bounded).1
  have start : Catalog.empty.records.Keyed := Records.keyed_empty
  obtain ⟨rs, lists, entries⟩ := represents.held.exists_lists (Catalog.run_keyed start ops) c
  refine ⟨rs, lists, Admin.count_newline_lines rs, ?_⟩
  intro directory w
  obtain ⟨position, readable⟩ := represents.readable
  rw [← represents.release_durable] at readable
  refine ⟨_, Store.load_eq_ok_iff.mpr ⟨position, readable, rfl⟩, _, rfl, ?_⟩
  apply Admin.dump_prints rfl (m := (Catalog.empty.run ops).1.records)
  · show (Catalog.empty.run ops).1.records.HeldBy left.durable
    rw [represents.release_durable]
    exact represents.held
  · exact lists
  · show left.durable.range c.least c.boundary = rs.map c.entry
    rw [represents.release_durable]
    exact entries

/-- Records that were put in another order are printed in that of their identities: two directory
entries to the end, and of three records of attributes the first and the beginning of the second,
which has an attribute. -/
theorem dump_prints_in_order :
    let ops : List Catalog.Operation :=
      [.put .dentry ⟨5, "b", 2, 0⟩, .put .dentry ⟨5, "a\n", 1, 0⟩, .put .attributes { inode := 9 },
        .put .attributes ⟨8, OrderedMap.ofList [([97], [98])]⟩, .put .attributes { inode := 7 }]
    let left := ((Session.start "/data" 64).run (ops.map Catalog.Operation.step)).1.store.release
    let records := (Catalog.empty.run ops).1.records
    let entries : Admin.Output := { text :=
      "\x7b\"parent_id\":5,\"name\":\"a\\n\",\"inode\":1,\"mode\":0\x7d\n" ++
      "\x7b\"parent_id\":5,\"name\":\"b\",\"inode\":2,\"mode\":0\x7d\n" }
    let attributes : Admin.Output := {
      text := "\x7b\"inode\":7,\"attrs\":\x7b\x7d\x7d\n\x7b\"inode\":8,\"attrs\":\x7b",
      fault := some .keyNotText }
    let shows (c : Collection) (out : Admin.Output) : Prop := ∃ rs, records.Lists c rs ∧
      Admin.Prints c rs out ∧ ∃ store, Store.load "/copy" left.durable 0 = .ok store ∧
        (Admin.Command.dump c).run store = (store, out)
    (∀ op ∈ ops, op.IsBounded) ∧ shows .dentry entries ∧ shows .attributes attributes := by
  intro ops left records entries attributes shows
  have bounded : ∀ op ∈ ops, op.IsBounded := by
    have name : ∀ text ∈ ["a\n", "b"], Text.Fits text := by decide
    have none : ∀ inode, Attributes.Fits { inode } := fun _ =>
      ⟨show 0 < UInt64.size by decide, nofun⟩
    have one : Attributes.Fits ⟨8, OrderedMap.ofList [([97], [98])]⟩ := ⟨by decide, by decide⟩
    simp only [ops, List.forall_mem_cons]
    exact ⟨name _ (by decide), name _ (by decide), none 9, one, none 7, nofun⟩
  have opened : ∀ (c : Collection) (out : Admin.Output),
      (Store.load "/copy" left.durable 0).map (Admin.dump · c) = .ok out → shows c out := by
    intro c out dumped
    obtain ⟨rs, lists, -, opens⟩ := dump_prints_records "/data" 64 bounded c
    obtain ⟨store, loaded, printed, ran, prints⟩ := opens "/copy" 0
    have same : printed = Admin.dump store c := (congrArg Prod.snd ran).symm
    rw [show Store.load "/copy" left.durable 0 = .ok store from loaded] at dumped
    rw [same.trans (Except.ok.inj dumped)] at ran prints
    exact ⟨rs, lists, prints, store, loaded, ran⟩
  exact ⟨bounded, opened .dentry entries (by decide +kernel),
    opened .attributes attributes (by decide +kernel)⟩

/-- A record with an attribute is not printed to its end. -/
theorem dump_breaks_off_at_attribute :
    ¬ ∀ ops : List Catalog.Operation, (∀ op ∈ ops, op.IsBounded) → ∀ c,
      (Admin.dump ((Session.start "/data" 64).run (ops.map Catalog.Operation.step)).1.store
        c).fault = none := by
  intro printed
  have bounded : ∀ op ∈ [Catalog.Operation.put .attributes ⟨1, OrderedMap.ofList [([97], [98])]⟩],
      op.IsBounded := by
    have attributes : Attributes.Fits ⟨1, OrderedMap.ofList [([97], [98])]⟩ :=
      ⟨by decide, by decide⟩
    simp [Catalog.Operation.IsBounded, Collection.Fits, attributes]
  have fault := printed _ bounded .attributes
  revert fault
  decide +kernel

end FileCatalog
