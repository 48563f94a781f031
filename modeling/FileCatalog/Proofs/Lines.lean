import FileCatalog.Proofs.Dump
import FileCatalog.Proofs.Visits

/-!
# The lines that printing leaves

A collection is printed as far as its values can be read. `dump_prints_read_records` says this of
every table, whatever octets stand under its keys: there is one line for each value before the
first that holds no record, in the order of the keys, and behind these lines the printing succeeds
or fails by the fault of that value. Each line is the record in JSON: its fields by name, with their
values, spelled without blanks (`Collection.LineOf`). Whatever texts the record holds, there is no
line break in it, so the output is cut at its line breaks into these lines and nothing else.

Records of attributes are left out. They have a fault of their own, in the middle of a line.
-/

namespace FileCatalog

/-! ## Lines of records -/

/-- Whole lines are cut at their ends, with nothing behind the last. -/
theorem splitOn_lines {texts : List (List Char)} (unbroken : ∀ t ∈ texts, '\n' ∉ t) :
    (texts.flatMap (· ++ ['\n'])).splitOn '\n' = texts ++ [[]] := by
  have ends : texts.flatMap (· ++ ['\n']) = ['\n'].intercalate (texts ++ [[]]) := by
    clear unbroken
    induction texts with
    | nil => rfl
    | cons t texts ih =>
      cases texts with
      | nil => simp
      | cons t' texts =>
        rw [List.cons_append, List.cons_append, List.intercalate_cons_cons, ← List.cons_append,
          ← ih, List.flatMap_cons]
  rw [ends]
  apply List.splitOn_intercalate
  · intro t listed
    rcases List.mem_append.mp listed with listed | last
    · exact unbroken t listed
    · rw [List.mem_singleton.mp last]
      exact List.not_mem_nil
  · simp

namespace Collection

variable {c : Collection}

/-- The records that are read of values are all there are exactly if each value holds one. -/
theorem Reads.fault_eq_none_iff {values : List Bytes} {o : Offer c.Record}
    (reads : c.Reads values o) :
    o.fault = none ↔ ∀ value ∈ values, ∃ r, c.decode value = .ok r := by
  cases reads with
  | all read =>
    refine iff_of_true rfl ?_
    induction read with
    | nil => exact nofun
    | cons decoded _ ih => exact List.forall_mem_cons.mpr ⟨⟨_, decoded⟩, ih⟩
  | upTo front damaged rest read refused =>
    refine iff_of_false (Option.some_ne_none _) fun each => ?_
    obtain ⟨r, decoded⟩ := each damaged (List.mem_append_right front List.mem_cons_self)
    rw [refused] at decoded
    cases decoded

end Collection

/-! ## Printing -/

namespace Admin

variable {c : Collection} {s : Store}

/-- The characters of lines in turn. -/
theorem toList_lines (rs : List c.Record) :
    (lines c rs).toList = (rs.map fun r => (c.toJson r).compact.text).flatMap (· ++ ['\n']) := by
  induction rs with
  | nil => rfl
  | cons r rest ih =>
    rw [lines_cons, String.toList_append, toList_line, ih, List.map_cons, List.flatMap_cons]

/-- What is printed is the lines of the records that are read, and behind them the fault that ends
the reading. -/
theorem dump_eq (inUse : s.isClosed = false) (keys : ∀ r : c.Record, c.HasTextKeys r) :
    let o := Offer.reading c.decode (s.committed.valuesIn c.least c.boundary)
    dump s c = { text := lines c o.items, fault := o.fault.map .store } := by
  intro o
  have tireless : Scan.Tireless (dumpRecord c) := fun text r => by rw [dumpRecord_eq (keys r)]
  have printed : ∀ (rs : List c.Record) (text : String),
      rs.foldl (fun text r => (dumpRecord c text r).1) text = text ++ lines c rs := by
    intro rs
    induction rs with
    | nil => exact fun text => (String.append_empty).symm
    | cons r rest ih =>
      intro text
      rw [List.foldl_cons, ih, dumpRecord_eq (keys r), lines_cons, String.append_assoc]
  have scanned : Snapshot.scan ⟨s.directory, s.committed⟩ c (dumpRecord c) "" =
      (lines c o.items, o.fault.map .store) := by
    rw [Snapshot.scan, Snapshot.rangeCollection, Snapshot.rangeBytes, Scan.walk_decoding,
      tireless.present_eq, printed, String.empty_append]
  rw [dump, Store.snapshot_of_inUse inUse]
  simp only [Output.after, scanned, String.empty_append]
  cases o.fault <;> rfl

end Admin

/-- **Printing is exact up to the first value that holds no record.** Take any store in use,
whatever its contents, and any collection but that of attributes. From its least key to its
boundary there are entries, each once and by ascending key; of their values records are read, up to
the first that holds none. The output is a line for each of these records, in this order, and the
line is the record in JSON, with the values of its fields under their names. Cut at its line breaks
the output is these lines, with nothing behind the last. The printing succeeds exactly if every
value holds a record; otherwise it fails by the fault of the collection, and the lines have been
printed. The store is left as it is. -/
theorem dump_prints_read_records {s : Store} (inUse : s.isClosed = false) {c : Collection}
    (plain : c ≠ .attributes) :
    let entries := s.committed.range c.least c.boundary
    s.committed.IsRange c.least c.boundary entries ∧
      ∃ (o : Offer c.Record) (texts : List (List Char)) (out : Admin.Output),
        c.Reads (entries.map (·.2)) o ∧ (Admin.Command.dump c).run s = (s, out) ∧
          List.Forall₂ c.LineOf o.items texts ∧
          out.text.toList = texts.flatMap (· ++ ['\n']) ∧
          out.text.toList.splitOn '\n' = texts ++ [[]] ∧
          out.fault = o.fault.map .store ∧
          (out.fault = none ↔ ∀ e ∈ entries, ∃ r, c.decode e.2 = .ok r) := by
  intro entries
  have keys : ∀ r : c.Record, c.HasTextKeys r := by
    intro r
    cases c with
    | attributes => exact absurd rfl plain
    | inode | dentry | upload => trivial
  have reads := c.reads_reading (entries.map (·.2))
  have printed := Admin.dump_eq inUse keys
  rw [Table.valuesIn] at printed
  generalize Offer.reading c.decode (entries.map (·.2)) = o at reads printed
  have line : ∀ r : c.Record, c.LineOf r (c.toJson r).compact.text := fun r =>
    Collection.lineOf_compact (keys r)
  have each : List.Forall₂ c.LineOf o.items (o.items.map fun r => (c.toJson r).compact.text) := by
    rw [List.forall₂_map_right_iff, List.forall₂_same]
    exact fun r _ => line r
  have unbroken : ∀ t ∈ o.items.map fun r => (c.toJson r).compact.text, '\n' ∉ t := by
    rw [List.forall_mem_map]
    exact fun r _ => (line r).unbroken
  refine ⟨s.committed.isRange c.least c.boundary, o, _, _, reads, rfl, each, ?text, ?cut, ?fault,
    ?success⟩
  case text =>
    rw [printed]
    exact Admin.toList_lines o.items
  case cut => rw [printed, Admin.toList_lines, splitOn_lines unbroken]
  case fault => rw [printed]
  case success =>
    rw [printed, Option.map_eq_none_iff, reads.fault_eq_none_iff, List.forall_mem_map]

/-- Of three values in a directory the second holds no record. The line before it stands, with the
line break and the quotes in the name escaped, and the third value is not come to. -/
theorem dump_prints_before_damage :
    let s := ((Session.start "/data" 100).run
      [.put .dentry ⟨5, "a\n\"\x01", 2, 0⟩, .putBytes (Key.of .dentry ⟨5, "b"⟩) [0xFF],
        .put .dentry ⟨5, "c", 3, 0⟩]).1.store
    let line := "\x7b\"parent_id\":5,\"name\":\"a\\n\\\"\\u0001\",\"inode\":2,\"mode\":0\x7d"
    s.isClosed = false ∧ Collection.dentry ≠ .attributes ∧
      ∃ out, (Admin.Command.dump .dentry).run s = (s, out) ∧ out.text = line ++ "\n" ∧
        out.text.toList.splitOn '\n' = [line.toList, []] ∧
        out.fault = some (.store (.decode .dentry .endOfInput)) ∧
        ¬ ∀ e ∈ s.committed.range Collection.dentry.least Collection.dentry.boundary,
          ∃ r, Collection.dentry.decode e.2 = .ok r := by
  intro s line
  have inUse : s.isClosed = false := rfl
  have plain : Collection.dentry ≠ .attributes := nofun
  obtain ⟨-, o, texts, out, -, ran, -, -, -, -, success⟩ := dump_prints_read_records inUse plain
  have printed : Admin.dump s .dentry =
      { text := line ++ "\n", fault := some (.store (.decode .dentry .endOfInput)) } := by
    decide +kernel
  have same : out = Admin.dump s .dentry := (congrArg Prod.snd ran).symm
  rw [printed] at same
  refine ⟨inUse, plain, out, ran, ?_, ?_, ?_, ?_⟩
  · rw [same]
  · rw [same]
    decide +kernel
  · rw [same]
  · rw [← success, same]
    exact Option.some_ne_none _

end FileCatalog
