import FileCatalog.Files.Volume

/-!
# Volumes that look alike

Two volumes look alike when every place of theirs holds the same: nothing, a directory, or a file of
the same octets (`Volume.Alike`). In which order the members of a directory are kept does not show.
A path leads to the same place of both and reads the same there (`Alike.place?`, `Alike.read`), so
nothing that is asked by path tells them apart.

Two requests leave a volume looking as it did: to make a directory that is there
(`makeDirectory_of_present`), and to write into a file the octets that it holds (`write_same`). What
was written otherwise is read under its path, and the directories are where they were
(`read_of_write`, `HasDirectory.of_write`). Nothing is said here of directories that are made, nor
of the other files after a writing.
-/

namespace FileCatalog

/-- What stands at a place, apart from what stands below it. -/
def Entry.content : Option Entry → Content
  | none => .nothing
  | some (.directory _) => .unreadable
  | some (.file octets) => .file octets

/-! ## Members -/

namespace Entry

/-- Below a directory one looks under the first name, and from there on. -/
theorem at?_directory_cons (members : Members) (name : String) (rest : List String) :
    (directory members).at? (name :: rest) = (members.lookup name).bind (·.at? rest) := by
  rw [at?]
  cases members.lookup name <;> rfl

/-- What has something below it is a directory. -/
theorem directory_of_at? {e inner : Entry} {name : String} {rest : List String}
    (found : e.at? (name :: rest) = some inner) : ∃ members, e = directory members := by
  cases e with
  | file octets => cases found
  | directory members => exact ⟨members, rfl⟩

/-- Something that is put at a name stands there, and the other names are as they were. -/
theorem Members.lookup_replace (members : Members) (name other : String) (e : Entry) :
    List.lookup other ((name, e) :: members.filter (·.1 ≠ name)) =
      if other = name then some e else members.lookup other := by
  by_cases own : other = name
  · rw [if_pos own, own, List.lookup_cons_self]
  · rw [if_neg own, List.lookup_cons, beq_eq_false_iff_ne.mpr own]
    induction members with
    | nil => rfl
    | cons member rest ih =>
      obtain ⟨key, value⟩ := member
      by_cases first : other = key
      · have kept : key ≠ name := fun same => own (first.trans same)
        rw [List.filter_cons_of_pos (by simpa using kept), List.lookup_cons, List.lookup_cons,
          first, beq_self_eq_true]
      · have later : (other == key) = false := beq_eq_false_iff_ne.mpr first
        by_cases gone : key = name
        · rw [List.filter_cons_of_neg (by simpa using gone), List.lookup_cons, later]
          exact ih
        · rw [List.filter_cons_of_pos (by simpa using gone), List.lookup_cons, List.lookup_cons,
            later]
          exact ih

/-- A file that is put where it stood shows at no place. -/
theorem Members.content_set {octets : Bytes} {place : List String} {members : Members}
    (stood : (directory members).at? place = some (file octets)) (other : List String) :
    content ((directory (members.set place (file octets))).at? other) =
      content ((directory members).at? other) := by
  induction place generalizing members other with
  | nil => cases stood
  | cons name rest ih =>
    rw [at?_directory_cons] at stood
    obtain ⟨e, found, below⟩ := Option.bind_eq_some_iff.mp stood
    cases other with
    | nil => rfl
    | cons first others =>
      cases rest with
      | nil =>
        -- The file itself is replaced, by the same one.
        obtain rfl : e = file octets := by simpa [at?] using below
        have replaced : members.set [name] (file octets) =
            (name, file octets) :: members.filter (·.1 ≠ name) := rfl
        rw [replaced, at?_directory_cons, at?_directory_cons, lookup_replace]
        split
        · next own => rw [own, found]
        · rfl
      | cons second rest =>
        -- On the way to the file, a directory is replaced by one that looks the same.
        obtain ⟨inner, rfl⟩ := directory_of_at? below
        rw [set, if_neg (by simp), found]
        simp only
        rw [at?_directory_cons, at?_directory_cons, lookup_replace]
        split
        · next own =>
          rw [own, found]
          exact ih below others
        · rfl

/-- What has a directory at or below it is a directory. -/
theorem directory_of_any {e : Entry} {names : List String}
    (standing : (e.at? names).any isDirectory = true) : ∃ members, e = directory members := by
  cases e with
  | directory members => exact ⟨members, rfl⟩
  | file octets => cases names <;> cases standing

/-- What is put in a directory that is there stands in it. -/
theorem Members.at?_set {place : List String} {members : Members} (e : Entry) (below : place ≠ [])
    (above : ((directory members).at? place.dropLast).any isDirectory = true) :
    (directory (members.set place e)).at? place = some e := by
  induction place generalizing members with
  | nil => exact absurd rfl below
  | cons name rest ih =>
    cases rest with
    | nil =>
      have replaced : members.set [name] e = (name, e) :: members.filter (·.1 ≠ name) := rfl
      rw [replaced, at?_directory_cons, lookup_replace, if_pos rfl]
      rfl
    | cons second rest =>
      rw [List.dropLast_cons_cons, at?_directory_cons] at above
      cases found : members.lookup name with
      | none =>
        rw [found] at above
        cases above
      | some e' =>
        rw [found, Option.bind_some] at above
        obtain ⟨inner, rfl⟩ := directory_of_any above
        rw [set, if_neg (by simp), found]
        simp only
        rw [at?_directory_cons, lookup_replace, if_pos rfl]
        exact ih (List.cons_ne_nil _ _) above

/-- A file that takes the place of no directory leaves the directories where they are. -/
theorem Members.isDirectory_set {octets : Bytes} {place : List String} {members : Members}
    (free : ((directory members).at? place).any isDirectory = false) {other : List String}
    (standing : ((directory members).at? other).any isDirectory = true) :
    ((directory (members.set place (file octets))).at? other).any isDirectory = true := by
  induction place generalizing members other with
  | nil => exact standing
  | cons name rest ih =>
    cases other with
    | nil => rfl
    | cons first others =>
      rw [at?_directory_cons] at free standing
      cases rest with
      | nil =>
        have replaced : members.set [name] (file octets) =
            (name, file octets) :: members.filter (·.1 ≠ name) := rfl
        rw [replaced, at?_directory_cons, lookup_replace]
        split
        · next own =>
          -- What the file replaces would be a directory.
          rw [own] at standing
          cases found : members.lookup name with
          | none =>
            rw [found] at standing
            cases standing
          | some e =>
            rw [found, Option.bind_some] at free standing
            obtain ⟨inner, rfl⟩ := directory_of_any standing
            cases free
        · exact standing
      | cons second rest =>
        rw [set, if_neg (by simp)]
        split
        · next inner found =>
          rw [at?_directory_cons, lookup_replace]
          rw [found, Option.bind_some] at free
          split
          · next own =>
            rw [own, found] at standing
            exact ih free standing
          · exact standing
        · rw [at?_directory_cons]
          exact standing

end Entry

namespace Volume

variable {v v' v'' : Volume} {place : List String} {path : String}

/-! ## Looks -/

/-- What stands at a place, apart from what stands below it. -/
def contentAt (v : Volume) (place : List String) : Content := Entry.content (v.entry? place)

/-- Directories are what can be found but not read. -/
theorem isDirectory_iff : v.isDirectory place = true ↔ v.contentAt place = .unreadable := by
  unfold isDirectory contentAt
  cases v.entry? place with
  | none => simp [Entry.content]
  | some e => cases e <;> simp [Entry.content, Entry.isDirectory]

/-- Reading a path tells the content of its place; a path without a place is unreadable. -/
theorem read_eq (v : Volume) (path : String) :
    v.read path = (v.place? path).elim .unreadable v.contentAt := by
  unfold read
  cases v.place? path with
  | none => rfl
  | some place =>
    simp only [Option.elim_some, contentAt]
    rcases v.entry? place with _ | _ | _ <;> rfl

/-- The same stands at every place of the volumes. -/
def Alike (v v' : Volume) : Prop := ∀ place, v.contentAt place = v'.contentAt place

namespace Alike

/-- A volume looks like itself. -/
theorem refl (v : Volume) : v.Alike v := fun _ => rfl

theorem trans (first : v.Alike v') (second : v'.Alike v'') : v.Alike v'' :=
  fun place => (first place).trans (second place)

/-- Volumes that look alike have directories at the same places. -/
theorem isDirectory (alike : v.Alike v') (place : List String) :
    v.isDirectory place = v'.isDirectory place := by
  rw [Bool.eq_iff_iff, isDirectory_iff, isDirectory_iff, alike place]

/-- In volumes that look alike the pieces of a path lead the same way. -/
theorem follow (alike : v.Alike v') (pieces place : List String) :
    v.follow place pieces = v'.follow place pieces := by
  induction pieces generalizing place with
  | nil => rfl
  | cons piece rest ih => simp only [Volume.follow, alike.isDirectory, ih]

theorem place? (alike : v.Alike v') (path : String) : v.place? path = v'.place? path := by
  simp only [Volume.place?, alike.follow]

/-- Volumes that look alike are read alike. -/
theorem read (alike : v.Alike v') (path : String) : v.read path = v'.read path := by
  rw [read_eq, read_eq, alike.place?, funext alike]

end Alike

/-! ## What is there -/

/-- The path names a directory. -/
def HasDirectory (v : Volume) (path : String) : Prop :=
  ∃ place, v.place? path = some place ∧ v.isDirectory place = true

theorem Alike.hasDirectory (alike : v.Alike v') (present : v.HasDirectory path) :
    v'.HasDirectory path := by
  obtain ⟨place, found, directory⟩ := present
  exact ⟨place, alike.place? path ▸ found, alike.isDirectory place ▸ directory⟩

/-- Where one piece leads from a place. -/
def further (place : List String) (piece : String) : Option (List String) :=
  if piece = "." then some place
  else if piece = ".." then some place.dropLast
  else if allowsName piece then some (place ++ [piece])
  else none

/-- A piece is followed from a directory, and the others from where it leads. -/
theorem follow_cons (v : Volume) (place : List String) (piece : String) (rest : List String) :
    v.follow place (piece :: rest) =
      if v.isDirectory place then (further place piece).bind fun next => v.follow next rest
      else none := by
  rw [follow, further]
  cases v.isDirectory place with
  | false => rfl
  | true =>
    simp only [Bool.not_true, Bool.false_eq_true, if_false, if_true]
    repeat' split
    all_goals rfl

/-- Pieces lead somewhere if the first leads on from a directory, and the others from there. -/
theorem follow_cons_eq_some_iff {piece : String} {rest last : List String} :
    v.follow place (piece :: rest) = some last ↔
      v.isDirectory place = true ∧
        ∃ next, further place piece = some next ∧ v.follow next rest = some last := by
  rw [follow_cons]
  cases v.isDirectory place <;> simp [Option.bind_eq_some_iff]

/-- Pieces in two parts are followed part by part. -/
theorem follow_append (v : Volume) (place first second : List String) :
    v.follow place (first ++ second) =
      (v.follow place first).bind fun middle => v.follow middle second := by
  induction first generalizing place with
  | nil => rfl
  | cons piece rest ih =>
    rw [List.cons_append, follow_cons, follow_cons]
    cases v.isDirectory place with
    | false => rfl
    | true => cases further place piece <;> simp [ih]

/-- Pieces that lead to a directory set out from one. -/
theorem isDirectory_of_follow {pieces last : List String} (led : v.follow place pieces = some last)
    (directory : v.isDirectory last = true) : v.isDirectory place = true := by
  cases pieces with
  | nil =>
    cases led
    exact directory
  | cons piece rest => exact (follow_cons_eq_some_iff.mp led).1

/-- Pieces lead where they lead without the dots among them. -/
theorem follow_filter {pieces last : List String} (led : v.follow place pieces = some last) :
    v.follow place (pieces.filter (· ≠ ".")) = some last := by
  induction pieces generalizing place with
  | nil => exact led
  | cons piece rest ih =>
    obtain ⟨standing, next, leads, ledOn⟩ := follow_cons_eq_some_iff.mp led
    by_cases dot : piece = "."
    · obtain rfl : place = next := by simpa [further, dot] using leads
      rw [List.filter_cons_of_neg (by simpa using dot)]
      exact ih ledOn
    · rw [List.filter_cons_of_pos (by simpa using dot)]
      exact follow_cons_eq_some_iff.mpr ⟨standing, next, leads, ih ledOn⟩

/-- A piece that leads to a directory makes nothing. -/
theorem makeAlong_cons {piece : String} {next : List String}
    (leads : further place piece = some next) (directory : v.isDirectory next = true)
    (rest : List String) : v.makeAlong place (piece :: rest) = v.makeAlong next rest := by
  rw [makeAlong]
  unfold further at leads
  split at leads
  · next dot =>
    cases leads
    rw [if_pos dot]
  · next noDot =>
    rw [if_neg noDot]
    split at leads
    · next up =>
      cases leads
      rw [if_pos up]
    · next down =>
      rw [if_neg down]
      split at leads
      · next allowed =>
        cases leads
        rw [if_pos allowed]
        rw [isDirectory, Option.any_eq_true] at directory
        obtain ⟨e, found, directory⟩ := directory
        cases e with
        | file octets => cases directory
        | directory members => simp only [found]
      · cases leads

/-- Along pieces that lead to a directory nothing is made. -/
theorem makeAlong_of_follow {pieces last : List String} (led : v.follow place pieces = some last)
    (directory : v.isDirectory last = true) : v.makeAlong place pieces = (v, some last) := by
  induction pieces generalizing place with
  | nil =>
    cases led
    rfl
  | cons piece rest ih =>
    obtain ⟨-, next, leads, ledOn⟩ := follow_cons_eq_some_iff.mp led
    rw [makeAlong_cons leads (isDirectory_of_follow ledOn directory), ih ledOn]

/-- The pieces of a path lead to the place that it names, with or without a slash at the end. -/
theorem follow_pieces (named : v.place? path = some place) :
    allowsPath path = true ∧ v.follow [] (Path.pieces path) = some place := by
  unfold place? at named
  split at named
  · next allowed =>
    refine ⟨allowed, ?_⟩
    split at named
    · rw [follow_append, Option.bind_eq_some_iff] at named
      obtain ⟨middle, led, dot⟩ := named
      obtain ⟨-, next, leads, stays⟩ := follow_cons_eq_some_iff.mp dot
      obtain rfl : middle = next := by simpa [further] using leads
      cases stays
      exact led
    · exact named
  · cases named

/-- A directory that is there is not made. -/
theorem makeDirectory_of_present (present : v.HasDirectory path) :
    v.makeDirectory path = (v, true) := by
  obtain ⟨place, named, directory⟩ := present
  obtain ⟨allowed, led⟩ := follow_pieces named
  unfold makeDirectory
  simp only [allowed, Bool.not_true, Bool.false_eq_true, if_false]
  split
  · -- The path ends with a dot: its last name apart, the directories are made as elsewhere.
    have whole := follow_filter led
    generalize (Path.pieces path).filter (fun piece => decide (piece ≠ ".")) = names at whole ⊢
    have cut : names.dropLast ++ names.drop (names.length - 1) = names := by
      rw [List.dropLast_eq_take, List.take_append_drop]
    rw [← cut, follow_append, Option.bind_eq_some_iff] at whole
    obtain ⟨above, ledAbove, ledOn⟩ := whole
    rw [makeAlong_of_follow ledAbove (isDirectory_of_follow ledOn directory)]
    simp only [Option.bind_some, ledOn, Option.any_some, directory]
  · rw [makeAlong_of_follow led directory]
    rfl

/-- To write into a file what it holds does not show. -/
theorem write_same {octets : Bytes} (holds : v.read path = .file octets) :
    v.Alike (v.write path octets).1 := by
  unfold write
  rw [read_eq] at holds
  cases named : v.place? path with
  | none => exact Alike.refl v
  | some place =>
    simp only
    split
    · rw [named, Option.elim_some, contentAt] at holds
      have stood : v.entry? place = some (.file octets) := by
        rcases found : v.entry? place with _ | ⟨_⟩ | _
        all_goals
          rw [found] at holds
          cases holds
        rfl
      intro other
      exact (Entry.Members.content_set stood other).symm
    · exact Alike.refl v

/-! ## What is written -/

/-- A file that could be written is at the place that the path names, in a directory. -/
theorem write_eq_true {octets : Bytes} (wrote : v.write path octets = (v', true)) :
    ∃ place, v.place? path = some place ∧ v.isDirectory place.dropLast = true ∧
      v.isDirectory place = false ∧ v' = v.set place (.file octets) := by
  unfold write at wrote
  split at wrote
  · cases wrote
  · next place named =>
    split at wrote
    · next allowed =>
      cases wrote
      simp only [Bool.and_eq_true, Bool.not_eq_true'] at allowed
      exact ⟨place, named, allowed.1, allowed.2, rfl⟩
    · cases wrote

/-- A write leaves every directory. -/
theorem isDirectory_of_write {octets : Bytes} (wrote : v.write path octets = (v', true))
    (standing : v.isDirectory place = true) : v'.isDirectory place = true := by
  obtain ⟨target, -, -, free, rfl⟩ := write_eq_true wrote
  exact Entry.Members.isDirectory_set free standing

/-- Pieces lead to the same place of a volume that has all the directories of another. -/
theorem follow_of_directories
    (kept : ∀ place, v.isDirectory place = true → v'.isDirectory place = true)
    {pieces last : List String} (led : v.follow place pieces = some last) :
    v'.follow place pieces = some last := by
  induction pieces generalizing place with
  | nil => exact led
  | cons piece rest ih =>
    obtain ⟨standing, next, leads, ledOn⟩ := follow_cons_eq_some_iff.mp led
    exact follow_cons_eq_some_iff.mpr ⟨kept place standing, next, leads, ih ledOn⟩

/-- After a write every path with a place still has it. -/
theorem place?_of_write {octets : Bytes} (wrote : v.write path octets = (v', true)) {other : String}
    (named : v.place? other = some place) : v'.place? other = some place := by
  unfold place? at named ⊢
  split at named
  · next allowed =>
    rw [if_pos allowed]
    exact follow_of_directories (fun _ => isDirectory_of_write wrote) named
  · cases named

/-- After a write every path of a directory still names one. -/
theorem HasDirectory.of_write {octets : Bytes} (wrote : v.write path octets = (v', true))
    {other : String} (present : v.HasDirectory other) : v'.HasDirectory other := by
  obtain ⟨place, named, directory⟩ := present
  exact ⟨place, place?_of_write wrote named, isDirectory_of_write wrote directory⟩

/-- What was written is read. -/
theorem read_of_write {octets : Bytes} (wrote : v.write path octets = (v', true)) :
    v'.read path = .file octets := by
  obtain ⟨place, named, above, free, rfl⟩ := write_eq_true wrote
  have below : place ≠ [] := by
    rintro rfl
    cases free
  have stands : Volume.entry? (v.set place (.file octets)) place = some (.file octets) :=
    Entry.Members.at?_set (.file octets) below above
  rw [read_eq, place?_of_write wrote named, Option.elim_some, contentAt, stands]
  rfl

end Volume

end FileCatalog
