import CrossDoc.Project.Documents
import CrossDoc.Proofs.Link.RelativePath
import CrossDoc.Proofs.SortedMap

/-!
# Writing files

Writing makes directories and removes none, so whatever a path led to before it leads to afterwards
(`Grows`). Of the files that lead to one place the last that is written stays
(`ProjectResolution.read_of_writeFiles`). Below one directory, normal names lead to places of their
own (`Disk.exists_root_of_isNormal`).
-/

namespace CrossDoc

namespace Disk

theorem exists_of_bind_eq_ok {α β : Type} {result : Except DiskFault α}
    {next : α → Except DiskFault β} {b : β} (h : result >>= next = .ok b) :
    ∃ a, result = .ok a ∧ next a = .ok b := by
  cases result with
  | error fault => simp [bind, Except.bind] at h
  | ok a => exact ⟨a, rfl, h⟩

/-! ## Disks that grow -/

/-- A disk has the directories that it had before, and maybe more. -/
structure Grows (disk later : Disk) : Prop where
  cwd : later.cwd = disk.cwd
  isDirectory : ∀ place, disk.isDirectory place = true → later.isDirectory place = true

variable {disk next later : Disk} {place found : Place} {path segment : String}

theorem Grows.refl (disk : Disk) : Grows disk disk := ⟨rfl, fun _ h => h⟩

theorem Grows.trans (h : Grows disk next) (hlater : Grows next later) : Grows disk later :=
  ⟨hlater.cwd.trans h.cwd, fun place hplace =>
    hlater.isDirectory place (h.isDirectory place hplace)⟩

theorem Grows.follow (h : Grows disk later) (hfollow : disk.follow place segment = .ok found) :
    later.follow place segment = .ok found := by
  unfold Disk.follow at hfollow ⊢
  by_cases hplace : disk.isDirectory place = true
  · simpa [hplace, h.isDirectory place hplace] using hfollow
  · simp [hplace] at hfollow

theorem Grows.locate (h : Grows disk later) (hlocate : disk.locate path = .ok found) :
    later.locate path = .ok found := by
  have hsegments : ∀ (segments : List String) (place : Place),
      segments.foldlM disk.follow place = .ok found →
        segments.foldlM later.follow place = .ok found := by
    intro segments
    induction segments with
    | nil => exact fun _ h => h
    | cons segment rest ih =>
        intro place hfold
        obtain ⟨next, hnext, hrest⟩ := exists_of_bind_eq_ok hfold
        rw [List.foldlM_cons, h.follow hnext]
        exact ih next hrest
  have hstart : later.start path = disk.start path := by
    unfold start
    rw [h.cwd]
  unfold Disk.locate at hlocate ⊢
  cases hfault : pathFault? path with
  | some fault => simp [hfault] at hlocate
  | none =>
      simp only [hfault, hstart] at hlocate ⊢
      split at hlocate
      · simp at hlocate
      · rename_i hpath
        rw [if_neg hpath]
        exact hsegments _ _ hlocate

theorem foldlM_of_locate (h : disk.locate path = .ok found) :
    (segments path).foldlM disk.follow (disk.start path) = .ok found := by
  unfold Disk.locate at h
  split at h
  · simp at h
  · split at h
    · simp at h
    · exact h

/-! ## Making directories -/

theorem grows_addDirectory (disk : Disk) (place : Place) :
    Grows disk (disk.addDirectory place) where
  cwd := rfl
  isDirectory other h := by
    unfold Disk.isDirectory addDirectory at *
    rw [SortedMap.contains_insert]
    simp only [Bool.or_eq_true] at h ⊢
    exact h.imp_right Or.inr

theorem grows_of_makeFrom {segments : List String}
    (h : disk.makeFrom place segments = .ok later) :
    Grows disk later ∧ later.files = disk.files := by
  induction segments generalizing disk place with
  | nil =>
      obtain rfl := Except.ok.inj h
      exact ⟨Grows.refl disk, rfl⟩
  | cons segment rest ih =>
      rw [makeFrom] at h
      obtain ⟨next, -, h⟩ := exists_of_bind_eq_ok h
      split at h
      · exact ih h
      · split at h
        · simp at h
        · split at h
          · simp at h
          · obtain ⟨hgrows, hfiles⟩ := ih h
            exact ⟨(disk.grows_addDirectory next).trans hgrows, hfiles⟩

theorem grows_of_makeDirectories (h : disk.makeDirectories path = .ok later) :
    Grows disk later ∧ later.files = disk.files := by
  unfold makeDirectories at h
  split at h
  · simp at h
  · split at h
    · obtain rfl := Except.ok.inj h
      exact ⟨Grows.refl disk, rfl⟩
    · exact grows_of_makeFrom h

/-! ## Writing one file -/

/-- The path from the root of the place that a path names. -/
def fileAt? (disk : Disk) (path : String) : Option String :=
  (disk.locate path).toOption.map Place.path

theorem fileAt?_of_locate (h : disk.locate path = .ok place) :
    disk.fileAt? path = some place.path := by
  unfold fileAt?
  rw [h]
  rfl

theorem exists_locate_of_fileAt? {file : String} (h : disk.fileAt? path = some file) :
    ∃ place, disk.locate path = .ok place ∧ place.path = file := by
  unfold fileAt? at h
  cases hlocate : disk.locate path with
  | error fault => simp [hlocate, Except.toOption] at h
  | ok place => exact ⟨place, rfl, by simpa [hlocate, Except.toOption] using h⟩

theorem Grows.fileAt? {file : String} (h : Grows disk later)
    (hfile : disk.fileAt? path = some file) : later.fileAt? path = some file := by
  obtain ⟨place, hlocate, rfl⟩ := exists_locate_of_fileAt? hfile
  exact fileAt?_of_locate (h.locate hlocate)

theorem read_of_fileAt? {file text : String} (h : disk.fileAt? path = some file)
    (htext : disk.files.get? file = some (.text text)) : disk.read path = .ok text := by
  obtain ⟨place, hlocate, rfl⟩ := exists_locate_of_fileAt? h
  unfold read
  rw [hlocate]
  simp only [bind, Except.bind, htext]

theorem exists_of_writeDeep {content : FileContent}
    (h : disk.writeDeep path content = .ok later) :
    Grows disk later ∧ ∃ file, later.fileAt? path = some file ∧
      later.files = disk.files.insert file content := by
  obtain ⟨made, hmade, hwrite⟩ := exists_of_bind_eq_ok h
  obtain ⟨hgrows, hfiles⟩ := grows_of_makeDirectories hmade
  obtain ⟨place, hplace, hwrite⟩ := exists_of_bind_eq_ok hwrite
  split at hwrite
  · simp at hwrite
  · split at hwrite
    · simp at hwrite
    · obtain rfl := Except.ok.inj hwrite
      have hwritten : Grows made { made with files := made.files.insert place.path content } :=
        ⟨rfl, fun _ h => h⟩
      refine ⟨hgrows.trans hwritten, place.path, ?_, ?_⟩
      · exact fileAt?_of_locate (hwritten.locate hplace)
      · exact congrArg (fun files : SortedMap FileContent => files.insert place.path content) hfiles

/-! ## Names below a directory -/

section

open RelativePath

variable {name directory : String}

theorem foldlM_of_leadsDown {pieces : List (List Char)} (h : ∀ piece ∈ pieces, LeadsDown piece)
    (hfold : (pieces.map String.ofList).foldlM disk.follow place = .ok found) :
    found = (pieces.map String.ofList).reverse ++ place := by
  induction pieces generalizing place with
  | nil => exact (Except.ok.inj hfold).symm
  | cons piece rest ih =>
      obtain ⟨next, hnext, hrest⟩ := exists_of_bind_eq_ok hfold
      have hdown : next = String.ofList piece :: place := by
        obtain ⟨hempty, hhere, hparent⟩ := h piece List.mem_cons_self
        unfold Disk.follow at hnext
        split at hnext
        · simp at hnext
        · rw [if_neg (by simp [← String.toList_inj, hempty, hhere]),
            if_neg (by simp [← String.toList_inj, hparent])] at hnext
          split at hnext
          · simp at hnext
          · exact (Except.ok.inj hnext).symm
      rw [ih (fun other hother => h other (List.mem_cons_of_mem piece hother)) hrest, hdown]
      simp

theorem path_append {pieces : List (List Char)} (hne : pieces ≠ []) (place : Place) :
    Place.path ((pieces.map String.ofList).reverse ++ place) =
      place.path ++ "/" ++ String.ofList (Text.join ['/'] pieces) := by
  have hjoin := Text.flatMap_cons_eq_join (c := '/') hne
  rw [← String.toList_inj]
  unfold Place.path
  simp [List.flatMap_map, Function.comp_def, hjoin]

theorem segments_append_slash (path other : String) :
    segments (path ++ "/" ++ other) = segments path ++ segments other := by
  unfold segments
  rw [String.toList_append, String.toList_append, List.append_assoc]
  exact (congrArg (List.map String.ofList) (Text.splitAt_append_cons '/' path.toList
    other.toList)).trans List.map_append

theorem startsWith_slash_of_isNormal (h : IsNormal name) : name.startsWith "/" = false := by
  rw [Bool.eq_false_iff, ne_eq, String.startsWith_string_iff]
  rintro ⟨rest, hrest⟩
  unfold IsNormal RelativePath.segments at h
  rw [← hrest] at h
  exact (h [] List.mem_cons_self).1 rfl

theorem startsWith_slash_append (hpath : path ≠ "") (other : String) :
    (path ++ other).startsWith "/" = path.startsWith "/" := by
  rw [Bool.eq_iff_iff, String.startsWith_string_iff, String.startsWith_string_iff,
    String.toList_append]
  have hne : path.toList ≠ [] := fun hempty => hpath (String.toList_eq_nil_iff.1 hempty)
  obtain ⟨first, rest, hchars⟩ := List.exists_cons_of_ne_nil hne
  rw [hchars]
  simp

theorem exists_joinPath_eq (hdirectory : directory ≠ "") :
    ∃ before, ∀ name, IsNormal name → joinPath directory name = before ++ "/" ++ name := by
  have hempty : directory.isEmpty = false := by simpa using hdirectory
  by_cases hends : directory.endsWith "/" = true
  · obtain ⟨before, hbefore⟩ : "/".toList <:+ directory.toList := by
      rw [String.endsWith_eq_endsWith_toSlice, String.Slice.endsWith_string_iff] at hends
      simpa using hends
    have hslash : directory = String.ofList before ++ "/" := by
      rw [← String.toList_inj, ← hbefore]
      simp
    refine ⟨String.ofList before, fun name hname => ?_⟩
    rw [← hslash]
    simp [joinPath, startsWith_slash_of_isNormal hname, hempty, hends]
  · refine ⟨directory, fun name hname => ?_⟩
    simp [joinPath, startsWith_slash_of_isNormal hname, hempty, hends]

theorem exists_base (disk : Disk) (directory : String) :
    ∃ (base : List String) (place : Place), ∀ name, IsNormal name →
      segments (joinPath directory name) = base ++ segments name ∧
        disk.start (joinPath directory name) = place := by
  by_cases hdirectory : directory = ""
  · refine ⟨[], disk.cwd, fun name hname => ?_⟩
    have hjoin : joinPath directory name = name := by simp [joinPath, hdirectory]
    rw [hjoin]
    exact ⟨rfl, by simp [start, startsWith_slash_of_isNormal hname]⟩
  · obtain ⟨before, hjoin⟩ := exists_joinPath_eq hdirectory
    have hstart : ∀ name, disk.start (before ++ "/" ++ name) = disk.start (before ++ "/") := by
      intro name
      unfold start
      rw [startsWith_slash_append (by simp)]
    refine ⟨segments before, disk.start (before ++ "/"), fun name hname => ?_⟩
    rw [hjoin name hname]
    exact ⟨segments_append_slash before name, hstart name⟩

/-- Below one directory normal names lead to places of their own. -/
theorem exists_root_of_isNormal (disk : Disk) (directory : String) :
    ∃ root, ∀ name, IsNormal name → ∀ file, disk.fileAt? (joinPath directory name) = some file →
      file = root ++ "/" ++ name := by
  obtain ⟨base, start, hbase⟩ := disk.exists_base directory
  have hlocated : ∀ name, IsNormal name → ∀ found,
      disk.locate (joinPath directory name) = .ok found →
        ∃ top, base.foldlM disk.follow start = .ok top ∧ found.path = top.path ++ "/" ++ name := by
    intro name hname found hfound
    obtain ⟨hsegments, hstart⟩ := hbase name hname
    have hfold := foldlM_of_locate hfound
    rw [hsegments, hstart, List.foldlM_append] at hfold
    obtain ⟨top, htop, hbelow⟩ := exists_of_bind_eq_ok hfold
    refine ⟨top, htop, ?_⟩
    rw [foldlM_of_leadsDown hname hbelow, RelativePath.segments,
      path_append (Text.splitAt_ne_nil _ _), Text.join_splitAt, String.ofList_toList]
  cases htop : base.foldlM disk.follow start with
  | error fault =>
      refine ⟨"", fun name hname file hfile => ?_⟩
      obtain ⟨found, hfound, -⟩ := exists_locate_of_fileAt? hfile
      obtain ⟨top, hok, -⟩ := hlocated name hname found hfound
      simp [htop] at hok
  | ok top =>
      refine ⟨top.path, fun name hname file hfile => ?_⟩
      obtain ⟨found, hfound, rfl⟩ := exists_locate_of_fileAt? hfile
      obtain ⟨other, hok, hpath⟩ := hlocated name hname found hfound
      obtain rfl := Except.ok.inj (htop.symm.trans hok)
      exact hpath

end

end Disk

/-! ## Writing one file after another -/

namespace ProjectResolution

variable {directory : String} {disk next later : Disk}

-- unfolding it would count to the length of the longest path
attribute [local irreducible] Disk.writeDeep in
theorem writeFiles_cons (directory name text : String) (rest : List (String × String))
    (disk : Disk) : writeFiles directory ((name, text) :: rest) disk =
      match disk.writeDeep (Disk.joinPath directory name) (.text text) with
      | .ok disk => writeFiles directory rest disk
      | .error fault => (disk, .error fault) := rfl

theorem exists_of_writeFiles_cons {name text : String} {rest : List (String × String)}
    (h : writeFiles directory ((name, text) :: rest) disk = (later, .ok ())) :
    ∃ next, disk.writeDeep (Disk.joinPath directory name) (FileContent.text text) = .ok next ∧
      writeFiles directory rest next = (later, .ok ()) := by
  rw [writeFiles_cons] at h
  cases hnext : disk.writeDeep (Disk.joinPath directory name) (.text text) with
  | ok next =>
      rw [hnext] at h
      exact ⟨next, rfl, h⟩
  | error fault => simp [hnext] at h

theorem grows_of_writeFiles {files : List (String × String)}
    (h : writeFiles directory files disk = (later, .ok ())) : disk.Grows later := by
  induction files generalizing disk with
  | nil =>
      obtain ⟨rfl, -⟩ := Prod.mk.inj h
      exact Disk.Grows.refl disk
  | cons file rest ih =>
      obtain ⟨next, hnext, hrest⟩ := exists_of_writeFiles_cons h
      exact (Disk.exists_of_writeDeep hnext).1.trans (ih hrest)

theorem exists_of_writeFiles_append {files rest : List (String × String)}
    (h : writeFiles directory (files ++ rest) disk = (later, .ok ())) :
    ∃ next, writeFiles directory rest next = (later, .ok ()) := by
  induction files generalizing disk with
  | nil => exact ⟨disk, h⟩
  | cons file others ih =>
      obtain ⟨next, -, hrest⟩ := exists_of_writeFiles_cons h
      exact ih hrest

theorem exists_fileAt?_of_writeFiles {files : List (String × String)}
    (h : writeFiles directory files disk = (later, .ok ())) {file : String × String}
    (hfile : file ∈ files) :
    ∃ place, later.fileAt? (Disk.joinPath directory file.1) = some place := by
  obtain ⟨before, after, rfl⟩ := List.append_of_mem hfile
  obtain ⟨next, hnext⟩ := exists_of_writeFiles_append h
  obtain ⟨written, hwritten, hrest⟩ := exists_of_writeFiles_cons hnext
  obtain ⟨-, place, hplace, -⟩ := Disk.exists_of_writeDeep hwritten
  exact ⟨place, (grows_of_writeFiles hrest).fileAt? hplace⟩

theorem get?_of_writeFiles {files : List (String × String)}
    (h : writeFiles directory files disk = (later, .ok ())) {place : String}
    (happart : ∀ file ∈ files, later.fileAt? (Disk.joinPath directory file.1) ≠ some place) :
    later.files.get? place = disk.files.get? place := by
  induction files generalizing disk with
  | nil =>
      obtain ⟨rfl, -⟩ := Prod.mk.inj h
      rfl
  | cons file rest ih =>
      obtain ⟨next, hnext, hrest⟩ := exists_of_writeFiles_cons h
      obtain ⟨-, other, hother, hfiles⟩ := Disk.exists_of_writeDeep hnext
      have hne : place ≠ other := by
        rintro rfl
        exact happart file List.mem_cons_self ((grows_of_writeFiles hrest).fileAt? hother)
      rw [ih hrest (fun file hfile => happart file (List.mem_cons_of_mem _ hfile)), hfiles,
        SortedMap.get?_insert_of_ne _ _ hne]

/-- Of the files that lead to one place the last stays, and whatever leads there reads it. -/
theorem read_of_writeFiles {before after : List (String × String)} {name text path : String}
    (h : writeFiles directory (before ++ (name, text) :: after) disk = (later, .ok ()))
    (hpath : later.fileAt? path = later.fileAt? (Disk.joinPath directory name))
    (hlast : ∀ file ∈ after, later.fileAt? (Disk.joinPath directory file.1) ≠
      later.fileAt? (Disk.joinPath directory name)) :
    later.read path = .ok text := by
  obtain ⟨next, hnext⟩ := exists_of_writeFiles_append h
  obtain ⟨written, hwritten, hrest⟩ := exists_of_writeFiles_cons hnext
  obtain ⟨-, place, hplace, hfiles⟩ := Disk.exists_of_writeDeep hwritten
  have hname := (grows_of_writeFiles hrest).fileAt? hplace
  rw [hname] at hpath hlast
  refine Disk.read_of_fileAt? hpath ?_
  rw [get?_of_writeFiles hrest hlast, hfiles, SortedMap.get?_insert_self]

end ProjectResolution

end CrossDoc
