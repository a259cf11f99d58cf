import CrossDoc.Proofs.Project.Disk
import CrossDoc.Proofs.Texts

/-!
# Reading a written project

A resolved project is written as one file a document and a last one for its edges. The edges are
always read back, and a document is read back just if no later file takes its place and its tree
survives being written (`ProjectResolution.write_reads_back_iff`). Where the names of the files are
normal, no document takes the place of another, but the edges take that of a document
`dependencies`.
-/

namespace CrossDoc

open Json

def ResolvedDocument.fileName (document : ResolvedDocument) : String := document.path ++ ".json"

theorem ResolvedDocument.fileName_inj {document other : ResolvedDocument} :
    document.fileName = other.fileName ↔ document.path = other.path :=
  String.append_left_inj ".json"

namespace ProjectResolution

variable {resolution : ProjectResolution} {directory : String} {disk written : Disk}
  {document : ResolvedDocument}

/-! ## The files of a project -/

def filesFor (documents : List ResolvedDocument) (graph : DependencyGraph) :
    List (String × String) :=
  documents.map (fun document => (document.fileName, document.toJson.toText)) ++
    [(dependenciesFile, graph.toJson.toText)]

theorem filesFor_append (before after : List ResolvedDocument) (graph : DependencyGraph) :
    filesFor (before ++ after) graph =
      before.map (fun document => (document.fileName, document.toJson.toText)) ++
        filesFor after graph := by
  unfold filesFor
  rw [List.map_append, List.append_assoc]

theorem exists_writeFiles_of_write (h : resolution.write directory disk = (written, .ok ())) :
    ∃ made, writeFiles directory (filesFor resolution.documents resolution.graph) made =
      (written, .ok ()) := by
  unfold write at h
  cases hmade : disk.makeDirectories directory with
  | ok made =>
      rw [hmade] at h
      exact ⟨made, h⟩
  | error fault => simp [hmade] at h

def placeOf? (written : Disk) (directory name : String) : Option String :=
  written.fileAt? (Disk.joinPath directory name)

/-- No file that is written after a document stands where the document's own does. -/
def Keeps (resolution : ProjectResolution) (directory : String) (written : Disk)
    (document : ResolvedDocument) : Prop :=
  ∃ before after, resolution.documents = before ++ document :: after ∧
    ∀ file ∈ filesFor after resolution.graph,
      placeOf? written directory file.1 ≠ placeOf? written directory document.fileName

/-! ## What is read -/

theorem exists_last {files : List (String × String)} {place : Option String}
    (h : ∃ file ∈ files, placeOf? written directory file.1 = place) :
    ∃ before file after, files = before ++ file :: after ∧
      placeOf? written directory file.1 = place ∧
      ∀ later ∈ after, placeOf? written directory later.1 ≠ place := by
  obtain ⟨file, hfile, hplace⟩ := h
  have hsome : (files.reverse.find? (fun file =>
      decide (placeOf? written directory file.1 = place))).isSome := by
    rw [List.find?_isSome]
    exact ⟨file, List.mem_reverse.2 hfile, decide_eq_true hplace⟩
  obtain ⟨last, hlast⟩ := Option.isSome_iff_exists.1 hsome
  obtain ⟨hlastPlace, after, before, hsplit, hafter⟩ := List.find?_eq_some_iff_append.1 hlast
  refine ⟨before.reverse, last, after.reverse, ?_, of_decide_eq_true hlastPlace, ?_⟩
  · rw [← List.reverse_reverse files, hsplit]
    simp
  · intro later hlater
    simpa using hafter later (List.mem_reverse.1 hlater)

theorem read_graph (h : resolution.write directory disk = (written, .ok ())) :
    written.read (Disk.joinPath directory dependenciesFile) =
      .ok resolution.graph.toJson.toText := by
  obtain ⟨made, hmade⟩ := exists_writeFiles_of_write h
  exact read_of_writeFiles hmade rfl (by simp)

theorem read_of_keeps (h : resolution.write directory disk = (written, .ok ()))
    (hkeeps : resolution.Keeps directory written document) :
    written.read (Disk.joinPath directory document.fileName) =
      .ok document.toJson.toText := by
  obtain ⟨made, hmade⟩ := exists_writeFiles_of_write h
  obtain ⟨before, after, hsplit, hlater⟩ := hkeeps
  rw [hsplit, filesFor_append] at hmade
  exact read_of_writeFiles hmade rfl hlater

theorem path_ne_of_mem_after (hpaths : (resolution.documents.map (·.path)).Nodup)
    {before after : List ResolvedDocument}
    (hsplit : resolution.documents = before ++ document :: after) {other : ResolvedDocument}
    (hother : other ∈ after) : other.path ≠ document.path := by
  rw [hsplit, List.map_append, List.map_cons] at hpaths
  obtain ⟨hfresh, -⟩ := List.nodup_cons.1 (List.nodup_append.1 hpaths).2.1
  exact fun hpath => hfresh (hpath ▸ List.mem_map_of_mem hother)

/-- Where a document's own record is read, nothing that is written later stands. -/
theorem keeps_of_readsBack (h : resolution.write directory disk = (written, .ok ()))
    (hpaths : (resolution.documents.map (·.path)).Nodup)
    (hdocument : document ∈ resolution.documents)
    {text : String} (hread : written.read (Disk.joinPath directory document.fileName) = .ok text)
    (htext : document.ReadsBack text) : resolution.Keeps directory written document := by
  obtain ⟨made, hmade⟩ := exists_writeFiles_of_write h
  obtain ⟨before, after, hsplit⟩ := List.append_of_mem hdocument
  refine ⟨before, after, hsplit, ?_⟩
  by_contra hlater
  simp only [not_forall, not_not] at hlater
  obtain ⟨file, hfile, hplace⟩ := hlater
  obtain ⟨_, last, others, hfiles, hsame, hlast⟩ := exists_last ⟨file, hfile, hplace⟩
  rw [hsplit, List.append_cons, filesFor_append, hfiles, ← List.append_assoc] at hmade
  have hothers : ∀ later ∈ others,
      placeOf? written directory later.1 ≠ placeOf? written directory last.1 := fun later hlater =>
    hsame.symm ▸ hlast later hlater
  have hother := read_of_writeFiles hmade hsame.symm hothers
  obtain rfl := Except.ok.inj (hother.symm.trans hread)
  have hmem : last ∈ filesFor after resolution.graph := by simp [hfiles]
  rcases List.mem_append.1 hmem with hmem | hmem
  · obtain ⟨other, hotherMem, rfl⟩ := List.mem_map.1 hmem
    exact path_ne_of_mem_after hpaths hsplit hotherMem
      (ResolvedDocument.path_eq_of_parse? htext.record)
  · obtain rfl := List.mem_singleton.1 hmem
    exact document.not_readsBack_graph resolution.graph htext

/-! ## Normal names -/

theorem isNormal_dependenciesFile : RelativePath.IsNormal dependenciesFile := by decide

theorem fileName_eq_dependenciesFile_iff :
    document.fileName = dependenciesFile ↔ document.path = "dependencies" := by
  have hname : dependenciesFile = "dependencies" ++ ".json" := rfl
  rw [hname]
  exact String.append_left_inj ".json"

theorem exists_root_of_write (h : resolution.write directory disk = (written, .ok ()))
    (hnormal : ∀ document ∈ resolution.documents, RelativePath.IsNormal document.fileName) :
    ∃ root, ∀ file ∈ filesFor resolution.documents resolution.graph,
      placeOf? written directory file.1 = some (root ++ "/" ++ file.1) := by
  obtain ⟨made, hmade⟩ := exists_writeFiles_of_write h
  obtain ⟨root, hroot⟩ := written.exists_root_of_isNormal directory
  refine ⟨root, fun file hfile => ?_⟩
  have hname : RelativePath.IsNormal file.1 := by
    rcases List.mem_append.1 hfile with hmem | hmem
    · obtain ⟨document, hdocument, rfl⟩ := List.mem_map.1 hmem
      exact hnormal document hdocument
    · obtain rfl := List.mem_singleton.1 hmem
      exact isNormal_dependenciesFile
  obtain ⟨place, hplace⟩ := exists_fileAt?_of_writeFiles hmade hfile
  exact hplace.trans (congrArg some (hroot _ hname _ hplace))

theorem keeps_iff_of_isNormal (h : resolution.write directory disk = (written, .ok ()))
    (hpaths : (resolution.documents.map (·.path)).Nodup)
    (hnormal : ∀ document ∈ resolution.documents, RelativePath.IsNormal document.fileName)
    (hdocument : document ∈ resolution.documents) :
    resolution.Keeps directory written document ↔ document.path ≠ "dependencies" := by
  constructor
  · rintro ⟨before, after, -, hlater⟩ hpath
    refine hlater (dependenciesFile, resolution.graph.toJson.toText) (by simp [filesFor]) ?_
    rw [fileName_eq_dependenciesFile_iff.2 hpath]
  · intro hne
    obtain ⟨before, after, hsplit⟩ := List.append_of_mem hdocument
    obtain ⟨root, hroot⟩ := exists_root_of_write h hnormal
    refine ⟨before, after, hsplit, fun file hfile hplace => ?_⟩
    have hown : (document.fileName, document.toJson.toText) ∈
        filesFor resolution.documents resolution.graph :=
      List.mem_append_left _ (List.mem_map_of_mem hdocument)
    have hafter : file ∈ filesFor resolution.documents resolution.graph := by
      rw [hsplit, List.append_cons, filesFor_append]
      exact List.mem_append_right _ hfile
    rw [hroot _ hafter, hroot _ hown, Option.some.injEq, String.append_right_inj] at hplace
    rcases List.mem_append.1 hfile with hmem | hmem
    · obtain ⟨other, hother, rfl⟩ := List.mem_map.1 hmem
      exact path_ne_of_mem_after hpaths hsplit hother (ResolvedDocument.fileName_inj.1 hplace)
    · obtain rfl := List.mem_singleton.1 hmem
      exact hne (fileName_eq_dependenciesFile_iff.1 hplace.symm)

/-! ## The whole project -/

/--
What is read of a project whose documents have different paths, once it was written. The edges are
read back as they are. A document is read back just if no later file stands in its place, its tree
is legible inside its record, and nothing in the tree is misnamed. Where the names of the files are
normal, a document's place is taken just if it is called `dependencies` as the list of edges is.
-/
theorem write_reads_back_iff (h : resolution.write directory disk = (written, .ok ()))
    (hpaths : (resolution.documents.map (·.path)).Nodup) :
    (∃ text, written.read (Disk.joinPath directory dependenciesFile) = .ok text ∧
      parse? text = some resolution.graph.toJson ∧
      decodeText DependencyGraph.decode (.ofFields DependencyGraph.fields) text =
        .ok resolution.graph) ∧
    (∀ document ∈ resolution.documents,
      (∃ text, written.read (Disk.joinPath directory (document.path ++ ".json")) = .ok text ∧
        document.ReadsBack text) ↔
      resolution.Keeps directory written document ∧
        document.content.toJson.Legible (deepest - 1) ∧ document.content.ExtraIsApart) ∧
    ((∀ document ∈ resolution.documents, RelativePath.IsNormal (document.path ++ ".json")) →
      ∀ document ∈ resolution.documents,
        (resolution.Keeps directory written document ↔ document.path ≠ "dependencies")) := by
  refine ⟨?_, fun document hdocument => ?_, fun hnormal document hdocument =>
    keeps_iff_of_isNormal h hpaths hnormal hdocument⟩
  · exact ⟨_, read_graph h, parse?_toText_iff.2 (resolution.graph.legible_toJson _),
      resolution.graph.decode_toText⟩
  · constructor
    · rintro ⟨text, hread, htext⟩
      have hkeeps := keeps_of_readsBack h hpaths hdocument hread htext
      obtain rfl := Except.ok.inj ((read_of_keeps h hkeeps).symm.trans hread)
      exact ⟨hkeeps, ResolvedDocument.readsBack_toText_iff.1 htext⟩
    · rintro ⟨hkeeps, hcontent⟩
      exact ⟨_, read_of_keeps h hkeeps, ResolvedDocument.readsBack_toText_iff.2 hcontent⟩

def greeting : Node := .ofType NodeType.root [.text "hello"]

def greetingPage (path : String) : ResolvedDocument where
  path
  content := greeting
  dependencies := []
  report := { file := path }

def namesakes : ProjectResolution where
  documents := [greetingPage "chapters/guide.md", greetingPage "dependencies"]
  index := .ofPages []
  graph := {}

/-- The guide is read back, but not the page whose place the edges take. -/
theorem namesakes_read_back :
    let written := (namesakes.write "out" {}).1
    namesakes.write "out" {} = (written, .ok ()) ∧
    (∃ text, written.read "out/chapters/guide.md.json" = .ok text ∧
      (greetingPage "chapters/guide.md").ReadsBack text) ∧
    ¬ ∃ text, written.read "out/dependencies.json" = .ok text ∧
      (greetingPage "dependencies").ReadsBack text := by
  have hwritten : namesakes.write "out" {} = ((namesakes.write "out" {}).1, .ok ()) :=
    Prod.ext rfl (by decide +kernel)
  have hlegible : greeting.toJson.Legible (deepest - 1) :=
    { depth_le := by decide +kernel, comesBack := List.forall_mem_nil _ }
  have hguide : Disk.joinPath "out" "chapters/guide.md.json" = "out/chapters/guide.md.json" := by
    decide +kernel
  have hnamesake : Disk.joinPath "out" "dependencies.json" = "out/dependencies.json" := by
    decide +kernel
  obtain ⟨-, hdocuments, hnormal⟩ := write_reads_back_iff hwritten (by decide)
  have hkeeps := hnormal (by decide)
  refine ⟨hwritten, ?_, ?_⟩
  · rw [← hguide]
    refine (hdocuments (greetingPage "chapters/guide.md") List.mem_cons_self).2 ⟨?_, hlegible, ?_⟩
    · exact (hkeeps _ List.mem_cons_self).2 (by decide)
    · decide +kernel
  · rw [← hnamesake]
    have hmem : greetingPage "dependencies" ∈ namesakes.documents :=
      List.mem_cons_of_mem _ List.mem_cons_self
    exact fun hread => (hkeeps _ hmem).1 ((hdocuments _ hmem).1 hread).1 rfl

end ProjectResolution

end CrossDoc
