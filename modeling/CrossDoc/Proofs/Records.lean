import CrossDoc.Page
import CrossDoc.Project.Documents
import CrossDoc.Proofs.Node.Record
import CrossDoc.Report
import CrossDoc.Settings
import CrossDoc.Target

/-!
# Records survive being written

Every record is read back from what is written of it, in whatever order the members of objects come
(`records_read_back`).
-/

namespace CrossDoc

open Json Json.Decoder Json.Members

/-! ## Variants -/

theorem ProjectKind.decode_reads (kind : ProjectKind) : decode.Reads (.str kind.name) kind := by
  refine variant_reads ?_
  cases kind <;> rfl

theorem TargetKind.decode_reads (kind : TargetKind) : decode.Reads kind.toJson kind := by
  refine variant_reads ?_
  cases kind <;> rfl

theorem Severity.decode_reads (severity : Severity) :
    decode.Reads (.str severity.name) severity := by
  refine variant_reads ?_
  cases severity <;> rfl

theorem Rule.decode_reads (rule : Rule) : decode.Reads (.str rule.name) rule := by
  refine variant_reads ?_
  cases rule <;> rfl

/-! ## External projects -/

theorem IndexEntry.decode_reads (entry : IndexEntry) : decode.Reads entry.toJson entry := by
  refine record_reads
    [("identifier", entry.identifier.map .str), ("html_id", entry.htmlId.map .str),
      ("url", some (.str entry.url)), ("data", some (.str entry.data)),
      ("kind", some (.str entry.kind)), ("implicit", some (.bool entry.implicit))]
    (by simp) rfl (by decide) (fun order members hold => ?_)
  obtain ⟨identifier, htmlId, url, data, kind, implicit, -⟩ := hold
  rw [optional_text_eq identifier, optional_text_eq htmlId, required_text_eq url,
    orDefault_eq data (text_reads _), required_text_eq kind,
    orDefault_eq implicit (boolean_reads _)]
  rfl

theorem RemoteIndex.decode_reads (index : RemoteIndex) : decode.Reads index.toJson index := by
  refine record_reads
    [("version", some (orNull .str index.version)),
      ("references", some (.arr (index.entries.map IndexEntry.toJson)))]
    (by simp) rfl (by decide) (fun order members hold => ?_)
  obtain ⟨version, references, -⟩ := hold
  rw [optional_orNull_text_eq version,
    orDefault_eq references (list_reads_all IndexEntry.decode_reads index.entries)]
  rfl

theorem ExternalProject.decode_reads (project : ExternalProject) :
    decode.Reads project.toJson project := by
  refine record_reads
    [("key", some (.str project.key)), ("url", some (.str project.url)),
      ("kind", some (.str project.kind.name))]
    (by simp) rfl (by decide) (fun order members hold => ?_)
  obtain ⟨key, url, kind, -⟩ := hold
  rw [required_text_eq key, required_text_eq url, orDefault_eq kind project.kind.decode_reads]
  rfl

theorem ProjectReference.decode_reads (reference : ProjectReference) :
    decode.Reads reference.toJson reference := by
  refine record_reads
    [("key", some (.str reference.key)), ("url", some (.str reference.url)),
      ("kind", some (.str reference.kind.name)), ("value", reference.index.map RemoteIndex.toJson)]
    (by simp) rfl (by decide) (fun order members hold => ?_)
  obtain ⟨key, url, kind, value, -⟩ := hold
  rw [required_text_eq key, required_text_eq url, required_eq kind reference.kind.decode_reads,
    optional_eq value (fun index _ => index.decode_reads)]
  rfl

theorem RemotePage.decode_reads {page : RemotePage} (h : page.content.ExtraIsApart) :
    decode.Reads page.toJson { page with content := page.content.readBack } := by
  refine record_reads
    [("mdast", some page.content.toJson), ("frontmatter", some page.frontmatter.toJson),
      ("slug", some (orNull .str page.slug)), ("kind", some (orNull .str page.kind)),
      ("location", some (orNull .str page.location))]
    (by simp) rfl (by decide) (fun order members hold => ?_)
  obtain ⟨mdast, frontmatter, slug, kind, location, -⟩ := hold
  rw [required_eq mdast (Node.decode_reads h),
    orDefault_eq frontmatter page.frontmatter.decode_reads, optional_orNull_text_eq slug,
    optional_orNull_text_eq kind, optional_orNull_text_eq location]
  rfl

/-! ## Settings -/

theorem Numbering.decode_reads (numbering : Numbering) :
    decode.Reads numbering.toJson numbering := by
  refine record_reads
    [("figure", some (.bool numbering.figure)), ("table", some (.bool numbering.table)),
      ("code", some (.bool numbering.code)), ("equation", some (.bool numbering.equation)),
      ("headings", some (.bool numbering.headings)),
      ("heading_start", some (nat numbering.headingStart.toNat))]
    (by simp) rfl (by decide) (fun order members hold => ?_)
  obtain ⟨figure, table, code, equation, headings, headingStart, -⟩ := hold
  dsimp only
  rw [orDefault_eq figure (boolean_reads _), orDefault_eq table (boolean_reads _),
    orDefault_eq code (boolean_reads _), orDefault_eq equation (boolean_reads _),
    orDefault_eq headings (boolean_reads _), orDefault_eq headingStart (word32_reads _)]
  rfl

theorem Settings.decode_reads (settings : Settings) : decode.Reads settings.toJson settings := by
  refine record_reads
    [("version", some (nat settings.version.toNat)), ("root_dir", some (.str settings.rootDir)),
      ("include", some (texts settings.includes)), ("exclude", some (texts settings.excludes)),
      ("numbering", some settings.numbering.toJson),
      ("references", some (.arr (settings.projects.map ExternalProject.toJson))),
      ("fetch_timeout_secs", some (nat settings.fetchTimeout.toNat))]
    (by simp) rfl (by decide) (fun order members hold => ?_)
  obtain ⟨version, rootDir, includes, excludes, numbering, references, fetchTimeout, -⟩ := hold
  dsimp only
  rw [orDefault_eq version (word32_reads _), orDefault_eq rootDir (text_reads _),
    orDefault_eq includes (list_reads_all text_reads settings.includes),
    orDefault_eq excludes (list_reads_all text_reads settings.excludes),
    orDefault_eq numbering settings.numbering.decode_reads,
    orDefault_eq references (list_reads_all ExternalProject.decode_reads settings.projects),
    orDefault_eq fetchTimeout (word64_reads _)]
  rfl

/-! ## Targets, reports and documents -/

theorem Target.decode_reads (target : Target) : decode.Reads target.toJson target := by
  refine record_reads
    [("identifier", some (.str target.identifier)), ("kind", some target.kind.toJson),
      ("enumerator", target.enumerator.map .str), ("html_id", some (.str target.htmlId)),
      ("url", some (.str target.url)), ("dataUrl", target.dataUrl.map .str),
      ("title", target.title.map .str)]
    (by simp) rfl (by decide) (fun order members hold => ?_)
  obtain ⟨identifier, kind, enumerator, htmlId, url, dataUrl, title, -⟩ := hold
  rw [required_text_eq identifier, required_eq kind target.kind.decode_reads,
    optional_text_eq enumerator, required_text_eq htmlId, required_text_eq url,
    optional_text_eq dataUrl, optional_text_eq title]
  rfl

theorem Diagnostic.decode_reads (diagnostic : Diagnostic) :
    decode.Reads diagnostic.toJson diagnostic := by
  refine record_reads
    [("severity", some (.str diagnostic.severity.name)),
      ("message", some (.str diagnostic.message)), ("ruleId", some (.str diagnostic.rule.name)),
      ("note", diagnostic.note.map .str), ("source", diagnostic.source.map .str),
      ("node", diagnostic.node.map .str)]
    (by simp) rfl (by decide) (fun order members hold => ?_)
  obtain ⟨severity, message, rule, note, source, node, -⟩ := hold
  rw [required_eq severity diagnostic.severity.decode_reads, required_text_eq message,
    required_eq rule diagnostic.rule.decode_reads, optional_text_eq note,
    optional_text_eq source, optional_text_eq node]
  rfl

theorem Report.decode_reads (report : Report) : decode.Reads report.toJson report := by
  refine record_reads
    [("file", some (.str report.file)),
      ("entries", some (.arr (report.entries.map Diagnostic.toJson)))]
    (by simp) rfl (by decide) (fun order members hold => ?_)
  obtain ⟨file, entries, -⟩ := hold
  rw [required_text_eq file,
    required_eq entries (list_reads_all Diagnostic.decode_reads report.entries)]
  rfl

theorem SourceFile.decode_reads {file : SourceFile} (h : file.content.ExtraIsApart) :
    decode.Reads file.toJson { file with content := file.content.readBack } := by
  refine record_reads
    [("frontmatter", some file.frontmatter.toJson), ("kind", file.kind.map .str),
      ("mdast", some file.content.toJson)]
    (by simp) rfl (by decide) (fun order members hold => ?_)
  obtain ⟨frontmatter, kind, mdast, -⟩ := hold
  rw [orDefault_eq frontmatter file.frontmatter.decode_reads, optional_text_eq kind,
    required_eq mdast (Node.decode_reads h)]
  rfl

/-! ## Dependencies between pages -/

theorem DependencyGraph.ofNames_keys (set : SortedMap Unit) : ofNames set.keys = set := by
  have hentries : set.keys.map (fun name => (name, ())) = set.entries := by
    unfold SortedMap.keys
    rw [List.map_map]
    exact (List.map_congr_left (fun _ _ => rfl)).trans (List.map_id set.entries)
  rw [ofNames, hentries, SortedMap.ofList_entries]

theorem DependencyGraph.decode_reads (graph : DependencyGraph) :
    decode.Reads graph.toJson graph := by
  refine record_reads
    [("edges", some (.obj (graph.edges.map (fun set => texts set.keys)).entries))]
    rfl rfl (by decide) (fun order members hold => ?_)
  obtain ⟨edges, -⟩ := hold
  have hset (set : SortedMap Unit) : (list text).Reads (texts set.keys) set.keys :=
    list_reads_all text_reads set.keys
  have hsets : (graph.edges.map SortedMap.keys).map ofNames = graph.edges := by
    refine SortedMap.ext_get? (fun path => ?_)
    rw [SortedMap.get?_map, SortedMap.get?_map, Option.map_map]
    exact (Option.map_congr (fun set _ => ofNames_keys set)).trans Option.map_id'
  rw [required_eq edges (map_reads hset graph.edges)]
  exact congrArg (fun edges => Reading.value (mk edges)) hsets

/-! ## All records -/

/--
Every record is read back from what is written of it: from a value that is held or from a file, and
with the members of objects as they were written or sorted. A tree comes back without marks; what
its nodes carry besides their attributes comes back in canonical form and must not have the name of
an attribute, which holds of every tree that was read. What was read as a tree and is written again
keeps every member that is no attribute, at every depth.
-/
theorem records_read_back :
    (∀ dependency : Dependency, Dependency.decode.Reads dependency.toJson dependency) ∧
    (∀ frontmatter : Frontmatter, Frontmatter.decode.Reads frontmatter.toJson frontmatter) ∧
    (∀ page : Page, Page.decode.Reads page.toJson page) ∧
    (∀ target : Target, Target.decode.Reads target.toJson target) ∧
    (∀ entry : IndexEntry, IndexEntry.decode.Reads entry.toJson entry) ∧
    (∀ index : RemoteIndex, RemoteIndex.decode.Reads index.toJson index) ∧
    (∀ reference : ProjectReference,
      ProjectReference.decode.Reads reference.toJson reference) ∧
    (∀ project : ExternalProject, ExternalProject.decode.Reads project.toJson project) ∧
    (∀ numbering : Numbering, Numbering.decode.Reads numbering.toJson numbering) ∧
    (∀ settings : Settings, Settings.decode.Reads settings.toJson settings) ∧
    (∀ diagnostic : Diagnostic, Diagnostic.decode.Reads diagnostic.toJson diagnostic) ∧
    (∀ report : Report, Report.decode.Reads report.toJson report) ∧
    (∀ graph : DependencyGraph, DependencyGraph.decode.Reads graph.toJson graph) ∧
    (∀ node : Node, node.ExtraIsApart → Reads Node.decode node.toJson node.readBack) ∧
    (∀ page : RemotePage, page.content.ExtraIsApart →
      RemotePage.decode.Reads page.toJson { page with content := page.content.readBack }) ∧
    (∀ file : SourceFile, file.content.ExtraIsApart →
      SourceFile.decode.Reads file.toJson { file with content := file.content.readBack }) ∧
    (∀ node : Node, (∀ found ∈ node.nodes, ∀ json ∈ found.extra.values, json.canonical = json) →
      node.readBack = node.mapAttributes (fun attributes =>
        { attributes with disposition := .keep })) ∧
    ∀ medium json node, Node.decode medium json = .ok node →
      node.ExtraIsApart ∧
      ∀ path source, Node.encodedAt? path json = some source →
        ∃ written, Node.encodedAt? path node.toJson = some written ∧
          ∀ name, name ∉ Attributes.fieldNames →
            written.get? name = (source.get? name).map canonical :=
  ⟨Dependency.decode_reads, Frontmatter.decode_reads, Page.decode_reads, Target.decode_reads,
    IndexEntry.decode_reads, RemoteIndex.decode_reads, ProjectReference.decode_reads,
    ExternalProject.decode_reads, Numbering.decode_reads, Settings.decode_reads,
    Diagnostic.decode_reads, Report.decode_reads, DependencyGraph.decode_reads,
    fun _ => Node.decode_reads, fun _ => RemotePage.decode_reads, fun _ => SourceFile.decode_reads,
    fun _ => Node.readBack_of_canonical, fun _ _ _ h =>
      ⟨Node.extraIsApart_of_decode h, fun _ _ => Node.get?_toJson_of_decode h⟩⟩

def carrying : Node :=
  .ofType NodeType.root
    [{ type := "paragraph", depth := some 3, disposition := .elide
       source := some { label := some "x" }
       extra := SortedMap.ofList
         [("width", .obj [("unit", .str "px"), ("size", .int 7)]), ("align", .null)] }]

/-- It is read back from its sorted form. -/
theorem carrying_reads_back : carrying.ExtraIsApart ∧
    Node.decode .file carrying.toJson.canonical = .ok carrying.readBack := by
  have hextra : carrying.ExtraIsApart := by decide +kernel
  obtain ⟨-, -, -, -, -, -, -, -, -, -, -, -, -, hnode, -⟩ := records_read_back
  exact ⟨hextra, (hnode carrying hextra).eq_ok .sorted .file⟩

end CrossDoc
