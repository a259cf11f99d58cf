import CrossDoc.CommandLine.Slug
import CrossDoc.Proofs.CrossReference.Url
import CrossDoc.Proofs.Index.Registered
import CrossDoc.Proofs.Link.RelativePath

/-!
# Links to targets

Every target of a page can be reached by a link that spells out the page's path from the project's
root, and from the page itself by a bare fragment. What is claimed and what is resolved agree on the
document that a link names, so a link that is claimed never lacks its document
(`reaches_target_iff`).
-/

namespace CrossDoc

namespace PageTargets

variable {page : PageTargets} {identifier : String}

/-- The identifier that names the page is that of the page as a target. -/
def KnowsItself (page : PageTargets) : Prop :=
  ∀ identifier, page.isFileTarget identifier = true →
    ∃ target, page.targets.get? identifier = some target ∧ target.kind = .page

theorem isFileTarget_eq_true_iff :
    page.isFileTarget identifier = true ↔ page.fileTarget = some identifier := by
  unfold isFileTarget
  exact beq_iff_eq

theorem KnowsItself.withFileTarget [Text.Slugger] (h : page.KnowsItself) (label : String)
    (title : Option String) : (page.withFileTarget label title).KnowsItself := by
  unfold PageTargets.withFileTarget
  cases Label.identifier? label with
  | none => exact h
  | some own =>
      intro identifier hown
      obtain rfl : own = identifier := Option.some.inj (isFileTarget_eq_true_iff.1 hown)
      exact ⟨_, SortedMap.get?_insert_self _ _ _, rfl⟩

theorem KnowsItself.enumerate [Text.Slugger] (h : page.KnowsItself) (tree : Node) :
    (page.enumerate tree).2.page.KnowsItself := by
  have hrun := Enumeration.visitAll_nodes { page } tree
  obtain ⟨targets, counters, hpage⟩ := Enumeration.visitAll_page { page } tree.nodes
  have hfile := congrArg PageTargets.fileTarget hpage
  rw [hrun] at hfile
  intro identifier hown
  obtain ⟨target, htarget, hkind⟩ := h identifier
    (isFileTarget_eq_true_iff.2 (hfile.symm.trans (isFileTarget_eq_true_iff.1 hown)))
  have hkept : (Enumeration.visitAll { page } tree.nodes).2.page.targets.get? identifier =
      some target := Enumeration.get?_visitAll_of_eq_some htarget tree.nodes
  rw [hrun] at hkept
  exact ⟨target, hkept, hkind⟩

theorem Reachable.knowsItself [Text.Slugger] (h : page.Reachable) : page.KnowsItself := by
  induction h with
  | start file url numbering =>
      intro identifier hown
      exact absurd (isFileTarget_eq_true_iff.1 hown) (by simp)
  | withFileTarget label title _ ih => exact ih.withFileTarget label title
  | enumerate tree _ ih => exact ih.enumerate tree

end PageTargets

theorem CrossReference.isAnchor_append_hash (pageUrl anchor : String) :
    isAnchor (pageUrl ++ "#" ++ anchor) = true ↔ pageUrl = "" ∨ isAnchor pageUrl = true := by
  unfold isAnchor
  rw [String.toList_append, String.toList_append, List.append_assoc]
  cases hurl : pageUrl.toList with
  | nil =>
      have hempty : pageUrl = "" := String.toList_eq_nil_iff.1 hurl
      simp [hempty]
  | cons first rest =>
      have hne : pageUrl ≠ "" := by
        rintro rfl
        simp at hurl
      simp [hne]

namespace InternalLink

variable {index : ProjectIndex} {file owner name uri path : String} {link : Attributes}
  {here there : IndexedPage} {target : Target}

/-! ## The parts of a link -/

theorem hasScheme_cons {first : Char} (h : first ∈ ['/', '#', '?']) (rest : List Char) :
    hasScheme (first :: rest) = false := by
  have hcolon : first ≠ ':' := by
    rintro rfl
    simp at h
  have hmark : (first == '/' || first == '#' || first == '?') = true := by
    simpa [or_assoc] using h
  unfold hasScheme
  rw [Text.cut?_cons_of_ne hcolon]
  cases Text.cut? ':' rest with
  | none => rfl
  | some parts => simp [hmark]

theorem parts_hash (h : '#' ∉ path.toList) (name : String) :
    parts (path ++ "#" ++ name) = (path, some name) := by
  have hcut : Text.cut? '#' (path ++ "#" ++ name).toList = some (path.toList, name.toList) := by
    refine Text.cut?_eq_some_iff.2 ⟨h, ?_⟩
    rw [String.toList_append, String.toList_append, List.append_assoc]
    rfl
  unfold parts
  rw [hcut]
  simp

/-- A link names a place of a document: by the document's path, or in the document itself. -/
def Names (file owner name uri : String) : Prop :=
  uri = "/" ++ owner ++ "#" ++ name ∨ owner = file ∧ uri = "#" ++ name

theorem targetFile_of_names (hnormal : RelativePath.IsNormal owner) (hhash : '#' ∉ owner.toList)
    (h : Names file owner name uri) :
    ∃ path, parts uri = (path, some name) ∧ targetFile file path = owner ∧
      (path = "" → uri = "#" ++ name) := by
  rcases h with rfl | ⟨rfl, rfl⟩
  · have hpath : '#' ∉ ("/" ++ owner).toList := by
      rw [String.toList_append]
      simpa using hhash
    have hnonempty : "/" ++ owner ≠ "" := by simp
    refine ⟨"/" ++ owner, parts_hash hpath name, ?_, fun hempty => absurd hempty hnonempty⟩
    unfold targetFile
    rw [if_neg (by simp)]
    exact RelativePath.resolve_slash hnormal file
  · have hparts : parts ("" ++ "#" ++ name) = ("", some name) := parts_hash (by simp) name
    rw [String.empty_append] at hparts
    exact ⟨"", hparts, rfl, fun _ => rfl⟩

theorem hasScheme_of_names (h : Names file owner name uri) : hasScheme uri.toList = false := by
  rcases h with rfl | ⟨-, rfl⟩
  · have hslash : '/' ∈ ['/', '#', '?'] := by simp
    simp only [String.toList_append]
    exact hasScheme_cons hslash _
  · have hhash : '#' ∈ ['/', '#', '?'] := by simp
    rw [String.toList_append]
    exact hasScheme_cons hhash _

/-! ## What is claimed -/

theorem claims_iff : claims index file uri = true ↔ uri ≠ "" ∧ hasScheme uri.toList = false ∧
    if (parts uri).1 = "" then 1 < uri.length
    else (index.targets? (targetFile file (parts uri).1)).isSome = true := by
  unfold claims
  by_cases hrejected : (uri.isEmpty || hasScheme uri.toList) = true
  · rw [if_pos hrejected]
    have hno : ¬ (uri ≠ "" ∧ hasScheme uri.toList = false) := by
      rintro ⟨hempty, hscheme⟩
      simp [hempty, hscheme] at hrejected
    simp only [Bool.false_eq_true, false_iff]
    exact fun h => hno ⟨h.1, h.2.1⟩
  · rw [if_neg hrejected]
    have hyes : uri ≠ "" ∧ hasScheme uri.toList = false := by simpa using hrejected
    by_cases hpath : (parts uri).1 = ""
    · simp [hyes, hpath]
    · simp [hyes, hpath]

theorem claims_of_names (hnormal : RelativePath.IsNormal owner) (hhash : '#' ∉ owner.toList)
    (hthere : index.get? owner = some there) (hname : name ≠ "")
    (h : Names file owner name uri) : claims index file uri = true := by
  have hscheme := hasScheme_of_names h
  obtain ⟨path, hparts, hfile, hbare⟩ := targetFile_of_names hnormal hhash h
  have huri : uri ≠ "" := by
    rintro rfl
    rcases h with h | ⟨-, h⟩
    · simp at h
    · simp at h
  refine claims_iff.2 ⟨huri, hscheme, ?_⟩
  rw [hparts]
  by_cases hpath : path = ""
  · have hlength : name.length ≠ 0 := fun hzero => hname (String.length_eq_zero_iff.1 hzero)
    have hhash : "#".length = 1 := rfl
    rw [if_pos hpath, hbare hpath, String.length_append, hhash]
    omega
  · rw [if_neg hpath, hfile, ProjectIndex.targets?, hthere]
    rfl

/-! ## What is resolved -/

theorem isSome_targets?_of_claims (hhere : index.get? file = some here)
    (h : claims index file uri = true) :
    (index.targets? (targetFile file (parts uri).1)).isSome = true := by
  obtain ⟨-, -, hfound⟩ := claims_iff.1 h
  by_cases hpath : (parts uri).1 = ""
  · have hfile : targetFile file "" = file := rfl
    rw [hpath, hfile, ProjectIndex.targets?, hhere]
    rfl
  · rw [if_neg hpath] at hfound
    exact hfound

theorem eq_failure_of_resolve {diagnostic : Diagnostic} (hlink : link.writtenUrl = some uri)
    (hfound : (index.targets? (targetFile file (parts uri).1)).isSome = true)
    (h : resolve index file link = .error diagnostic) :
    diagnostic = failure ("Link target \"" ++ uri ++ "\" not found in " ++
      targetFile file (parts uri).1) link := by
  obtain ⟨page, hpage⟩ := Option.isSome_iff_exists.1 hfound
  unfold resolve at h
  simp only [hlink, Option.getD_some, hpage] at h
  split at h
  · simp at h
  · split at h
    · exact (Except.error.inj h).symm
    · split at h
      · simp at h
      · simp at h

theorem resolve_of_names [Text.Slugger] (hreachable : there.targets.Reachable)
    (hthere : index.get? owner = some there) (htarget : target ∈ there.targets.targets.values)
    (hkind : target.kind ≠ .page) (hname : Label.identifier? name = some target.identifier)
    (hnormal : RelativePath.IsNormal owner) (hhash : '#' ∉ owner.toList)
    (h : Names file owner name uri) (hlink : link.writtenUrl = some uri) :
    resolve index file link =
      .ok (toTarget link target (CrossReference.urlFrom file owner target)) := by
  obtain ⟨key, hkey⟩ := SortedMap.mem_values.1 htarget
  have hown := hreachable.isKeyed key target hkey
  rw [← hown] at hkey
  have hplain : there.targets.isFileTarget target.identifier = false := by
    refine Bool.eq_false_iff.2 (fun hfile => ?_)
    obtain ⟨whole, hwhole, hpage⟩ := hreachable.knowsItself target.identifier hfile
    obtain rfl := Option.some.inj (hkey.symm.trans hwhole)
    exact hkind hpage
  obtain ⟨path, hparts, hfile, -⟩ := targetFile_of_names hnormal hhash h
  unfold resolve CrossReference.urlFrom
  simp only [hlink, Option.getD_some, hparts, hfile, ProjectIndex.targets?, hthere, Option.map_some,
    Option.bind_some, hname, PageTargets.resolve?_of_get? hkey, hplain, Bool.false_eq_true,
    if_false]

theorem absolute_urlFrom_iff [Text.Slugger] (hhere : index.get? file = some here)
    (hthere : index.get? owner = some there) (hreachable : there.targets.Reachable)
    (htarget : target ∈ there.targets.targets.values) (hkind : target.kind ≠ .page) :
    CrossReference.absolute here.targets.url (CrossReference.urlFrom file owner target) =
        target.url ↔
      owner = file ∨ here.targets.url = "" ∨
        ¬ (there.targets.url = "" ∨ CrossReference.isAnchor there.targets.url = true) := by
  obtain ⟨key, hkey⟩ := SortedMap.mem_values.1 htarget
  have hurl := hreachable.hasUrls key target hkey
  by_cases hown : owner = file
  · obtain rfl := hown
    obtain rfl := Option.some.inj (hhere.symm.trans hthere)
    have hresolves := PageTargets.resolve?_of_get? hkey
    have hleads := (CrossReference.absolute_urlFrom_own_iff hreachable hresolves owner).2 hkind
    simp [hleads]
  · rw [CrossReference.absolute_urlFrom_iff_of_ne hown, hurl, Target.urlOn, if_neg hkind,
      CrossReference.isAnchor_append_hash]
    tauto

/--
In a document of an index, a link to a target of a document with a normal path is claimed, and it
becomes a cross-reference to that target. It leads to the target's url with one exception: the
target is in another document, and its url is a bare anchor. No link that is claimed lacks its
document.
-/
theorem reaches_target_iff [Text.Slugger]
    (hindex : ∀ file page, index.get? file = some page → page.targets.Reachable)
    (hhere : index.get? file = some here) :
    (∀ owner there target name uri link, index.get? owner = some there →
      RelativePath.IsNormal owner → '#' ∉ owner.toList → target ∈ there.targets.targets.values →
      target.kind ≠ .page → Label.identifier? name = some target.identifier →
      Names file owner name uri → link.writtenUrl = some uri →
      claims index file uri = true ∧
        ∃ reference url, resolve index file link = .ok reference ∧
          reference.type = NodeType.crossReference ∧
          reference.identifier = some target.identifier ∧
          reference.htmlId = some target.htmlId ∧ reference.kind = some target.kind.name ∧
          reference.enumerator = target.enumerator ∧ reference.url = some url ∧
          (CrossReference.absolute here.targets.url url = target.url ↔
            owner = file ∨ here.targets.url = "" ∨
              ¬ (there.targets.url = "" ∨ CrossReference.isAnchor there.targets.url = true))) ∧
    (∀ uri link diagnostic, link.writtenUrl = some uri → claims index file uri = true →
      resolve index file link = .error diagnostic →
      ¬ "Link target document not found: ".toList <+: diagnostic.message.toList) := by
  constructor
  · intro owner there target name uri link hthere hnormal hhash htarget hkind hidentifier hnames
      hlink
    have hreachable := hindex owner there hthere
    have hname : name ≠ "" := by
      rintro rfl
      have hblank : Label.identifier? "" = none := by decide
      rw [hblank] at hidentifier
      exact absurd hidentifier (by simp)
    exact ⟨claims_of_names hnormal hhash hthere hname hnames, _, _,
      resolve_of_names hreachable hthere htarget hkind hidentifier hnormal hhash hnames hlink,
      rfl, rfl, rfl, rfl, rfl, rfl,
      absolute_urlFrom_iff hhere hthere hreachable htarget hkind⟩
  · intro uri link diagnostic hlink hclaims herror hprefix
    have hfound := isSome_targets?_of_claims hhere hclaims
    rw [eq_failure_of_resolve hlink hfound herror] at hprefix
    have hother : "Link target \"".toList <+: (failure ("Link target \"" ++ uri ++
        "\" not found in " ++ targetFile file (parts uri).1) link).message.toList := by
      unfold failure
      simp only [String.toList_append, List.append_assoc]
      exact List.prefix_append _ _
    have hshort := List.prefix_of_prefix_length_le hother hprefix (by decide)
    exact absurd hshort (by decide)

/-! ## Two pages -/

def reachingPage (url : String) : SourceDocument where
  path := "a.md"
  page := { slug := "a", url }
  content := .ofType NodeType.root []

def reachedPage (url : String) : SourceDocument where
  path := "b.md"
  page := { slug := "b", url }
  content := .ofType NodeType.root
    [{ type := NodeType.heading, identifier := some "part one" }]

def linkToHeading : Attributes := { type := NodeType.link, url := some "/b.md#Part  One" }

theorem nodup_paths (url other : String) :
    ([reachingPage url, reachedPage other].map (·.path)).Nodup := by
  simp [reachingPage, reachedPage]

theorem get?_reachingPage [Text.Slugger] (url other : String) :
    (SourceDocument.indexOf {} [reachingPage url, reachedPage other]).get? "a.md" = some
      { targets := ((reachingPage url).enumerate {}).targets, page := (reachingPage url).page } :=
  SourceDocument.get?_indexOf_of_mem (nodup_paths url other) List.mem_cons_self

theorem get?_reachedPage [Text.Slugger] (url other : String) :
    (SourceDocument.indexOf {} [reachingPage url, reachedPage other]).get? "b.md" = some
      { targets := ((reachedPage other).enumerate {}).targets, page := (reachedPage other).page } :=
  SourceDocument.get?_indexOf_of_mem (nodup_paths url other)
    (List.mem_cons_of_mem _ List.mem_cons_self)

theorem exists_target_reachedPage [Text.Slugger] (url : String) :
    ∃ target ∈ ((reachedPage url).enumerate {}).targets.targets.values,
      target.kind = .heading ∧ target.identifier = "part one" := by
  have hget : ∃ target, ((reachedPage url).enumerate {}).targets.targets.get? "part one" =
      some target ∧ target.kind = .heading ∧ target.identifier = "part one" :=
    ⟨_, rfl, rfl, rfl⟩
  obtain ⟨target, hget, hkind, hidentifier⟩ := hget
  exact ⟨target, SortedMap.mem_values.2 ⟨_, hget⟩, hkind, hidentifier⟩

/-- Between pages at ordinary urls the link leads to the heading. -/
theorem linkToHeading_reaches_heading :
    ∃ target ∈ ((reachedPage "/b").enumerate {}).targets.targets.values, ∃ reference url,
      resolve (SourceDocument.indexOf {} [reachingPage "/a", reachedPage "/b"]) "a.md"
        linkToHeading = .ok reference ∧
      reference.identifier = some target.identifier ∧ reference.url = some url ∧
      CrossReference.absolute "/a" url = target.url := by
  obtain ⟨target, htarget, hkind, hidentifier⟩ := exists_target_reachedPage "/b"
  have hreaches := (reaches_target_iff
    (fun _ _ h => SourceDocument.reachable_of_get?_indexOf h) (get?_reachingPage "/a" "/b")).1
    "b.md" _ target "Part  One" "/b.md#Part  One" linkToHeading (get?_reachedPage "/a" "/b")
    (by decide) (by decide) htarget (by simp [hkind]) (hidentifier ▸ by decide +kernel)
    (Or.inl rfl) rfl
  obtain ⟨-, reference, url, hresolve, -, hidentity, -, -, -, hurl, hleads⟩ := hreaches
  refine ⟨target, htarget, reference, url, hresolve, hidentity, hurl, hleads.2 ?_⟩
  exact Or.inr (Or.inr (by decide +kernel))

/-- Where both pages are at bare anchors, the link of the one leads elsewhere. -/
theorem linkToHeading_misses_heading :
    RelativePath.IsNormal "a.md" ∧ RelativePath.IsNormal "b.md" ∧
    ∃ target ∈ ((reachedPage "#a#b").enumerate {}).targets.targets.values, ∃ reference url,
      target.kind ≠ .page ∧ Label.identifier? "Part  One" = some target.identifier ∧
      resolve (SourceDocument.indexOf {} [reachingPage "#a", reachedPage "#a#b"]) "a.md"
        linkToHeading = .ok reference ∧
      reference.url = some url ∧ CrossReference.absolute "#a" url ≠ target.url := by
  refine ⟨by decide, by decide, ?_⟩
  obtain ⟨target, htarget, hkind, hidentifier⟩ := exists_target_reachedPage "#a#b"
  have hpage := get?_reachedPage "#a" "#a#b"
  have hreachable := SourceDocument.reachable_of_get?_indexOf hpage
  have hplain : target.kind ≠ .page := by simp [hkind]
  have hname : Label.identifier? "Part  One" = some target.identifier :=
    hidentifier ▸ by decide +kernel
  have hnames : Names "a.md" "b.md" "Part  One" "/b.md#Part  One" := Or.inl rfl
  have hlink : linkToHeading.writtenUrl = some "/b.md#Part  One" := rfl
  have hresolve := resolve_of_names hreachable hpage htarget hplain hname (by decide) (by decide)
    hnames hlink
  refine ⟨target, htarget, _, _, hplain, hname, hresolve, rfl, fun hsame => ?_⟩
  have hleads := (absolute_urlFrom_iff (get?_reachingPage "#a" "#a#b") hpage hreachable htarget
    hplain).1 hsame
  exact absurd hleads (by decide +kernel)

end InternalLink

end CrossDoc
