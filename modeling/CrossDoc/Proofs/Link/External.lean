import CrossDoc.Proofs.Link.Outcome
import CrossDoc.Proofs.Link.XrefUri

/-!
# Which links are claimed for other projects

A reference into another project names the project by its key, and the key ends at the first slash,
question mark or hash sign. Whether a link is such a reference is told from how its url starts, and
that says nothing of where the key ends. So a link is claimed where its key is that of a loaded
project, and also where it merely starts with such a key (`claims_iff_of_parse`).
-/

namespace CrossDoc

namespace XrefUri

variable {uri : String} {parsed : XrefUri}

theorem exists_rest_of_parse (h : parse uri = .ok parsed) :
    ∃ rest, scheme.toList ++ rest = uri.toList ∧ parsed.key ≠ "" ∧ parsed.key.toList <+: rest := by
  obtain ⟨parts, hproper, rfl, rfl⟩ := exists_parts_of_parse h
  refine ⟨parts.text.toList, String.toList_append.symm, hproper.hasKey, ?_⟩
  rw [Parts.toList_text, List.append_assoc, List.append_assoc]
  exact List.prefix_append _ _

theorem toList_eq_of_prefix_modernize (h : scheme.toList <+: (modernize uri).toList) :
    ∃ rest, uri.toList = oldScheme.toList ++ rest ∨ uri.toList = scheme.toList ++ rest := by
  cases hold : after? oldScheme uri with
  | some rest => exact ⟨rest, Or.inl (after?_eq_some_iff.1 hold).symm⟩
  | none =>
      have hsame : modernize uri = uri := by
        unfold modernize
        rw [hold]
      obtain ⟨rest, huri⟩ := h
      rw [hsame] at huri
      exact ⟨rest, Or.inr huri.symm⟩

end XrefUri

namespace InternalLink

variable {parsed : XrefUri} {uri : String}

theorem claims_eq_false_of_prefix
    (h : XrefUri.scheme.toList <+: (XrefUri.modernize uri).toList) (index : ProjectIndex)
    (file : String) : claims index file uri = false := by
  have hscheme : hasScheme uri.toList = true := by
    obtain ⟨rest, hold | hnew⟩ := XrefUri.toList_eq_of_prefix_modernize h
    · rw [hold]
      rfl
    · rw [hnew]
      rfl
  unfold claims
  simp [hscheme]

theorem claims_eq_false_of_parse (h : XrefUri.parse (XrefUri.modernize uri) = .ok parsed)
    (index : ProjectIndex) (file : String) : claims index file uri = false := by
  obtain ⟨rest, huri, -⟩ := XrefUri.exists_rest_of_parse h
  exact claims_eq_false_of_prefix ⟨rest, huri⟩ index file

end InternalLink

namespace ExternalLink

variable {references : List ProjectReference} {uri : String} {parsed : XrefUri}
  {link : Attributes}

def IsLoaded (references : List ProjectReference) (key : String) : Prop :=
  ∃ reference ∈ references,
    reference.kind = .myst ∧ reference.index.isSome = true ∧ reference.key = key

instance (references : List ProjectReference) (key : String) :
    Decidable (IsLoaded references key) :=
  inferInstanceAs (Decidable (∃ reference ∈ references, _))

/-- A url goes on, after the scheme, with the characters of a key. -/
def StartsWithKey (uri key : String) : Prop :=
  (XrefUri.scheme ++ key).toList <+: (XrefUri.modernize uri).toList

theorem exists_project_iff {key : String} :
    (∃ project ∈ projects references, project.key = key) ↔ IsLoaded references key := by
  unfold projects IsLoaded
  constructor
  · rintro ⟨project, hproject, rfl⟩
    obtain ⟨reference, hreference, hloaded⟩ := List.mem_filterMap.1 hproject
    split at hloaded
    · rename_i hkind
      obtain ⟨index, hindex, rfl⟩ := Option.map_eq_some_iff.1 hloaded
      exact ⟨reference, hreference, hkind, Option.isSome_of_eq_some hindex, rfl⟩
    · simp at hloaded
  · rintro ⟨reference, hreference, hkind, hindex, rfl⟩
    obtain ⟨index, hindex⟩ := Option.isSome_iff_exists.1 hindex
    let project : LoadedProject :=
      { key := reference.key, url := reference.url, entries := index.entries }
    have hproject : project ∈ projects references := by
      refine List.mem_filterMap.2 ⟨reference, hreference, ?_⟩
      rw [if_pos hkind, hindex]
      rfl
    exact ⟨project, hproject, rfl⟩

theorem claims_iff : claims (projects references) uri = true ↔
    ∃ key, IsLoaded references key ∧ key ≠ "" ∧ StartsWithKey uri key := by
  unfold claims
  simp only [List.any_eq_true, Bool.and_eq_true, List.isPrefixOf_iff_prefix]
  constructor
  · rintro ⟨project, hproject, hkey, hstarts⟩
    exact ⟨project.key, exists_project_iff.1 ⟨project, hproject, rfl⟩,
      by simpa using hkey, hstarts⟩
  · rintro ⟨key, hloaded, hkey, hstarts⟩
    obtain ⟨project, hproject, rfl⟩ := exists_project_iff.2 hloaded
    exact ⟨project, hproject, by simpa using hkey, hstarts⟩

theorem startsWithKey_of_parse (h : XrefUri.parse (XrefUri.modernize uri) = .ok parsed) :
    parsed.key ≠ "" ∧ StartsWithKey uri parsed.key := by
  obtain ⟨rest, huri, hkey, hstarts⟩ := XrefUri.exists_rest_of_parse h
  refine ⟨hkey, ?_⟩
  unfold StartsWithKey
  rw [← huri, String.toList_append]
  exact (List.prefix_append_right_inj _).2 hstarts

/-! ## What becomes of a link -/

theorem offer_of_claims_eq_false (h : XrefUri.parse (XrefUri.modernize uri) = .ok parsed)
    (hlink : link.writtenUrl = some uri) (hclaims : claims (projects references) uri = false)
    (index : ProjectIndex) (file : String) :
    (WorkingDocument.linkRules index (projects references) file).offer link =
      { outcome := .unhandled, link } := by
  have hinternal := InternalLink.claims_eq_false_of_parse h index file
  have howner : (WorkingDocument.linkRules index (projects references) file).owner? uri = none := by
    simp [LinkRules.owner?, WorkingDocument.linkRules, rule, InternalLink.rule, hclaims, hinternal]
  unfold LinkRules.offer
  rw [hlink]
  simp only [howner]

theorem head?_message_unknownProject (key uri : String) :
    (Failure.unknownProject key uri).message.toList.head? = some 'u' := by
  have hstart : "unknown project \"".toList.head? = some 'u' := by decide
  unfold Failure.message
  simp only [String.toList_append, List.head?_append, hstart, Option.some_or]

theorem resolve_eq_unknownProject_iff (h : XrefUri.parse (XrefUri.modernize uri) = .ok parsed)
    (hlink : link.writtenUrl = some uri) :
    resolve (projects references) link = .error
        (failure (Failure.unknownProject parsed.key (XrefUri.modernize uri)).message link) ↔
      ¬ IsLoaded references parsed.key := by
  rw [← exists_project_iff]
  unfold resolve
  simp only [hlink, Option.getD_some, h]
  cases hfound : (projects references).find? (fun project => project.key == parsed.key) with
  | none =>
      have hnone := List.find?_eq_none.1 hfound
      simp only [true_iff, not_exists, not_and]
      intro project hproject hkey
      exact hnone project hproject (by simpa using hkey)
  | some project =>
      have hkey : project.key = parsed.key := by simpa using List.find?_some hfound
      have hmem := List.mem_of_find?_eq_some hfound
      refine iff_of_false ?_ (not_not_intro ⟨project, hmem, hkey⟩)
      simp only
      split
      · intro herror
        have hmessage := congrArg (fun found : Diagnostic => found.message.toList.head?)
          (Except.error.inj herror)
        have hquote : "\"".toList.head? = some '"' := by decide
        simp only [failure, head?_message_unknownProject, String.toList_append,
          List.head?_append, hquote, Option.some_or] at hmessage
        exact absurd hmessage (by decide)
      · simp

/--
A url that is read as a reference into another project is claimed where that project is loaded, and
besides only where the url goes on with the key of another loaded one. A link that is not claimed
stays as it is, with no findings; and a link fails as one into an unknown project just where its own
project is not loaded.
-/
theorem claims_iff_of_parse (references : List ProjectReference) (index : ProjectIndex)
    (file : String) (hparse : XrefUri.parse (XrefUri.modernize uri) = .ok parsed)
    (hlink : link.writtenUrl = some uri) :
    (claims (projects references) uri = true ↔
      IsLoaded references parsed.key ∨
        ∃ key, IsLoaded references key ∧ key ≠ "" ∧ key ≠ parsed.key ∧ StartsWithKey uri key) ∧
    (claims (projects references) uri = false →
      (WorkingDocument.linkRules index (projects references) file).offer link =
        { outcome := .unhandled, link }) ∧
    (resolve (projects references) link = .error
        (failure (Failure.unknownProject parsed.key (XrefUri.modernize uri)).message link) ↔
      ¬ IsLoaded references parsed.key) := by
  refine ⟨?_, fun hclaims => offer_of_claims_eq_false hparse hlink hclaims index file,
    resolve_eq_unknownProject_iff hparse hlink⟩
  rw [claims_iff]
  constructor
  · rintro ⟨key, hloaded, hkey, hstarts⟩
    by_cases hsame : key = parsed.key
    · exact Or.inl (hsame ▸ hloaded)
    · exact Or.inr ⟨key, hloaded, hkey, hsame, hstarts⟩
  · rintro (hloaded | ⟨key, hloaded, hkey, -, hstarts⟩)
    · obtain ⟨hkey, hstarts⟩ := startsWithKey_of_parse hparse
      exact ⟨parsed.key, hloaded, hkey, hstarts⟩
    · exact ⟨key, hloaded, hkey, hstarts⟩

def loadedDocs : ProjectReference where
  key := "docs"
  url := "https://docs.example.org"
  kind := .myst
  index := some {}

def intoUnloaded : Attributes :=
  { type := NodeType.link, url := some "xref:docs2/page#x" }

/-- With `docs` loaded alone, the link into `docs2` is claimed, and then fails. -/
theorem intoUnloaded_is_claimed :
    ¬ IsLoaded [loadedDocs] "docs2" ∧
      claims (projects [loadedDocs]) "xref:docs2/page#x" = true ∧
      resolve (projects [loadedDocs]) intoUnloaded = .error (failure
        (Failure.unknownProject "docs2" (XrefUri.modernize "xref:docs2/page#x")).message
        intoUnloaded) := by
  have hparse : XrefUri.parse (XrefUri.modernize "xref:docs2/page#x") =
      .ok { key := "docs2", page := "/page", identifier := some "x" } := by decide +kernel
  have hunloaded : ¬ IsLoaded [loadedDocs] "docs2" := by decide
  have hother : ∃ key, IsLoaded [loadedDocs] key ∧ key ≠ "" ∧ key ≠ "docs2" ∧
      StartsWithKey "xref:docs2/page#x" key := by
    refine ⟨"docs", by decide, by decide, by decide, ?_⟩
    exact ⟨"2/page#x".toList, by decide⟩
  have hlink : intoUnloaded.writtenUrl = some "xref:docs2/page#x" := rfl
  obtain ⟨hclaims, -, hunknown⟩ := claims_iff_of_parse [loadedDocs] {} "index.md" hparse hlink
  exact ⟨hunloaded, hclaims.2 (Or.inr hother), hunknown.2 hunloaded⟩

end ExternalLink

end CrossDoc
