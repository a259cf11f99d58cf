import CrossDoc.Proofs.Project.Stages

/-!
# The counters in the index

A page stands in the index with the counters that its enumeration ended with, and nothing that is
looked up depends on them. So every pass after the enumeration does the same with an index from
which the counters are erased (`WorkingDocument.resolveReferences_uncounted`,
`WorkingDocument.finished_uncounted`).
-/

namespace CrossDoc

/-- The targets of a page as if nothing had been counted. -/
def PageTargets.uncounted (page : PageTargets) : PageTargets := { page with counters := {} }

def IndexedPage.uncounted (page : IndexedPage) : IndexedPage :=
  { page with targets := page.targets.uncounted }

namespace ProjectIndex

def uncounted (index : ProjectIndex) : ProjectIndex := index.map IndexedPage.uncounted

variable (index : ProjectIndex)

theorem targets?_uncounted (file : String) :
    targets? index.uncounted file = (targets? index file).map PageTargets.uncounted := by
  unfold targets? uncounted
  rw [SortedMap.get?_map, Option.map_map, Option.map_map]
  rfl

theorem ownerIn?_uncounted (identifier file : String) :
    ownerIn? index.uncounted identifier file =
      (ownerIn? index identifier file).map (Prod.map id IndexedPage.uncounted) := by
  unfold ownerIn? uncounted
  rw [SortedMap.get?_map]
  cases hpage : index.get? file with
  | none => rfl
  | some page =>
      cases htarget : page.targets.resolve? identifier with
      | none =>
          have huncounted : page.uncounted.targets.resolve? identifier = none := htarget
          simp [htarget, huncounted]
      | some target =>
          have huncounted : page.uncounted.targets.resolve? identifier = some target := htarget
          simp [htarget, huncounted]

theorem firstOwner?_uncounted (identifier : String) :
    firstOwner? index.uncounted identifier =
      (firstOwner? index identifier).map (Prod.map id IndexedPage.uncounted) := by
  unfold firstOwner? uncounted SortedMap.find? SortedMap.map
  rw [List.find?_map]
  rfl

theorem owner?_uncounted (identifier : String) (file : Option String) :
    owner? index.uncounted identifier file =
      (owner? index identifier file).map (Prod.map id IndexedPage.uncounted) := by
  cases file with
  | none => exact firstOwner?_uncounted index identifier
  | some file => exact ownerIn?_uncounted index identifier file

theorem resolve?_uncounted (identifier : String) (file : Option String) :
    resolve? index.uncounted identifier file = resolve? index identifier file := by
  unfold resolve?
  rw [owner?_uncounted]
  cases owner? index identifier file with
  | none => rfl
  | some owner => rfl

end ProjectIndex

/-! ## References -/

namespace CrossReference

variable (index : ProjectIndex) (file : String)

theorem lookUp?_uncounted : lookUp? index.uncounted file = lookUp? index file := by
  funext identifier
  unfold lookUp?
  rw [ProjectIndex.resolve?_uncounted, ProjectIndex.resolve?_uncounted]

theorem target?_uncounted : target? index.uncounted file = target? index file := by
  funext attributes
  unfold target?
  rw [lookUp?_uncounted]

theorem resolve_uncounted (tree : Node) :
    resolve index.uncounted file tree = resolve index file tree := by
  induction tree using Node.induction with
  | node attributes children ih =>
      have hchildren : children.map (resolve index.uncounted file) =
          children.map (resolve index file) := List.map_congr_left ih
      cases htarget : target? index file attributes with
      | none =>
          rw [resolve_of_target?_eq_none htarget, ← hchildren,
            resolve_of_target?_eq_none (target?_uncounted index file ▸ htarget)]
      | some found =>
          rw [resolve_of_target? htarget, ← hchildren,
            resolve_of_target? (target?_uncounted index file ▸ htarget)]

theorem findings_uncounted (tree : Node) :
    findings index.uncounted file tree = findings index file tree := by
  unfold findings missing
  rw [lookUp?_uncounted]

end CrossReference

namespace InternalLink

variable (index : ProjectIndex) (file : String)

theorem claims_uncounted : claims index.uncounted file = claims index file := by
  funext uri
  unfold claims
  simp only [ProjectIndex.targets?_uncounted, Option.isSome_map]

theorem resolve_uncounted : resolve index.uncounted file = resolve index file := by
  funext link
  unfold resolve
  simp only [ProjectIndex.targets?_uncounted]
  cases index.targets? (targetFile file (parts (link.writtenUrl.getD "")).1) with
  | none => rfl
  | some page => rfl

theorem rule_uncounted : rule index.uncounted file = rule index file := by
  unfold rule
  rw [claims_uncounted, resolve_uncounted]

end InternalLink

namespace WorkingDocument

variable (index : ProjectIndex) (projects : List LoadedProject)

theorem resolveReferences_uncounted (document : WorkingDocument) :
    resolveReferences index.uncounted projects document =
      resolveReferences index projects document := by
  unfold resolveReferences linkRules
  rw [InternalLink.rule_uncounted]
  simp only [CrossReference.resolve_uncounted, CrossReference.findings_uncounted]

end WorkingDocument

/-! ## Embeds -/

def EmbedScope.uncounted (scope : EmbedScope) : EmbedScope :=
  { scope with index := scope.index.uncounted }

namespace Embed

variable (scope : EmbedScope)

theorem resolveLocal_uncounted (label : String) :
    resolveLocal scope.uncounted label = resolveLocal scope label := by
  unfold resolveLocal EmbedScope.uncounted
  simp only [ProjectIndex.owner?_uncounted]
  cases hidentifier : Label.identifier? (localParts scope.file label).2 with
  | none => rfl
  | some identifier =>
      simp only
      cases scope.index.owner? identifier (localParts scope.file label).1 with
      | none => rfl
      | some owner => rfl

theorem answer_uncounted (label : String) (answers : RemoteCache.PageAnswers) :
    answer scope.uncounted label answers = answer scope label answers := by
  unfold answer
  rw [resolveLocal_uncounted]
  rfl

theorem outcome_uncounted (books : Books) (answers : RemoteCache.PageAnswers) :
    outcome scope.uncounted books answers = outcome scope books answers := by
  unfold outcome answered
  simp only [answer_uncounted]
  rfl

end Embed

theorem WorkingDocument.finished_uncounted (index : ProjectIndex) (trees : SortedMap Node)
    (projects : List LoadedProject) (document : WorkingDocument)
    (answers : RemoteCache.PageAnswers) :
    finished index.uncounted trees projects document answers =
      finished index trees projects document answers := by
  unfold finished
  have houtcome := Embed.outcome_uncounted { file := document.path, index, trees, projects }
    { tree := document.content, dependencies := [], graph := {} } answers
  unfold EmbedScope.uncounted at houtcome
  simp only at houtcome
  rw [houtcome]

end CrossDoc
