import CrossDoc.Proofs.External.Reference
import CrossDoc.Proofs.Node.Changes
import CrossDoc.Proofs.Node.Section

/-!
# References to remote pages, resolved twice

A reference whose page cannot be had, or does not have what the reference names, is left as it is.
Any other that is asked for is given text if it has none, and maybe a number; everything else stays.
So what asks for something afterwards asked for the same before, and has it by now: a second run
changes nothing and asks for nothing new (`resolve_resolve`).
-/

namespace CrossDoc.RemoteReference

open Node

variable {tree node : Node} {path : Path} {request : Request} {pages : RemoteCache.PageAnswers}

/-! ## What is asked for -/

theorem mem_requests_iff : (path, request) ∈ requests tree ↔
    path ∈ tree.collectPaths isWanting ∧
      ∃ node, tree.at? path = some node ∧ request? node = some request :=
  mem_readAt_iff

theorem isSome_request?_of_isWanting (h : isWanting node = true) :
    (request? node).isSome = true := by
  simp only [isWanting, Bool.and_eq_true] at h
  rw [request?, Option.isSome_map]
  exact h.1.2

theorem paths_requests (tree : Node) :
    (requests tree).map (·.1) = tree.collectPaths isWanting :=
  paths_readAt (fun _ => isSome_request?_of_isWanting) tree

/-! ## What fails -/

/-- A request cannot be met: there is no page, or what it names is not on the page. -/
inductive Fails (pages : RemoteCache.PageAnswers) (request : Request) : Prop where
  | noPage (hpage : pages request.dataUrl = none)
  | noTarget {page : RemotePage} {identifier : String}
      (hpage : pages request.dataUrl = some page)
      (hidentifier : request.identifier = some identifier)
      (hnone : ∀ node ∈ page.content.nodes, node.isTargetFor identifier = false)

def warning (pages : RemoteCache.PageAnswers) (request : Request) : Diagnostic :=
  match pages request.dataUrl with
  | none => noPage request.label
  | some _ => noTarget request.label (request.identifier.getD "")

theorem severity_warning (pages : RemoteCache.PageAnswers) (request : Request) :
    (warning pages request).severity = .warning := by
  unfold warning
  split
  · rfl
  · rfl

theorem answer_of_fails (h : Fails pages request) :
    answer request (pages request.dataUrl) = .error (warning pages request) := by
  cases h with
  | noPage hpage => simp [answer, warning, hpage]
  | noTarget hpage hidentifier hnone =>
      simp only [answer, warning, hpage, hidentifier, content, selectTarget_eq_nil_iff.2 hnone]
      rfl

theorem exists_update_of_not_fails (h : ¬ Fails pages request) :
    ∃ update, answer request (pages request.dataUrl) = .ok update := by
  cases hpage : pages request.dataUrl with
  | none => exact absurd (.noPage hpage) h
  | some page =>
      cases hidentifier : request.identifier with
      | none =>
          simp only [answer, hidentifier]
          exact ⟨_, rfl⟩
      | some identifier =>
          have hfound : page.content.selectTarget identifier ≠ [] := fun hnone =>
            h (.noTarget hpage hidentifier (selectTarget_eq_nil_iff.1 hnone))
          obtain ⟨target, rest, hnodes⟩ := List.exists_cons_of_ne_nil hfound
          refine ⟨{ children := target.referenceText?.getD [], enumerator := target.enumerator },
            ?_⟩
          simp only [answer, hidentifier, content, hnodes]
          rfl

theorem exists_text_of_answer {page : Option RemotePage} {update : Update}
    (h : answer request page = .ok update) (hidentifier : request.identifier = none) :
    ∃ text, update.children = [.text text] := by
  cases page with
  | none => simp [answer] at h
  | some page =>
      simp only [answer, hidentifier] at h
      exact ⟨_, congrArg Update.children (Except.ok.inj h).symm⟩

theorem fails_iff : Fails pages request ↔
    (answer request (pages request.dataUrl)).toBool = false := by
  constructor
  · intro h
    rw [answer_of_fails h]
    rfl
  · intro hanswer
    by_contra h
    obtain ⟨update, hupdate⟩ := exists_update_of_not_fails h
    rw [hupdate] at hanswer
    exact Bool.noConfusion hanswer

instance (pages : RemoteCache.PageAnswers) : DecidablePred (Fails pages) := fun _ =>
  decidable_of_iff' _ fails_iff

theorem found_outcome (tree : Node) (pages : RemoteCache.PageAnswers) :
    (outcome tree pages).found = ((requests tree).filter (fun entry => Fails pages entry.2)).map
      (fun entry => warning pages entry.2) := by
  unfold outcome findings
  simp only [List.flatMap_map, List.map_map]
  induction requests tree with
  | nil => rfl
  | cons entry rest ih =>
      rw [List.flatMap_cons, ih]
      by_cases h : Fails pages entry.2
      · rw [List.filter_cons_of_pos (by simpa using h), List.map_cons]
        simp [answer_of_fails h]
      · obtain ⟨update, hupdate⟩ := exists_update_of_not_fails h
        rw [List.filter_cons_of_neg (by simpa using h)]
        simp [hupdate]

/-! ## Where the changes are -/

def change (pages : RemoteCache.PageAnswers) (request : Request) : Node → Node :=
  match answer request (pages request.dataUrl) with
  | .ok update => update.apply
  | .error _ => id

theorem change_of_fails (h : Fails pages request) : change pages request = id := by
  rw [change, answer_of_fails h]

theorem exists_update_of_change (pages : RemoteCache.PageAnswers) (request : Request) :
    change pages request = id ∨ ∃ update, answer request (pages request.dataUrl) = .ok update ∧
      change pages request = update.apply := by
  unfold change
  cases answer request (pages request.dataUrl) with
  | error diagnostic => exact Or.inl rfl
  | ok update => exact Or.inr ⟨update, rfl, rfl⟩

theorem attributes_change (pages : RemoteCache.PageAnswers) (request : Request) (node : Node) :
    (change pages request node).toAttributes =
      { node.toAttributes with enumerator := (change pages request node).enumerator } := by
  rcases exists_update_of_change pages request with hsame | ⟨update, -, hsame⟩
  · rw [hsame]
    rfl
  · rw [hsame]
    rfl

theorem children_change (pages : RemoteCache.PageAnswers) (request : Request)
    (h : node.children ≠ []) : (change pages request node).children = node.children := by
  rcases exists_update_of_change pages request with hsame | ⟨update, -, hsame⟩
  · rw [hsame]
    rfl
  · rw [hsame, children_apply update h]

theorem request?_change (pages : RemoteCache.PageAnswers) (request : Request) (node : Node) :
    request? (change pages request node) = request? node := by
  rcases exists_update_of_change pages request with hsame | ⟨update, -, hsame⟩
  · rw [hsame]
    rfl
  · rw [hsame]
    rfl

theorem apply_again (update : Update) (node : Node) :
    update.apply (update.apply node) = update.apply node := by
  have hchildren : (update.apply (update.apply node)).children = (update.apply node).children := by
    by_cases hnone : node.children = []
    · simp [Update.apply, hnone]
    · rw [children_apply update (by rwa [children_apply update hnone])]
  have hattributes : (update.apply (update.apply node)).toAttributes =
      (update.apply node).toAttributes := by
    cases hnumber : update.enumerator with
    | none => simp [Update.apply, hnumber]
    | some number => simp [Update.apply, hnumber]
  exact congrArg₂ Node.mk hattributes hchildren

theorem change_change (pages : RemoteCache.PageAnswers) (request : Request) (node : Node) :
    change pages request (change pages request node) = change pages request node := by
  rcases exists_update_of_change pages request with hsame | ⟨update, -, hsame⟩
  · rw [hsame]
    rfl
  · rw [hsame, apply_again]

theorem applyAll_eq_modifyAll (pages : RemoteCache.PageAnswers)
    (entries : List (Path × Request)) (tree : Node) :
    applyAll tree (entries.map (fun entry => (entry.1, answer entry.2 (pages entry.2.dataUrl)))) =
      modifyAll (entries.map (fun entry => (entry.1, change pages entry.2))) tree := by
  induction entries generalizing tree with
  | nil => rfl
  | cons entry rest ih =>
      rw [List.map_cons, List.map_cons]
      cases hanswer : answer entry.2 (pages entry.2.dataUrl) with
      | error diagnostic =>
          have hsame : tree.modifyAt (change pages entry.2) entry.1 = tree := by
            rw [change, hanswer, modifyAt_id]
          exact (ih tree).trans (congrArg (modifyAll _) hsame.symm)
      | ok update =>
          have hsame : change pages entry.2 = update.apply := by
            rw [change, hanswer]
          rw [hsame]
          exact ih (tree.modifyAt update.apply entry.1)

theorem tree_outcome (tree : Node) (pages : RemoteCache.PageAnswers) :
    (outcome tree pages).tree =
      modifyAll ((requests tree).map (fun entry => (entry.1, change pages entry.2))) tree :=
  applyAll_eq_modifyAll pages (requests tree) tree

theorem at?_outcome (pages : RemoteCache.PageAnswers) (hmem : (path, request) ∈ requests tree) :
    (outcome tree pages).tree.at? path = (tree.at? path).map (change pages request) := by
  rw [tree_outcome]
  refine at?_modifyAll_of_mem ?_ (List.mem_map.2 ⟨(path, request), hmem, rfl⟩)
  rw [List.map_map]
  exact paths_requests tree ▸ pairwise_apart_collectPaths isWanting tree

theorem at?_outcome_of_below {place : Nat} {below : Path}
    (hmem : (path, request) ∈ requests tree)
    (hnode : tree.at? (path ++ place :: below) = some node) :
    (outcome tree pages).tree.at? (path ++ place :: below) = some node := by
  obtain ⟨-, reference, hreference, -⟩ := mem_requests_iff.1 hmem
  rw [at?_append, hreference, Option.bind_some, at?_cons] at hnode
  have hchildren : reference.children ≠ [] := by
    intro hnone
    simp [hnone] at hnode
  rw [at?_append, at?_outcome pages hmem, hreference, Option.map_some, Option.bind_some, at?_cons,
    children_change pages request hchildren, hnode]

theorem surface_at?_outcome (hclear : ∀ entry ∈ requests tree, ¬ entry.1 <+: path) :
    ((outcome tree pages).tree.at? path).map surface = (tree.at? path).map surface := by
  rw [tree_outcome]
  refine surface_at?_modifyAll (fun change hchange => ?_)
  obtain ⟨entry, hentry, rfl⟩ := List.mem_map.1 hchange
  exact hclear entry hentry

theorem exists_at?_outcome_of_clear (hclear : ∀ entry ∈ requests tree, ¬ entry.1 <+: path)
    (hnode : tree.at? path = some node) :
    ∃ changed, (outcome tree pages).tree.at? path = some changed ∧
      changed.toAttributes = node.toAttributes ∧
        changed.children.length = node.children.length := by
  have hsurface : ((outcome tree pages).tree.at? path).map surface = some (surface node) := by
    rw [surface_at?_outcome hclear, hnode, Option.map_some]
  obtain ⟨changed, hchanged, hsame⟩ := Option.map_eq_some_iff.1 hsurface
  exact ⟨changed, hchanged, Prod.mk.inj hsame⟩

/-! ## What is asked for afterwards -/

theorem isWanting_congr {other : Node} (hattributes : other.toAttributes = node.toAttributes)
    (hchildren : other.children.length = node.children.length) :
    isWanting other = isWanting node := by
  have hempty : other.children.isEmpty = node.children.isEmpty := by
    rw [Bool.eq_iff_iff, List.isEmpty_iff_length_eq_zero, List.isEmpty_iff_length_eq_zero,
      hchildren]
  unfold isWanting
  rw [hattributes, hempty]

/-- Only a reference that names nothing on its page and had no text asks for nothing afterwards. -/
theorem identifier_eq_none_of_apply {update : Update} (h : isWanting node = true)
    (hafter : isWanting (update.apply node) = false) :
    node.identifier = none ∧ node.children = [] := by
  simp only [isWanting, Bool.and_eq_true, Bool.or_eq_true] at h
  have hnone : node.identifier.isSome = false := by
    cases hsome : node.identifier.isSome with
    | false => rfl
    | true =>
        have hagain : isWanting (update.apply node) = true := by
          simp only [isWanting, Bool.and_eq_true, Bool.or_eq_true]
          exact ⟨h.1, Or.inr hsome⟩
        exact Bool.noConfusion (hafter.symm.trans hagain)
  rw [hnone] at h
  exact ⟨by simpa using hnone, by simpa using h.2⟩

theorem identifier_of_request? (h : request? node = some request) :
    request.identifier = node.identifier := by
  unfold request? at h
  obtain ⟨dataUrl, -, rfl⟩ := Option.map_eq_some_iff.1 h
  rfl

theorem children_change_of_not_wanting (hrequest : request? node = some request)
    (h : isWanting node = true) (hafter : isWanting (change pages request node) = false) :
    ∃ text, (change pages request node).children = [.text text] := by
  rcases exists_update_of_change pages request with hsame | ⟨update, hanswer, hsame⟩
  · rw [hsame] at hafter
    exact Bool.noConfusion (hafter.symm.trans h)
  · rw [hsame] at hafter ⊢
    obtain ⟨hidentifier, hnone⟩ := identifier_eq_none_of_apply h hafter
    obtain ⟨text, htext⟩ :=
      exists_text_of_answer hanswer ((identifier_of_request? hrequest).trans hidentifier)
    exact ⟨text, by simp [Update.apply, hnone, htext]⟩

theorem not_wanting_of_at?_text {text : String} {below : Path} {found : Node}
    (h : (Node.text text).at? below = some found) : isWanting found = false := by
  cases below with
  | nil =>
      obtain rfl := Option.some.inj h
      rfl
  | cons place rest => simp [Node.at?_cons, Node.text] at h

/-- What is asked for once references have their text was asked for before. -/
theorem mem_requests_of_mem_requests_outcome
    (h : (path, request) ∈ requests (outcome tree pages).tree) :
    (path, request) ∈ requests tree := by
  obtain ⟨hcollected, found, hfound, hrequest⟩ := mem_requests_iff.1 h
  obtain ⟨⟨found', hfound', hwanting⟩, houter⟩ := mem_collectPaths_iff.1 hcollected
  obtain rfl := Option.some.inj (hfound.symm.trans hfound')
  by_cases hasked : ∃ entry ∈ requests tree, entry.1 <+: path
  · obtain ⟨⟨other, asked⟩, hmem, below, hbelow⟩ := hasked
    obtain ⟨hother, node, hnode, hasks⟩ := mem_requests_iff.1 hmem
    have hwanted := of_mem_collectPaths hother hnode
    have hchanged : (outcome tree pages).tree.at? other = some (change pages asked node) := by
      rw [at?_outcome pages hmem, hnode]
      rfl
    cases below with
    | nil =>
        obtain rfl : other = path := (List.append_nil other).symm.trans hbelow
        obtain rfl := Option.some.inj (hchanged.symm.trans hfound)
        have hsame : request = asked :=
          Option.some.inj (hrequest.symm.trans ((request?_change pages asked node).trans hasks))
        exact hsame ▸ hmem
    | cons place rest =>
        have hafter : isWanting (change pages asked node) = false :=
          houter other _ ⟨place :: rest, hbelow⟩ (fun hsame => by simp [hsame] at hbelow) hchanged
        obtain ⟨text, htext⟩ := children_change_of_not_wanting hasks hwanted hafter
        rw [← hbelow, at?_append, hchanged, Option.bind_some] at hfound
        obtain ⟨child, hchild, hrest⟩ := at?_cons_eq_some_iff.1 hfound
        rw [htext] at hchild
        obtain rfl := List.mem_singleton.1 (List.mem_of_getElem? hchild)
        exact Bool.noConfusion ((not_wanting_of_at?_text hrest).symm.trans hwanting)
  · have hclear : ∀ entry ∈ requests tree, ¬ entry.1 <+: path :=
      fun entry hmem habove => hasked ⟨entry, hmem, habove⟩
    obtain ⟨node, hnode, hattributes, hchildren⟩ :=
      exists_at?_of_surface_eq (surface_at?_outcome hclear) hfound
    have hwanted : isWanting node = true :=
      (isWanting_congr hattributes hchildren).symm.trans hwanting
    obtain ⟨before, habove, hbefore⟩ := exists_mem_collectPaths_of_at? hnode hwanted
    rw [← paths_requests] at hbefore
    obtain ⟨entry, hentry, rfl⟩ := List.mem_map.1 hbefore
    exact absurd habove (hclear entry hentry)

/-! ## Twice -/

theorem outcome_congr {others : RemoteCache.PageAnswers}
    (h : ∀ entry ∈ requests tree, others entry.2.dataUrl = pages entry.2.dataUrl) :
    outcome tree others = outcome tree pages := by
  have hanswers : (requests tree).map (fun entry =>
        (entry.1, answer entry.2 (others entry.2.dataUrl))) =
      (requests tree).map (fun entry => (entry.1, answer entry.2 (pages entry.2.dataUrl))) :=
    List.map_congr_left (fun entry hentry => by rw [h entry hentry])
  unfold outcome
  rw [hanswers]

theorem tree_outcome_outcome (tree : Node) (pages : RemoteCache.PageAnswers) :
    (outcome (outcome tree pages).tree pages).tree = (outcome tree pages).tree := by
  rw [tree_outcome (outcome tree pages).tree]
  refine modifyAll_eq_self (fun entry hentry => ?_)
  obtain ⟨⟨path, request⟩, hmem, rfl⟩ := List.mem_map.1 hentry
  have hmem := mem_requests_of_mem_requests_outcome hmem
  obtain ⟨-, node, hnode, -⟩ := mem_requests_iff.1 hmem
  refine ⟨change pages request node, ?_, change_change pages request node⟩
  rw [at?_outcome pages hmem, hnode]
  rfl

variable (source : RemoteSource) (cache : RemoteCache)

theorem answer?_resolve {path : Path} {request : Request}
    (hmem : (path, request) ∈ requests tree) :
    (resolve source tree cache).2.pages.answer? request.dataUrl =
      some (cache.pageAt source request.dataUrl) :=
  RemoteCache.answer?_each_page source (fun entry : Path × Request => entry.2.dataUrl)
    (requests tree) cache request.dataUrl (Or.inl ⟨(path, request), hmem, rfl⟩)

theorem resolve_settled (later : RemoteSource) (tree : Node) :
    let first := resolve source tree cache
    (resolve later first.1.tree first.2).1.tree = first.1.tree ∧
      (resolve later first.1.tree first.2).2 = first.2 := by
  intro first
  have houtcome : first.1 = outcome tree (cache.pageAt source) :=
    (readsPages_resolve source tree).result cache
  have hknown : ∀ entry ∈ requests first.1.tree, first.2.pages.answer? entry.2.dataUrl =
      some (cache.pageAt source entry.2.dataUrl) := by
    intro entry hentry
    rw [houtcome] at hentry
    exact answer?_resolve source cache (mem_requests_of_mem_requests_outcome hentry)
  constructor
  · have hsame : ∀ entry ∈ requests first.1.tree,
        first.2.pageAt later entry.2.dataUrl = cache.pageAt source entry.2.dataUrl := by
      intro entry hentry
      simp [RemoteCache.pageAt, hknown entry hentry]
    rw [(readsPages_resolve later first.1.tree).result, outcome_congr hsame, houtcome,
      tree_outcome_outcome]
  · have hcache := congrArg Prod.snd (RemoteCache.each_page_of_answer? later hknown)
    exact hcache

theorem exists_at?_outcome_of_not_asked (pages : RemoteCache.PageAnswers)
    (hasked : path ∉ (requests tree).map (·.1)) (hnode : tree.at? path = some node) :
    ∃ changed, (outcome tree pages).tree.at? path = some changed ∧
      changed.toAttributes = node.toAttributes ∧
        changed.children.length = node.children.length := by
  by_cases habove : ∃ entry ∈ requests tree, entry.1 <+: path
  · obtain ⟨⟨other, request⟩, hmem, below, rfl⟩ := habove
    cases below with
    | nil =>
        rw [List.append_nil] at hasked
        exact absurd (List.mem_map.2 ⟨_, hmem, rfl⟩) hasked
    | cons place rest => exact ⟨node, at?_outcome_of_below hmem hnode, rfl, rfl⟩
  · exact exists_at?_outcome_of_clear (fun entry hmem hprefix => habove ⟨entry, hmem, hprefix⟩)
      hnode

/--
A reference whose request cannot be met is left as it is, with one warning for it. Every node stays
in its place with all its attributes, but that a reference may be given a number; and no node that
has children loses them or is given others. A second run on what comes out changes nothing, and
sends no request, whatever the source would answer by then.
-/
theorem resolve_resolve (tree : Node) :
    let pages := cache.pageAt source
    let first := resolve source tree cache
    let asked := (requests tree).map (·.1)
    (∀ path request, (path, request) ∈ requests tree → Fails pages request →
        first.1.tree.at? path = tree.at? path) ∧
      first.1.found = ((requests tree).filter (fun entry => Fails pages entry.2)).map
        (fun entry => warning pages entry.2) ∧
      (∀ diagnostic ∈ first.1.found, diagnostic.severity = .warning) ∧
      (∀ path node, tree.at? path = some node → path ∉ asked →
        ∃ changed, first.1.tree.at? path = some changed ∧
          changed.toAttributes = node.toAttributes ∧
            changed.children.length = node.children.length) ∧
      (∀ path node, tree.at? path = some node → path ∈ asked →
        ∃ changed, first.1.tree.at? path = some changed ∧
          changed.toAttributes = { node.toAttributes with enumerator := changed.enumerator } ∧
            (node.children ≠ [] → changed.children = node.children)) ∧
      ∀ later : RemoteSource,
        (resolve later first.1.tree first.2).1.tree = first.1.tree ∧
          (resolve later first.1.tree first.2).2 = first.2 := by
  intro pages first asked
  have houtcome : first.1 = outcome tree pages := (readsPages_resolve source tree).result cache
  have hfound := found_outcome tree pages
  refine ⟨fun path request hmem h => ?_, ?_, ?_, fun path node hnode hasked => ?_,
    fun path node hnode hasked => ?_, fun later => resolve_settled source cache later tree⟩
  · rw [houtcome, at?_outcome pages hmem, change_of_fails h, Option.map_id_fun, id]
  · rw [houtcome]
    exact hfound
  · rw [houtcome, hfound]
    intro diagnostic hdiagnostic
    obtain ⟨entry, -, rfl⟩ := List.mem_map.1 hdiagnostic
    exact severity_warning pages entry.2
  · rw [houtcome]
    exact exists_at?_outcome_of_not_asked pages hasked hnode
  · obtain ⟨⟨_, request⟩, hmem, rfl⟩ := List.mem_map.1 hasked
    refine ⟨change pages request node, ?_, attributes_change pages request node,
      children_change pages request⟩
    rw [houtcome, at?_outcome pages hmem, hnode]
    rfl

end CrossDoc.RemoteReference
