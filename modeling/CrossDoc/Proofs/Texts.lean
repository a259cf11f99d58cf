import CrossDoc.Proofs.Json.Draft
import CrossDoc.Proofs.Records

/-!
# Records in the texts of files

A tree is looked at whole where nothing else in it has the name of an attribute
(`Node.seesAll_toJson`). The record of a resolved document is read back from its text, also as the
file of a document, just if its tree is legible and nothing in it is misnamed
(`ResolvedDocument.readsBack_toText_iff`).
-/

namespace CrossDoc

open Json

/-! ## What is looked at -/

theorem Dependency.exists_str_of_mem {dependency : Dependency} {member : String × Json}
    (h : member ∈ filled dependency.slots) :
    member.1 ∈ fields.map (·.name) ∧ ∃ s, member.2 = .str s := by
  obtain ⟨name, json⟩ := member
  refine ⟨(names_filled_sublist dependency.slots).subset (List.mem_map_of_mem h), ?_⟩
  have htexts : ∀ slot ∈ dependency.slots, ∃ value? : Option String, slot.2 = value?.map .str := by
    simp [slots]
  obtain ⟨value?, hvalue⟩ := htexts _ (mem_filled_iff.1 h)
  obtain ⟨s, -, hs⟩ := Option.map_eq_some_iff.1 hvalue.symm
  exact ⟨s, hs.symm⟩

theorem Dependency.legible_toJson (dependency : Dependency) (limit : Nat) :
    dependency.toJson.Legible (limit + 1) := by
  rw [toJson_eq, legible_obj_iff]
  intro member hmember
  obtain ⟨-, s, hs⟩ := exists_str_of_mem hmember
  rw [hs]
  exact legible_str limit s

theorem Dependency.seesAll_toJson (dependency : Dependency) :
    (Shape.ofFields fields).SeesAll dependency.toJson := by
  rw [toJson_eq]
  refine Shape.seesAll_obj (fun member hmember => ⟨.whole, ?_, Shape.seesAll_whole _⟩)
  have hname : ∀ name ∈ fields.map (·.name),
      (Shape.ofFields fields).member? name = some .whole := by
    simp [fields, Field.needed, Shape.ofFields, Shape.member?, Shape.named?]
  exact hname member.1 (exists_str_of_mem hmember).1

namespace Node

theorem member?_shape (name : String) : shape.member? name = some
    (if name = "children" then .list shape
      else if name = "source" then .ofFields Dependency.fields else .whole) := by
  simp only [shape, Shape.member?, Shape.named?]
  by_cases hchildren : name = "children"
  · rw [if_pos hchildren, if_pos hchildren]
  · rw [if_neg hchildren, if_neg hchildren]
    by_cases hsource : name = "source"
    · simp [hsource]
    · simp [hsource, Ne.symm hsource]

theorem seesAll_writtenChildren {children : List Node} {json : Json}
    (h : writtenChildren children = some json)
    (hchildren : ∀ child ∈ children, shape.SeesAll child.toJson) :
    (Shape.list shape).SeesAll json := by
  cases children with
  | nil => simp [writtenChildren] at h
  | cons first rest =>
      obtain rfl := Option.some.inj h
      refine Shape.seesAll_list (fun item hitem => ?_)
      obtain ⟨child, hchild, rfl⟩ := List.mem_map.1 hitem
      exact hchildren child hchild

theorem seesAll_toJson {node : Node} (h : node.ExtraIsApart) : shape.SeesAll node.toJson := by
  induction node using Node.induction with
  | node attributes children ih =>
      obtain ⟨hroot, hbelow⟩ := extraIsApart_iff.1 h
      have hslotted := slotted hroot
      rw [toJson_eq]
      refine Shape.seesAll_obj (fun member hmember => ⟨_, member?_shape member.1, ?_⟩)
      obtain ⟨name, json⟩ := member
      dsimp only
      rcases List.mem_append.1 hmember with hfilled | hextra
      · split
        · rename_i hname
          subst hname
          have hslot : writtenChildren children = some json :=
            eq_some_of_mem_filled hslotted.distinct hfilled (by simp [slots])
          exact seesAll_writtenChildren hslot (fun child hchild =>
            ih child hchild (hbelow child hchild))
        · split
          · rename_i hname
            subst hname
            have hslot : attributes.source.map Dependency.toJson = some json :=
              eq_some_of_mem_filled hslotted.distinct hfilled (by simp [slots])
            obtain ⟨source, -, rfl⟩ := Option.map_eq_some_iff.1 hslot
            exact source.seesAll_toJson
          · exact Shape.seesAll_whole json
      · have hfree : name ∉ Attributes.fieldNames := hslotted.apart _ hextra
        have hchildren : name ≠ "children" := by
          rintro rfl
          exact hfree (by decide)
        have hsource : name ≠ "source" := by
          rintro rfl
          exact hfree (by decide)
        rw [if_neg hchildren, if_neg hsource]
        exact Shape.seesAll_whole json

end Node

/-! ## The graph of a project -/

theorem DependencyGraph.legible_toJson (graph : DependencyGraph) (limit : Nat) :
    graph.toJson.Legible (limit + 3) := by
  refine legible_obj_iff.2 (fun member hmember => ?_)
  obtain rfl := List.mem_singleton.1 hmember
  refine legible_obj_iff.2 (fun member hmember => ?_)
  obtain ⟨entry, -, rfl⟩ := List.mem_map.1 hmember
  exact legible_texts limit entry.2.keys

theorem DependencyGraph.decode_toText (graph : DependencyGraph) :
    decodeText decode (.ofFields fields) graph.toJson.toText = .ok graph := by
  have hsees : (Shape.ofFields fields).SeesAll graph.toJson := by
    refine Shape.seesAll_obj (fun member hmember => ⟨.whole, ?_, Shape.seesAll_whole _⟩)
    obtain rfl := List.mem_singleton.1 hmember
    rfl
  have hreads := graph.decode_reads.eq_ok .asWritten .file
  rw [decodeText_eq_of_seesAll (graph.legible_toJson _) hsees]
  exact congrArg (Except.mapError Fault.message) hreads

/-! ## Resolved documents -/

/-- What a decoder reads under a name from the object that a text spells. -/
def Json.memberOf? {α : Type} (decoder : Decoder α) (name text : String) : Option α :=
  ((parse? text).bind (get? name)).bind (fun json => (decoder .file json).toOption)

theorem SourceFile.decode_mdast (medium : Medium) (tree : Json) :
    decode medium (.obj [("mdast", tree)]) =
      (Node.decode medium tree).map (fun content => { content }) := by
  let members : Members := ⟨medium, [("mdast", tree)]⟩
  have hunique : checkUnique (fields.map (·.name)) [("mdast", tree)] = .value () :=
    checkUnique_of_nodup (by simp) _
  have hfrontmatter : members.orDefault "frontmatter" Frontmatter.decode {} = .value {} := by
    simp [members, Members.orDefault, Members.find?, locate?]
  have hkind : members.optional "kind" Decoder.text = .value none := by
    simp [members, Members.optional, Members.find?, locate?]
  have hmdast : members.required "mdast" Node.decode = .ofExcept 0 (Node.decode medium tree) := by
    simp [members, Members.required, Members.find?, locate?]
  rw [decode, record, hunique, hfrontmatter, hkind, hmdast]
  cases Node.decode medium tree with
  | error wrong => rfl
  | ok content => rfl

namespace ResolvedDocument

variable {document other : ResolvedDocument}

theorem legible_toJson_iff :
    document.toJson.Legible deepest ↔ document.content.toJson.Legible (deepest - 1) := by
  have hdependencies : (arr (document.dependencies.map Dependency.toJson)).Legible
      (deepest - 1) := by
    refine legible_arr_iff.2 (fun item hitem => ?_)
    obtain ⟨dependency, -, rfl⟩ := List.mem_map.1 hitem
    exact dependency.legible_toJson _
  have hrecord : document.toJson.Legible (deepest - 1 + 1) ↔ _ := legible_obj_iff
  refine hrecord.trans ?_
  simp [legible_str, hdependencies]

theorem value?_file (document : ResolvedDocument) :
    Draft.value? deepest (.ofFields SourceFile.fields) (Draft.ofJson document.toJson) =
      (Draft.value? (deepest - 1) Node.shape (Draft.ofJson document.content.toJson)).map
        (fun tree => .obj [("mdast", tree)]) := by
  have hpath : Shape.member? "path" (.ofFields SourceFile.fields) = none := rfl
  have hmdast : Shape.member? "mdast" (.ofFields SourceFile.fields) = some Node.shape := rfl
  have hdependencies : Shape.member? "dependencies" (.ofFields SourceFile.fields) = none := rfl
  unfold toJson
  rw [Draft.ofJson, Draft.value?, if_neg (by decide)]
  simp only [Draft.ofMembers, Draft.members?, StringLiteral.text?_parts, Option.bind_eq_bind,
    Option.bind_some, hpath, hmdast, hdependencies]
  cases Draft.value? (deepest - 1) Node.shape (Draft.ofJson document.content.toJson) with
  | none => rfl
  | some tree => rfl

/--
A text holds the record of a document, with its path, its tree and its dependencies. Read as the
file of a document it holds the tree.
-/
structure ReadsBack (document : ResolvedDocument) (text : String) : Prop where
  record : parse? text = some document.toJson
  path : memberOf? Decoder.text "path" text = some document.path
  dependencies : memberOf? (Decoder.list Dependency.decode) "dependencies" text =
    some document.dependencies
  tree : decodeText SourceFile.decode (.ofFields SourceFile.fields) text =
    .ok { content := document.content.readBack }

theorem extraIsApart_of_readsBack (h : document.ReadsBack other.toJson.toText) :
    document.content.ExtraIsApart := by
  have htree := h.tree
  unfold decodeText at htree
  rw [Draft.parse?_toText, Option.bind_some, value?_file] at htree
  cases hvalue : Draft.value? (deepest - 1) Node.shape (Draft.ofJson other.content.toJson) with
  | none => simp [hvalue] at htree
  | some tree =>
      rw [hvalue, Option.map_some] at htree
      simp only [SourceFile.decode_mdast] at htree
      cases hread : Node.decode .file tree with
      | error wrong => simp [hread, Except.map, Except.mapError] at htree
      | ok content =>
          have hcontent : content = document.content.readBack := by
            simpa [hread, Except.map, Except.mapError] using htree
          exact Node.extraIsApart_readBack_iff.1 (hcontent ▸ Node.extraIsApart_of_decode hread)

theorem readsBack_toText_iff : document.ReadsBack document.toJson.toText ↔
    document.content.toJson.Legible (deepest - 1) ∧ document.content.ExtraIsApart := by
  constructor
  · intro h
    exact ⟨legible_toJson_iff.1 (parse?_toText_iff.1 h.record), extraIsApart_of_readsBack h⟩
  · rintro ⟨hlegible, hextra⟩
    have hparse := parse?_toText_iff.2 (legible_toJson_iff.2 hlegible)
    refine { record := hparse, path := ?_, dependencies := ?_, tree := ?_ }
    · rw [memberOf?, hparse]
      rfl
    · have hlist := (Decoder.list_reads_all Dependency.decode_reads document.dependencies).eq_ok
        .asWritten .file
      rw [memberOf?, hparse]
      exact congrArg Except.toOption hlist
    · have hvalue := (Draft.value?_ofJson_iff _ _).2 hlegible
      have hread := (Node.decode_reads hextra).eq_ok .asWritten .file
      unfold decodeText
      rw [Draft.parse?_toText, Option.bind_some, value?_file, Node.seesAll_toJson hextra, hvalue]
      simp only [Option.map_some, SourceFile.decode_mdast]
      exact congrArg (fun read => (Except.map _ read).mapError _) hread

theorem path_eq_of_parse? (h : parse? other.toJson.toText = some document.toJson) :
    other.path = document.path := by
  unfold parse? parseWithin? toJson at h
  rw [Draft.parse?_toText, Option.bind_some] at h
  obtain ⟨-, hpath⟩ := Draft.head_of_value?_ofJson h
  simpa [Draft.ofJson, Draft.value?, StringLiteral.text?_parts] using hpath

theorem not_readsBack_graph (document : ResolvedDocument) (graph : DependencyGraph) :
    ¬ document.ReadsBack graph.toJson.toText := by
  intro h
  have hrecord := h.record
  rw [parse?_toText_iff.2 (graph.legible_toJson _)] at hrecord
  simp [DependencyGraph.toJson, toJson] at hrecord

end ResolvedDocument

end CrossDoc
