import CrossDoc.Node.Record
import CrossDoc.Node.Walk
import CrossDoc.Page
import CrossDoc.Proofs.Json.Record
import CrossDoc.Proofs.Node.Walk

/-!
# Reading what was written of pages and trees

What is written of a page, of its frontmatter and of a source of copied content is read back as it
was. The attributes of a node and whatever else it carries share the members of one object. As long
as nothing else has the name of an attribute, a tree is read back from what was written of it
(`Node.decode_reads`), and whatever was read is such a tree (`Node.extraIsApart_of_decode`). At
every depth the object that is written again has the members that are no attributes of the object
that was read (`Node.get?_toJson_of_decode`).
-/

namespace CrossDoc

open Json Json.Decoder Json.Members

def Dependency.slots (dependency : Dependency) : List (String × Option Json) :=
  [("url", dependency.url.map .str), ("remoteBaseUrl", dependency.remoteBaseUrl.map .str),
    ("label", dependency.label.map .str), ("kind", dependency.kind.map .str),
    ("slug", dependency.slug.map .str), ("location", dependency.location.map .str),
    ("title", dependency.title.map .str), ("short_title", dependency.shortTitle.map .str)]

theorem Dependency.toJson_eq (dependency : Dependency) :
    dependency.toJson = .obj (filled dependency.slots) := by
  simp [toJson, slots]

theorem Dependency.decode_reads (dependency : Dependency) :
    decode.Reads dependency.toJson dependency := by
  rw [toJson_eq]
  refine record_reads dependency.slots rfl rfl (by decide) (fun order members hold => ?_)
  obtain ⟨url, remoteBaseUrl, label, kind, slug, location, title, shortTitle, -⟩ := hold
  rw [optional_text_eq url, optional_text_eq remoteBaseUrl, optional_text_eq label,
    optional_text_eq kind, optional_text_eq slug, optional_text_eq location,
    optional_text_eq title, optional_text_eq shortTitle]
  rfl

theorem Frontmatter.decode_reads (frontmatter : Frontmatter) :
    decode.Reads frontmatter.toJson frontmatter := by
  refine record_reads
    [("title", frontmatter.title.map .str), ("short_title", frontmatter.shortTitle.map .str),
      ("label", frontmatter.label.map .str)]
    (by simp) rfl (by decide) (fun order members hold => ?_)
  obtain ⟨title, shortTitle, label, -⟩ := hold
  rw [optional_text_eq title, optional_text_eq shortTitle, optional_text_eq label]
  rfl

theorem Page.decode_reads (page : Page) : decode.Reads page.toJson page := by
  refine record_reads
    [("slug", some (.str page.slug)), ("url", some (.str page.url)), ("kind", page.kind.map .str),
      ("location", page.location.map .str), ("frontmatter", some page.frontmatter.toJson)]
    (by simp) rfl (by decide) (fun order members hold => ?_)
  obtain ⟨slug, url, kind, location, frontmatter, -⟩ := hold
  rw [required_text_eq slug, required_text_eq url, optional_text_eq kind,
    optional_text_eq location, orDefault_eq frontmatter page.frontmatter.decode_reads]
  rfl

/-! ## Trees -/

namespace Attributes

/-- Nothing that a node carries besides its attributes has the name of one. -/
def ExtraIsApart (attributes : Attributes) : Prop :=
  ∀ name ∈ attributes.extra.keys, name ∉ fieldNames

instance (attributes : Attributes) : Decidable attributes.ExtraIsApart :=
  inferInstanceAs (Decidable (∀ name ∈ attributes.extra.keys, name ∉ fieldNames))

/-- The attributes as they are read back: unmarked, with the rest in its canonical form. -/
def readBack (attributes : Attributes) : Attributes :=
  { attributes with extra := attributes.extra.map Json.canonical, disposition := .keep }

end Attributes

namespace Node

def ExtraIsApart (node : Node) : Prop := ∀ found ∈ node.nodes, found.toAttributes.ExtraIsApart

instance (node : Node) : Decidable node.ExtraIsApart :=
  inferInstanceAs (Decidable (∀ found ∈ node.nodes, found.toAttributes.ExtraIsApart))

theorem extraIsApart_iff {node : Node} : node.ExtraIsApart ↔
    node.toAttributes.ExtraIsApart ∧ ∀ child ∈ node.children, child.ExtraIsApart :=
  forall_mem_nodes_iff

def readBack (node : Node) : Node := node.mapAttributes Attributes.readBack

theorem readBack_eq (node : Node) :
    node.readBack = ⟨node.toAttributes.readBack, node.children.map readBack⟩ := by
  cases node
  rw [readBack, mapAttributes, mapAttributesOf_eq_map]
  rfl

theorem extraIsApart_readBack_iff {node : Node} :
    node.readBack.ExtraIsApart ↔ node.ExtraIsApart := by
  induction node using Node.induction with
  | node attributes children ih =>
      have hkeys : (attributes.extra.map canonical).keys = attributes.extra.keys := by
        unfold SortedMap.keys SortedMap.map
        rw [List.map_map]
        rfl
      have hroot : attributes.readBack.ExtraIsApart ↔ attributes.ExtraIsApart := by
        unfold Attributes.ExtraIsApart Attributes.readBack
        rw [hkeys]
      rw [readBack_eq, extraIsApart_iff, extraIsApart_iff, hroot, List.forall_mem_map]
      exact and_congr_right (fun _ => forall₂_congr (fun child hchild => ih child hchild))

theorem readBack_of_canonical {node : Node}
    (h : ∀ found ∈ node.nodes, ∀ json ∈ found.extra.values, json.canonical = json) :
    node.readBack = node.mapAttributes (fun attributes =>
      { attributes with disposition := .keep }) := by
  induction node using Node.induction with
  | node attributes children ih =>
      obtain ⟨hroot, hbelow⟩ := forall_mem_nodes_iff.1 h
      have hextra : attributes.extra.map canonical = attributes.extra := by
        refine SortedMap.ext_get? (fun name => ?_)
        rw [SortedMap.get?_map]
        cases hvalue : attributes.extra.get? name with
        | none => rfl
        | some json =>
            exact congrArg some (hroot json (SortedMap.mem_values.2 ⟨name, hvalue⟩))
      rw [readBack_eq, mapAttributes, mapAttributesOf_eq_map, Attributes.readBack,
        List.map_congr_left (fun child hchild => ih child hchild (hbelow child hchild))]
      simp only [hextra]

/-! ## Writing -/

theorem toJsonAll_eq_map (nodes : List Node) : toJsonAll nodes = nodes.map toJson := by
  induction nodes with
  | nil => rw [toJsonAll]; rfl
  | cons node rest ih => rw [toJsonAll, ih, List.map_cons]

def writtenChildren : List Node → Option Json
  | [] => none
  | children => some (.arr (children.map toJson))

theorem writtenChildren_of_ne_nil {children : List Node} (h : children ≠ []) :
    writtenChildren children = some (.arr (children.map toJson)) := by
  cases children with
  | nil => exact absurd rfl h
  | cons first rest => rfl

def slots (node : Node) : List (String × Option Json) :=
  [("type", some (.str node.type)), ("identifier", node.identifier.map .str),
    ("label", node.label.map .str), ("html_id", node.htmlId.map .str),
    ("enumerator", node.enumerator.map .str), ("enumerated", node.enumerated.map .bool),
    ("depth", node.depth.map (fun depth => Json.nat depth.toNat)), ("kind", node.kind.map .str),
    ("value", node.value.map .str), ("url", node.url.map .str),
    ("urlSource", node.urlSource.map .str), ("dataUrl", node.dataUrl.map .str),
    ("internal", node.isInternal.map .bool), ("remote", node.isRemote.map .bool),
    ("remoteBaseUrl", node.remoteBaseUrl.map .str), ("protocol", node.protocol.map .str),
    ("source", node.source.map Dependency.toJson),
    ("remove-output", node.removeOutput.map .bool), ("remove-input", node.removeInput.map .bool),
    ("children", writtenChildren node.children)]

theorem names_slots (node : Node) : node.slots.map (·.1) = Attributes.fieldNames := rfl

theorem filled_slots (node : Node) : filled node.slots =
    node.toAttributes.members ++ filled [("children", writtenChildren node.children)] := by
  unfold slots Attributes.members
  simp only [filled_cons_some, filled_cons_map, List.append_assoc, List.cons_append,
    List.nil_append]

theorem toJson_eq (node : Node) : node.toJson = .obj (filled node.slots ++ node.extra.entries) := by
  rw [filled_slots, List.append_assoc]
  obtain ⟨attributes, children⟩ := node
  cases children with
  | nil =>
      rw [toJson]
      rfl
  | cons first rest =>
      rw [toJson, toJsonAll_eq_map]
      rfl

theorem slotted {node : Node} (h : node.toAttributes.ExtraIsApart) :
    Slotted node.slots node.extra.entries where
  distinct := names_slots node ▸ (by decide : Attributes.fieldNames.Nodup)
  othersDistinct := node.extra.nodup_keys
  apart member hmember := h member.1 (List.mem_map_of_mem hmember)

/-! ## Reading -/

theorem decodeAll_eq_mapM (medium : Medium) (items : List Json) :
    decodeAll medium items = items.mapM (decode medium) := by
  induction items with
  | nil => rw [decodeAll]; rfl
  | cons item rest ih =>
      rw [decodeAll, List.mapM_cons, ih]

theorem readChildren_eq (medium : Medium) (place : Nat) (values : List (String × Json)) :
    readChildren medium place values =
      match locate? "children" place values with
      | some (place, json) => .ofExcept place (list decode medium json)
      | none => .value [] := by
  induction values generalizing place with
  | nil => rw [readChildren]; rfl
  | cons member rest ih =>
      obtain ⟨name, value⟩ := member
      unfold locate?
      by_cases hname : name = "children"
      · cases value <;> simp [readChildren, hname, list, decodeAll_eq_mapM, Reading.ofExcept]
      · cases value <;> simp [readChildren, hname, ih]

theorem decode_obj (medium : Medium) (values : List (String × Json)) :
    decode medium (.obj values) = (checkUnique Attributes.fieldNames values *>
      (mk <$> Attributes.read ⟨medium, values⟩ <*>
        Members.orDefault ⟨medium, values⟩ "children" (list decode) [])).toExcept := by
  rw [decode, readChildren_eq]
  rfl

theorem filter_perm_extra {node : Node} (h : node.toAttributes.ExtraIsApart) {f : Json → Json}
    {values : List (String × Json)}
    (hperm : values.Perm ((filled node.slots ++ node.extra.entries).map (fun member =>
      (member.1, f member.2)))) :
    (values.filter (fun member => !Attributes.fieldNames.contains member.1)).Perm
      (node.extra.entries.map (fun member => (member.1, f member.2))) := by
  have hslots : ((filled node.slots).map (fun member => (member.1, f member.2))).filter
      (fun member => !Attributes.fieldNames.contains member.1) = [] := by
    refine List.filter_eq_nil_iff.2 (fun member hmember => ?_)
    obtain ⟨slot, hslot, rfl⟩ := List.mem_map.1 hmember
    have hname := (names_filled_sublist node.slots).subset (List.mem_map_of_mem hslot)
    rw [names_slots] at hname
    simpa using hname
  have hextra : (node.extra.entries.map (fun member => (member.1, f member.2))).filter
      (fun member => !Attributes.fieldNames.contains member.1) =
        node.extra.entries.map (fun member => (member.1, f member.2)) := by
    refine List.filter_eq_self.2 (fun member hmember => ?_)
    obtain ⟨entry, hentry, rfl⟩ := List.mem_map.1 hmember
    simpa using h entry.1 (List.mem_map_of_mem hentry)
  have hfilter := hperm.filter (fun member => !Attributes.fieldNames.contains member.1)
  rw [List.map_append, List.filter_append, hslots, hextra, List.nil_append] at hfilter
  exact hfilter

theorem extraOf_eq_of_perm {node : Node} (h : node.toAttributes.ExtraIsApart) (order : Order)
    {values : List (String × Json)}
    (hperm : values.Perm ((filled node.slots ++ node.extra.entries).map (fun member =>
      (member.1, order.arrange member.2)))) :
    Attributes.extraOf values = node.extra.map canonical := by
  have hcanonical := (filter_perm_extra h hperm).map
    (fun member => (member.1, member.2.canonical))
  have hkeys : ((node.extra.entries.map (fun member => (member.1, member.2.canonical))).map
      (·.1)).Nodup := by
    rw [List.map_map]
    exact node.extra.nodup_keys
  rw [List.map_map] at hcanonical
  simp only [Function.comp_def, Order.canonical_arrange] at hcanonical
  rw [Attributes.extraOf, canonicalMembers_eq_map, ← SortedMap.ofList_perm hcanonical.symm hkeys,
    ← SortedMap.map_ofList, SortedMap.ofList_entries]

theorem attributes_read_eq {node : Node} {order : Order} {members : Members}
    (hold : members.Hold order node.slots)
    (hextra : Attributes.extraOf members.values = node.extra.map canonical) :
    Attributes.read members = .value node.toAttributes.readBack := by
  obtain ⟨type, identifier, label, htmlId, enumerator, enumerated, depth, kind, value, url,
    urlSource, dataUrl, isInternal, isRemote, remoteBaseUrl, protocol, source, removeOutput,
    removeInput, -⟩ := hold
  rw [Attributes.read, required_text_eq type, optional_text_eq identifier, optional_text_eq label,
    optional_text_eq htmlId, optional_text_eq enumerator, optional_boolean_eq enumerated,
    optional_eq depth (fun depth _ => word32_reads depth), optional_text_eq kind,
    optional_text_eq value, optional_text_eq url, optional_text_eq urlSource,
    optional_text_eq dataUrl, optional_boolean_eq isInternal, optional_boolean_eq isRemote,
    optional_text_eq remoteBaseUrl, optional_text_eq protocol,
    optional_eq source (fun source _ => source.decode_reads), optional_boolean_eq removeOutput,
    optional_boolean_eq removeInput, hextra]
  rfl

theorem children_read_eq {node : Node} {order : Order} {members : Members}
    (hold : members.Hold order node.slots)
    (hchildren : ∀ child ∈ node.children, Reads decode child.toJson child.readBack) :
    members.orDefault "children" (list decode) [] = .value (node.children.map readBack) := by
  have hslot := hold_iff.1 hold ("children", writtenChildren node.children) (by simp [slots])
  cases hnone : node.children with
  | nil =>
      rw [hnone] at hslot
      exact orDefault_eq_default hslot []
  | cons first rest =>
      rw [hnone] at hslot hchildren
      exact orDefault_eq hslot (list_reads hchildren) []

/-- A tree is read back from what was written of it, if nothing in it is misnamed. -/
theorem decode_reads {node : Node} (h : node.ExtraIsApart) :
    Reads decode node.toJson node.readBack := by
  induction node using Node.induction with
  | node attributes children ih =>
      obtain ⟨hroot, hchildren⟩ := extraIsApart_iff.1 h
      rw [toJson_eq]
      refine { notNull := Json.noConfusion, eq_ok := fun order medium => ?_ }
      obtain ⟨values, harrange, hperm, hnames, hhold⟩ := (slotted hroot).exists_arranged order
      have hread := attributes_read_eq (hhold medium) (extraOf_eq_of_perm hroot order hperm)
      have hbelow := children_read_eq (hhold medium) (fun child hchild =>
        ih child hchild (hchildren child hchild))
      rw [harrange, decode_obj, checkUnique_of_nodup hnames, hread, hbelow, readBack_eq]
      rfl

/-! ## Writing what was read -/

theorem extra_of_read {members : Members} : ∀ attributes,
    Attributes.read members = .value attributes →
      attributes.extra = Attributes.extraOf members.values := by
  unfold Attributes.read
  repeat apply Reading.forall_of_seq
  rintro _ ⟨⟩
  iterate 19 intro _ _
  rintro _ ⟨⟩ _ _
  rfl

/--
What is read as a node is an object. The node carries the members that are no attributes, and its
children are what the items of the member for children are read as.
-/
theorem exists_values_of_decode {medium : Medium} {json : Json} {node : Node}
    (h : decode medium json = .ok node) :
    ∃ values, json = .obj values ∧ node.extra = Attributes.extraOf values ∧
      (json.get? "children" = none ∧ node.children = [] ∨
        ∃ items, json.get? "children" = some (.arr items) ∧
          items.map (decode medium) = node.children.map .ok) := by
  cases json with
  | null | bool _ | int _ | float _ | str _ | arr _ => simp [decode] at h
  | obj values =>
      rw [decode_obj] at h
      obtain ⟨_, hunique, h⟩ := Reading.seqRight_eq_value (Reading.value_of_toExcept_eq_ok h)
      obtain ⟨make, children, hread, hchildren, rfl⟩ := Reading.seq_eq_value h
      obtain ⟨make', attributes, hmake, hattributes, rfl⟩ := Reading.seq_eq_value hread
      obtain rfl := Reading.value.inj hmake
      refine ⟨values, rfl, extra_of_read _ hattributes, ?_⟩
      have hget : Members.value? ⟨medium, values⟩ "children" = (Json.obj values).get? "children" :=
        value?_eq_get? hunique (by decide)
      rw [← hget]
      rcases value?_of_orDefault_eq hchildren with ⟨hnone, hempty⟩ | ⟨json, hsome, hlist⟩
      · exact Or.inl ⟨hnone, hempty⟩
      · obtain ⟨items, rfl, hitems⟩ := map_of_list_eq_ok hlist
        exact Or.inr ⟨items, hsome, hitems⟩

theorem get?_extraOf (values : List (String × Json)) {name : String}
    (hname : name ∉ Attributes.fieldNames) : (Attributes.extraOf values).get? name =
      ((Json.obj values).get? name).map canonical := by
  have hfilter : (values.filter (fun member =>
        !Attributes.fieldNames.contains member.1)).reverse.find? (fun member => member.1 == name) =
      values.reverse.find? (fun member => member.1 == name) := by
    rw [← List.filter_reverse, List.find?_filter]
    refine congrArg (List.find? · values.reverse) (funext fun member => ?_)
    by_cases hsame : member.1 = name
    · simp [hsame, hname]
    · simp [hsame]
  rw [Attributes.extraOf, canonicalMembers_eq_map, ← SortedMap.map_ofList, SortedMap.get?_map,
    SortedMap.get?_ofList, hfilter, get?]

theorem extraIsApart_of_eq_extraOf {attributes : Attributes} {values : List (String × Json)}
    (h : attributes.extra = Attributes.extraOf values) : attributes.ExtraIsApart := by
  intro name hname
  rw [h] at hname
  obtain ⟨value, hvalue⟩ := Option.isSome_iff_exists.1 (SortedMap.mem_keys.1 hname)
  have hmember := SortedMap.mem_of_get?_ofList hvalue
  rw [canonicalMembers_eq_map] at hmember
  obtain ⟨member, hmember, hsame⟩ := List.mem_map.1 hmember
  have hfree := (List.mem_filter.1 hmember).2
  rw [(Prod.mk.inj hsame).1] at hfree
  simpa using hfree

theorem extraIsApart_of_decode {medium : Medium} {json : Json} {node : Node}
    (h : decode medium json = .ok node) : node.ExtraIsApart := by
  induction node using Node.induction generalizing json with
  | node attributes children ih =>
      obtain ⟨values, rfl, hextra, hchildren⟩ := exists_values_of_decode h
      refine extraIsApart_iff.2 ⟨extraIsApart_of_eq_extraOf hextra, fun child hchild => ?_⟩
      rcases hchildren with ⟨-, hnone⟩ | ⟨items, -, hitems⟩
      · rw [hnone] at hchild
        simp at hchild
      · have hread : Except.ok child ∈ items.map (decode medium) :=
          hitems ▸ List.mem_map_of_mem hchild
        obtain ⟨item, -, hitem⟩ := List.mem_map.1 hread
        exact ih child hchild hitem

/-- What stands in an encoded tree where a path through its children leads. -/
def encodedAt? : Path → Json → Option Json
  | [], json => some json
  | place :: path, json =>
    match json.get? "children" with
    | some (.arr items) => (items[place]?).bind (encodedAt? path)
    | _ => none

theorem get?_toJson_of_mem {node : Node} (h : node.toAttributes.ExtraIsApart) {name : String}
    {json : Json} (hslot : (name, some json) ∈ node.slots) : node.toJson.get? name = some json := by
  rw [toJson_eq, get?_obj]
  exact SortedMap.get?_ofList_of_mem (slotted h).nodup
    (List.mem_append_left _ (mem_filled_iff.2 hslot))

theorem get?_toJson_of_notMem (node : Node) {name : String}
    (hname : name ∉ Attributes.fieldNames) : node.toJson.get? name = node.extra.get? name := by
  have hslots : (filled node.slots).reverse.find? (fun member => member.1 == name) = none := by
    refine List.find?_eq_none.2 (fun member hmember hsame => hname ?_)
    have hfield := (names_filled_sublist node.slots).subset
      (List.mem_map_of_mem (List.mem_reverse.1 hmember))
    rw [names_slots] at hfield
    exact (by simpa using hsame : member.1 = name) ▸ hfield
  conv_rhs => rw [← SortedMap.ofList_entries node.extra]
  rw [SortedMap.get?_ofList, toJson_eq, get?, List.reverse_append, List.find?_append, hslots,
    Option.or_none]

/--
What was read and written again has, wherever a path through the children leads, the members that
are no attributes of what was read.
-/
theorem get?_toJson_of_decode {medium : Medium} {json : Json} {node : Node}
    (h : decode medium json = .ok node) {path : Path} {source : Json}
    (hsource : encodedAt? path json = some source) :
    ∃ written, encodedAt? path node.toJson = some written ∧
      ∀ name, name ∉ Attributes.fieldNames →
        written.get? name = (source.get? name).map canonical := by
  induction path generalizing json node with
  | nil =>
      obtain rfl := Option.some.inj hsource
      obtain ⟨values, rfl, hextra, -⟩ := exists_values_of_decode h
      refine ⟨node.toJson, rfl, fun name hname => ?_⟩
      rw [node.get?_toJson_of_notMem hname, hextra, get?_extraOf values hname]
  | cons place rest ih =>
      have hroot := (extraIsApart_iff.1 (extraIsApart_of_decode h)).1
      obtain ⟨values, -, -, hchildren⟩ := exists_values_of_decode h
      rw [encodedAt?] at hsource
      rcases hchildren with ⟨hnone, -⟩ | ⟨items, hsome, hitems⟩
      · simp [hnone] at hsource
      · simp only [hsome] at hsource
        obtain ⟨item, hitem, hbelow⟩ := Option.bind_eq_some_iff.1 hsource
        have hread := congrArg (fun results => results[place]?) hitems
        simp only [List.getElem?_map, hitem, Option.map_some] at hread
        obtain ⟨child, hchild, hdecode⟩ := Option.map_eq_some_iff.1 hread.symm
        obtain ⟨written, hwritten, hnames⟩ := ih hdecode.symm hbelow
        have hslot : ("children", some (.arr (node.children.map toJson))) ∈ node.slots := by
          rw [← writtenChildren_of_ne_nil (List.ne_nil_of_mem (List.mem_of_getElem? hchild))]
          simp [slots]
        refine ⟨written, ?_, hnames⟩
        rw [encodedAt?, get?_toJson_of_mem hroot hslot]
        simp [hchild, hwritten]

end Node

end CrossDoc
