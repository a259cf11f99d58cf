import CrossDoc.Json.Record
import CrossDoc.Proofs.Json.Order
import Mathlib.Data.List.Perm.Basic

/-!
# Reading what was written

A decoder reads a value as what it stands for in whatever order objects have their members
(`Decoder.Reads`). A record is an object with a slot for each of its fields. If every slot is filled
with something that the field's decoder reads, the decoder of the record reads the record
(`Decoder.record_reads`).
-/

namespace CrossDoc.Json

variable {α β : Type}

/-! ## Members by name -/

theorem get?_obj (members : List (String × Json)) (name : String) :
    (obj members).get? name = (SortedMap.ofList members).get? name :=
  (SortedMap.get?_ofList members name).symm

def Members.value? (members : Members) (name : String) : Option Json :=
  (members.find? name).map (·.2)

theorem locate?_eq_find? (name : String) (place : Nat) (values : List (String × Json)) :
    (locate? name place values).map (·.2) =
      (values.find? (fun member => member.1 == name)).map (·.2) := by
  induction values generalizing place with
  | nil => rfl
  | cons member rest ih =>
      unfold locate?
      by_cases hname : member.1 = name
      · simp [hname]
      · simp [hname, ih]

namespace Members

variable {members : Members} {name : String} {json : Json}

theorem value?_eq (members : Members) (name : String) : members.value? name =
    (members.values.find? (fun member => member.1 == name)).map (·.2) :=
  locate?_eq_find? name 0 members.values

theorem value?_eq_some_iff (hnames : (members.values.map (·.1)).Nodup) :
    members.value? name = some json ↔ (name, json) ∈ members.values := by
  rw [value?_eq]
  constructor
  · intro h
    obtain ⟨member, hmember, rfl⟩ := Option.map_eq_some_iff.1 h
    have hname : member.1 = name := by simpa using List.find?_some hmember
    exact hname ▸ List.mem_of_find?_eq_some hmember
  · intro h
    cases hfound : members.values.find? (fun member => member.1 == name) with
    | none => simpa using List.find?_eq_none.1 hfound _ h
    | some member =>
        have hname : member.1 = name := by simpa using List.find?_some hfound
        have hsame := List.inj_on_of_nodup_map hnames (List.mem_of_find?_eq_some hfound) h hname
        rw [hsame]
        rfl

end Members

/-! ## Repeated fields -/

theorem repeated?_eq_none {fields seen : List String} {place : Nat} {values : List (String × Json)}
    (hnames : (values.map (·.1)).Nodup) (hseen : ∀ member ∈ values, member.1 ∉ seen) :
    repeated? fields seen place values = none := by
  induction values generalizing seen place with
  | nil => rfl
  | cons member rest ih =>
      obtain ⟨name, value⟩ := member
      obtain ⟨hfirst, hrest⟩ := List.nodup_cons.1 hnames
      have hbelow : ∀ member ∈ rest, member.1 ∉ seen := fun member hmember =>
        hseen member (List.mem_cons_of_mem _ hmember)
      unfold repeated?
      split
      · exact ih hrest hbelow
      · rw [if_neg (by simpa using hseen _ List.mem_cons_self)]
        refine ih hrest (fun member hmember hmem => ?_)
        rcases List.mem_cons.1 hmem with hsame | hmem
        · exact hfirst (List.mem_map.2 ⟨member, hmember, hsame⟩)
        · exact hbelow member hmember hmem

theorem checkUnique_of_nodup {values : List (String × Json)} (hnames : (values.map (·.1)).Nodup)
    (fields : List String) : checkUnique fields values = .value () := by
  unfold checkUnique
  rw [repeated?_eq_none hnames (by simp)]

theorem ne_of_repeated?_eq_none {fields seen : List String} {place : Nat}
    {values : List (String × Json)} (h : repeated? fields seen place values = none) {name : String}
    (hfield : name ∈ fields) (hseen : name ∈ seen) : ∀ member ∈ values, member.1 ≠ name := by
  induction values generalizing seen place with
  | nil => simp
  | cons member rest ih =>
      obtain ⟨first, value⟩ := member
      unfold repeated? at h
      intro member hmember
      split at h
      · rename_i hother
        rcases List.mem_cons.1 hmember with rfl | hmember
        · rintro rfl
          simp [hfield] at hother
        · exact ih h hseen member hmember
      · split at h
        · simp at h
        · rename_i hfresh
          rcases List.mem_cons.1 hmember with rfl | hmember
          · rintro rfl
            simp [hseen] at hfresh
          · exact ih h (List.mem_cons_of_mem first hseen) member hmember

private theorem find?_reverse_of_repeated?_eq_none {fields seen : List String} {place : Nat}
    {values : List (String × Json)} (h : repeated? fields seen place values = none) {name : String}
    (hfield : name ∈ fields) : values.reverse.find? (fun member => member.1 == name) =
      values.find? (fun member => member.1 == name) := by
  induction values generalizing seen place with
  | nil => rfl
  | cons member rest ih =>
      obtain ⟨first, value⟩ := member
      unfold repeated? at h
      rw [List.reverse_cons, List.find?_append, List.find?_cons]
      by_cases hfirst : first = name
      · subst hfirst
        have hrest : rest.reverse.find? (fun member => member.1 == first) = none := by
          refine List.find?_eq_none.2 (fun member hmember => ?_)
          rw [if_neg (by simpa using hfield)] at h
          split at h
          · simp at h
          · simpa using ne_of_repeated?_eq_none h hfield List.mem_cons_self member
              (List.mem_reverse.1 hmember)
        simp [hrest]
      · have hsame : rest.reverse.find? (fun member => member.1 == name) =
            rest.find? (fun member => member.1 == name) := by
          split at h
          · exact ih h
          · split at h
            · simp at h
            · exact ih h
        have hother : (first == name) = false := by simpa using hfirst
        simp [hsame, hother]

theorem Members.value?_eq_get? {fields : List String} {members : Members}
    (h : checkUnique fields members.values = .value ()) {name : String} (hfield : name ∈ fields) :
    members.value? name = (Json.obj members.values).get? name := by
  unfold checkUnique at h
  split at h
  · simp at h
  · rename_i hunrepeated
    rw [value?_eq, get?, find?_reverse_of_repeated?_eq_none hunrepeated hfield]

/-! ## Readings -/

namespace Reading

theorem seq_eq_value {f : Reading (α → β)} {a : Reading α} {b : β} (h : f <*> a = .value b) :
    ∃ g x, f = .value g ∧ a = .value x ∧ b = g x := by
  cases f with
  | value g =>
      cases a with
      | value x => exact ⟨g, x, rfl, rfl, (value.inj h).symm⟩
      | fault place wrong => simp [Seq.seq, apply] at h
  | fault place wrong =>
      cases a with
      | value x => simp [Seq.seq, apply] at h
      | fault other others =>
          simp only [Seq.seq, apply] at h
          split at h <;> simp at h

theorem forall_of_seq {f : Reading (α → β)} {a : Reading α} {motive : β → Prop}
    (h : ∀ g, f = .value g → ∀ x, a = .value x → motive (g x)) :
    ∀ b, f <*> a = .value b → motive b := by
  intro b hb
  obtain ⟨g, x, hg, hx, rfl⟩ := seq_eq_value hb
  exact h g hg x hx

theorem seqRight_eq_value {a : Reading α} {b : Reading β} {x : β} (h : a *> b = .value x) :
    ∃ y, a = .value y ∧ b = .value x := by
  obtain ⟨g, z, hfirst, hsecond, rfl⟩ := seq_eq_value h
  cases a with
  | value y =>
      obtain rfl := value.inj hfirst
      exact ⟨y, rfl, hsecond⟩
  | fault place wrong => simp [apply] at hfirst

theorem value_of_toExcept_eq_ok {a : Reading α} {x : α} (h : a.toExcept = .ok x) :
    a = .value x := by
  cases a with
  | value y => exact congrArg value (Except.ok.inj h)
  | fault place wrong => simp [toExcept] at h

end Reading

/-! ## Values that are read -/

/-- In whatever order objects have their members, `decode` reads `json` as `a`. -/
structure Decoder.Reads (decode : Decoder α) (json : Json) (a : α) : Prop where
  notNull : json ≠ .null
  eq_ok : ∀ (order : Order) medium, decode medium (order.arrange json) = .ok a

namespace Decoder

theorem text_reads (s : String) : text.Reads (.str s) s where
  notNull := Json.noConfusion
  eq_ok order medium := by rw [Order.arrange_str, text]

theorem boolean_reads (b : Bool) : boolean.Reads (.bool b) b where
  notNull := Json.noConfusion
  eq_ok order medium := by rw [Order.arrange_bool, boolean]

theorem word32_reads (word : UInt32) : word32.Reads (nat word.toNat) word where
  notNull := Json.noConfusion
  eq_ok order medium := by
    have hrange : 0 ≤ (word.toNat : Int) ∧ (word.toNat : Int).toNat < UInt32.size :=
      ⟨Int.natCast_nonneg _, word.toNat_lt⟩
    rw [nat, Order.arrange_int, word32, if_pos hrange, Int.toNat_natCast, UInt32.ofNat_toNat]

theorem word64_reads (word : UInt64) : word64.Reads (nat word.toNat) word where
  notNull := Json.noConfusion
  eq_ok order medium := by
    have hrange : 0 ≤ (word.toNat : Int) ∧ (word.toNat : Int).toNat < UInt64.size :=
      ⟨Int.natCast_nonneg _, word.toNat_lt⟩
    rw [nat, Order.arrange_int, word64, if_pos hrange, Int.toNat_natCast, UInt64.ofNat_toNat]

theorem variant_reads {known : List (String × α)} {name : String} {a : α}
    (h : known.find? (fun row => row.1 == name) = some (name, a)) :
    (variant known).Reads (.str name) a where
  notNull := Json.noConfusion
  eq_ok order medium := by rw [Order.arrange_str, variant, named, h]

theorem mapM_eq_ok {f : α → Except Fault β} {g : α → β} {items : List α}
    (h : ∀ item ∈ items, f item = .ok (g item)) : items.mapM f = .ok (items.map g) := by
  induction items with
  | nil => rfl
  | cons item rest ih =>
      rw [List.mapM_cons, h item List.mem_cons_self,
        ih (fun other hother => h other (List.mem_cons_of_mem item hother))]
      rfl

theorem map_of_mapM_eq_ok {ε : Type} {f : α → Except ε β} {items : List α} {results : List β}
    (h : items.mapM f = .ok results) : items.map f = results.map .ok := by
  induction items generalizing results with
  | nil =>
      obtain rfl := Except.ok.inj h
      rfl
  | cons item rest ih =>
      rw [List.mapM_cons] at h
      cases hitem : f item with
      | error wrong =>
          rw [hitem] at h
          simp [bind, Except.bind] at h
      | ok result =>
          cases hrest : rest.mapM f with
          | error wrong =>
              rw [hitem, hrest] at h
              simp [bind, Except.bind] at h
          | ok others =>
              rw [hitem, hrest] at h
              obtain rfl := Except.ok.inj h
              rw [List.map_cons, List.map_cons, hitem, ih hrest]

theorem map_of_list_eq_ok {decode : Decoder α} {medium : Medium} {json : Json} {results : List α}
    (h : list decode medium json = .ok results) :
    ∃ items, json = .arr items ∧ items.map (decode medium) = results.map .ok := by
  cases json with
  | arr items => exact ⟨items, rfl, map_of_mapM_eq_ok h⟩
  | null | bool _ | int _ | float _ | str _ | obj _ => simp [list] at h

theorem list_reads {decode : Decoder α} {toJson : β → Json} {back : β → α} {items : List β}
    (h : ∀ item ∈ items, decode.Reads (toJson item) (back item)) :
    (list decode).Reads (.arr (items.map toJson)) (items.map back) where
  notNull := Json.noConfusion
  eq_ok order medium := by
    rw [Order.arrange_arr, list, List.map_map, List.mapM_map]
    exact mapM_eq_ok (fun item hitem => (h item hitem).eq_ok order medium)

theorem list_reads_all {decode : Decoder α} {toJson : α → Json}
    (h : ∀ a, decode.Reads (toJson a) a) (items : List α) :
    (list decode).Reads (.arr (items.map toJson)) items := by
  have hlist : (list decode).Reads (.arr (items.map toJson)) (items.map id) :=
    list_reads (fun a _ => h a)
  rwa [List.map_id] at hlist

theorem map_reads {γ : Type} {decode : Decoder β} {toJson : γ → Json} {back : γ → β}
    (h : ∀ c, decode.Reads (toJson c) (back c)) (source : SortedMap γ) :
    (map decode).Reads (.obj (source.map toJson).entries) (source.map back) where
  notNull := Json.noConfusion
  eq_ok order medium := by
    obtain ⟨arranged, harrange, hperm⟩ :=
      order.exists_perm_arrange_obj (source.map toJson).nodup_keys
    have hmembers : arranged.Perm (source.entries.map (fun entry =>
        (entry.1, order.arrange (toJson entry.2)))) := by
      unfold SortedMap.map at hperm
      rwa [List.map_map] at hperm
    obtain ⟨entries, rfl, hentries⟩ :=
      (congrFun₂ (List.eq_map_comp_perm _) arranged source.entries).mpr hmembers
    have hread : (entries.map (fun entry => (entry.1, order.arrange (toJson entry.2)))).mapM
        (fun member => do
          let value ← decode medium member.2
          Except.ok (member.1, value)) =
        .ok (entries.map (fun entry => (entry.1, back entry.2))) := by
      rw [List.mapM_map]
      refine mapM_eq_ok (fun entry _ => ?_)
      simp only [Function.comp_apply, (h entry.2).eq_ok order medium]
      rfl
    have hsource : SortedMap.ofList entries = source := by
      rw [← SortedMap.ofList_perm hentries.symm source.nodup_keys, SortedMap.ofList_entries]
    rw [harrange, map, hread, ← hsource, SortedMap.map_ofList]
    rfl

end Decoder

/-! ## Slots -/

/-- The members for those of the slots that are filled. -/
def filled (slots : List (String × Option Json)) : List (String × Json) :=
  slots.filterMap (fun slot => slot.2.map (Prod.mk slot.1))

@[simp] theorem filled_nil : filled [] = [] := rfl

@[simp] theorem filled_cons_some (name : String) (json : Json)
    (slots : List (String × Option Json)) :
    filled ((name, some json) :: slots) = (name, json) :: filled slots := rfl

@[simp] theorem filled_cons_map (name : String) (toJson : α → Json) (value? : Option α)
    (slots : List (String × Option Json)) :
    filled ((name, value?.map toJson) :: slots) = member? name toJson value? ++ filled slots := by
  cases value? <;> rfl

theorem mem_filled_iff {slots : List (String × Option Json)} {name : String} {json : Json} :
    (name, json) ∈ filled slots ↔ (name, some json) ∈ slots := by
  unfold filled
  rw [List.mem_filterMap]
  constructor
  · rintro ⟨⟨other, json?⟩, hslot, hsame⟩
    obtain ⟨value, rfl, hpair⟩ := Option.map_eq_some_iff.1 hsame
    obtain ⟨rfl, rfl⟩ := Prod.mk.inj hpair
    exact hslot
  · exact fun hslot => ⟨_, hslot, rfl⟩

theorem eq_some_of_mem_filled {slots : List (String × Option Json)} {name : String} {json : Json}
    {json? : Option Json} (hdistinct : (slots.map (·.1)).Nodup)
    (hfilled : (name, json) ∈ filled slots) (hslot : (name, json?) ∈ slots) : json? = some json :=
  (Prod.mk.inj (List.inj_on_of_nodup_map hdistinct hslot (mem_filled_iff.1 hfilled) rfl)).2

theorem names_filled_sublist (slots : List (String × Option Json)) :
    ((filled slots).map (·.1)).Sublist (slots.map (·.1)) := by
  induction slots with
  | nil => exact List.Sublist.refl _
  | cons slot rest ih =>
      obtain ⟨name, json?⟩ := slot
      cases json? with
      | none => exact ih.cons name
      | some json => exact ih.cons_cons name

/-- The values of a record are those in its slots, whatever else there is. -/
def Members.Hold (members : Members) (order : Order) : List (String × Option Json) → Prop
  | [] => True
  | (name, json?) :: rest =>
    members.value? name = json?.map order.arrange ∧ members.Hold order rest

theorem Members.hold_iff {members : Members} {order : Order}
    {slots : List (String × Option Json)} : members.Hold order slots ↔
      ∀ slot ∈ slots, members.value? slot.1 = slot.2.map order.arrange := by
  induction slots with
  | nil => simp [Hold]
  | cons slot rest ih => rw [Hold, ih, List.forall_mem_cons]

/-- An object with slots of different names, and with members of yet other names. -/
structure Slotted (slots : List (String × Option Json)) (others : List (String × Json)) : Prop where
  distinct : (slots.map (·.1)).Nodup
  othersDistinct : (others.map (·.1)).Nodup
  apart : ∀ member ∈ others, member.1 ∉ slots.map (·.1)

section

variable {slots : List (String × Option Json)} {others : List (String × Json)}

theorem Slotted.nodup (h : Slotted slots others) :
    ((filled slots ++ others).map (·.1)).Nodup := by
  rw [List.map_append]
  refine (h.distinct.sublist (names_filled_sublist slots)).append h.othersDistinct ?_
  intro name hslot hother
  obtain ⟨member, hmember, rfl⟩ := List.mem_map.1 hother
  exact h.apart member hmember ((names_filled_sublist slots).subset hslot)

/-- Whatever their order, the members of such an object fill its slots. -/
theorem Slotted.exists_arranged (h : Slotted slots others) (order : Order) :
    ∃ values, order.arrange (.obj (filled slots ++ others)) = .obj values ∧
      values.Perm ((filled slots ++ others).map (fun member =>
        (member.1, order.arrange member.2))) ∧
      (values.map (·.1)).Nodup ∧ ∀ medium, Members.Hold ⟨medium, values⟩ order slots := by
  obtain ⟨values, harrange, hperm⟩ := order.exists_perm_arrange_obj h.nodup
  have hnames : (values.map (·.1)).Nodup := by
    rw [(hperm.map (·.1)).nodup_iff, List.map_map]
    exact h.nodup
  refine ⟨values, harrange, hperm, hnames, fun medium => Members.hold_iff.2 ?_⟩
  rintro ⟨name, json?⟩ hslot
  refine Option.ext (fun value => ?_)
  rw [Members.value?_eq_some_iff hnames, hperm.mem_iff, List.mem_map, Option.map_eq_some_iff]
  constructor
  · rintro ⟨⟨other, json⟩, hmember, hsame⟩
    obtain ⟨rfl, rfl⟩ := Prod.mk.inj hsame
    rcases List.mem_append.1 hmember with hfilled | hother
    · exact ⟨json, eq_some_of_mem_filled h.distinct hfilled hslot, rfl⟩
    · exact absurd (List.mem_map_of_mem hslot) (h.apart _ hother)
  · rintro ⟨json, rfl, rfl⟩
    exact ⟨(name, json), List.mem_append_left _ (mem_filled_iff.2 hslot), rfl⟩

end

/-! ## Fields -/

namespace Members

variable {members : Members} {order : Order} {name : String} {decode : Decoder α} {json : Json}
  {a : α}

theorem exists_find?_of_value? (h : members.value? name = some json) :
    ∃ place, members.find? name = some (place, json) := by
  obtain ⟨⟨place, value⟩, hfound, rfl⟩ := Option.map_eq_some_iff.1 h
  exact ⟨place, hfound⟩

theorem required_eq (h : members.value? name = (some json).map order.arrange)
    (hreads : decode.Reads json a) : members.required name decode = .value a := by
  obtain ⟨place, hfound⟩ := exists_find?_of_value? h
  rw [required, hfound]
  simp [hreads.eq_ok, Reading.ofExcept]

theorem orDefault_eq (h : members.value? name = (some json).map order.arrange)
    (hreads : decode.Reads json a) (default : α) :
    members.orDefault name decode default = .value a := by
  obtain ⟨place, hfound⟩ := exists_find?_of_value? h
  rw [orDefault, hfound]
  simp [hreads.eq_ok, Reading.ofExcept]

theorem orDefault_eq_default (h : members.value? name = none) (default : α) :
    members.orDefault name decode default = .value default := by
  rw [orDefault, Option.map_eq_none_iff.1 h]

theorem value?_of_orDefault_eq {default : α}
    (h : members.orDefault name decode default = .value a) :
    members.value? name = none ∧ a = default ∨
      ∃ json, members.value? name = some json ∧ decode members.medium json = .ok a := by
  unfold orDefault at h
  unfold Members.value?
  cases hfound : members.find? name with
  | none =>
      rw [hfound] at h
      exact Or.inl ⟨rfl, (Reading.value.inj h).symm⟩
  | some found =>
      obtain ⟨place, json⟩ := found
      rw [hfound] at h
      refine Or.inr ⟨json, rfl, ?_⟩
      cases hdecode : decode members.medium json with
      | ok value =>
          simp only [hdecode, Reading.ofExcept] at h
          exact congrArg Except.ok (Reading.value.inj h)
      | error wrong => simp [hdecode, Reading.ofExcept] at h

theorem optional_eq_some (h : members.value? name = (some json).map order.arrange)
    (hreads : decode.Reads json a) : members.optional name decode = .value (some a) := by
  obtain ⟨place, hfound⟩ := exists_find?_of_value? h
  have hnotNull := order.arrange_ne_null hreads.notNull
  rw [optional, hfound]
  split
  · simp_all
  · rename_i hsame
    simp only [Option.some.injEq, Prod.mk.injEq] at hsame
    exact absurd hsame.2 hnotNull
  · rename_i hsame
    simp only [Option.some.injEq, Prod.mk.injEq] at hsame
    rw [← hsame.2, hreads.eq_ok]
    rfl

theorem optional_eq {toJson : α → Json} {value? : Option α}
    (h : members.value? name = (value?.map toJson).map order.arrange)
    (hreads : ∀ a ∈ value?, decode.Reads (toJson a) a) :
    members.optional name decode = .value value? := by
  cases value? with
  | none => rw [optional, Option.map_eq_none_iff.1 h]
  | some a => exact optional_eq_some h (hreads a rfl)

theorem optional_orNull_eq {toJson : α → Json} {value? : Option α}
    (h : members.value? name = (some (orNull toJson value?)).map order.arrange)
    (hreads : ∀ a ∈ value?, decode.Reads (toJson a) a) :
    members.optional name decode = .value value? := by
  cases value? with
  | none =>
      obtain ⟨place, hfound⟩ := exists_find?_of_value? h
      rw [optional, hfound, orNull, Order.arrange_null]
  | some a => exact optional_eq_some h (hreads a rfl)

theorem required_text_eq {s : String}
    (h : members.value? name = (some (Json.str s)).map order.arrange) :
    members.required name Decoder.text = .value s :=
  required_eq h (Decoder.text_reads s)

theorem optional_text_eq {value? : Option String}
    (h : members.value? name = (value?.map Json.str).map order.arrange) :
    members.optional name Decoder.text = .value value? :=
  optional_eq h (fun s _ => Decoder.text_reads s)

theorem optional_boolean_eq {value? : Option Bool}
    (h : members.value? name = (value?.map Json.bool).map order.arrange) :
    members.optional name Decoder.boolean = .value value? :=
  optional_eq h (fun b _ => Decoder.boolean_reads b)

theorem optional_orNull_text_eq {value? : Option String}
    (h : members.value? name = (some (orNull Json.str value?)).map order.arrange) :
    members.optional name Decoder.text = .value value? :=
  optional_orNull_eq h (fun s _ => Decoder.text_reads s)

end Members

/-! ## Records -/

theorem Decoder.record_reads {name : String} {fields : List Field} {read : Members → Reading α}
    {a : α} {members : List (String × Json)} (slots : List (String × Option Json))
    (hmembers : members = filled slots) (hfields : slots.map (·.1) = fields.map (·.name))
    (hnodup : (fields.map (·.name)).Nodup)
    (hread : ∀ order (members : Members), members.Hold order slots → read members = .value a) :
    (record name fields read).Reads (.obj members) a where
  notNull := Json.noConfusion
  eq_ok order medium := by
    have hslotted : Slotted slots [] :=
      { distinct := hfields ▸ hnodup, othersDistinct := List.nodup_nil, apart := by simp }
    obtain ⟨values, harrange, -, hnames, hhold⟩ := hslotted.exists_arranged order
    rw [List.append_nil] at harrange
    rw [hmembers, harrange, record, checkUnique_of_nodup hnames,
      hread order ⟨medium, values⟩ (hhold medium)]
    rfl

end CrossDoc.Json
