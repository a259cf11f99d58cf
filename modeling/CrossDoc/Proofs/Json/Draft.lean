import CrossDoc.Proofs.Json.Reader

/-!
# Values that come back

A value comes back from its text just if it is not nested too deep and each of its numbers comes
back (`parse?_toText_iff`). A shape that passes over no part of a value changes nothing in this
(`Shape.SeesAll`).
-/

namespace CrossDoc.Json

/-! ## Depth and numbers -/

mutual
def depth : Json → Nat
  | .arr items => depthOfItems items + 1
  | .obj members => depthOfMembers members + 1
  | .null | .bool _ | .int _ | .float _ | .str _ => 0

def depthOfItems : List Json → Nat
  | [] => 0
  | item :: rest => max item.depth (depthOfItems rest)

def depthOfMembers : List (String × Json) → Nat
  | [] => 0
  | (_, value) :: rest => max value.depth (depthOfMembers rest)
end

mutual
def numbers : Json → List Json
  | .int n => [.int n]
  | .float x => [.float x]
  | .arr items => numbersOfItems items
  | .obj members => numbersOfMembers members
  | .null | .bool _ | .str _ => []

def numbersOfItems : List Json → List Json
  | [] => []
  | item :: rest => item.numbers ++ numbersOfItems rest

def numbersOfMembers : List (String × Json) → List Json
  | [] => []
  | (_, value) :: rest => value.numbers ++ numbersOfMembers rest
end

theorem depthOfItems_le_iff {items : List Json} {limit : Nat} :
    depthOfItems items ≤ limit ↔ ∀ item ∈ items, item.depth ≤ limit := by
  induction items with
  | nil => simp [depthOfItems]
  | cons item rest ih => rw [depthOfItems, Nat.max_le, ih, List.forall_mem_cons]

theorem depthOfMembers_le_iff {members : List (String × Json)} {limit : Nat} :
    depthOfMembers members ≤ limit ↔ ∀ member ∈ members, member.2.depth ≤ limit := by
  induction members with
  | nil => simp [depthOfMembers]
  | cons member rest ih => rw [depthOfMembers, Nat.max_le, ih, List.forall_mem_cons]

theorem numbersOfItems_eq_flatMap (items : List Json) :
    numbersOfItems items = items.flatMap numbers := by
  induction items with
  | nil => rfl
  | cons item rest ih => rw [numbersOfItems, ih, List.flatMap_cons]

theorem numbersOfMembers_eq_flatMap (members : List (String × Json)) :
    numbersOfMembers members = members.flatMap (fun member => member.2.numbers) := by
  induction members with
  | nil => rfl
  | cons member rest ih => rw [numbersOfMembers, ih, List.flatMap_cons]

/-! ## Legible values -/

/-- A number is read again as what it is. -/
def ComesBack (number : Json) : Prop := readNumber? number.render = some number

theorem comesBack_int_iff (n : Int) :
    (int n).ComesBack ↔ -(UInt64.size / 2 : Nat) ≤ n ∧ n < (UInt64.size : Nat) := by
  unfold ComesBack
  rw [render, readNumber?_int_iff]

/-- A value is nested at most `limit` deep, and its numbers are read again as what they are. -/
structure Legible (limit : Nat) (json : Json) : Prop where
  depth_le : json.depth ≤ limit
  comesBack : ∀ number ∈ json.numbers, number.ComesBack

variable {limit : Nat}

theorem legible_arr_iff {items : List Json} :
    (arr items).Legible (limit + 1) ↔ ∀ item ∈ items, item.Legible limit := by
  constructor
  · rintro ⟨hdepth, hnumbers⟩ item hitem
    rw [depth, Nat.add_le_add_iff_right, depthOfItems_le_iff] at hdepth
    rw [numbers, numbersOfItems_eq_flatMap] at hnumbers
    exact ⟨hdepth item hitem, fun number hnumber =>
      hnumbers number (List.mem_flatMap.2 ⟨item, hitem, hnumber⟩)⟩
  · intro h
    refine ⟨?_, fun number hnumber => ?_⟩
    · rw [depth, Nat.add_le_add_iff_right, depthOfItems_le_iff]
      exact fun item hitem => (h item hitem).depth_le
    · rw [numbers, numbersOfItems_eq_flatMap] at hnumber
      obtain ⟨item, hitem, hnumber⟩ := List.mem_flatMap.1 hnumber
      exact (h item hitem).comesBack number hnumber

theorem legible_obj_iff {members : List (String × Json)} :
    (obj members).Legible (limit + 1) ↔ ∀ member ∈ members, member.2.Legible limit := by
  constructor
  · rintro ⟨hdepth, hnumbers⟩ member hmember
    rw [depth, Nat.add_le_add_iff_right, depthOfMembers_le_iff] at hdepth
    rw [numbers, numbersOfMembers_eq_flatMap] at hnumbers
    exact ⟨hdepth member hmember, fun number hnumber =>
      hnumbers number (List.mem_flatMap.2 ⟨member, hmember, hnumber⟩)⟩
  · intro h
    refine ⟨?_, fun number hnumber => ?_⟩
    · rw [depth, Nat.add_le_add_iff_right, depthOfMembers_le_iff]
      exact fun member hmember => (h member hmember).depth_le
    · rw [numbers, numbersOfMembers_eq_flatMap] at hnumber
      obtain ⟨member, hmember, hnumber⟩ := List.mem_flatMap.1 hnumber
      exact (h member hmember).comesBack number hnumber

theorem not_legible_arr_zero (items : List Json) : ¬ (arr items).Legible 0 := by
  rintro ⟨hdepth, -⟩
  simp [depth] at hdepth

theorem not_legible_obj_zero (members : List (String × Json)) : ¬ (obj members).Legible 0 := by
  rintro ⟨hdepth, -⟩
  simp [depth] at hdepth

theorem legible_str (limit : Nat) (s : String) : (str s).Legible limit :=
  ⟨Nat.zero_le limit, by simp [numbers]⟩

theorem legible_texts (limit : Nat) (items : List String) : (texts items).Legible (limit + 1) := by
  refine legible_arr_iff.2 (fun item hitem => ?_)
  obtain ⟨s, -, rfl⟩ := List.mem_map.1 hitem
  exact legible_str limit s

/-! ## Reading -/

theorem value?_numeralOf {text : List Char} (h : ∃ numeral, Numeral.Spells text numeral) :
    (numeralOf text).value? = readNumber? text := by
  obtain ⟨numeral, hspells⟩ := h
  unfold numeralOf readNumber?
  rw [hspells.ofText?]
  rfl

namespace Draft

theorem head_of_value?_ofJson {name name' : String} {value value' : Json}
    {rest rest' : List (String × Json)}
    (h : value? limit .whole (ofJson (.obj ((name, value) :: rest))) =
      some (.obj ((name', value') :: rest'))) :
    name = name' ∧ value? (limit - 1) .whole (ofJson value) = some value' := by
  rw [ofJson, ofMembers, value?] at h
  split at h
  · simp at h
  · simp only [members?, StringLiteral.text?_parts, Option.bind_eq_bind, Option.bind_some,
      Shape.member?, Option.map_eq_some_iff, Option.bind_eq_some_iff, Option.some.injEq] at h
    obtain ⟨_, ⟨found, hfound, others, -, rfl⟩, hsame⟩ := h
    obtain ⟨hpair, -⟩ := List.cons.inj (Json.obj.inj hsame)
    obtain ⟨rfl, rfl⟩ := Prod.mk.inj hpair
    exact ⟨rfl, hfound⟩

mutual
/-- A value comes back from its draft just if it is legible. -/
theorem value?_ofJson_iff (limit : Nat) : ∀ json : Json,
    value? limit .whole (ofJson json) = some json ↔ json.Legible limit
  | .null => by
      simp only [ofJson, value?, true_iff]
      exact ⟨Nat.zero_le limit, by simp [numbers]⟩
  | .bool b => by
      simp only [ofJson, value?, true_iff]
      exact ⟨Nat.zero_le limit, by simp [numbers]⟩
  | .str s => by
      simp only [ofJson, value?, StringLiteral.text?_parts, Option.map_some, true_iff]
      exact legible_str limit s
  | .int n => by
      rw [ofJson, value?, value?_numeralOf (exists_spells_renderInt n)]
      constructor
      · exact fun h => ⟨Nat.zero_le limit, by simpa [numbers, ComesBack, render] using h⟩
      · exact fun h => h.comesBack (.int n) (by simp [numbers])
  | .float x => by
      rw [ofJson, value?, value?_numeralOf x.exists_spells_render]
      constructor
      · exact fun h => ⟨Nat.zero_le limit, by simpa [numbers, ComesBack, render] using h⟩
      · exact fun h => h.comesBack (.float x) (by simp [numbers])
  | .arr items => by
      rw [ofJson, value?]
      cases limit with
      | zero => simp [not_legible_arr_zero]
      | succ limit =>
          rw [legible_arr_iff, ← items?_ofItems_iff limit 0 items]
          simp
  | .obj members => by
      rw [ofJson, value?]
      cases limit with
      | zero => simp [not_legible_obj_zero]
      | succ limit =>
          rw [legible_obj_iff, ← members?_ofMembers_iff limit members]
          simp

theorem items?_ofItems_iff (limit place : Nat) : ∀ items : List Json,
    items? limit .whole place (ofItems items) = some items ↔ ∀ item ∈ items, item.Legible limit
  | [] => by simp [ofItems, items?]
  | item :: rest => by
      rw [List.forall_mem_cons, ← value?_ofJson_iff limit item,
        ← items?_ofItems_iff limit (place + 1) rest]
      simp [ofItems, items?, Option.bind_eq_some_iff, Shape.item]

theorem members?_ofMembers_iff (limit : Nat) : ∀ members : List (String × Json),
    members? limit .whole (ofMembers members) = some members ↔
      ∀ member ∈ members, member.2.Legible limit
  | [] => by simp [ofMembers, members?]
  | (name, value) :: rest => by
      rw [List.forall_mem_cons, ← value?_ofJson_iff limit value,
        ← members?_ofMembers_iff limit rest]
      simp [ofMembers, members?, StringLiteral.text?_parts, Option.bind_eq_some_iff, Shape.member?]
end

end Draft

theorem parse?_toText_iff {json : Json} :
    parse? json.toText = some json ↔ json.Legible deepest := by
  unfold parse? parseWithin?
  rw [Draft.parse?_toText, Option.bind_some, Draft.value?_ofJson_iff]

/-! ## Parts that are looked at -/

namespace Shape

/-- A shape looks at every part of a value. -/
def SeesAll (shape : Shape) (json : Json) : Prop :=
  ∀ limit, Draft.value? limit shape (Draft.ofJson json) =
    Draft.value? limit .whole (Draft.ofJson json)

theorem seesAll_whole (json : Json) : SeesAll .whole json := fun _ => rfl

theorem seesAll_list {shape : Shape} {items : List Json} (h : ∀ item ∈ items, shape.SeesAll item) :
    SeesAll (.list shape) (.arr items) := by
  have hitems : ∀ limit place, Draft.items? limit (.list shape) place (Draft.ofItems items) =
      Draft.items? limit .whole place (Draft.ofItems items) := by
    intro limit place
    induction items generalizing place with
    | nil => rfl
    | cons item rest ih =>
        rw [Draft.ofItems, Draft.items?, Draft.items?, ih (fun other hother =>
          h other (List.mem_cons_of_mem item hother)), Shape.item, h item List.mem_cons_self]
        rfl
  intro limit
  rw [Draft.ofJson, Draft.value?, Draft.value?, hitems]

theorem seesAll_obj {shape : Shape} {members : List (String × Json)}
    (h : ∀ member ∈ members, ∃ inner, shape.member? member.1 = some inner ∧
      inner.SeesAll member.2) : shape.SeesAll (.obj members) := by
  have hmembers : ∀ limit, Draft.members? limit shape (Draft.ofMembers members) =
      Draft.members? limit .whole (Draft.ofMembers members) := by
    intro limit
    induction members with
    | nil => rfl
    | cons member rest ih =>
        obtain ⟨name, value⟩ := member
        obtain ⟨inner, hinner, hvalue⟩ := h (name, value) List.mem_cons_self
        have hwhole : member? name .whole = some .whole := rfl
        rw [Draft.ofMembers, Draft.members?, Draft.members?, StringLiteral.text?_parts]
        simp only [Option.bind_eq_bind, Option.bind_some, hinner, hwhole, hvalue limit,
          ih (fun other hother => h other (List.mem_cons_of_mem _ hother))]
  intro limit
  rw [Draft.ofJson, Draft.value?, Draft.value?, hmembers]

end Shape

/-- A record that looks at every part of a legible value is decoded from it. -/
theorem decodeText_eq_of_seesAll {α : Type} {decoder : Decoder α} {shape : Shape} {json : Json}
    (hlegible : json.Legible deepest) (hshape : shape.SeesAll json) :
    decodeText decoder shape json.toText = (decoder .file json).mapError Fault.message := by
  have hparse := parse?_toText_iff.2 hlegible
  have hvalue := (Draft.value?_ofJson_iff deepest json).2 hlegible
  unfold decodeText
  rw [Draft.parse?_toText, Option.bind_some, hshape deepest, hvalue, hparse]
  rfl

end CrossDoc.Json
