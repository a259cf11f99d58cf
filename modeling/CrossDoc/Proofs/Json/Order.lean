import CrossDoc.Json.Basic
import CrossDoc.Proofs.SortedMap

/-!
# The order of members

An object has its members as they were written, or in order of their names. Either way it has the
same members (`Order.exists_perm_arrange_obj`), and sorting what is sorted changes nothing
(`canonical_canonical`).
-/

namespace CrossDoc.Json

/-! ## Canonical forms -/

theorem canonicalItems_eq_map (items : List Json) : canonicalItems items = items.map canonical := by
  induction items with
  | nil => rfl
  | cons item rest ih => rw [canonicalItems, ih, List.map_cons]

theorem canonicalMembers_eq_map (members : List (String × Json)) :
    canonicalMembers members = members.map (fun member => (member.1, member.2.canonical)) := by
  induction members with
  | nil => rfl
  | cons member rest ih => rw [canonicalMembers, ih, List.map_cons]

theorem canonical_obj (members : List (String × Json)) :
    (obj members).canonical = .obj ((SortedMap.ofList members).map canonical).entries := by
  rw [canonical, canonicalMembers_eq_map, SortedMap.map_ofList]

mutual
theorem canonical_canonical (json : Json) : json.canonical.canonical = json.canonical := by
  match json with
  | .null | .bool _ | .int _ | .float _ | .str _ => rfl
  | .arr items =>
    rw [canonical, canonical, canonicalItems_canonicalItems items]
  | .obj members =>
    rw [canonical_obj, canonical_obj, SortedMap.ofList_entries]
    refine congrArg (fun map : SortedMap Json => obj map.entries) ?_
    refine SortedMap.ext_get? (fun name => ?_)
    rw [SortedMap.get?_map, SortedMap.get?_map, Option.map_map]
    refine Option.map_congr (fun value hvalue => ?_)
    exact canonical_canonical_of_mem members (name, value) (SortedMap.mem_of_get?_ofList hvalue)

theorem canonicalItems_canonicalItems (items : List Json) :
    canonicalItems (canonicalItems items) = canonicalItems items := by
  match items with
  | [] => rfl
  | item :: rest =>
    rw [canonicalItems, canonicalItems, canonical_canonical item,
      canonicalItems_canonicalItems rest]

theorem canonical_canonical_of_mem (members : List (String × Json)) (member : String × Json)
    (h : member ∈ members) : member.2.canonical.canonical = member.2.canonical := by
  match members with
  | [] => simp at h
  | (name, value) :: rest =>
    rcases List.mem_cons.1 h with rfl | hrest
    · exact canonical_canonical value
    · exact canonical_canonical_of_mem rest member hrest
end

/-! ## Both orders -/

/-- An order in which objects may have their members. -/
inductive Order where
  | asWritten
  | sorted
deriving DecidableEq, Repr

namespace Order

variable (order : Order)

def arrange (order : Order) (json : Json) : Json :=
  match order with
  | .asWritten => json
  | .sorted => json.canonical

@[simp] theorem arrange_null : order.arrange .null = .null := by
  cases order <;> rfl

@[simp] theorem arrange_bool (b : Bool) : order.arrange (.bool b) = .bool b := by
  cases order <;> rfl

@[simp] theorem arrange_int (n : Int) : order.arrange (.int n) = .int n := by
  cases order <;> rfl

@[simp] theorem arrange_str (s : String) : order.arrange (.str s) = .str s := by
  cases order <;> rfl

@[simp] theorem arrange_arr (items : List Json) :
    order.arrange (.arr items) = .arr (items.map order.arrange) := by
  cases order with
  | asWritten => exact congrArg Json.arr (List.map_id items).symm
  | sorted => exact congrArg Json.arr (canonicalItems_eq_map items)

theorem arrange_ne_null {json : Json} (h : json ≠ .null) : order.arrange json ≠ .null := by
  cases order with
  | asWritten => exact h
  | sorted =>
      cases json with
      | null => exact absurd rfl h
      | bool _ | int _ | float _ | str _ | arr _ => simp [arrange, canonical]
      | obj _ => simp [arrange, canonical]

theorem canonical_arrange (json : Json) : (order.arrange json).canonical = json.canonical := by
  cases order with
  | asWritten => rfl
  | sorted => exact json.canonical_canonical

theorem exists_perm_arrange_obj {members : List (String × Json)}
    (hnames : (members.map (·.1)).Nodup) :
    ∃ arranged, order.arrange (.obj members) = .obj arranged ∧
      arranged.Perm (members.map (fun member => (member.1, order.arrange member.2))) := by
  cases order with
  | asWritten => exact ⟨members, rfl, by simp [arrange]⟩
  | sorted =>
      refine ⟨_, canonical_obj members, ?_⟩
      exact (SortedMap.entries_ofList_perm hnames).map _

end Order

end CrossDoc.Json
