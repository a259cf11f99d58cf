import CrossDoc.SortedMap
import Mathlib.Data.List.Basic
import Mathlib.Data.List.Induction
import Mathlib.Data.List.Nodup

/-!
# Looking up in sorted maps

A map is determined by its look-ups. `get?_insert` says what one insertion does to them, and
`get?_eq_some_iff_mem` ties them to the list of entries.
-/

namespace CrossDoc.SortedMap

variable {α : Type}

private theorem find?_insertEntry (key other : String) (value : α)
    (entries : List (String × α)) :
    ((insertEntry key value entries).find? (fun entry => entry.1 == other)).map (·.2) =
      if other = key then some value
      else (entries.find? (fun entry => entry.1 == other)).map (·.2) := by
  induction entries with
  | nil =>
      by_cases h : other = key
      · simp [insertEntry, h]
      · simp [insertEntry, h, Ne.symm h]
  | cons head rest ih =>
      simp only [insertEntry]
      split
      · by_cases h : other = key
        · simp [h]
        · simp [h, Ne.symm h]
      · rename_i hge
        split
        · rename_i hlt
          have hne : head.1 ≠ key := fun h => String.lt_irrefl _ (h ▸ hlt)
          by_cases h : head.1 = other
          · simp [h, show other ≠ key from h ▸ hne]
          · simp [h, ih]
        · rename_i hle
          have hkey : head.1 = key :=
            String.le_antisymm (String.not_lt.1 hge) (String.not_lt.1 hle)
          by_cases h : other = key
          · simp [h]
          · simp [h, Ne.symm h, hkey]

@[simp] theorem get?_empty (key : String) : (∅ : SortedMap α).get? key = none := rfl

@[simp] theorem contains_empty (key : String) : (∅ : SortedMap α).contains key = false := rfl

theorem get?_insert (map : SortedMap α) (key other : String) (value : α) :
    (map.insert key value).get? other = if other = key then some value else map.get? other :=
  find?_insertEntry key other value map.entries

@[simp] theorem get?_insert_self (map : SortedMap α) (key : String) (value : α) :
    (map.insert key value).get? key = some value := by
  simp [get?_insert]

theorem get?_insert_of_ne (map : SortedMap α) {key other : String} (value : α)
    (h : other ≠ key) : (map.insert key value).get? other = map.get? other := by
  simp [get?_insert, h]

theorem contains_insert (map : SortedMap α) (key other : String) (value : α) :
    (map.insert key value).contains other = (decide (other = key) || map.contains other) := by
  unfold contains
  rw [get?_insert]
  by_cases h : other = key <;> simp [h]

private theorem find?_of_mem {entries : List (String × α)}
    (hsorted : entries.Pairwise (fun a b => a.1 < b.1)) {entry : String × α}
    (hmem : entry ∈ entries) :
    entries.find? (fun other => other.1 == entry.1) = some entry := by
  induction entries with
  | nil => simp at hmem
  | cons head rest ih =>
      rw [List.pairwise_cons] at hsorted
      rcases List.mem_cons.1 hmem with rfl | hmem
      · simp
      · have hne : head.1 ≠ entry.1 := fun h => String.lt_irrefl _ (h ▸ hsorted.1 entry hmem)
        simp [hne, ih hsorted.2 hmem]

theorem get?_eq_some_iff_mem {map : SortedMap α} {key : String} {value : α} :
    map.get? key = some value ↔ (key, value) ∈ map.entries := by
  constructor
  · intro h
    obtain ⟨entry, hfind, rfl⟩ := Option.map_eq_some_iff.1 h
    have hkey : entry.1 = key := by simpa using List.find?_some hfind
    exact hkey ▸ List.mem_of_find?_eq_some hfind
  · intro h
    simp [get?, find?_of_mem map.sorted h]

theorem find?_eq_some_iff {map : SortedMap α} {p : String → α → Bool} {key : String} {value : α} :
    map.find? p = some (key, value) ↔ map.get? key = some value ∧ p key value = true ∧
      ∀ other found, other < key → map.get? other = some found → p other found = false := by
  unfold find?
  simp only [List.find?_eq_some_iff_append, get?_eq_some_iff_mem]
  have hsorted := map.sorted
  constructor
  · rintro ⟨hp, before, after, hsplit, hbefore⟩
    rw [hsplit] at hsorted ⊢
    refine ⟨by simp, hp, fun other found hlt hmem => ?_⟩
    have hafter := (List.pairwise_cons.1 (List.pairwise_append.1 hsorted).2.1).1
    rcases List.mem_append.1 hmem with hmem | hmem
    · simpa using hbefore (other, found) hmem
    · rcases List.mem_cons.1 hmem with hsame | hmem
      · have hkey : other = key := congrArg Prod.fst hsame
        exact absurd (hkey ▸ hlt) (String.lt_irrefl key)
      · exact absurd (String.lt_trans hlt (hafter (other, found) hmem)) (String.lt_irrefl other)
  · rintro ⟨hmem, hp, hsmaller⟩
    obtain ⟨before, after, hsplit⟩ := List.append_of_mem hmem
    refine ⟨hp, before, after, hsplit, fun entry hentry => ?_⟩
    rw [hsplit] at hsorted hsmaller
    have hlt : entry.1 < key :=
      (List.pairwise_append.1 hsorted).2.2 entry hentry (key, value) List.mem_cons_self
    have hfalse := hsmaller entry.1 entry.2 hlt (List.mem_append_left _ hentry)
    simpa using hfalse

theorem mem_values {map : SortedMap α} {value : α} :
    value ∈ map.values ↔ ∃ key, map.get? key = some value := by
  simp only [values, List.mem_map, get?_eq_some_iff_mem]
  constructor
  · rintro ⟨entry, hmem, rfl⟩
    exact ⟨entry.1, hmem⟩
  · rintro ⟨key, hmem⟩
    exact ⟨(key, value), hmem, rfl⟩

/-! ## Maps with the same look-ups -/

theorem nodup_entries (map : SortedMap α) : map.entries.Nodup := by
  refine List.Pairwise.imp ?_ map.sorted
  rintro entry _ hlt rfl
  exact String.lt_irrefl _ hlt

theorem ext_get? {map other : SortedMap α} (h : ∀ key, map.get? key = other.get? key) :
    map = other := by
  have hmem : ∀ entry, entry ∈ map.entries ↔ entry ∈ other.entries := by
    intro entry
    rw [← get?_eq_some_iff_mem, ← get?_eq_some_iff_mem, h]
  have hperm : map.entries.Perm other.entries :=
    (List.perm_ext_iff_of_nodup map.nodup_entries other.nodup_entries).2 hmem
  have hentries : map.entries = other.entries := by
    refine List.Perm.eq_of_pairwise (fun a b _ _ hab hba => ?_) map.sorted other.sorted hperm
    exact absurd (String.lt_trans hab hba) (String.lt_irrefl _)
  cases map
  cases other
  simpa using hentries

theorem mem_keys {map : SortedMap α} {key : String} :
    key ∈ map.keys ↔ map.contains key = true := by
  unfold contains
  rw [Option.isSome_iff_exists]
  simp only [get?_eq_some_iff_mem, keys, List.mem_map]
  constructor
  · rintro ⟨entry, hmem, rfl⟩
    exact ⟨entry.2, hmem⟩
  · rintro ⟨value, hmem⟩
    exact ⟨(key, value), hmem, rfl⟩

theorem nodup_keys (map : SortedMap α) : map.keys.Nodup := by
  refine List.pairwise_map.2 (map.sorted.imp ?_)
  rintro _ _ hlt heq
  exact String.lt_irrefl _ (heq ▸ hlt)

/-! ## Changing every value -/

variable {β : Type}

theorem get?_map (f : α → β) (source : SortedMap α) (key : String) :
    (source.map f).get? key = (source.get? key).map f := by
  unfold get? map
  rw [List.find?_map, Option.map_map, Option.map_map]
  rfl

theorem map_insert (f : α → β) (source : SortedMap α) (key : String) (value : α) :
    (source.insert key value).map f = (source.map f).insert key (f value) := by
  refine ext_get? (fun other => ?_)
  rw [get?_map, get?_insert, get?_insert, get?_map]
  split
  · rfl
  · rfl

/-! ## Maps of lists -/

private theorem get?_foldl_insert_of_notMem {entries : List (String × α)} {key : String}
    (h : ∀ entry ∈ entries, entry.1 ≠ key) (start : SortedMap α) :
    (entries.foldl (fun map entry => map.insert entry.1 entry.2) start).get? key =
      start.get? key := by
  induction entries generalizing start with
  | nil => rfl
  | cons entry rest ih =>
      rw [List.foldl_cons, ih (fun other hmem => h other (by simp [hmem])),
        get?_insert_of_ne _ _ (h entry (by simp)).symm]

private theorem get?_foldl_insert {entries : List (String × α)} {start : SortedMap α}
    {key : String} {value : α}
    (h : (entries.foldl (fun map entry => map.insert entry.1 entry.2) start).get? key =
      some value) :
    start.get? key = some value ∨ (key, value) ∈ entries := by
  induction entries generalizing start with
  | nil => exact Or.inl h
  | cons entry rest ih =>
      rcases ih h with hstart | hmem
      · rw [get?_insert] at hstart
        split at hstart
        · rename_i hkey
          obtain rfl := Option.some.inj hstart
          exact Or.inr (by simp [hkey])
        · exact Or.inl hstart
      · exact Or.inr (by simp [hmem])

theorem mem_of_get?_ofList {entries : List (String × α)} {key : String} {value : α}
    (h : (ofList entries).get? key = some value) : (key, value) ∈ entries := by
  rcases get?_foldl_insert h with hempty | hmem
  · exact absurd hempty (by simp [get?, empty])
  · exact hmem

theorem get?_ofList_of_mem {entries : List (String × α)} (hkeys : (entries.map (·.1)).Nodup)
    {entry : String × α} (hmem : entry ∈ entries) :
    (ofList entries).get? entry.1 = some entry.2 := by
  unfold ofList
  generalize (empty : SortedMap α) = start
  induction entries generalizing start with
  | nil => simp at hmem
  | cons head rest ih =>
      rw [List.map_cons, List.nodup_cons] at hkeys
      rcases List.mem_cons.1 hmem with rfl | hmem
      · rw [List.foldl_cons, get?_foldl_insert_of_notMem, get?_insert_self]
        intro other hother heq
        exact hkeys.1 (List.mem_map.2 ⟨other, hother, heq⟩)
      · exact ih hkeys.2 hmem _

theorem ofList_perm {entries others : List (String × α)} (hperm : entries.Perm others)
    (hkeys : (entries.map (·.1)).Nodup) : ofList entries = ofList others := by
  have hkeys' : (others.map (·.1)).Nodup := (hperm.map _).nodup_iff.1 hkeys
  refine ext_get? (fun key => Option.ext (fun value => ?_))
  constructor
  · intro h
    exact get?_ofList_of_mem hkeys' (hperm.mem_iff.1 (mem_of_get?_ofList h))
  · intro h
    exact get?_ofList_of_mem hkeys (hperm.mem_iff.2 (mem_of_get?_ofList h))

theorem entries_ofList_perm {entries : List (String × α)} (hkeys : (entries.map (·.1)).Nodup) :
    (ofList entries).entries.Perm entries := by
  refine (List.perm_ext_iff_of_nodup (nodup_entries _)
    (List.Nodup.of_map _ hkeys)).2 (fun entry => ?_)
  rw [← get?_eq_some_iff_mem]
  constructor
  · exact mem_of_get?_ofList
  · exact get?_ofList_of_mem hkeys

theorem ofList_entries (map : SortedMap α) : ofList map.entries = map := by
  refine ext_get? (fun key => Option.ext (fun value => ?_))
  constructor
  · exact fun h => get?_eq_some_iff_mem.2 (mem_of_get?_ofList h)
  · exact fun h => get?_ofList_of_mem map.nodup_keys (get?_eq_some_iff_mem.1 h)

theorem get?_ofList (entries : List (String × α)) (key : String) :
    (ofList entries).get? key =
      (entries.reverse.find? (fun entry => entry.1 == key)).map (·.2) := by
  induction entries using List.reverseRecOn with
  | nil => rfl
  | append_singleton rest entry ih =>
      have hinsert : ofList (rest ++ [entry]) = (ofList rest).insert entry.1 entry.2 :=
        List.foldl_append
      rw [hinsert, get?_insert, ih, List.reverse_append]
      by_cases hkey : key = entry.1
      · simp [hkey]
      · simp [hkey, Ne.symm hkey]

theorem get?_ofList_congr {items : List β} {f g : β → String × α} {key : String}
    (hkeys : ∀ item ∈ items, (f item).1 = (g item).1)
    (hvalues : ∀ item ∈ items, (g item).1 = key → (f item).2 = (g item).2) :
    (ofList (items.map f)).get? key = (ofList (items.map g)).get? key := by
  unfold ofList
  suffices h : ∀ start other : SortedMap α, start.get? key = other.get? key →
      ((items.map f).foldl (fun map entry => map.insert entry.1 entry.2) start).get? key =
        ((items.map g).foldl (fun map entry => map.insert entry.1 entry.2) other).get? key by
    exact h empty empty rfl
  induction items with
  | nil => exact fun _ _ hsame => hsame
  | cons item rest ih =>
      intro start other hsame
      rw [List.map_cons, List.map_cons, List.foldl_cons, List.foldl_cons]
      refine ih (fun item hmem => hkeys item (by simp [hmem]))
        (fun item hmem => hvalues item (by simp [hmem])) _ _ ?_
      rw [get?_insert, get?_insert, hkeys item (by simp), hsame]
      split
      · rename_i hkey
        rw [hvalues item (by simp) hkey.symm]
      · rfl

theorem map_ofList (f : α → β) (entries : List (String × α)) :
    (ofList entries).map f = ofList (entries.map (fun entry => (entry.1, f entry.2))) := by
  unfold ofList
  rw [List.foldl_map]
  change _ = entries.foldl (fun map entry => map.insert entry.1 (f entry.2))
    ((empty : SortedMap α).map f)
  generalize (empty : SortedMap α) = start
  induction entries generalizing start with
  | nil => rfl
  | cons entry rest ih => rw [List.foldl_cons, ih, map_insert, List.foldl_cons]

/-! ## Sets -/

theorem ext_contains {set other : SortedMap Unit}
    (h : ∀ key, set.contains key = other.contains key) : set = other := by
  refine ext_get? (fun key => ?_)
  have hkey : (set.get? key).isSome = (other.get? key).isSome := h key
  cases hset : set.get? key with
  | none =>
      cases hother : other.get? key with
      | none => rfl
      | some member => simp [hset, hother] at hkey
  | some member =>
      cases hother : other.get? key with
      | none => simp [hset, hother] at hkey
      | some member => rfl

/-! ## Folding one map into another -/

private theorem get?_foldl_alter_entries (f : β → Option α → α) {entries : List (String × β)}
    (hsorted : entries.Pairwise (fun a b => a.1 < b.1)) (start : SortedMap α) (key : String) :
    (entries.foldl (fun map entry => map.alter entry.1 (f entry.2)) start).get? key =
      match entries.find? (fun entry => entry.1 == key) with
      | none => start.get? key
      | some entry => some (f entry.2 (start.get? key)) := by
  induction entries generalizing start with
  | nil => rfl
  | cons entry rest ih =>
      rw [List.pairwise_cons] at hsorted
      rw [List.foldl_cons, ih hsorted.2]
      by_cases hkey : entry.1 = key
      · have hrest : rest.find? (fun other => other.1 == key) = none := by
          refine List.find?_eq_none.2 (fun other hmem heq => ?_)
          have hlt := hsorted.1 other hmem
          rw [hkey, show other.1 = key by simpa using heq] at hlt
          exact String.lt_irrefl _ hlt
        have hhead : (entry :: rest).find? (fun other => other.1 == key) = some entry := by
          simp [hkey]
        rw [hrest, hhead, hkey]
        exact get?_insert_self start key _
      · have hhead : (entry :: rest).find? (fun other => other.1 == key) =
            rest.find? (fun other => other.1 == key) := by
          simp [hkey]
        rw [hhead, alter, get?_insert_of_ne start _ (Ne.symm hkey)]

theorem get?_foldl_alter (f : β → Option α → α) (source : SortedMap β) (start : SortedMap α)
    (key : String) :
    (source.foldl (fun map key value => map.alter key (f value)) start).get? key =
      match source.get? key with
      | none => start.get? key
      | some value => some (f value (start.get? key)) := by
  refine (get?_foldl_alter_entries f source.sorted start key).trans ?_
  unfold get?
  cases source.entries.find? (fun entry => entry.1 == key) with
  | none => rfl
  | some entry => rfl

end CrossDoc.SortedMap
