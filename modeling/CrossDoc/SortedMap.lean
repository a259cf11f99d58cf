/-!
# Maps in key order

A finite map from strings, kept as a list of entries whose keys increase strictly. The order is part
of the value, so two maps with the same look-ups are equal and every listing comes out sorted.
-/

namespace CrossDoc

/-- A finite map from strings whose entries are listed in increasing order of their keys. -/
structure SortedMap (α : Type) where
  entries : List (String × α)
  sorted : entries.Pairwise (fun a b => a.1 < b.1)

namespace SortedMap

variable {α β : Type}

def insertEntry (key : String) (value : α) : List (String × α) → List (String × α)
  | [] => [(key, value)]
  | entry :: rest =>
    if key < entry.1 then (key, value) :: entry :: rest
    else if entry.1 < key then entry :: insertEntry key value rest
    else (key, value) :: rest

theorem mem_insertEntry {key : String} {value : α} {entry : String × α}
    {entries : List (String × α)} (h : entry ∈ insertEntry key value entries) :
    entry = (key, value) ∨ entry ∈ entries := by
  induction entries with
  | nil => simpa [insertEntry] using h
  | cons head rest ih =>
      simp only [insertEntry] at h
      split at h
      · simpa using h
      · split at h
        · rcases List.mem_cons.1 h with h | h
          · exact Or.inr (by simp [h])
          · rcases ih h with h | h
            · exact Or.inl h
            · exact Or.inr (by simp [h])
        · rcases List.mem_cons.1 h with h | h
          · exact Or.inl h
          · exact Or.inr (by simp [h])

theorem insertEntry_sorted (key : String) (value : α) {entries : List (String × α)}
    (h : entries.Pairwise (fun a b => a.1 < b.1)) :
    (insertEntry key value entries).Pairwise (fun a b => a.1 < b.1) := by
  induction entries with
  | nil => simp [insertEntry]
  | cons head rest ih =>
      rw [List.pairwise_cons] at h
      simp only [insertEntry]
      split
      next hlt =>
        refine List.pairwise_cons.2 ⟨fun b hb => ?_, List.pairwise_cons.2 h⟩
        rcases List.mem_cons.1 hb with rfl | hb
        · exact hlt
        · exact String.lt_trans hlt (h.1 b hb)
      next hge =>
        split
        next hlt =>
          refine List.pairwise_cons.2 ⟨fun b hb => ?_, ih h.2⟩
          rcases mem_insertEntry hb with rfl | hb
          · exact hlt
          · exact h.1 b hb
        next hle =>
          have hkey : head.1 = key :=
            String.le_antisymm (String.not_lt.1 hge) (String.not_lt.1 hle)
          exact List.pairwise_cons.2 ⟨fun b hb => hkey ▸ h.1 b hb, h.2⟩

def empty : SortedMap α := ⟨[], List.Pairwise.nil⟩

instance : Inhabited (SortedMap α) := ⟨empty⟩

instance : EmptyCollection (SortedMap α) := ⟨empty⟩

instance [DecidableEq α] : DecidableEq (SortedMap α) := fun a b =>
  if h : a.entries = b.entries then
    isTrue (by cases a; cases b; simpa using h)
  else
    isFalse (fun hab => h (hab ▸ rfl))

def get? (map : SortedMap α) (key : String) : Option α :=
  (map.entries.find? (fun entry => entry.1 == key)).map (·.2)

def contains (map : SortedMap α) (key : String) : Bool :=
  (map.get? key).isSome

def insert (map : SortedMap α) (key : String) (value : α) : SortedMap α :=
  ⟨insertEntry key value map.entries, insertEntry_sorted key value map.sorted⟩

/-- Replaces the value under `key`, or the absence of one, by its image under `f`. -/
def alter (map : SortedMap α) (key : String) (f : Option α → α) : SortedMap α :=
  map.insert key (f (map.get? key))

/-- The map of a list of entries; of two entries with one key the later counts. -/
def ofList (entries : List (String × α)) : SortedMap α :=
  entries.foldl (fun map entry => map.insert entry.1 entry.2) empty

def keys (map : SortedMap α) : List String := map.entries.map (·.1)

def values (map : SortedMap α) : List α := map.entries.map (·.2)

def size (map : SortedMap α) : Nat := map.entries.length

def find? (map : SortedMap α) (p : String → α → Bool) : Option (String × α) :=
  map.entries.find? (fun entry => p entry.1 entry.2)

def foldl (f : β → String → α → β) (start : β) (map : SortedMap α) : β :=
  map.entries.foldl (fun acc entry => f acc entry.1 entry.2) start

def map (f : α → β) (source : SortedMap α) : SortedMap β :=
  ⟨source.entries.map (fun entry => (entry.1, f entry.2)),
    List.pairwise_map.2 source.sorted⟩

end SortedMap

end CrossDoc
