/-!
# Ordered maps

A map kept as a list of entries in ascending key order. The order is part of the type, so two maps
with the same entries are equal.
-/

namespace Fanout

/-- An order on keys: which of two keys comes first. -/
structure KeyOrder (κ : Type) where
  /-- Whether the first key comes before the second. -/
  before : κ → κ → Bool
  before_trans : ∀ a b c, before a b = true → before b c = true → before a c = true

namespace KeyOrder

/-- Texts, by their characters' code points. -/
def text : KeyOrder String where
  before a b := decide (a < b)
  before_trans a b c hab hbc := by
    simp only [decide_eq_true_eq] at *
    exact String.lt_trans hab hbc

/-- Pairs of numbers, by the first one and then by the second. -/
def numberPair : KeyOrder (Int64 × Int64) where
  before a b := decide (a.1 < b.1 ∨ (a.1 = b.1 ∧ a.2 < b.2))
  before_trans a b c hab hbc := by
    simp only [decide_eq_true_eq, Int64.lt_iff_toInt_lt, ← Int64.toInt_inj] at *
    omega

end KeyOrder

/-- A map whose entries ascend by key. -/
structure OrderedMap {κ : Type} (order : KeyOrder κ) (ν : Type) where
  /-- The entries, each key before the next one. -/
  entries : List (κ × ν)
  /-- No entry is out of place. -/
  ascending : entries.Pairwise fun a b => order.before a.1 b.1 = true

namespace OrderedMap

variable {κ ν : Type} {order : KeyOrder κ}

def empty : OrderedMap order ν := ⟨[], List.Pairwise.nil⟩

/-- The entries with one added, or replaced when its key is there already. -/
def insertEntry (order : KeyOrder κ) (key : κ) (value : ν) : List (κ × ν) → List (κ × ν)
  | [] => [(key, value)]
  | entry :: rest =>
    if order.before key entry.1 then (key, value) :: entry :: rest
    else if order.before entry.1 key then entry :: insertEntry order key value rest
    else (entry.1, value) :: rest

/-- Every entry after an insertion has the new key or one that was there. -/
theorem mem_insertEntry {key : κ} {value : ν} {entries : List (κ × ν)} {e : κ × ν}
    (h : e ∈ insertEntry order key value entries) : e.1 = key ∨ ∃ e' ∈ entries, e'.1 = e.1 := by
  induction entries with
  | nil => simp_all [insertEntry]
  | cons entry rest ih =>
    simp only [insertEntry] at h
    split at h
    · rcases List.mem_cons.1 h with rfl | h
      · exact .inl rfl
      · exact .inr ⟨e, h, rfl⟩
    · split at h
      · rcases List.mem_cons.1 h with rfl | h
        · exact .inr ⟨e, by simp, rfl⟩
        · rcases ih h with h | ⟨e', he', hk⟩
          · exact .inl h
          · exact .inr ⟨e', by simp [he'], hk⟩
      · rcases List.mem_cons.1 h with rfl | h
        · exact .inr ⟨entry, by simp, rfl⟩
        · exact .inr ⟨e, by simp [h], rfl⟩

/-- Inserting keeps the entries ascending. -/
theorem pairwise_insertEntry (key : κ) (value : ν) {entries : List (κ × ν)}
    (h : entries.Pairwise fun a b => order.before a.1 b.1 = true) :
    (insertEntry order key value entries).Pairwise fun a b => order.before a.1 b.1 = true := by
  induction entries with
  | nil => simp [insertEntry]
  | cons entry rest ih =>
    rw [List.pairwise_cons] at h
    simp only [insertEntry]
    split
    · rename_i first
      refine List.pairwise_cons.2 ⟨?_, List.pairwise_cons.2 h⟩
      intro e he
      rcases List.mem_cons.1 he with rfl | he
      · exact first
      · exact order.before_trans _ _ _ first (h.1 e he)
    · split
      · rename_i later
        refine List.pairwise_cons.2 ⟨?_, ih h.2⟩
        intro e he
        rcases mem_insertEntry he with hk | ⟨e', he', hk⟩
        · simpa [hk] using later
        · simpa [hk] using h.1 e' he'
      · exact List.pairwise_cons.2 ⟨h.1, h.2⟩

/-- Give a key a value, in place of the one it may have. -/
def insert (map : OrderedMap order ν) (key : κ) (value : ν) : OrderedMap order ν :=
  ⟨insertEntry order key value map.entries, pairwise_insertEntry key value map.ascending⟩

/-- The map with the given entries; of several for one key the last is kept. -/
def ofList (entries : List (κ × ν)) : OrderedMap order ν :=
  entries.foldl (fun map entry => map.insert entry.1 entry.2) empty

end OrderedMap

end Fanout
