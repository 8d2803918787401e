/-!
# Maps in key order

A map is the list of its entries in strictly increasing key order, and that order is part of the
type: two maps with the same entries are equal, and what lists a map lists it in one way. Keys are
texts (in code point order) or paths (in lexicographic order); both are linear orders of core.

Insertion walks the list once and replaces the value of a key that is already there.
-/

namespace SharedScene

universe u v w

/-- A finite map, listed in strictly increasing key order. -/
structure SortedMap (κ : Type u) (α : Type v) [LT κ] where
  entries : List (κ × α)
  sorted : (entries.map Prod.fst).Pairwise (· < ·)

namespace SortedMap

section Listing

variable {κ : Type u} {α : Type v} [LT κ]

def empty : SortedMap κ α := ⟨[], List.Pairwise.nil⟩

instance : Inhabited (SortedMap κ α) := ⟨empty⟩

instance [BEq κ] [BEq α] : BEq (SortedMap κ α) := ⟨fun a b => a.entries == b.entries⟩

instance [Repr κ] [Repr α] : Repr (SortedMap κ α) := ⟨fun m n => reprPrec m.entries n⟩

def toList (m : SortedMap κ α) : List (κ × α) := m.entries

def keys (m : SortedMap κ α) : List κ := m.entries.map Prod.fst

/-- The values in the order of their keys. -/
def values (m : SortedMap κ α) : List α := m.entries.map Prod.snd

def size (m : SortedMap κ α) : Nat := m.entries.length

/-- The entries that satisfy `p`. -/
def filter (p : κ → α → Bool) (m : SortedMap κ α) : SortedMap κ α where
  entries := m.entries.filter fun e => p e.1 e.2
  sorted := m.sorted.sublist (List.filter_sublist.map Prod.fst)

/-- Equal entries make equal maps. -/
theorem ext {m n : SortedMap κ α} (h : m.entries = n.entries) : m = n := by
  cases m; cases n; cases h; rfl

end Listing

section Lookup

variable {κ : Type u} {α : Type v} [DecidableEq κ]

/-- The value that stands beside `k` in a list of entries. -/
def find? (k : κ) : List (κ × α) → Option α
  | [] => none
  | (k', a) :: rest => if k' = k then some a else find? k rest

variable [LT κ]

def get? (m : SortedMap κ α) (k : κ) : Option α := find? k m.entries

def contains (m : SortedMap κ α) (k : κ) : Bool := (m.get? k).isSome

def erase (m : SortedMap κ α) (k : κ) : SortedMap κ α :=
  m.filter fun k' _ => decide (k' ≠ k)

end Lookup

section Insertion

variable {κ : Type u} {α : Type v} [LE κ] [LT κ] [Std.IsLinearOrder κ] [Std.LawfulOrderLT κ]
  [DecidableLT κ]

/-- Entries with the value of `k` set to `a`, at the place where the order wants it. -/
def insertEntry (k : κ) (a : α) : List (κ × α) → List (κ × α)
  | [] => [(k, a)]
  | (k', a') :: rest =>
    if k < k' then (k, a) :: (k', a') :: rest
    else if k' < k then (k', a') :: insertEntry k a rest
    else (k, a) :: rest

omit [LE κ] [Std.IsLinearOrder κ] [Std.LawfulOrderLT κ] in
/-- The keys after an insertion are the old ones and the new one. -/
theorem mem_insertEntry {k x : κ} {a : α} {l : List (κ × α)}
    (h : x ∈ (insertEntry k a l).map Prod.fst) : x = k ∨ x ∈ l.map Prod.fst := by
  induction l with
  | nil => simpa [insertEntry] using h
  | cons e rest ih =>
    obtain ⟨k', a'⟩ := e
    unfold insertEntry at h
    split at h
    · simpa using h
    · split at h
      · simp only [List.map_cons, List.mem_cons] at h ⊢
        rcases h with h | h
        · exact .inr (.inl h)
        · exact (ih h).imp_right .inr
      · simp only [List.map_cons, List.mem_cons] at h ⊢
        exact h.imp_right .inr

/-- Insertion keeps the order. -/
theorem insertEntry_sorted {k : κ} {a : α} {l : List (κ × α)}
    (h : (l.map Prod.fst).Pairwise (· < ·)) :
    ((insertEntry k a l).map Prod.fst).Pairwise (· < ·) := by
  induction l with
  | nil => simp [insertEntry]
  | cons e rest ih =>
    obtain ⟨k', a'⟩ := e
    simp only [List.map_cons, List.pairwise_cons] at h
    unfold insertEntry
    split
    · next hk =>
      simp only [List.map_cons, List.pairwise_cons, List.mem_cons]
      refine ⟨?_, h.1, h.2⟩
      rintro x (rfl | hx)
      · exact hk
      · exact Std.lt_trans hk (h.1 x hx)
    · split
      · next hk =>
        simp only [List.map_cons, List.pairwise_cons]
        refine ⟨fun x hx => ?_, ih h.2⟩
        rcases mem_insertEntry hx with rfl | hx
        · exact hk
        · exact h.1 x hx
      · next h₁ h₂ =>
        have heq : k = k' := Std.le_antisymm (Std.not_lt.1 h₂) (Std.not_lt.1 h₁)
        subst heq
        simpa only [List.map_cons, List.pairwise_cons] using h

/-- The map with the value of `k` set to `a`. -/
def insert (m : SortedMap κ α) (k : κ) (a : α) : SortedMap κ α where
  entries := insertEntry k a m.entries
  sorted := insertEntry_sorted m.sorted

/-- The map of a list of entries; of two entries with one key the later one holds. -/
def ofList (l : List (κ × α)) : SortedMap κ α :=
  l.foldl (fun m e => m.insert e.1 e.2) empty

/-- The elements of a list in order, each once. -/
def sortedElements (l : List κ) : List κ := (ofList (l.map fun k => (k, ()))).keys

end Insertion

end SortedMap

end SharedScene
