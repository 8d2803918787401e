import SharedScene.SortedMap

/-!
# What a map answers

The laws of looking up: what stands under a key after an insertion, an erasure, a filter, or in the
map of a list. They speak of answers only and never of the order of the entries, so whoever reads a
map by its keys needs nothing else about it. Nor does a map hold anything else: two maps with the
same answers are the same (`ext_get?`).
-/

namespace SharedScene.SortedMap

universe u v w

/-! ## Entries -/

section Entries

variable {κ : Type u} {α : Type v} [DecidableEq κ]

/-- What stands under the key of the first entry, and under every other key. -/
theorem find?_cons (k k' : κ) (a : α) (rest : List (κ × α)) :
    find? k' ((k, a) :: rest) = if k = k' then some a else find? k' rest := rfl

theorem isSome_find?_iff {k : κ} {l : List (κ × α)} :
    (find? k l).isSome ↔ k ∈ l.map Prod.fst := by
  induction l with
  | nil => simp [find?]
  | cons e rest ih =>
    obtain ⟨k', a⟩ := e
    by_cases h : k' = k
    · simp [find?, h]
    · simp [find?, h, ih, Ne.symm h]

theorem find?_eq_none {k : κ} {l : List (κ × α)} (h : k ∉ l.map Prod.fst) : find? k l = none := by
  rw [← Option.not_isSome_iff_eq_none, isSome_find?_iff]
  exact h

theorem mem_of_find? {k : κ} {a : α} {l : List (κ × α)} (h : find? k l = some a) : (k, a) ∈ l := by
  induction l with
  | nil => cases h
  | cons e rest ih =>
    obtain ⟨k', a'⟩ := e
    by_cases hk : k' = k
    · subst hk
      simp only [find?, if_pos] at h
      cases h
      exact List.mem_cons_self
    · simp only [find?, if_neg hk] at h
      exact List.mem_cons_of_mem _ (ih h)

/-- A filter that asks only for the key keeps or drops all that stands under it. -/
theorem find?_filter {p : κ → Bool} {k : κ} (l : List (κ × α)) :
    find? k (l.filter fun e => p e.1) = if p k then find? k l else none := by
  induction l with
  | nil => simp [find?]
  | cons e rest ih =>
    obtain ⟨k', a⟩ := e
    by_cases hk : k' = k
    · subst hk
      by_cases hp : p k' = true
      · simp [hp, find?]
      · simp [hp, ih]
    · by_cases hp : p k' = true
      · simp [hp, find?, hk, ih]
      · simp [hp, find?, hk, ih]

/-- Entries whose values are changed one by one have the changed value under each key. -/
theorem find?_map {β : Type w} (f : α → β) (k : κ) (l : List (κ × α)) :
    find? k (l.map fun e => (e.1, f e.2)) = (find? k l).map f := by
  induction l with
  | nil => rfl
  | cons e rest ih =>
    rw [List.map_cons, find?_cons, find?_cons, ih]
    split <;> rfl

/-- The entries of a key that stands there once. -/
theorem filter_key_eq {k : κ} {l : List (κ × α)} (h : (l.map Prod.fst).Nodup) :
    l.filter (fun e => e.1 == k) = ((find? k l).map (Prod.mk k)).toList := by
  induction l with
  | nil => rfl
  | cons e rest ih =>
    obtain ⟨k', a⟩ := e
    obtain ⟨hfirst, hrest⟩ := List.nodup_cons.mp h
    rw [List.filter_cons, find?_cons, ih hrest]
    by_cases hk : k' = k
    · obtain rfl := hk
      rw [if_pos (beq_self_eq_true k'), if_pos rfl, find?_eq_none hfirst]
      rfl
    · rw [if_neg (by simpa using hk), if_neg hk]

theorem find?_of_mem {k : κ} {a : α} {l : List (κ × α)} (h : (l.map Prod.fst).Nodup)
    (hmem : (k, a) ∈ l) : find? k l = some a := by
  have hfilter : (k, a) ∈ l.filter fun e => e.1 == k :=
    List.mem_filter.mpr ⟨hmem, beq_self_eq_true k⟩
  rw [filter_key_eq h, Option.mem_toList, Option.map_eq_some_iff] at hfilter
  obtain ⟨b, hb, heq⟩ := hfilter
  cases heq
  exact hb

/-- A filter that asks only for the value keeps or drops what stands under a key, when no key stands
there twice. -/
theorem find?_filter_value {p : α → Bool} {k : κ} {l : List (κ × α)} (h : (l.map Prod.fst).Nodup) :
    find? k (l.filter fun e => p e.2) = (find? k l).filter p := by
  induction l with
  | nil => rfl
  | cons e rest ih =>
    obtain ⟨k', a⟩ := e
    obtain ⟨hfirst, hrest⟩ := List.nodup_cons.mp h
    rw [List.filter_cons, find?_cons]
    by_cases hk : k' = k
    · obtain rfl := hk
      rw [if_pos rfl, Option.filter_some]
      split
      · rw [find?_cons, if_pos rfl]
      · -- The key of a dropped entry stands in no later one.
        rw [ih hrest, find?_eq_none hfirst, Option.filter_none]
    · rw [if_neg hk]
      split
      · rw [find?_cons, if_neg hk, ih hrest]
      · exact ih hrest

omit [DecidableEq κ] in
/-- The keys of entries that are made for keys are among those, in the same order. -/
theorem keys_filterMap_sublist (f : κ → Option α) (ks : List κ) :
    ((ks.filterMap fun k => (f k).map (Prod.mk k)).map Prod.fst).Sublist ks := by
  induction ks with
  | nil => exact List.Sublist.slnil
  | cons k ks ih =>
    rw [List.filterMap_cons]
    cases f k with
    | none => exact ih.cons k
    | some a => exact ih.cons_cons k

/-- Entries that are made for keys which stand there once. -/
theorem find?_filterMap {f : κ → Option α} {k : κ} {ks : List κ} (h : ks.Nodup) :
    find? k (ks.filterMap fun k => (f k).map (Prod.mk k)) = if k ∈ ks then f k else none := by
  induction ks with
  | nil => rfl
  | cons k' ks ih =>
    obtain ⟨hfirst, hrest⟩ := List.nodup_cons.mp h
    by_cases hk : k = k'
    · obtain rfl := hk
      rw [if_pos List.mem_cons_self, List.filterMap_cons]
      cases hf : f k with
      | none => exact (ih hrest).trans (if_neg hfirst)
      | some a => exact if_pos rfl
    · simp only [List.mem_cons, hk, false_or]
      rw [← ih hrest, List.filterMap_cons]
      cases f k' with
      | none => rfl
      | some a => exact if_neg (Ne.symm hk)

/-- Equal lists of entries have equal values under each key. -/
theorem find?_beq [BEq α] {l m : List (κ × α)} (h : (l == m) = true) (k : κ) :
    (find? k l == find? k m) = true := by
  induction l generalizing m with
  | nil => cases m with
    | nil => rfl
    | cons e m => cases h
  | cons e l ih => cases m with
    | nil => cases h
    | cons f m =>
      rw [List.cons_beq_cons, Bool.and_eq_true_iff] at h
      obtain ⟨hkey, hvalue⟩ := Bool.and_eq_true_iff.mp h.1
      rw [find?_cons, find?_cons, eq_of_beq hkey]
      split
      · exact hvalue
      · exact ih h.2

end Entries

/-! ## Maps -/

section Lookup

variable {κ : Type u} {α : Type v} [DecidableEq κ] [LT κ]

theorem isSome_get?_iff {m : SortedMap κ α} {k : κ} : (m.get? k).isSome ↔ k ∈ m.keys :=
  isSome_find?_iff

/-- What is left under a key when a filter asks only for the key. -/
theorem get?_filter {p : κ → Bool} (m : SortedMap κ α) (k : κ) :
    (m.filter fun k' _ => p k').get? k = if p k then m.get? k else none :=
  find?_filter m.entries

/-- An erased key has no value, every other key keeps its own. -/
theorem get?_erase (m : SortedMap κ α) (k k' : κ) :
    (m.erase k).get? k' = if k' = k then none else m.get? k' := by
  rw [erase, get?_filter]
  by_cases h : k' = k <;> simp [h]

/-- The keys that a filter leaves were there before and pass it. -/
theorem mem_keys_filter {p : κ → Bool} {m : SortedMap κ α} {k : κ} :
    k ∈ (m.filter fun k' _ => p k').keys ↔ k ∈ m.keys ∧ p k = true := by
  rw [← isSome_get?_iff, ← isSome_get?_iff, get?_filter]
  by_cases h : p k = true <;> simp [h]

end Lookup

section Order

variable {κ : Type u} {α : Type v} [LE κ] [LT κ] [Std.IsLinearOrder κ] [Std.LawfulOrderLT κ]
  [DecidableEq κ]

/-- In a list in key order no key stands before the first one. -/
theorem le_of_find? {k k' : κ} {a a' : α} {rest : List (κ × α)}
    (h : (((k, a) :: rest).map Prod.fst).Pairwise (· < ·))
    (hfind : find? k' ((k, a) :: rest) = some a') : k ≤ k' := by
  rw [find?_cons] at hfind
  split at hfind
  · next heq => exact heq ▸ Std.le_refl k
  · have hmem : k' ∈ rest.map Prod.fst := isSome_find?_iff.mp (hfind ▸ rfl)
    exact Std.le_of_lt (List.rel_of_pairwise_cons h hmem)

/-- Lists in key order that answer to every key in the same way are the same. -/
theorem entries_ext {l l' : List (κ × α)} (h : (l.map Prod.fst).Pairwise (· < ·))
    (h' : (l'.map Prod.fst).Pairwise (· < ·)) (hfind : ∀ k, find? k l = find? k l') : l = l' := by
  induction l generalizing l' with
  | nil =>
    cases l' with
    | nil => rfl
    | cons e' rest' =>
      have hhead := hfind e'.1
      rw [find?_cons, if_pos rfl] at hhead
      cases hhead
  | cons e rest ih =>
    obtain ⟨k, a⟩ := e
    cases l' with
    | nil =>
      have hhead := hfind k
      rw [find?_cons, if_pos rfl] at hhead
      cases hhead
    | cons e' rest' =>
      obtain ⟨k', a'⟩ := e'
      have hk : find? k ((k', a') :: rest') = some a := by
        rw [← hfind, find?_cons, if_pos rfl]
      have hk' : find? k' ((k, a) :: rest) = some a' := by
        rw [hfind, find?_cons, if_pos rfl]
      obtain rfl : k = k' := Std.le_antisymm (le_of_find? h hk') (le_of_find? h' hk)
      rw [find?_cons, if_pos rfl] at hk
      obtain rfl := Option.some.inj hk
      obtain ⟨hfirst, hrest⟩ := List.pairwise_cons.mp h
      obtain ⟨hfirst', hrest'⟩ := List.pairwise_cons.mp h'
      rw [ih hrest hrest' fun x => ?_]
      -- The first key stands in neither rest, and every other key is looked up there.
      have hx := hfind x
      rw [find?_cons, find?_cons] at hx
      by_cases heq : k = x
      · obtain rfl := heq
        rw [find?_eq_none fun hmem => Std.lt_irrefl (hfirst k hmem),
          find?_eq_none fun hmem => Std.lt_irrefl (hfirst' k hmem)]
      · rwa [if_neg heq, if_neg heq] at hx

omit [Std.IsLinearOrder κ] in
/-- What is left under a key when a filter asks only for the value. -/
theorem get?_filter_value {p : α → Bool} (m : SortedMap κ α) (k : κ) :
    (m.filter fun _ a => p a).get? k = (m.get? k).filter p :=
  find?_filter_value (m.sorted.imp Std.ne_of_lt)

omit [Std.IsLinearOrder κ] [DecidableEq κ] in
theorem nodup_keys (m : SortedMap κ α) : m.keys.Nodup := m.sorted.imp Std.ne_of_lt

omit [Std.IsLinearOrder κ] in
/-- The keys of a map are those that it answers to. -/
theorem keys_perm {m : SortedMap κ α} {ks : List κ} (nodup : ks.Nodup)
    (h : ∀ k, (m.get? k).isSome ↔ k ∈ ks) : m.keys.Perm ks := by
  refine (List.perm_ext_iff_of_nodup m.nodup_keys nodup).mpr fun k => ?_
  rw [← isSome_get?_iff, h]

/-- Maps that answer to every key in the same way are the same. -/
theorem ext_get? {m n : SortedMap κ α} (h : ∀ k, m.get? k = n.get? k) : m = n :=
  ext (entries_ext m.sorted n.sorted h)

/-- The values of a map can be looked up one by one, along any list in order that has its keys. -/
theorem values_eq_filterMap {m : SortedMap κ α} {ks : List κ} (hsorted : ks.Pairwise (· < ·))
    (hkeys : ∀ k, (m.get? k).isSome → k ∈ ks) : m.values = ks.filterMap m.get? := by
  have hentries : m.entries = ks.filterMap fun k => (m.get? k).map (Prod.mk k) := by
    refine entries_ext m.sorted (hsorted.sublist (keys_filterMap_sublist _ ks)) fun k => ?_
    rw [find?_filterMap (hsorted.imp Std.ne_of_lt)]
    split
    · rfl
    · next hk => exact Option.not_isSome_iff_eq_none.mp fun hsome => hk (hkeys k hsome)
  rw [values, hentries, List.map_filterMap]
  refine congrArg (List.filterMap · ks) (funext fun k => ?_)
  rw [Option.map_map]
  exact Option.map_id_fun' ▸ rfl

end Order

section Insertion

variable {κ : Type u} {α : Type v} [LE κ] [LT κ] [Std.IsLinearOrder κ] [Std.LawfulOrderLT κ]
  [DecidableLT κ] [DecidableEq κ]

/-- Entries after an insertion: the new value under its key, and the old ones under all others. -/
theorem find?_insertEntry (k k' : κ) (a : α) (l : List (κ × α)) :
    find? k' (insertEntry k a l) = if k' = k then some a else find? k' l := by
  induction l with
  | nil => simp [insertEntry, find?, eq_comm]
  | cons e rest ih =>
    obtain ⟨x, b⟩ := e
    unfold insertEntry
    split
    · by_cases h : k' = k
      · subst h; simp [find?]
      · simp [find?, h, Ne.symm h]
    · split
      · next hxk =>
        by_cases hx : x = k'
        · subst hx
          have hne : x ≠ k := fun heq => Std.lt_irrefl (heq ▸ hxk)
          simp [find?, hne]
        · simp [find?, hx, ih]
      · next h₁ h₂ =>
        have hkx : k = x := Std.le_antisymm (Std.not_lt.1 h₂) (Std.not_lt.1 h₁)
        subst hkx
        by_cases h : k' = k
        · subst h; simp [find?]
        · simp [find?, h, Ne.symm h]

/-- An inserted key has the new value, every other key keeps its own. -/
theorem get?_insert (m : SortedMap κ α) (k k' : κ) (a : α) :
    (m.insert k a).get? k' = if k' = k then some a else m.get? k' :=
  find?_insertEntry k k' a m.entries

theorem mem_keys_insert {m : SortedMap κ α} {k k' : κ} {a : α} :
    k' ∈ (m.insert k a).keys ↔ k' = k ∨ k' ∈ m.keys := by
  rw [← isSome_get?_iff, ← isSome_get?_iff, get?_insert]
  by_cases h : k' = k <;> simp [h]

/-- The keys of a map that grew from another one by the entries of a list. -/
theorem mem_keys_foldl_insert {k : κ} {l : List (κ × α)} (m : SortedMap κ α) :
    k ∈ (l.foldl (fun m e => m.insert e.1 e.2) m).keys ↔ k ∈ m.keys ∨ k ∈ l.map Prod.fst := by
  induction l generalizing m with
  | nil => simp
  | cons e rest ih =>
    rw [List.foldl_cons, ih, mem_keys_insert, List.map_cons, List.mem_cons]
    exact ⟨fun h => by rcases h with (h | h) | h <;> simp [h],
      fun h => by rcases h with h | h | h <;> simp [h]⟩

theorem mem_keys_ofList {k : κ} {l : List (κ × α)} :
    k ∈ (ofList l).keys ↔ k ∈ l.map Prod.fst := by
  rw [ofList, mem_keys_foldl_insert]
  simp [empty, keys]

theorem mem_of_get?_foldl_insert {k : κ} {a : α} {l : List (κ × α)} {m : SortedMap κ α}
    (h : (l.foldl (fun m e => m.insert e.1 e.2) m).get? k = some a) :
    m.get? k = some a ∨ (k, a) ∈ l := by
  induction l generalizing m with
  | nil => exact .inl h
  | cons e rest ih =>
    rcases ih h with h | h
    · rw [get?_insert] at h
      split at h
      · next hk =>
        obtain rfl := Option.some.inj h
        exact .inr (hk ▸ List.mem_cons_self)
      · exact .inl h
    · exact .inr (List.mem_cons_of_mem _ h)

/-- A key that stands beside one value alone leads to that value. -/
theorem get?_ofList_eq_some_iff {k : κ} {a : α} {l : List (κ × α)}
    (unique : ∀ b c, (k, b) ∈ l → (k, c) ∈ l → b = c) :
    (ofList l).get? k = some a ↔ (k, a) ∈ l := by
  have hmem : ∀ b, (ofList l).get? k = some b → (k, b) ∈ l := by
    intro b hb
    rcases mem_of_get?_foldl_insert hb with h | h
    · cases h
    · exact h
  refine ⟨hmem a, fun ha => ?_⟩
  have hkey : k ∈ (ofList l).keys := mem_keys_ofList.mpr (List.mem_map_of_mem ha)
  obtain ⟨b, hb⟩ := Option.isSome_iff_exists.mp (isSome_get?_iff.mpr hkey)
  rw [hb, unique b a (hmem b hb) ha]

/-- A map that is made for keys has under each of them what is made for it. -/
theorem get?_ofList_map (f : κ → α) {ks : List κ} {k : κ} (h : k ∈ ks) :
    (ofList (ks.map fun k => (k, f k))).get? k = some (f k) := by
  rw [get?_ofList_eq_some_iff]
  · exact List.mem_map.mpr ⟨k, h, rfl⟩
  · intro a b ha hb
    obtain ⟨_, _, heqa⟩ := List.mem_map.mp ha
    obtain ⟨_, _, heqb⟩ := List.mem_map.mp hb
    cases heqa
    cases heqb
    rfl

/-- The map of a list has no entries but those of the list. -/
theorem mem_of_mem_ofList {e : κ × α} {l : List (κ × α)} (h : e ∈ (ofList l).entries) : e ∈ l := by
  have hget : (ofList l).get? e.1 = some e.2 :=
    find?_of_mem ((ofList l).sorted.imp Std.ne_of_lt) h
  rcases mem_of_get?_foldl_insert hget with hempty | hmem
  · cases hempty
  · exact hmem

/-- A list in which no key stands twice is looked up as its map is. -/
theorem get?_ofList {k : κ} {l : List (κ × α)} (h : (l.map Prod.fst).Nodup) :
    (ofList l).get? k = find? k l := by
  suffices hgrow : ∀ m : SortedMap κ α,
      (l.foldl (fun m e => m.insert e.1 e.2) m).get? k = (find? k l).or (m.get? k) from
    (hgrow empty).trans Option.or_none
  induction l with
  | nil => exact fun m => rfl
  | cons e rest ih =>
    intro m
    obtain ⟨hfirst, hrest⟩ := List.nodup_cons.mp h
    rw [List.foldl_cons, ih hrest, get?_insert, find?_cons]
    by_cases hk : e.1 = k
    · rw [if_pos hk, if_pos hk.symm, find?_eq_none (hk ▸ hfirst)]
      rfl
    · rw [if_neg hk, if_neg (Ne.symm hk)]

/-- A list in key order is the list of its map. -/
theorem entries_ofList {l : List (κ × α)} (h : (l.map Prod.fst).Pairwise (· < ·)) :
    (ofList l).entries = l :=
  entries_ext (ofList l).sorted h fun _ => get?_ofList (h.imp Std.ne_of_lt)

theorem mem_sortedElements {k : κ} {l : List κ} : k ∈ sortedElements l ↔ k ∈ l := by
  rw [sortedElements, mem_keys_ofList, List.map_map]
  exact iff_of_eq (congrArg (k ∈ ·) (List.map_id l))

omit [DecidableEq κ] in
theorem sorted_sortedElements (l : List κ) : (sortedElements l).Pairwise (· < ·) :=
  (ofList (l.map fun k => (k, ()))).sorted

end Insertion

end SharedScene.SortedMap
