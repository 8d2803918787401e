import SharedScene.Json.Decode
import SharedScene.Proofs.SortedMap
import SharedScene.Proofs.Success

/-!
# Reading what was written

Between the writer and the reader a value is kept in one of two layouts: as it was written, or as a
document that is taken as a value, which lists the members of every object by name (`Layout`). A
decoder **reads** a value as `a` when it does so from either (`Reads`).

The layout of an object is no concern of a record. As long as no name stands twice among the
members, a record finds each part under its name, in the layout of the whole (`Holds`); so a decoder
of records need only know which members were written and how each of them is read. A tagged record
also wants every part of the value readable, and no layout takes that away.
-/

namespace SharedScene.Json

/-- How a value is kept between the writer and the reader. -/
inductive Layout where
  /-- As it was written. -/
  | written
  /-- With the members of every object by name. -/
  | byName

namespace Layout

/-- The value as the layout keeps it. -/
def keep : Layout → Json → Json
  | .written, v => v
  | .byName, v => v.normalize

/-- The members of an object as the layout keeps them. -/
def members : Layout → List (String × Json) → List (String × Json)
  | .written, ms => ms
  | .byName, ms => sortMembers (normalizeMembers ms)

end Layout

/-- A decoder reads a value as `a`, in whichever layout it is kept. -/
def Reads {α : Type} (d : Decoder α) (v : Json) (a : α) : Prop := ∀ l : Layout, d (l.keep v) = .ok a

/-! ## Layouts -/

theorem normalizeItems_eq (items : List Json) : normalizeItems items = items.map normalize := by
  induction items with
  | nil => rfl
  | cons v rest ih => rw [normalizeItems, ih, List.map_cons]

theorem normalizeMembers_eq (ms : List (String × Json)) :
    normalizeMembers ms = ms.map fun m => (m.1, m.2.normalize) := by
  induction ms with
  | nil => rfl
  | cons m rest ih => rw [normalizeMembers, ih, List.map_cons]

theorem names_normalizeMembers (ms : List (String × Json)) :
    (normalizeMembers ms).map Prod.fst = ms.map Prod.fst := by
  rw [normalizeMembers_eq, List.map_map]
  rfl

namespace Layout

variable (l : Layout)

@[simp] theorem keep_null : l.keep .null = .null := by cases l <;> rfl

@[simp] theorem keep_bool (b : Bool) : l.keep (.bool b) = .bool b := by cases l <;> rfl

@[simp] theorem keep_num (n : Number) : l.keep (.num n) = .num n := by cases l <;> rfl

@[simp] theorem keep_str (s : String) : l.keep (.str s) = .str s := by cases l <;> rfl

theorem keep_arr (items : List Json) : l.keep (.arr items) = .arr (items.map l.keep) := by
  cases l with
  | written => exact congrArg Json.arr (List.map_id items).symm
  | byName => exact congrArg Json.arr (normalizeItems_eq items)

theorem keep_obj (ms : List (String × Json)) : l.keep (.obj ms) = .obj (l.members ms) := by
  cases l <;> rfl

/-- Members that stand by name already keep their places. -/
theorem members_of_sorted {ms : List (String × Json)} (h : (ms.map Prod.fst).Pairwise (· < ·)) :
    l.members ms = ms.map fun m => (m.1, l.keep m.2) := by
  cases l with
  | written => exact (List.map_id ms).symm
  | byName =>
    rw [members, sortMembers, SortedMap.entries_ofList ((names_normalizeMembers ms).symm ▸ h),
      normalizeMembers_eq]
    rfl

variable {l} {ms : List (String × Json)}

theorem nodup_members (h : (ms.map Prod.fst).Nodup) : ((l.members ms).map Prod.fst).Nodup := by
  cases l with
  | written => exact h
  | byName => exact (SortedMap.ofList (normalizeMembers ms)).sorted.imp Std.ne_of_lt

/-- No layout loses a member. -/
theorem find?_members (h : (ms.map Prod.fst).Nodup) (name : String) :
    find? name (l.members ms) = (find? name ms).map l.keep := by
  cases l with
  | written => exact (congrFun Option.map_id (find? name ms)).symm
  | byName =>
    calc
      find? name (sortMembers (normalizeMembers ms)) = find? name (normalizeMembers ms) :=
        SortedMap.get?_ofList ((names_normalizeMembers ms).symm ▸ h)
      _ = (find? name ms).map normalize := by
        rw [normalizeMembers_eq]
        exact SortedMap.find?_map normalize name ms

end Layout

/-! ## Members that may be left out -/

section LeftOut

variable {α : Type} {name other : String} {f : α → Json} {o : Option α}
  {rest : List (String × Json)}

theorem names_member?_sublist : ((member? name f o).map Prod.fst).Sublist [name] := by
  cases o with
  | none => exact List.nil_sublist [name]
  | some a => exact List.Sublist.refl [name]

theorem find?_member? (h : name ∉ rest.map Prod.fst) :
    find? name (member? name f o ++ rest) = o.map f := by
  cases o with
  | none => exact SortedMap.find?_eq_none h
  | some a => exact if_pos rfl

theorem find?_member?_alone : find? name (member? name f o) = o.map f := by
  cases o with
  | none => rfl
  | some a => exact if_pos rfl

theorem find?_member?_of_ne (h : name ≠ other) :
    find? other (member? name f o ++ rest) = find? other rest := by
  cases o with
  | none => rfl
  | some a => exact if_neg h

end LeftOut

/-! ## Readable values -/

theorem areReadable_iff {items : List Json} :
    areReadable items = true ↔ ∀ v ∈ items, v.isReadable = true := by
  induction items with
  | nil => simp [areReadable]
  | cons v rest ih => rw [areReadable, Bool.and_eq_true_iff, ih, List.forall_mem_cons]

theorem membersAreReadable_iff {ms : List (String × Json)} :
    membersAreReadable ms = true ↔ ∀ m ∈ ms, m.2.isReadable = true := by
  induction ms with
  | nil => simp [membersAreReadable]
  | cons m rest ih => rw [membersAreReadable, Bool.and_eq_true_iff, ih, List.forall_mem_cons]

theorem membersAreReadable_append (ms rest : List (String × Json)) :
    membersAreReadable (ms ++ rest) = (membersAreReadable ms && membersAreReadable rest) := by
  induction ms with
  | nil => rfl
  | cons m ms ih =>
    rw [List.cons_append, membersAreReadable, membersAreReadable, ih, Bool.and_assoc]

theorem isReadable_ofFloat (x : Float) : (ofFloat x).isReadable = true := by
  unfold ofFloat
  split <;> rfl

section

variable {α : Type} {f : α → Json}

theorem isReadable_ofOption (h : ∀ a, (f a).isReadable = true) (o : Option α) :
    (ofOption f o).isReadable = true := by
  cases o with
  | none => rfl
  | some a => exact h a

theorem membersAreReadable_member? (name : String) (h : ∀ a, (f a).isReadable = true)
    (o : Option α) : membersAreReadable (member? name f o) = true := by
  cases o with
  | none => rfl
  | some a => exact Bool.and_eq_true_iff.mpr ⟨h a, rfl⟩

theorem isReadable_ofList (h : ∀ a, (f a).isReadable = true) (xs : List α) :
    (ofList f xs).isReadable = true := by
  refine areReadable_iff.mpr fun v hv => ?_
  obtain ⟨a, -, rfl⟩ := List.mem_map.mp hv
  exact h a

theorem isReadable_ofMap (h : ∀ a, (f a).isReadable = true) (m : SortedMap String α) :
    (ofMap f m).isReadable = true := by
  refine membersAreReadable_iff.mpr fun e he => ?_
  obtain ⟨e', -, rfl⟩ := List.mem_map.mp he
  exact h e'.2

end

theorem membersAreReadable_sortMembers {ms : List (String × Json)}
    (h : membersAreReadable ms = true) : membersAreReadable (sortMembers ms) = true := by
  refine membersAreReadable_iff.mpr fun m hm => ?_
  exact membersAreReadable_iff.mp h m (SortedMap.mem_of_mem_ofList hm)

mutual

theorem isReadable_normalize : ∀ v : Json, v.isReadable = true → v.normalize.isReadable = true
  | .arr items, h => areReadable_normalize items h
  | .obj ms, h => membersAreReadable_sortMembers (membersAreReadable_normalize ms h)
  | .null, _ => rfl
  | .bool _, _ => rfl
  | .num _, _ => rfl
  | .str _, _ => rfl

theorem areReadable_normalize :
    ∀ items, areReadable items = true → areReadable (normalizeItems items) = true
  | [], _ => rfl
  | v :: rest, h => by
    obtain ⟨hv, hrest⟩ := Bool.and_eq_true_iff.mp h
    exact Bool.and_eq_true_iff.mpr ⟨isReadable_normalize v hv, areReadable_normalize rest hrest⟩

theorem membersAreReadable_normalize :
    ∀ ms, membersAreReadable ms = true → membersAreReadable (normalizeMembers ms) = true
  | [], _ => rfl
  | (_, v) :: rest, h => by
    obtain ⟨hv, hrest⟩ := Bool.and_eq_true_iff.mp h
    exact Bool.and_eq_true_iff.mpr
      ⟨isReadable_normalize v hv, membersAreReadable_normalize rest hrest⟩

end

/-- No layout makes a part unreadable. -/
theorem Layout.isReadable_keep (l : Layout) {v : Json} (h : v.isReadable = true) :
    (l.keep v).isReadable = true := by
  cases l with
  | written => exact h
  | byName => exact isReadable_normalize v h

/-! ## Parts without names -/

section Parts

variable {α : Type} {d : Decoder α} {f : α → Json}

theorem reads_text (s : String) : Reads Decode.text (.str s) s := fun l => by
  rw [Layout.keep_str]
  rfl

theorem Decode.text_null (s : String) : text .null ≠ .ok s := nofun

/-- A number that JSON can spell is the same when it is read back. -/
theorem reads_float {x : Float} (h : x.isFinite = true) : Reads Decode.float (.ofFloat x) x :=
  fun l => by
    rw [ofFloat, if_pos h, Layout.keep_num]
    rfl

theorem reads_natBelow {bound n : Nat} (h : n < bound) :
    Reads (Decode.natBelow bound) (.ofNat n) n := fun l => by
  rw [ofNat, Layout.keep_num]
  exact if_pos ⟨Int.natCast_nonneg n, Int.ofNat_lt.mpr h⟩

/-- What a decoder that refuses null makes of a value stands for no absent part. -/
theorem reads_nullable {v : Json} {a : α} (hnull : ∀ b, d .null ≠ .ok b) (h : Reads d v a) :
    Reads (Decode.nullable d) v (some a) := fun l => by
  have hv := h l
  unfold Decode.nullable
  split
  · next heq => exact absurd (heq ▸ hv) (hnull a)
  · rw [hv]
    rfl

theorem reads_ofOption {o : Option α} (hnull : ∀ b, d .null ≠ .ok b)
    (h : ∀ a ∈ o, Reads d (f a) a) : Reads (Decode.nullable d) (.ofOption f o) o := by
  cases o with
  | none => exact fun l => by rw [ofOption, Layout.keep_null]; rfl
  | some a => exact reads_nullable hnull (h a rfl)

theorem mapM_keep {xs : List α} (l : Layout) (h : ∀ a ∈ xs, Reads d (f a) a) :
    ((xs.map f).map l.keep).mapM d = .ok xs := by
  induction xs with
  | nil => rfl
  | cons a rest ih =>
    obtain ⟨ha, hrest⟩ := List.forall_mem_cons.mp h
    rw [List.map_cons, List.map_cons, List.mapM_cons, ha l, ih hrest]
    rfl

theorem reads_ofList {xs : List α} (h : ∀ a ∈ xs, Reads d (f a) a) :
    Reads (Decode.list d) (.ofList f xs) xs := fun l => by
  rw [ofList, Layout.keep_arr]
  exact mapM_keep l h

theorem entries_keep {es : List (String × α)} (l : Layout) (h : ∀ e ∈ es, Reads d (f e.2) e.2) :
    Decode.entries d ((es.map fun e => (e.1, f e.2)).map fun m => (m.1, l.keep m.2)) = .ok es := by
  induction es with
  | nil => rfl
  | cons e rest ih =>
    obtain ⟨he, hrest⟩ := List.forall_mem_cons.mp h
    rw [List.map_cons, List.map_cons, Decode.entries, he l, ih hrest]
    rfl

/-- A map stands by name already, so its entries are read in their places. -/
theorem reads_ofMap {m : SortedMap String α} (h : ∀ a ∈ m.values, Reads d (f a) a) :
    Reads (Decode.map d) (.ofMap f m) m := fun l => by
  have hsorted : ((m.entries.map fun e => (e.1, f e.2)).map Prod.fst).Pairwise (· < ·) := by
    rw [List.map_map]
    exact m.sorted
  have hentries := entries_keep l fun e (he : e ∈ m.entries) => h e.2 (List.mem_map_of_mem he)
  rw [ofMap, Layout.keep_obj, Layout.members_of_sorted l hsorted, Decode.map, hentries]
  exact congrArg Except.ok (SortedMap.ext (SortedMap.entries_ofList m.sorted))

end Parts

/-! ## Records -/

/-- A record with the members of an object for its parts, each as the layout keeps it. -/
structure Record.Holds (r : Record) (l : Layout) (ms : List (String × Json)) : Prop where
  named : ∃ members, r = .named members
  part : ∀ position name, r.part? position name = .ok ((find? name ms).map l.keep)

theorem Record.part?_named {ms : List (String × Json)} (h : (ms.map Prod.fst).Nodup)
    (position : Nat) (name : String) :
    (Record.named ms).part? position name = .ok (find? name ms) := by
  rw [part?, SortedMap.filter_key_eq h]
  unfold find?
  cases SortedMap.find? name ms <;> rfl

namespace Record.Holds

variable {α : Type} {r : Record} {l : Layout} {ms : List (String × Json)} {d : Decoder α}
  {position : Nat} {name : String} {v : Json} {a : α}

theorem bounded (h : r.Holds l ms) (parts : Nat) : r.bounded parts = .ok r := by
  obtain ⟨members, rfl⟩ := h.named
  rfl

theorem required (h : r.Holds l ms) (hv : find? name ms = some v) (hd : Reads d v a) :
    r.required position name d = .ok a := by
  rw [Record.required, h.part, hv]
  exact hd l

theorem withDefault (h : r.Holds l ms) {value : α} (hv : find? name ms = some v)
    (hd : Reads d v a) : r.withDefault position name value d = .ok a := by
  rw [Record.withDefault, h.part, hv]
  exact hd l

theorem optional (h : r.Holds l ms) {o : Option α} (hv : find? name ms = some v)
    (hd : Reads (Decode.nullable d) v o) : r.optional position name d = .ok o :=
  h.withDefault hv hd

/-- A part that may be left out: it is absent, or it is read. -/
theorem leftOut (h : r.Holds l ms) {f : α → Json} {o : Option α} (hv : find? name ms = o.map f)
    (hnull : ∀ b, d .null ≠ .ok b) (hd : ∀ a ∈ o, Reads d (f a) a) :
    r.optional position name d = .ok o := by
  cases o with
  | none =>
    rw [Record.optional, Record.withDefault, h.part, hv]
    rfl
  | some a => exact h.optional hv (reads_nullable hnull (hd a rfl))

theorem nullable (h : r.Holds l ms) {o : Option α} (hv : find? name ms = some v)
    (hd : Reads (Decode.nullable d) v o) : r.nullable position name d = .ok o := by
  have hoptional : r.optional position name d = .ok o := h.optional hv hd
  obtain ⟨members, rfl⟩ := h.named
  exact hoptional

/-- An object is a record of its members. -/
theorem of_members (h : (ms.map Prod.fst).Nodup) : (Record.named (l.members ms)).Holds l ms where
  named := ⟨_, rfl⟩
  part position name := by
    rw [part?_named (Layout.nodup_members h), Layout.find?_members h]

/-- Without the member that names its case it is a record of the others. -/
theorem of_untagged {tag : String} (h : (tag :: ms.map Prod.fst).Nodup) :
    (Record.named ((l.members ((tag, v) :: ms)).filter fun m => m.1 != tag)).Holds l ms where
  named := ⟨_, rfl⟩
  part position name := by
    have hwhole : (((tag, v) :: ms).map Prod.fst).Nodup := h
    have hleft : (((l.members ((tag, v) :: ms)).filter fun m => m.1 != tag).map Prod.fst).Nodup :=
      (Layout.nodup_members hwhole).sublist (List.filter_sublist.map Prod.fst)
    have hfilter :=
      SortedMap.find?_filter (p := (· != tag)) (k := name) (l.members ((tag, v) :: ms))
    rw [part?_named hleft, find?, hfilter, ← find?, Layout.find?_members hwhole, find?,
      SortedMap.find?_cons]
    by_cases hname : tag = name
    · obtain rfl := hname
      rw [if_neg (by simp), SortedMap.find?_eq_none (List.nodup_cons.mp h).1]
      rfl
    · rw [if_pos (bne_iff_ne.mpr (Ne.symm hname)), if_neg hname]

end Record.Holds

section Decoders

variable {α : Type} {l : Layout} {ms : List (String × Json)} {a : α}

/-- Whoever takes an object for a record goes on with a record of its members. -/
theorem Record.ofObject_bind {f : Record → Except DecodeError α} (nodup : (ms.map Prod.fst).Nodup)
    (h : ∀ r : Record, r.Holds l ms → f r = .ok a) :
    (Record.ofObject (l.keep (.obj ms)) >>= f) = .ok a := by
  rw [Layout.keep_obj]
  exact h _ (.of_members nodup)

theorem Record.ofJson_bind {parts : Nat} {f : Record → Except DecodeError α}
    (nodup : (ms.map Prod.fst).Nodup) (h : ∀ r : Record, r.Holds l ms → f r = .ok a) :
    (Record.ofJson parts (l.keep (.obj ms)) >>= f) = .ok a := by
  rw [Layout.keep_obj]
  exact h _ (.of_members nodup)

/-- Whoever takes an object for a tagged record goes on with the name of its case and a record of
the other members. -/
theorem Tagged.ofJson_bind {tag name : String} {f : Tagged → Except DecodeError α}
    (nodup : (tag :: ms.map Prod.fst).Nodup) (readable : membersAreReadable ms = true)
    (h : ∀ r : Record, r.Holds l ms → f ⟨name, r⟩ = .ok a) :
    (Tagged.ofJson tag (l.keep (.obj ((tag, .str name) :: ms))) >>= f) = .ok a := by
  have hraw : (l.keep (.obj ((tag, .str name) :: ms))).isReadable = true :=
    l.isReadable_keep (Bool.and_eq_true_iff.mpr ⟨rfl, readable⟩)
  have hwhole : (((tag, Json.str name) :: ms).map Prod.fst).Nodup := nodup
  have hname : (Record.named (l.members ((tag, .str name) :: ms))).required 0 tag Decode.text =
      .ok name :=
    (Record.Holds.of_members hwhole).required (if_pos rfl) (reads_text name)
  refine Success.bind_ok ?_ (h _ (.of_untagged (v := .str name) nodup))
  rw [Layout.keep_obj] at hraw ⊢
  exact Success.bind_ok (if_pos hraw) (Success.bind_ok hname rfl)

end Decoders

end SharedScene.Json
