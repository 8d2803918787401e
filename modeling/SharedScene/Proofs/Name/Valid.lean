import SharedScene.Proofs.Name.Free

/-!
# What a collision does to a name

A name is checked when it is asked for, and gets its number afterwards. The number brings an
underscore and digits behind characters that were there before, so it breaks one rule at most, that
of the length (`isValid_resolve_iff`). A name that it breaks is **outgrown**.
-/

namespace SharedScene.Name

variable {name desired : String} {siblings : List String}

theorem isValid_iff : isValid name = true ↔ Text.isBlankText name = false ∧
    name.length ≤ maxLength ∧ ∀ c ∈ name.toList, Text.isControl c = false := by
  unfold isValid check
  split
  · next hblank => simp [hblank, Except.isOk, Except.toBool]
  · next hblank =>
    rw [Bool.not_eq_true] at hblank
    split
    · next hlong => simp [hblank, Except.isOk, Except.toBool, Nat.not_le.mpr hlong]
    · next hlong =>
      split
      · next hcontrol =>
        obtain ⟨c, hc, hbad⟩ := List.any_eq_true.mp hcontrol
        refine ⟨nofun, fun ⟨_, _, hgood⟩ => ?_⟩
        rw [hgood c hc] at hbad
        cases hbad
      · next hcontrol =>
        rw [Bool.not_eq_true, List.any_eq_false] at hcontrol
        simp only [Bool.not_eq_true] at hcontrol
        exact ⟨fun _ => ⟨hblank, Nat.not_lt.mp hlong, hcontrol⟩, fun _ => rfl⟩

/-! ## The characters of a numbered name -/

theorem prefix_of_splitLast? {cs head tail : List Char} (h : splitLast? cs = some (head, tail)) :
    head <+: cs := by
  unfold splitLast? at h
  dsimp only at h
  split at h
  · cases h
  · next c rest hdrop =>
    cases h
    have hcut := List.takeWhile_append_dropWhile (p := (· != '_')) (l := cs.reverse)
    rw [hdrop] at hcut
    rw [← List.reverse_reverse cs, ← hcut, List.reverse_append, List.reverse_cons,
      List.append_assoc]
    exact List.prefix_append _ _

/-- The base of a name is a beginning of it. -/
theorem prefix_base (name : String) : (base name).toList <+: name.toList := by
  unfold base
  split
  · next hsplit =>
    split
    · rw [String.toList_ofList]
      exact prefix_of_splitLast? hsplit
    · exact List.prefix_refl _
  · exact List.prefix_refl _

theorem toList_numbered (base : String) (k : Nat) :
    (numbered base k).toList = base.toList ++ '_' :: Nat.toDigits 10 k := by
  unfold numbered
  rw [String.toList_append, String.toList_append, List.append_assoc]
  show _ ++ ("_".toList ++ (Nat.repr k).toList) = _
  rw [Nat.toList_repr]
  rfl

theorem isControl_of_isDigit {c : Char} (h : c.isDigit = true) : Text.isControl c = false := by
  rw [Char.isDigit, Bool.and_eq_true, decide_eq_true_iff, decide_eq_true_iff] at h
  obtain ⟨hlow, hhigh⟩ := h
  have hlow : 48 ≤ c.toNat := hlow
  have hhigh : c.toNat ≤ 57 := hhigh
  simp only [Text.isControl, Bool.or_eq_false_iff, Bool.and_eq_false_iff, decide_eq_false_iff_not]
  omega

/-- A numbered name is not blank, and has control characters only where its base has some. -/
theorem isValid_numbered_iff {k : Nat}
    (hcontrol : ∀ c ∈ name.toList, Text.isControl c = false) :
    isValid (numbered (base name) k) = true ↔ (numbered (base name) k).length ≤ maxLength := by
  have hblank : Text.isBlankText (numbered (base name) k) = false := by
    rw [Text.isBlankText, List.all_eq_false]
    refine ⟨'_', ?_, by decide⟩
    rw [toList_numbered]
    exact List.mem_append_right _ List.mem_cons_self
  have hclean : ∀ c ∈ (numbered (base name) k).toList, Text.isControl c = false := by
    intro c hc
    rw [toList_numbered] at hc
    rcases List.mem_append.mp hc with hc | hc
    · exact hcontrol c ((prefix_base name).subset hc)
    · rcases List.mem_cons.mp hc with rfl | hc
      · decide
      · exact isControl_of_isDigit (Nat.isDigit_of_mem_toDigits (by decide) (by decide) hc)
  rw [isValid_iff]
  exact ⟨fun h => h.2.1, fun h => ⟨hblank, h, hclean⟩⟩

/-! ## Resolved names -/

theorem exists_firstFree_eq (base : String) (taken : List String) (tries k : Nat) :
    ∃ n, firstFree base taken tries k = numbered base n := by
  fun_induction firstFree base taken tries k with
  | case1 k => exact ⟨k, rfl⟩
  | case2 tries k _ ih => exact ih
  | case3 tries k _ => exact ⟨k, rfl⟩

/-- A name that was asked for rightly is stored rightly, unless it is too long by then. -/
theorem isValid_resolve_iff (h : isValid desired = true) :
    isValid (resolve desired siblings) = true ↔ (resolve desired siblings).length ≤ maxLength := by
  obtain ⟨_, hlength, hcontrol⟩ := isValid_iff.mp h
  unfold resolve
  split
  · obtain ⟨n, hn⟩ := exists_firstFree_eq (base desired) siblings siblings.length 2
    rw [hn]
    exact isValid_numbered_iff hcontrol
  · exact iff_of_true h hlength

/-- A name that is too long by the number that a collision put there. -/
def Outgrown (name : String) : Prop :=
  maxLength < name.length ∧ ∃ desired siblings, isValid desired = true ∧ desired ∈ siblings ∧
    name = resolve desired siblings

theorem isValid_or_outgrown_resolve (h : isValid desired = true) (siblings : List String) :
    isValid (resolve desired siblings) = true ∨ Outgrown (resolve desired siblings) := by
  by_cases hlength : (resolve desired siblings).length ≤ maxLength
  · exact .inl ((isValid_resolve_iff h).mpr hlength)
  · refine .inr ⟨Nat.not_le.mp hlength, desired, siblings, h, ?_, rfl⟩
    -- a free name is stored as it was asked for
    by_contra hfree
    rw [resolve, if_neg hfree] at hlength
    exact hlength (isValid_iff.mp h).2.1

end SharedScene.Name
