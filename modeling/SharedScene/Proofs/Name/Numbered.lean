import SharedScene.Proofs.Name.Valid

/-!
# The number behind a name

The number that a collision puts behind a name can be read back: a base that is not empty is the
base of each of its numbered names (`base_numbered`), as long as the number fits into 64 bits. So a
name that collides again gets another number and never a second one.

The search for that number has no bound of its own. `SearchEnds` is the search as a loop, which
goes on as long as a name is taken, and what `resolve` gives is what this loop ends with. It ends at
the smallest number that is free (`SearchEnds.isLeast`), and it cannot pass more numbers than there
are distinct siblings, since different numbers make different names (`le_card_of_isLeast`).
-/

namespace SharedScene

/-! ## Reading a number back -/

namespace Text

theorem digit?_of_isDigit {c : Char} (h : c.isDigit = true) :
    digit? c = some (c.toNat - '0'.toNat) := by
  rw [Char.isDigit, Bool.and_eq_true, decide_eq_true_iff, decide_eq_true_iff] at h
  exact if_pos h

/-- Digits are read from the left, each one after ten times what was read before. -/
theorem natOfDigits?_of_isDigit {cs : List Char} (h : ∀ c ∈ cs, c.isDigit = true) :
    natOfDigits? cs = some (Nat.ofDigitChars 10 cs 0) := by
  unfold natOfDigits? Nat.ofDigitChars
  generalize 0 = n
  induction cs generalizing n with
  | nil => rfl
  | cons c cs ih =>
    rw [List.forall_mem_cons] at h
    rw [List.foldl_cons, List.foldl_cons, ← ih h.2, digit?_of_isDigit h.1, Nat.mul_comm]
    rfl

/-- A number is read back from its digits. -/
theorem natOfDigits?_toDigits (n : Nat) : natOfDigits? (Nat.toDigits 10 n) = some n := by
  have hdigits : ∀ c ∈ Nat.toDigits 10 n, c.isDigit = true := fun c hc =>
    Nat.isDigit_of_mem_toDigits (by decide) (by decide) hc
  rw [natOfDigits?_of_isDigit hdigits, Nat.ofDigitChars_ten_toDigits]

/-- No zero stands in front of the digits of a number. -/
theorem head?_toDigits_ne_zero {n : Nat} (h : 0 < n) :
    (Nat.toDigits 10 n).head? ≠ some '0' := by
  induction n using Nat.strongRecOn with
  | ind n ih =>
    by_cases hlt : n < 10
    · rw [Nat.toDigits_of_lt_base hlt]
      interval_cases n <;> decide
    · have hle : 10 ≤ n := Nat.not_lt.mp hlt
      rw [Nat.toDigits_of_base_le (by decide) hle,
        List.head?_append_of_ne_nil _ Nat.toDigits_ne_nil]
      exact ih (n / 10) (Nat.div_lt_self h (by decide)) (Nat.div_pos hle (by decide))

end Text

namespace Name

variable {desired : String} {taken siblings : List String} {k n : Nat}

/-! ## Taking the number away -/

/-- Digits after an underscore are what stands after the last one. -/
theorem splitLast?_append {head tail : List Char} (h : '_' ∉ tail) :
    splitLast? (head ++ '_' :: tail) = some (head, tail) := by
  have htail : ∀ c ∈ tail.reverse, (c != '_') = true := fun c hc =>
    bne_iff_ne.mpr fun heq => h (heq ▸ List.mem_reverse.mp hc)
  have hreverse : (head ++ '_' :: tail).reverse = tail.reverse ++ '_' :: head.reverse := by
    rw [List.reverse_append, List.reverse_cons, List.append_assoc, List.singleton_append]
  have htake : (tail.reverse ++ '_' :: head.reverse).takeWhile (· != '_') = tail.reverse := by
    rw [List.takeWhile_append_of_pos htail, List.takeWhile_cons_of_neg (by decide), List.append_nil]
  have hdrop : (tail.reverse ++ '_' :: head.reverse).dropWhile (· != '_') =
      '_' :: head.reverse := by
    rw [List.dropWhile_append_of_pos htail, List.dropWhile_cons_of_neg (by decide)]
  unfold splitLast?
  rw [hreverse, htake, hdrop]
  dsimp only
  rw [List.reverse_reverse, List.reverse_reverse]

/-- The digits of a number that a collision may put behind a name. -/
theorem isCollisionSuffix_toDigits (hk : 2 ≤ k) (hfits : k < 2 ^ 64) :
    isCollisionSuffix (Nat.toDigits 10 k) = true := by
  have hhead := Text.head?_toDigits_ne_zero (Nat.lt_of_lt_of_le Nat.two_pos hk)
  have hread := Text.natOfDigits?_toDigits k
  cases hdigits : Nat.toDigits 10 k with
  | nil => exact absurd hdigits Nat.toDigits_ne_nil
  | cons c rest =>
    rw [hdigits] at hhead hread
    simp only [isCollisionSuffix, hread, Bool.and_eq_true, decide_eq_true_iff]
    exact ⟨bne_iff_ne.mpr hhead, hk, hfits⟩

/-- The base of a numbered name is what was numbered. -/
theorem base_numbered {name : String} (hname : name ≠ "") (hk : 2 ≤ k) (hfits : k < 2 ^ 64) :
    base (numbered name k) = name := by
  have hunderscore : '_' ∉ Nat.toDigits 10 k := fun hmem => by
    have hdigit := Nat.isDigit_of_mem_toDigits (by decide) (by decide) hmem
    revert hdigit
    decide
  have hhead : name.toList.isEmpty = false := by
    rw [List.isEmpty_eq_false_iff]
    exact fun hnil => hname (String.toList_eq_nil_iff.mp hnil)
  unfold base
  rw [toList_numbered, splitLast?_append hunderscore]
  dsimp only
  rw [hhead, isCollisionSuffix_toDigits hk hfits]
  exact String.ofList_toList

/-- Only the empty name has an empty base. -/
theorem base_ne_empty (h : desired ≠ "") : base desired ≠ "" := by
  unfold base
  split
  · next head tail _ =>
    split
    · next hnumbered =>
      rw [Bool.and_eq_true, Bool.not_eq_true', List.isEmpty_eq_false_iff] at hnumbered
      exact fun hnil => hnumbered.1 (by simpa using congrArg String.toList hnil)
    · exact h
  · exact h

/-! ## The search as a loop -/

/-- The search for a free number without a bound: from `k` on it ends at `n`. -/
inductive SearchEnds (base : String) (taken : List String) : Nat → Nat → Prop where
  | here {k : Nat} : numbered base k ∉ taken → SearchEnds base taken k k
  | later {k n : Nat} : numbered base k ∈ taken → SearchEnds base taken (k + 1) n →
    SearchEnds base taken k n

/-- Where the search ends, and all that it passes is taken. -/
theorem SearchEnds.isLeast {base : String} (h : SearchEnds base taken k n) :
    IsLeast {i | k ≤ i ∧ numbered base i ∉ taken} n := by
  induction h with
  | here hfree => exact ⟨⟨Nat.le_refl _, hfree⟩, fun i hi => hi.1⟩
  | @later k n htaken _ ih =>
    obtain ⟨⟨hle, hfree⟩, hleast⟩ := ih
    refine ⟨⟨Nat.le_of_succ_le hle, hfree⟩, fun i ⟨hi, hi'⟩ => hleast ⟨?_, hi'⟩⟩
    exact Nat.lt_of_le_of_ne hi fun heq => hi' (heq ▸ htaken)

/-- A search that tries enough numbers finds what the loop ends with. -/
theorem exists_searchEnds_firstFree {base : String} {tries : Nat}
    (h : firstFree base taken tries k ∉ taken) :
    ∃ n, firstFree base taken tries k = numbered base n ∧ SearchEnds base taken k n := by
  fun_induction firstFree base taken tries k with
  | case1 k => exact ⟨k, rfl, .here h⟩
  | case2 tries k htaken ih =>
    obtain ⟨n, hn, hends⟩ := ih h
    exact ⟨n, hn, .later htaken hends⟩
  | case3 tries k hfree => exact ⟨k, rfl, .here hfree⟩

/-- Every number below the smallest free one belongs to a name of its own. -/
theorem le_card_of_isLeast {base : String}
    (h : IsLeast {i | 2 ≤ i ∧ numbered base i ∉ taken} n) : n ≤ taken.toFinset.card + 2 := by
  have hpassed : (Finset.Ico 2 n).image (numbered base) ⊆ taken.toFinset := by
    intro name hname
    obtain ⟨i, hi, rfl⟩ := Finset.mem_image.mp hname
    rw [Finset.mem_Ico] at hi
    rw [List.mem_toFinset]
    by_contra hfree
    exact Nat.not_le.mpr hi.2 (h.2 ⟨hi.1, hfree⟩)
  have hcard := Finset.card_le_card hpassed
  rw [Finset.card_image_of_injective _ (numbered_injective base), Nat.card_Ico] at hcard
  exact Nat.sub_le_iff_le_add.mp hcard

/-! ## Resolved names -/

/-- What a taken name gives way to. -/
theorem exists_resolve_eq_numbered (h : desired ∈ siblings) :
    ∃ k, resolve desired siblings = numbered (base desired) k ∧
      SearchEnds (base desired) siblings 2 k := by
  rw [resolve, if_pos h]
  exact exists_searchEnds_firstFree (firstFree_not_mem _ siblings 2)

/-- A resolved name is the name that was asked for, or its base with a number. -/
theorem resolve_cases (desired : String) (siblings : List String) :
    resolve desired siblings = desired ∨ ∃ k, 2 ≤ k ∧ k ≤ siblings.toFinset.card + 2 ∧
      resolve desired siblings = numbered (base desired) k := by
  by_cases h : desired ∈ siblings
  · obtain ⟨k, heq, hends⟩ := exists_resolve_eq_numbered h
    exact .inr ⟨k, hends.isLeast.1.1, le_card_of_isLeast hends.isLeast, heq⟩
  · exact .inl (if_neg h)

theorem resolve_ne_empty (h : desired ≠ "") : resolve desired siblings ≠ "" := by
  rcases resolve_cases desired siblings with heq | ⟨k, _, _, heq⟩
  · rwa [heq]
  · rw [heq, Ne, ← String.toList_eq_nil_iff, toList_numbered]
    exact List.append_ne_nil_of_right_ne_nil _ (List.cons_ne_nil _ _)

theorem base_resolve (h : desired ≠ "") (hfits : siblings.toFinset.card + 2 < 2 ^ 64) :
    base (resolve desired siblings) = base desired := by
  rcases resolve_cases desired siblings with heq | ⟨k, hk, hle, heq⟩
  · rw [heq]
  · rw [heq, base_numbered (base_ne_empty h) hk (Nat.lt_of_le_of_lt hle hfits)]

/-- However often a name collides, it is the name that was asked for or its base with one number. -/
theorem foldl_resolve_cases (h : desired ≠ "") {rounds : List (List String)}
    (hfits : ∀ siblings ∈ rounds, siblings.toFinset.card + 2 < 2 ^ 64) :
    base (rounds.foldl resolve desired) = base desired ∧
      (rounds.foldl resolve desired = desired ∨
        ∃ k, 2 ≤ k ∧ rounds.foldl resolve desired = numbered (base desired) k) := by
  induction rounds generalizing desired with
  | nil => exact ⟨rfl, .inl rfl⟩
  | cons siblings rounds ih =>
    rw [List.forall_mem_cons] at hfits
    rw [List.foldl_cons]
    have hbase := base_resolve h hfits.1
    obtain ⟨hlater, hcases⟩ := ih (resolve_ne_empty h) hfits.2
    rw [hbase] at hlater hcases
    refine ⟨hlater, ?_⟩
    rcases hcases with heq | hnumbered
    · rw [heq]
      rcases resolve_cases desired siblings with heq | ⟨k, hk, _, heq⟩
      · exact .inl heq
      · exact .inr ⟨k, hk, heq⟩
    · exact .inr hnumbered

/-- A resolved name is free. It is the name that was asked for when that one is free, and else its
base with the smallest number from 2 on that makes it free: the one at which the search ends, which
passes at most as many numbers as there are distinct siblings. While those numbers fit into 64 bits,
a name that is not empty keeps its base however often it collides, and never has two such numbers.
-/
theorem resolve_takes_smallest_number (desired : String) (siblings : List String) :
    resolve desired siblings ∉ siblings ∧
    (desired ∉ siblings → resolve desired siblings = desired) ∧
    (desired ∈ siblings → ∃ k, SearchEnds (base desired) siblings 2 k ∧
      resolve desired siblings = numbered (base desired) k ∧
      IsLeast {i | 2 ≤ i ∧ numbered (base desired) i ∉ siblings} k ∧
      k ≤ siblings.toFinset.card + 2) ∧
    (desired ≠ "" → siblings.toFinset.card + 2 < 2 ^ 64 →
      base (resolve desired siblings) = base desired) ∧
    (desired ≠ "" → ∀ rounds : List (List String),
      (∀ siblings ∈ rounds, siblings.toFinset.card + 2 < 2 ^ 64) →
      base (rounds.foldl resolve desired) = base desired ∧
        (rounds.foldl resolve desired = desired ∨
          ∃ k, 2 ≤ k ∧ rounds.foldl resolve desired = numbered (base desired) k)) := by
  refine ⟨resolve_not_mem desired siblings, fun hfree => if_neg hfree, fun htaken => ?_,
    base_resolve, fun h rounds => foldl_resolve_cases h⟩
  obtain ⟨k, heq, hends⟩ := exists_resolve_eq_numbered htaken
  exact ⟨k, hends, heq, hends.isLeast, le_card_of_isLeast hends.isLeast⟩

/-- Among three shelves a fourth one gets the number between theirs, and it still has one number
after two more collisions. -/
theorem resolve_takes_smallest_number_shelved :
    resolve "Shelf_2" ["Shelf", "Shelf_2", "Shelf_4"] = "Shelf_3" ∧
    resolve "Shelf_5" ["Shelf", "Shelf_2", "Shelf_4"] = "Shelf_5" ∧
    (∃ k, SearchEnds (base "Shelf_2") ["Shelf", "Shelf_2", "Shelf_4"] 2 k ∧
      IsLeast {i | 2 ≤ i ∧
        numbered (base "Shelf_2") i ∉ ["Shelf", "Shelf_2", "Shelf_4"]} k ∧ k ≤ 5) ∧
    base (resolve "Shelf_2" ["Shelf", "Shelf_2", "Shelf_4"]) = base "Shelf_2" ∧
    [["Shelf_2", "Shelf_3"], ["Shelf_4", "Shelf_2"]].foldl resolve "Shelf_2" = "Shelf_3" ∧
    base ([["Shelf_2", "Shelf_3"], ["Shelf_4", "Shelf_2"]].foldl resolve "Shelf_2") =
      base "Shelf_2" := by
  obtain ⟨_, _, htaken, hbase, hrounds⟩ :=
    resolve_takes_smallest_number "Shelf_2" ["Shelf", "Shelf_2", "Shelf_4"]
  obtain ⟨_, hfree, _⟩ :=
    resolve_takes_smallest_number "Shelf_5" ["Shelf", "Shelf_2", "Shelf_4"]
  obtain ⟨k, hends, _, hleast, hle⟩ := htaken (by decide)
  refine ⟨by decide +kernel, hfree (by decide), ⟨k, hends, hleast, hle⟩,
    hbase (by decide) (by decide), by decide +kernel, (hrounds (by decide) _ (by decide)).1⟩

end Name

end SharedScene
