import SharedScene.Proofs.Scene.Delivery.Coalescing

/-!
# What waits for the bridge

A queue that coalesces searches the changes that wait at every push, and may write into one that was
queued long before. What waits in the end can be said without any of that, from what was pushed
since the last drain alone (`PendingQueue.run_coalesces`): what is no update of a property waits as
it was pushed, and of the updates of one property of one instance the first one waits, with the
value of the last. All of it waits in the order of its numbers, and a number is the count of the
pushes made before.
-/

namespace SharedScene

/-- The value that an update sets. -/
def Message.value? : Message → Option Value
  | .update _ _ value => some value
  | _ => none

namespace PendingChange

theorem sharedKey?_withValue (c : PendingChange) (value : Value) :
    (c.withValue value).sharedKey? = c.sharedKey? := by
  obtain ⟨n, target, message⟩ := c
  cases message <;> rfl

/-- An update with its own value is itself. -/
theorem withValue_self {c : PendingChange} {value : Value} (h : c.message.value? = some value) :
    c.withValue value = c := by
  obtain ⟨n, target, message⟩ := c
  cases message <;> cases h
  rfl

theorem withValue_withValue (c : PendingChange) (old value : Value) :
    (c.withValue old).withValue value = c.withValue value := by
  obtain ⟨n, target, message⟩ := c
  cases message <;> rfl

theorem sequence_withValue (c : PendingChange) (value : Value) :
    (c.withValue value).sequence = c.sequence := by
  obtain ⟨n, target, message⟩ := c
  cases message <;> rfl

/-- What shares a key sets a value. -/
theorem exists_value?_of_sharedKey? {c : PendingChange} {key : InstanceId × String}
    (h : c.sharedKey? = some key) : ∃ value, c.message.value? = some value := by
  obtain ⟨-, -, path, value, hc⟩ := sharedKey?_eq_some.mp h
  exact ⟨value, by rw [hc]; rfl⟩

end PendingChange

namespace PendingQueue

/-! ## Calls -/

/-- What can be done with a queue. -/
inductive Call where
  | push (target : InstanceId) (message : Message)
  | drain

def Call.pushed? : Call → Option (InstanceId × Message)
  | .push target message => some (target, message)
  | .drain => none

def Call.isPush (call : Call) : Bool := call.pushed?.isSome

def perform (q : PendingQueue) : Call → PendingQueue
  | .push target message => q.push target message
  | .drain => q.drained

/-- The queue after some calls, which began empty. -/
def run (calls : List Call) : PendingQueue := calls.foldl perform empty

/-- What was pushed, and for which instances. -/
def pushes (calls : List Call) : List (InstanceId × Message) := calls.filterMap Call.pushed?

/-- What was pushed since the last drain, each with the count of the pushes made before it. -/
def recent (calls : List Call) : List PendingChange :=
  let before := pushes (calls.rdropWhile Call.isPush)
  ((pushes (calls.rtakeWhile Call.isPush)).zipIdx before.length).map fun ((target, message), n) =>
    ⟨n, target, message⟩

variable {calls : List Call} {target : InstanceId} {message : Message}

theorem recent_push (calls : List Call) (target : InstanceId) (message : Message) :
    recent (calls ++ [.push target message]) =
      recent calls ++ [⟨(pushes calls).length, target, message⟩] := by
  have hpush : (Call.push target message).isPush = true := rfl
  have hlength : (pushes calls).length = (pushes (calls.rdropWhile Call.isPush)).length +
      (pushes (calls.rtakeWhile Call.isPush)).length := by
    rw [← List.length_append, pushes, pushes, pushes, ← List.filterMap_append,
      List.rdropWhile_append_rtakeWhile]
  simp only [recent]
  rw [List.rdropWhile_concat_pos _ _ _ hpush, List.rtakeWhile_concat_pos _ _ _ hpush, hlength]
  simp only [pushes, List.filterMap_append, List.zipIdx_append, List.map_append]
  rfl

theorem recent_drain (calls : List Call) : recent (calls ++ [.drain]) = [] := by
  have hdrain : ¬ Call.drain.isPush = true := nofun
  simp only [recent]
  rw [List.rtakeWhile_concat_neg _ _ _ hdrain]
  rfl

/-- A number is below the count of the pushes. -/
theorem sequence_lt_of_mem_recent {c : PendingChange} (h : c ∈ recent calls) :
    c.sequence < (pushes calls).length := by
  induction calls using List.reverseRecOn with
  | nil => cases h
  | append_singleton calls call ih =>
    cases call with
    | push target message =>
      rw [recent_push] at h
      rw [pushes, List.filterMap_append, List.length_append]
      rcases List.mem_append.mp h with h | h
      · exact Nat.lt_add_right _ (ih h)
      · rw [List.mem_singleton.mp h]
        exact Nat.lt_succ_self _
    | drain =>
      rw [recent_drain] at h
      cases h

/-- What was pushed after a drain has a number that no push before it has. -/
theorem le_sequence_of_mem_recent {later : List Call} {c : PendingChange}
    (h : c ∈ recent (calls ++ .drain :: later)) : (pushes calls).length ≤ c.sequence := by
  induction later using List.reverseRecOn with
  | nil =>
    rw [recent_drain] at h
    cases h
  | append_singleton later call ih =>
    rw [← List.cons_append, ← List.append_assoc] at h
    cases call with
    | push target message =>
      rw [recent_push] at h
      rcases List.mem_append.mp h with h | h
      · exact ih h
      · rw [List.mem_singleton.mp h, pushes, pushes, List.filterMap_append, List.length_append]
        exact Nat.le_add_right _ _
    | drain =>
      rw [recent_drain] at h
      cases h

/-! ## One update for several -/

/-- The changes of one key, in their order: the updates of one property of one instance, or with no
key all that wait by themselves. -/
def withKey (key? : Option (InstanceId × String)) (changes : List PendingChange) :
    List PendingChange :=
  changes.filter fun c => c.sharedKey? = key?

/-- One update for several of one property: the first one, with the value of the last. -/
def combined (updates : List PendingChange) : Option PendingChange := do
  let first ← updates.head?
  let last ← updates.getLast?
  let value ← last.message.value?
  return first.withValue value

variable {history waiting updates : List PendingChange} {c : PendingChange}
  {key? : Option (InstanceId × String)} {key : InstanceId × String} {value : Value} {n : Nat}

theorem withKey_middle (key? : Option (InstanceId × String)) (earlier : List PendingChange)
    (c : PendingChange) (later : List PendingChange) :
    withKey key? (earlier ++ c :: later) =
      withKey key? earlier ++
        ((if c.sharedKey? = key? then [c] else []) ++ withKey key? later) := by
  rw [withKey, List.filter_append, List.filter_cons]
  by_cases h : c.sharedKey? = key?
  · rw [if_pos (decide_eq_true h), if_pos h]
    rfl
  · rw [if_neg (by rwa [decide_eq_true_iff]), if_neg h]
    rfl

theorem withKey_concat (key? : Option (InstanceId × String)) (changes : List PendingChange)
    (c : PendingChange) : withKey key? (changes ++ [c]) =
      withKey key? changes ++ if c.sharedKey? = key? then [c] else [] := by
  rw [withKey_middle]
  exact congrArg _ (List.append_nil _)

theorem withKey_eq_nil (h : ∀ c ∈ waiting, c.sharedKey? ≠ key?) : withKey key? waiting = [] :=
  List.filter_eq_nil_iff.mpr fun c hc => mt of_decide_eq_true (h c hc)

theorem combined_concat (hc : c.message.value? = some value) :
    combined (updates ++ [c]) = some ((updates.head?.getD c).withValue value) := by
  have hhead : (updates ++ [c]).head? = some (updates.head?.getD c) := by
    cases updates <;> rfl
  unfold combined
  rw [hhead, List.getLast?_concat]
  simp only [Option.bind_eq_bind, Option.bind_some, hc, Option.pure_def]

theorem exists_head?_of_combined (h : combined updates = some c) :
    ∃ first value, updates.head? = some first ∧ c = first.withValue value := by
  simp only [combined, Option.bind_eq_bind, Option.bind_eq_some_iff, Option.pure_def,
    Option.some.injEq] at h
  obtain ⟨first, hfirst, _, _, value, _, rfl⟩ := h
  exact ⟨first, value, hfirst, rfl⟩

/-- Several updates, and one at least, make one. -/
theorem withKey_eq_nil_of_combined (h : combined (withKey (some key) history) = none) :
    withKey (some key) history = [] := by
  rcases List.eq_nil_or_concat' (withKey (some key) history) with hnil | ⟨init, c, hconcat⟩
  · exact hnil
  · have hmem : c ∈ withKey (some key) history :=
      hconcat ▸ List.mem_append_right init (List.mem_singleton_self c)
    obtain ⟨value, hvalue⟩ := PendingChange.exists_value?_of_sharedKey?
      (of_decide_eq_true (List.mem_filter.mp hmem).2)
    rw [hconcat, combined_concat hvalue] at h
    cases h

/-- Where at most one element stands, the one that is there stands alone. -/
theorem eq_some_of_toList_eq {earlier later : List PendingChange} {o : Option PendingChange}
    (h : earlier ++ ([c] ++ later) = o.toList) : earlier = [] ∧ later = [] ∧ o = some c := by
  cases o with
  | none => exact absurd h (List.append_ne_nil_of_right_ne_nil _ (List.cons_ne_nil c later))
  | some d =>
    rw [Option.toList_some, List.append_eq_singleton_iff] at h
    rcases h with ⟨hearlier, hsingle⟩ | ⟨_, hnil⟩
    · obtain ⟨rfl, hlater⟩ := List.cons_eq_cons.mp hsingle
      exact ⟨hearlier, hlater, rfl⟩
    · cases hnil

/-! ## One push -/

/-- What waits of the changes that were pushed: all that share no key as they are, for each key one
update in the place of the first, and all in the order of their numbers. -/
structure Coalesces (history waiting : List PendingChange) : Prop where
  ordered : (waiting.map PendingChange.sequence).Pairwise (· < ·)
  alone : withKey none waiting = withKey none history
  merged : ∀ key, withKey (some key) waiting = (combined (withKey (some key) history)).toList

namespace Coalesces

theorem nil : Coalesces [] [] := ⟨List.Pairwise.nil, rfl, fun _ => rfl⟩

/-- What waits has the number of something that was pushed. -/
theorem exists_mem_history (h : Coalesces history waiting) (hc : c ∈ waiting) :
    ∃ d ∈ history, d.sequence = c.sequence := by
  have hmem : c ∈ withKey c.sharedKey? waiting := List.mem_filter.mpr ⟨hc, decide_eq_true rfl⟩
  cases hkey : c.sharedKey? with
  | none =>
    rw [hkey, h.alone] at hmem
    exact ⟨c, (List.mem_filter.mp hmem).1, rfl⟩
  | some key =>
    rw [hkey, h.merged, Option.mem_toList] at hmem
    obtain ⟨first, value, hfirst, rfl⟩ := exists_head?_of_combined hmem
    exact ⟨first, (List.mem_filter.mp (List.mem_of_head? hfirst)).1,
      (first.sequence_withValue value).symm⟩

/-- One more change at the end, of a key that nothing has which waits. -/
theorem append (h : Coalesces history waiting) (hc : ∀ d ∈ history, d.sequence < c.sequence)
    (hfresh : ∀ key, c.sharedKey? = some key → ∀ d ∈ waiting, d.sharedKey? ≠ some key) :
    Coalesces (history ++ [c]) (waiting ++ [c]) where
  ordered := by
    rw [List.map_append, List.pairwise_append]
    refine ⟨h.ordered, List.pairwise_singleton _ _, fun m hm n hn => ?_⟩
    obtain ⟨d, hd, rfl⟩ := List.mem_map.mp hm
    obtain ⟨d', hd', hsame⟩ := h.exists_mem_history hd
    rw [List.mem_singleton.mp hn, ← hsame]
    exact hc d' hd'
  alone := by rw [withKey_concat, withKey_concat, h.alone]
  merged := by
    intro key
    rw [withKey_concat, withKey_concat]
    by_cases hkey : c.sharedKey? = some key
    · have hwaiting := withKey_eq_nil (hfresh key hkey)
      have hnone : combined (withKey (some key) history) = none := by
        rw [← Option.toList_eq_nil_iff, ← h.merged, hwaiting]
      obtain ⟨value, hvalue⟩ := PendingChange.exists_value?_of_sharedKey? hkey
      rw [if_pos hkey, hwaiting, withKey_eq_nil_of_combined hnone, combined_concat hvalue]
      exact congrArg (fun d => [d]) (PendingChange.withValue_self hvalue).symm
    · rw [if_neg hkey, List.append_nil, List.append_nil, h.merged]

/-- One more update of a key that waits: the update that waits gets its value. -/
theorem overwrite {d : PendingChange} {earlier later : List PendingChange}
    (h : Coalesces history (earlier ++ c :: later)) (hc : c.sharedKey? = some key)
    (hd : d.sharedKey? = some key) (hvalue : d.message.value? = some value) :
    Coalesces (history ++ [d]) (earlier ++ c.withValue value :: later) where
  ordered := by
    have hordered := h.ordered
    rw [List.map_append, List.map_cons] at hordered ⊢
    rwa [PendingChange.sequence_withValue]
  alone := by
    have halone := h.alone
    rw [withKey_middle, if_neg (hc ▸ Option.some_ne_none key)] at halone
    rw [withKey_middle, withKey_concat, PendingChange.sharedKey?_withValue,
      if_neg (hc ▸ Option.some_ne_none key), if_neg (hd ▸ Option.some_ne_none key), halone,
      List.append_nil]
  merged := by
    intro other
    have hmerged := h.merged other
    rw [withKey_middle] at hmerged
    rw [withKey_middle, withKey_concat, PendingChange.sharedKey?_withValue]
    by_cases hother : key = other
    · obtain rfl := hother
      rw [if_pos hc] at hmerged
      rw [if_pos hc, if_pos hd, combined_concat hvalue]
      obtain ⟨hearlier, hlater, hcombined⟩ := eq_some_of_toList_eq hmerged
      obtain ⟨first, old, hfirst, rfl⟩ := exists_head?_of_combined hcombined
      rw [hearlier, hlater, hfirst, Option.getD_some, PendingChange.withValue_withValue]
      rfl
    · have hne : some key ≠ some other := fun heq => hother (Option.some.inj heq)
      rw [hc, if_neg hne] at hmerged
      rw [hc, hd, if_neg hne, if_neg hne, List.append_nil, hmerged]

/-- A push coalesces what waits with what it pushes. -/
theorem push {q : PendingQueue} (h : Coalesces history q.entries)
    (hn : ∀ c ∈ history, c.sequence < q.nextSequence) (target : InstanceId) (message : Message) :
    Coalesces (history ++ [⟨q.nextSequence, target, message⟩]) (q.push target message).entries := by
  rcases push_cases q target message with ⟨hentries, hfresh⟩ |
    ⟨path, key, value, earlier, n, path', old, later, rfl, hkey, hentries, hmerged⟩
  · rw [hentries]
    exact h.append hn hfresh
  · rw [hentries] at h
    rw [hmerged]
    exact h.overwrite (if_neg hkey) (if_neg hkey) rfl

end Coalesces

/-! ## All calls -/

theorem run_concat (calls : List Call) (call : Call) :
    run (calls ++ [call]) = (run calls).perform call := List.foldl_concat ..

/-- Every push takes the next number, whether what it pushes waits by itself or not. -/
theorem nextSequence_run (calls : List Call) :
    (run calls).nextSequence = (pushes calls).length := by
  induction calls using List.reverseRecOn with
  | nil => rfl
  | append_singleton calls call ih =>
    rw [run_concat, pushes, List.filterMap_append, List.length_append, ← pushes, ← ih]
    cases call <;> rfl

theorem run_coalesces (calls : List Call) : Coalesces (recent calls) (run calls).entries := by
  induction calls using List.reverseRecOn with
  | nil => exact .nil
  | append_singleton calls call ih =>
    rw [run_concat]
    cases call with
    | push target message =>
      rw [recent_push, ← nextSequence_run]
      refine ih.push (fun c hc => ?_) target message
      rw [nextSequence_run]
      exact sequence_lt_of_mem_recent hc
    | drain =>
      rw [recent_drain]
      exact .nil

/-- After any pushes and drains there wait, of what was pushed since the last drain: all that is no
update of a property other than the name, each once, and for each such property of each instance one
update, at the path and with the number of the first of them and with the value of the last. They
wait in the order of their numbers. A number is the count of the pushes made before, and a drain
does not bring it back: what waits after one has a higher number than all that waited before. -/
theorem waiting_coalesces_recent (calls : List Call) :
    Coalesces (recent calls) (run calls).entries ∧
    (run calls).nextSequence = (pushes calls).length ∧
    ∀ later : List Call, ∀ c ∈ (run calls).entries,
      ∀ d ∈ (run (calls ++ .drain :: later)).entries, c.sequence < d.sequence := by
  refine ⟨run_coalesces calls, nextSequence_run calls, fun later c hc d hd => ?_⟩
  obtain ⟨c', hc', hc⟩ := (run_coalesces calls).exists_mem_history hc
  obtain ⟨d', hd', hd⟩ := (run_coalesces _).exists_mem_history hd
  rw [← hc, ← hd]
  exact Nat.lt_of_lt_of_le (sequence_lt_of_mem_recent hc') (le_sequence_of_mem_recent hd')

/-- A lamp is switched on and off while a box goes. -/
def switched : List Call :=
  [.push ⟨"a"⟩ (.update ["Lamp"] "On" (.bool true)), .push ⟨"b"⟩ (.delete ["Box"]),
    .push ⟨"a"⟩ (.update ["Lamp"] "On" (.bool false))]

/-- After the drain it gets another name, and is switched on at another path. -/
def switchedAgain : List Call :=
  [.push ⟨"a"⟩ (.update ["Lamp"] nameKey (.string "Light")),
    .push ⟨"a"⟩ (.update ["Light"] "On" (.bool true))]

theorem waiting_coalesces_recent_switched :
    (run switched).entries = [⟨0, ⟨"a"⟩, .update ["Lamp"] "On" (.bool false)⟩,
      ⟨1, ⟨"b"⟩, .delete ["Box"]⟩] ∧
    Coalesces (recent switched) (run switched).entries ∧
    (run (switched ++ .drain :: switchedAgain)).entries =
      [⟨3, ⟨"a"⟩, .update ["Lamp"] nameKey (.string "Light")⟩,
        ⟨4, ⟨"a"⟩, .update ["Light"] "On" (.bool true)⟩] ∧
    ∀ c ∈ (run switched).entries, c.sequence < 3 := by
  obtain ⟨hcoalesces, _, hlater⟩ := waiting_coalesces_recent switched
  have hagain : (run (switched ++ .drain :: switchedAgain)).entries =
      [⟨3, ⟨"a"⟩, .update ["Lamp"] nameKey (.string "Light")⟩,
        ⟨4, ⟨"a"⟩, .update ["Light"] "On" (.bool true)⟩] := rfl
  exact ⟨rfl, hcoalesces, hagain, fun c hc => hlater switchedAgain c hc _
    (hagain ▸ List.mem_cons_self)⟩

end PendingQueue

end SharedScene
