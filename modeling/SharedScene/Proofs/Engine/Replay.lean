import SharedScene.Proofs.Engine.Revision
import SharedScene.Proofs.ReplayCache

/-!
# A request under a key is carried out once

The reply to a request under a key is given again to every later request on the same route under
the same key, whatever it asks for, and nothing else happens then: as long as the reply has not
expired for any request under a key in between, and fewer others were carried out than there is room
for. And no reply is given again but one that was given on that route under that key
(`Engine.replay_gives_first_reply`).
-/

namespace SharedScene

/-! ## Keys of routes -/

namespace CommandRoute

/-- The name under which the reply to a request is kept. -/
def keyName (route : CommandRoute) (key : String) : String := route.name ++ ":" ++ key

variable {route route' : CommandRoute} {key key' : String}

theorem scopedKey_some (hkey : key.isEmpty = false) :
    route.scopedKey (some key) = some (route.keyName key) := by
  unfold scopedKey
  rw [Option.filter_some, hkey]
  rfl

/-- The name of a route ends at the first colon, so it can be told from the key. -/
theorem keyName_injective (h : route.keyName key = route'.keyName key') :
    route = route' ∧ key = key' := by
  have hlist := congrArg String.toList h
  unfold keyName at hlist
  rw [String.toList_append, String.toList_append, String.toList_append,
    String.toList_append] at hlist
  cases route <;> cases route'
  · exact ⟨rfl, String.toList_inj.mp (List.append_cancel_left hlist)⟩
  · exact absurd hlist (by simp [name])
  · exact absurd hlist (by simp [name])
  · exact ⟨rfl, String.toList_inj.mp (List.append_cancel_left hlist)⟩

/-- A key may be used under the name of its route. -/
theorem usable?_keyName (route : CommandRoute) (key : String) :
    ReplayCache.usable? (some (route.keyName key)) = some (route.keyName key) := by
  have hcolon : ':' ∈ (route.keyName key).toList := by
    unfold keyName
    rw [String.toList_append, String.toList_append]
    exact List.mem_append_left _ (List.mem_append_right _ List.mem_cons_self)
  have hblank : Text.isBlankText (route.keyName key) = false :=
    List.all_eq_false.mpr ⟨':', hcolon, by decide⟩
  unfold ReplayCache.usable?
  rw [Option.filter_some, hblank]
  rfl

/-- A key is not empty, or there is none. -/
theorem scopedKey_cases (route : CommandRoute) (key : Option String) :
    route.scopedKey key = none ∨ ∃ own, key = some own ∧ own.isEmpty = false := by
  cases key with
  | none => exact .inl rfl
  | some own =>
    cases hown : own.isEmpty with
    | false => exact .inr ⟨own, rfl, hown⟩
    | true =>
      refine .inl ?_
      unfold scopedKey
      rw [Option.filter_some, hown]
      rfl

end CommandRoute

namespace Engine

variable {e : Engine} {act : Act} {route : CommandRoute}

/-- The route and the key of a request under a key. -/
def Act.key? : Act → Option (CommandRoute × String)
  | .answer route _ key => (key.filter fun k => !k.isEmpty).map (route, ·)
  | _ => none

/-- The `i`-th thing that happens is a request on a route under a key that is carried out, and this
is its reply. -/
def Gives (e : Engine) (acts : List Act) (i : Nat) (route : CommandRoute) (key : String)
    (reply : Answer) : Prop :=
  ∃ request, acts[i]? = some (.answer route request (some key)) ∧
    (Act.answer route request (some key)).IsExecuted (e.before acts i) ∧
    ((e.before acts i).answer route request (some key)).1 = reply

/-! ## One request -/

/-- A request does nothing to the replies before it is over, and takes no time. -/
theorem runRoute_keeps (e : Engine) (route : CommandRoute) (request : Json) :
    (e.runRoute route request).2.replies = e.replies ∧
      (e.runRoute route request).2.clock = e.clock := by
  cases route with
  | command =>
    show (e.runCommand request).2.replies = _ ∧ (e.runCommand request).2.clock = _
    unfold runCommand
    split
    · exact ⟨rfl, rfl⟩
    · exact ⟨rfl, rfl⟩
  | commands =>
    show (e.runBatch request).2.replies = _ ∧ (e.runBatch request).2.clock = _
    unfold runBatch
    split
    · exact ⟨rfl, rfl⟩
    · exact ⟨rfl, rfl⟩

/-- A request that is not carried out is answered with a reply that is kept under its key, and
leaves everything as it is. -/
theorem answer_of_replayed {key : Option String} (request : Json)
    (h : ¬ (Act.answer route request key).IsExecuted e) :
    ∃ k kept, route.scopedKey key = some k ∧ SortedMap.find? k e.replies.entries = some kept ∧
      e.answer route request key = (kept.body, e) := by
  rcases hget : e.replies.get (route.scopedKey key) e.now with ⟨kept | kept, replies⟩
  · exact absurd (congrArg Prod.fst hget) h
  · obtain ⟨k, husable, hfind, rfl⟩ := ReplayCache.get_eq_some hget
    exact ⟨k, kept, Option.eq_some_of_filter_eq_some husable, hfind,
      answer_of_kept request hget⟩

/-- A request that is carried out leaves its reply under its key. -/
theorem replies_of_executed {key : Option String} {request : Json}
    (h : (Act.answer route request key).IsExecuted e) :
    (e.answer route request key).2.replies =
      (e.replies.get (route.scopedKey key) e.now).2.set (route.scopedKey key)
        (e.answer route request key).1.status (e.answer route request key).1 e.now := by
  rcases hget : e.replies.get (route.scopedKey key) e.now with ⟨kept | kept, replies⟩
  · rw [answer_of_executed request hget]
    obtain ⟨hreplies, hclock⟩ := runRoute_keeps { e with replies } route request
    dsimp only
    unfold now
    rw [hreplies, hclock]
  · exact absurd (h.symm.trans (congrArg Prod.fst hget)) (Option.some_ne_none kept).symm

/-- Whatever happens leaves the replies as they are, but for a request under a key that is carried
out. -/
theorem perform_replies (e : Engine) (act : Act) :
    (e.perform act).replies = e.replies ∨
      ∃ route request key, act = .answer route request (some key) ∧ key.isEmpty = false ∧
        act.IsExecuted e ∧
        (e.perform act).replies =
          (e.replies.get (some (route.keyName key)) e.now).2.set (some (route.keyName key))
            (e.answer route request (some key)).1.status (e.answer route request (some key)).1
            e.now := by
  cases act with
  | answer route request key =>
    by_cases hexecuted : (Act.answer route request key).IsExecuted e
    · have hreplies := replies_of_executed hexecuted
      rcases route.scopedKey_cases key with hnone | ⟨own, rfl, hown⟩
      · rw [hnone] at hreplies
        exact .inl hreplies
      · rw [CommandRoute.scopedKey_some hown] at hreplies
        exact .inr ⟨route, request, own, rfl, hown, hexecuted, hreplies⟩
    · obtain ⟨_, _, _, _, hanswer⟩ := answer_of_replayed request hexecuted
      refine .inl ?_
      show (e.answer route request key).2.replies = _
      rw [hanswer]
  | change message origin =>
    refine .inl ?_
    rcases perform_change e message origin with heq | ⟨outcome, store, _, heq⟩ <;> rw [heq]
    rfl
  | resync | takePending | acquire | release | readLeases | advance | setClock | setRuns =>
    exact .inl rfl

/-! ## A run -/

theorem before_succ_of_none {acts : List Act} {i : Nat} (h : acts[i]? = none) :
    e.before acts (i + 1) = e.before acts i := by
  unfold before
  rw [List.take_add_one, h, Option.toList_none, List.append_nil]

/-- A reply that is given is stored. -/
theorem Gives.replies {acts : List Act} {i : Nat} {key : String} {reply : Answer}
    (h : e.Gives acts i route key reply) :
    (e.before acts (i + 1)).replies =
      ((e.before acts i).replies.get (route.scopedKey (some key)) (e.before acts i).now).2.set
        (route.scopedKey (some key)) reply.status reply (e.before acts i).now := by
  obtain ⟨request, hact, hexecuted, rfl⟩ := h
  rw [before_succ hact]
  exact replies_of_executed hexecuted

/-- The limits of the replies never change. -/
theorem limits_before (e : Engine) (acts : List Act) (i : Nat) :
    (e.before acts i).replies.ttl = e.replies.ttl ∧
      (e.before acts i).replies.capacity = e.replies.capacity := by
  induction i with
  | zero => exact ⟨rfl, rfl⟩
  | succ i ih =>
    cases hact : acts[i]? with
    | none =>
      rw [before_succ_of_none hact]
      exact ih
    | some act =>
      rw [before_succ hact]
      rcases perform_replies (e.before acts i) act with heq | ⟨_, _, _, _, _, _, heq⟩
      · rw [heq]
        exact ih
      · rw [heq, (ReplayCache.limits_set _ _ _ _ _).1, (ReplayCache.limits_set _ _ _ _ _).2,
          (ReplayCache.limits_get _ _ _).1, (ReplayCache.limits_get _ _ _).2]
        exact ih

/-- Every reply that is kept was given to a request on its route under its key. -/
theorem given_of_mem_entries (h : e.replies.entries = []) (acts : List Act) (j : Nat) :
    ∀ entry ∈ (e.before acts j).replies.entries, ∃ i route key, i < j ∧
      entry.1 = CommandRoute.keyName route key ∧ e.Gives acts i route key entry.2.body := by
  induction j with
  | zero =>
    intro entry hentry
    have hempty : (e.before acts 0).replies.entries = [] := h
    rw [hempty] at hentry
    cases hentry
  | succ j ih =>
    have hbefore : ∀ entry ∈ (e.before acts j).replies.entries, ∃ i route key, i < j + 1 ∧
        entry.1 = CommandRoute.keyName route key ∧ e.Gives acts i route key entry.2.body := by
      intro entry hentry
      obtain ⟨i, route, key, hi, hgives⟩ := ih entry hentry
      exact ⟨i, route, key, Nat.lt_succ_of_lt hi, hgives⟩
    cases hact : acts[j]? with
    | none =>
      rw [before_succ_of_none hact]
      exact hbefore
    | some act =>
      rw [before_succ hact]
      rcases perform_replies (e.before acts j) act with
        heq | ⟨route, request, key, rfl, hkey, hexecuted, heq⟩
      · rw [heq]
        exact hbefore
      · rw [heq]
        intro entry hentry
        rcases ReplayCache.mem_set hentry with hold | ⟨hname, hentry⟩
        · exact hbefore entry (ReplayCache.entries_get_subset _ _ _ hold)
        · rw [CommandRoute.usable?_keyName] at hname
          refine ⟨j, route, key, Nat.lt_succ_self j, (Option.some.inj hname).symm, request, hact,
            hexecuted, ?_⟩
          rw [hentry]

/-! ## A reply stays -/

section Staying

variable {own : CommandRoute × String} {r : StoredReply Answer}
  {others : Finset (CommandRoute × String)}

/-- The names under which the replies of some routes and keys are kept. -/
def keyNames (others : Finset (CommandRoute × String)) : Finset String :=
  others.image fun pair => pair.1.keyName pair.2

/-- A reply stays whatever happens, if it is fresh for every request under a key, and there is room
for it and for those of the other keys. -/
theorem keeps_perform (h : e.replies.Keeps (own.1.keyName own.2) r (keyNames others))
    (hroom : others.card < e.replies.capacity)
    (hfresh : act.key?.isSome → e.replies.isFresh e.now r = true)
    (hothers : ∀ pair, act.key? = some pair → act.IsExecuted e → pair ≠ own → pair ∈ others) :
    (e.perform act).replies.Keeps (own.1.keyName own.2) r (keyNames others) := by
  rcases perform_replies e act with heq | ⟨route, request, key, rfl, hkey, hexecuted, heq⟩
  · rw [heq]
    exact h
  · have hpair : (Act.answer route request (some key)).key? = some (route, key) := by
      show ((some key).filter fun k => !k.isEmpty).map (route, ·) = _
      rw [Option.filter_some, hkey]
      rfl
    have hfresh := hfresh (hpair ▸ rfl)
    -- Under its own key nothing is carried out, since the reply is found.
    have hown : (route, key) ≠ own := by
      rintro rfl
      have hget := ReplayCache.get_of_fresh (CommandRoute.usable?_keyName route key) h.find? hfresh
      rw [← CommandRoute.scopedKey_some hkey] at hget
      exact absurd ((congrArg Prod.fst hget).symm.trans hexecuted) (Option.some_ne_none r)
    have hname : own.1.keyName own.2 ≠ route.keyName key := by
      intro hname
      obtain ⟨hroute, hkey⟩ := CommandRoute.keyName_injective hname
      exact hown (Prod.ext hroute.symm hkey.symm)
    have hmem : route.keyName key ∈ keyNames others :=
      Finset.mem_image_of_mem (fun pair : CommandRoute × String => pair.1.keyName pair.2)
        (hothers _ hpair hexecuted hown)
    have hcard : (keyNames others).card ≤ others.card := Finset.card_image_le
    obtain ⟨httl, hcapacity⟩ := ReplayCache.limits_get e.replies (some (route.keyName key)) e.now
    rw [heq]
    refine (h.get hname e.now).set hname hmem ?_ ?_ _ _
    · unfold ReplayCache.isFresh
      rw [httl]
      exact hfresh
    · rw [hcapacity]
      exact hcard.trans_lt hroom

/-- A reply that is given stays as long as that holds for everything that happens. -/
theorem keeps_before (own : CommandRoute × String) {acts : List Act} {i j : Nat} {reply : Answer}
    (hij : i < j) (hkey : own.2.isEmpty = false) (hgives : e.Gives acts i own.1 own.2 reply)
    (hroom : others.card < e.replies.capacity)
    (hfresh : ∀ k act, i < k → k < j → acts[k]? = some act → act.key?.isSome →
      (e.before acts k).now < (e.before acts i).now + e.replies.ttl)
    (hothers : ∀ k act pair, i < k → k < j → acts[k]? = some act → act.key? = some pair →
      act.IsExecuted (e.before acts k) → pair ≠ own → pair ∈ others) :
    (e.before acts j).replies.Keeps (own.1.keyName own.2)
      ⟨reply.status, reply, (e.before acts i).now⟩ (keyNames others) := by
  induction j with
  | zero => exact absurd hij (Nat.not_lt_zero i)
  | succ j ih =>
    rcases Nat.lt_succ_iff_lt_or_eq.mp hij with hlt | rfl
    · have hkeeps := ih hlt (fun k act hk hkj => hfresh k act hk (Nat.lt_succ_of_lt hkj))
        (fun k act pair hk hkj => hothers k act pair hk (Nat.lt_succ_of_lt hkj))
      cases hact : acts[j]? with
      | none =>
        rw [before_succ_of_none hact]
        exact hkeeps
      | some act =>
        obtain ⟨httl, hcapacity⟩ := limits_before e acts j
        rw [before_succ hact]
        refine keeps_perform hkeeps (hcapacity ▸ hroom) (fun hsome => ?_)
          fun pair => hothers j act pair hlt (Nat.lt_succ_self j) hact
        have hclock := hfresh j act hlt (Nat.lt_succ_self j) hact hsome
        rw [← httl] at hclock
        exact decide_eq_true (Int.sub_left_lt_of_lt_add hclock)
    · rw [hgives.replies, CommandRoute.scopedKey_some hkey]
      refine .of_set (CommandRoute.usable?_keyName _ _) ?_ _ _
      rw [(ReplayCache.limits_get _ _ _).2, (limits_before e acts i).2]
      exact Nat.zero_lt_of_lt hroom

end Staying

/-- In every run of a new engine: the reply to a request under a key is the reply to every later
request on the same route under the same key, whatever that one asks for, and that one leaves
everything as it is; if the later one and all requests under a key in between read a clock at which
the reply has not expired, and the requests in between that are carried out under another key or on
the other route have fewer keys than replies are kept. And whenever a request is not carried out,
its reply was given to an earlier request on the same route under the same key. -/
theorem replay_gives_first_reply (config : Config) (ids : IdSupply) (clock : Int)
    (acts : List Act) :
    let before := (new config ids clock).before acts
    (∀ i j route key reply, i < j → key.isEmpty = false →
      (new config ids clock).Gives acts i route key reply →
      (∀ k act, i < k → k < j → acts[k]? = some act → act.key?.isSome →
        (before k).now < (before i).now + config.replayTtl) →
      (before j).now < (before i).now + config.replayTtl →
      ∀ others : Finset (CommandRoute × String), others.card < max config.replays.capacity 1 →
      (∀ k act pair, i < k → k < j → acts[k]? = some act → act.key? = some pair →
        act.IsExecuted (before k) → pair ≠ (route, key) → pair ∈ others) →
      ∀ body, (before j).answer route body (some key) = (reply, before j)) ∧
    (∀ j route key body, ¬ (Act.answer route body (some key)).IsExecuted (before j) →
      ∃ i reply, i < j ∧ (new config ids clock).Gives acts i route key reply ∧
        (before j).answer route body (some key) = (reply, before j)) := by
  intro before
  refine ⟨?_, ?_⟩
  · intro i j route key reply hij hkey hgives hfresh hnow others hroom hothers body
    have hkeeps := keeps_before (route, key) hij hkey hgives hroom hfresh hothers
    have hfresh : (before j).replies.isFresh (before j).now
        ⟨reply.status, reply, (before i).now⟩ = true := by
      have httl : (before j).replies.ttl = config.replayTtl := (limits_before _ acts j).1
      rw [← httl] at hnow
      exact decide_eq_true (Int.sub_left_lt_of_lt_add hnow)
    have hget := ReplayCache.get_of_fresh (CommandRoute.usable?_keyName route key) hkeeps.find?
      hfresh
    rw [← CommandRoute.scopedKey_some hkey] at hget
    exact answer_of_kept body hget
  · intro j route key body hreplayed
    obtain ⟨k, kept, hk, hfind, hanswer⟩ := answer_of_replayed body hreplayed
    obtain ⟨i, route', key', hi, hname, hgives⟩ := given_of_mem_entries rfl acts j _
      (SortedMap.mem_of_find? hfind)
    rcases route.scopedKey_cases (some key) with hnone | ⟨own, hown, hkey⟩
    · rw [hnone] at hk
      cases hk
    · obtain rfl := Option.some.inj hown
      rw [CommandRoute.scopedKey_some hkey] at hk
      obtain ⟨rfl, rfl⟩ := CommandRoute.keyName_injective ((Option.some.inj hk).trans hname)
      exact ⟨i, kept.body, hi, hgives, hanswer⟩

/-- Room for two replies, for a second. -/
def narrow : Config := { replays := { ttl := 1000, capacity := 2 } }

/-- A box is asked for under a key, then under the same key on the other route a transaction that
fails, and the second is nearly over. -/
def retried : List Act :=
  [.answer .command createBox (some "k"), .answer .commands deleteBoxAndMore (some "k"),
    .advance 999]

/-- Both requests are answered as before, the one that was carried out and the one that failed. -/
theorem replay_gives_first_reply_retried :
    let e := new narrow (.stemmed "id") 0
    let before := e.before retried
    let reply := ((before 0).answer .command createBox (some "k")).1
    reply.status = 200 ∧ (∀ body, (before 3).answer .command body (some "k") = (reply, before 3)) ∧
      ∃ i failure, i < 3 ∧ e.Gives retried i .commands "k" failure ∧
        (before 3).answer .commands .null (some "k") = (failure, before 3) := by
  intro e before reply
  obtain ⟨hlater, hgiven⟩ := replay_gives_first_reply narrow (.stemmed "id") 0 retried
  have hgives : e.Gives retried 0 .command "k" reply := ⟨createBox, rfl, rfl, rfl⟩
  have hfresh : ∀ k act, 0 < k → k < 3 → retried[k]? = some act → act.key?.isSome →
      (before k).now < (before 0).now + narrow.replayTtl := by
    intro k act hk hk' hact hkey
    have hcases : k = 1 ∨ k = 2 := by omega
    rcases hcases with rfl | rfl
    · decide +kernel
    · obtain rfl := Option.some.inj hact
      cases hkey
  have hothers : ∀ k act pair, 0 < k → k < 3 → retried[k]? = some act → act.key? = some pair →
      act.IsExecuted (before k) → pair ≠ (.command, "k") →
      pair ∈ ({(.commands, "k")} : Finset (CommandRoute × String)) := by
    intro k act pair hk hk' hact hkey _ _
    have hcases : k = 1 ∨ k = 2 := by omega
    rcases hcases with rfl | rfl
    · obtain rfl := Option.some.inj hact
      exact Finset.mem_singleton.mpr (Option.some.inj hkey).symm
    · obtain rfl := Option.some.inj hact
      cases hkey
  have hnow : (before 3).now < (before 0).now + narrow.replayTtl := by decide +kernel
  have hkept : ((before 3).replies.get (CommandRoute.commands.scopedKey (some "k"))
      (before 3).now).1.isNone = false := by decide +kernel
  refine ⟨by decide +kernel, ?_, hgiven 3 .commands "k" .null fun hexecuted => ?_⟩
  · exact hlater 0 3 .command "k" reply (by decide) rfl hgives hfresh hnow _ (by decide) hothers
  · rw [show _ = none from hexecuted] at hkept
    cases hkept

end Engine

end SharedScene
