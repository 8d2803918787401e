import SharedScene.Proofs.Engine.Replay
import SharedScene.Proofs.ReplayCache.Outline

/-!
# Requests without a key

Whether a request is carried out or answered with a reply of before is decided by keys and the clock
alone. What requests ask for, what becomes of them, and whatever else happens to an engine play no
part: an engine has an **outline**, which knows for which keys there are replies and since when, and
after a run it is what the keys and the moves of the clock have made of it (`Engine.outline_run`).
So two runs with the same keys and the same moves of the clock carry out the same requests.

A request without a key leaves nothing there, and neither does one under the empty key
(`Engine.unkeyed_request_takes_no_part`).

**A blank key is a key.** The cache takes blank keys for none, but it never gets one: it gets the
name of the route in front of the key. So a blank key that is not empty counts like any other, and a
request under it is not carried out twice (`Engine.blank_key_is_replayed`).
-/

namespace SharedScene

theorem CommandRoute.scopedKey_eq_none_iff {route : CommandRoute} {key : Option String} :
    route.scopedKey key = none ↔ key = none ∨ key = some "" := by
  unfold scopedKey
  cases key with
  | none => exact iff_of_true rfl (.inl rfl)
  | some own => simp

namespace Engine

variable {e e' : Engine} {route : CommandRoute} {key : Option String}

/-! ## Keys and the clock -/

/-- What decides whether a request is carried out: for which keys there are replies and since when,
and the clock. -/
structure Outline where
  replies : ReplayCache Unit
  clock : Int

def outline (e : Engine) : Outline := ⟨e.replies.outline, e.clock⟩

/-- What happens to an outline: a request whose reply is kept under a name, or a move of the
clock. -/
inductive Cue where
  | request (name : String)
  | advance (ms : Int)
  | setClock (ms : Int)

/-- What the outline learns of what happens to an engine. -/
def Act.cue? : Act → Option Cue
  | .answer route _ key => (route.scopedKey key).map .request
  | .advance ms => some (.advance ms)
  | .setClock ms => some (.setClock ms)
  | _ => none

namespace Outline

def now (o : Outline) : Instant := if Instant.hasDate o.clock then o.clock else 0

/-- The outline after something happened. A name is noted unless there is a reply under it. -/
def perform (o : Outline) : Cue → Outline
  | .request name =>
    match o.replies.get name o.now with
    | (some _, replies) => { o with replies }
    | (none, replies) => { o with replies := replies.set name 0 () o.now }
  | .advance ms => { o with clock := Int.bmod (o.clock + ms) (Nat.pow 2 64) }
  | .setClock ms => { o with clock := ms }

end Outline

/-- What an engine finds under a name, its outline finds at the same time. -/
theorem get_outline (e : Engine) (key : Option String) :
    e.outline.replies.get key e.outline.now =
      ((e.replies.get key e.now).1.map StoredReply.outline,
        (e.replies.get key e.now).2.outline) :=
  e.replies.get_outline key e.now

/-- Engines with the same outline carry out the same requests. -/
theorem isExecuted_congr (h : e.outline = e'.outline) (route : CommandRoute) (body body' : Json)
    (key : Option String) : (Act.answer route body key).IsExecuted e ↔
      (Act.answer route body' key).IsExecuted e' := by
  have hfound : ∀ e : Engine, (e.replies.get (route.scopedKey key) e.now).1 = none ↔
      (e.outline.replies.get (route.scopedKey key) e.outline.now).1 = none := by
    intro e
    rw [get_outline, Option.map_eq_none_iff]
  exact (hfound e).trans (h ▸ (hfound e').symm)

/-! ## One request -/

theorem clock_answer (e : Engine) (route : CommandRoute) (body : Json) (key : Option String) :
    (e.answer route body key).2.clock = e.clock := by
  rcases hget : e.replies.get (route.scopedKey key) e.now with ⟨kept | kept, replies⟩
  · rw [answer_of_executed body hget]
    exact (runRoute_keeps { e with replies } route body).2
  · rw [answer_of_kept body hget]

/-- Without a key no reply is found, and the question leaves no trace. -/
theorem get_of_unkeyed (hkey : route.scopedKey key = none) (e : Engine) :
    e.replies.get (route.scopedKey key) e.now = (none, e.replies) := by
  rw [hkey]
  rfl

/-- A request without a key is carried out, and its reply is not kept. -/
theorem answer_of_unkeyed (hkey : route.scopedKey key = none) (e : Engine) (body : Json) :
    e.answer route body key = ((e.runRoute route body).1, (e.runRoute route body).2.publish) := by
  rw [answer_of_executed body (get_of_unkeyed hkey e), hkey]
  rfl

theorem replies_of_unkeyed (hkey : route.scopedKey key = none) (e : Engine) (body : Json) :
    (e.answer route body key).2.replies = e.replies := by
  rw [answer_of_unkeyed hkey]
  exact (runRoute_keeps e route body).1

theorem outline_of_unkeyed (hkey : route.scopedKey key = none) (e : Engine) (body : Json) :
    (e.answer route body key).2.outline = e.outline := by
  unfold outline
  rw [replies_of_unkeyed hkey, clock_answer]

/-- The reply to a request that is carried out under a key is the newest that is kept. -/
theorem getLast?_of_executed {own : String} (hown : own ≠ "") (hcapacity : 0 < e.replies.capacity)
    {body : Json} (h : (Act.answer route body (some own)).IsExecuted e) :
    let done := e.answer route body (some own)
    done.2.replies.entries.getLast? =
      some (route.keyName own, ⟨done.1.status, done.1, e.now⟩) := by
  intro done
  have hkey : own.isEmpty = false := Bool.eq_false_iff.mpr (mt String.isEmpty_iff.mp hown)
  rw [replies_of_executed h, CommandRoute.scopedKey_some hkey]
  refine ReplayCache.getLast?_set (CommandRoute.usable?_keyName route own) ?_ _ _
  rw [(ReplayCache.limits_get _ _ _).2]
  exact hcapacity

/-- A request under a key does to the outline what the name of the key says. -/
theorem outline_answer {name : String} (hname : route.scopedKey key = some name) (e : Engine)
    (body : Json) :
    (e.answer route body key).2.outline = e.outline.perform (.request name) := by
  unfold Outline.perform
  dsimp only
  rw [get_outline]
  rcases hget : e.replies.get (some name) e.now with ⟨kept | kept, replies⟩
  · have hexecuted : (Act.answer route body key).IsExecuted e := by
      show (e.replies.get (route.scopedKey key) e.now).1 = none
      rw [hname, hget]
    have hreplies := replies_of_executed hexecuted
    rw [hname, hget] at hreplies
    unfold outline
    rw [hreplies, ReplayCache.outline_set, clock_answer]
    rfl
  · obtain ⟨_, _, _, rfl⟩ := ReplayCache.get_eq_some hget
    rw [answer_of_kept body (hname ▸ hget)]
    rfl

/-! ## A run -/

/-- Whatever happens does to the outline what its cue says, and without a cue nothing. -/
theorem outline_perform (e : Engine) (act : Act) :
    (e.perform act).outline = act.cue?.elim e.outline e.outline.perform := by
  cases act with
  | answer route body key =>
    show (e.answer route body key).2.outline =
      ((route.scopedKey key).map Cue.request).elim e.outline e.outline.perform
    cases hkey : route.scopedKey key with
    | none => exact outline_of_unkeyed hkey e body
    | some name => exact outline_answer hkey e body
  | change message origin =>
    show _ = e.outline
    rcases perform_change e message origin with heq | ⟨outcome, store, _, heq⟩ <;> rw [heq]
    rfl
  | resync | takePending | acquire | release | readLeases | advance | setClock | setRuns => rfl

/-- The outline after a run is what the cues of the run have made of it. -/
theorem outline_run (e : Engine) (acts : List Act) :
    (e.run acts).outline = (acts.filterMap Act.cue?).foldl Outline.perform e.outline := by
  induction acts generalizing e with
  | nil => rfl
  | cons act acts ih =>
    show ((e.perform act).run acts).outline = _
    rw [ih, outline_perform, List.filterMap_cons]
    cases act.cue? <;> rfl

theorem outline_run_congr (h : e.outline = e'.outline) {acts acts' : List Act}
    (hcues : acts.filterMap Act.cue? = acts'.filterMap Act.cue?) :
    (e.run acts).outline = (e'.run acts').outline := by
  rw [outline_run, outline_run, h, hcues]

theorem capacity_run (e : Engine) (acts : List Act) :
    (e.run acts).replies.capacity = e.replies.capacity := by
  have hlimits := (limits_before e acts acts.length).2
  unfold before at hlimits
  rwa [List.take_length] at hlimits

/-- In every run of a new engine and on both routes, a request under no key or under the empty one
is carried out, as if no reply were kept, and the replies that are kept stay as they are. It makes
no difference to whatever follows: when the same keys come and the clock moves alike, the same
requests are carried out and the same get a reply of before as if it had not been made, and replies
are kept for the same keys and since the same times.

Any other key counts, also when it is blank: the reply to a request that is carried out under it is
kept, and is the newest. -/
theorem unkeyed_request_takes_no_part (config : Config) (ids : IdSupply) (clock : Int)
    (acts : List Act) (route : CommandRoute) (body : Json) (key : Option String) :
    let e := (new config ids clock).run acts
    let done := e.answer route body key
    (key = none ∨ key = some "" →
      (Act.answer route body key).IsExecuted e ∧
      done = ((e.runRoute route body).1, (e.runRoute route body).2.publish) ∧
      done.2.replies = e.replies ∧
      ∀ later later', later.filterMap Act.cue? = later'.filterMap Act.cue? →
        (done.2.run later).replies.outline = (e.run later').replies.outline ∧
        ∀ route body body' key, (Act.answer route body key).IsExecuted (done.2.run later) ↔
          (Act.answer route body' key).IsExecuted (e.run later')) ∧
    (∀ own, key = some own → own ≠ "" → (Act.answer route body key).IsExecuted e →
      done.2.replies.entries.getLast? =
        some (route.keyName own, ⟨done.1.status, done.1, e.now⟩)) := by
  intro e done
  refine ⟨fun hkey => ?_, ?_⟩
  · have hunkeyed : route.scopedKey key = none := CommandRoute.scopedKey_eq_none_iff.mpr hkey
    have hexecuted : (Act.answer route body key).IsExecuted e :=
      congrArg Prod.fst (get_of_unkeyed hunkeyed e)
    refine ⟨hexecuted, answer_of_unkeyed hunkeyed e body, replies_of_unkeyed hunkeyed e body, ?_⟩
    intro later later' hcues
    have hlater := outline_run_congr (outline_of_unkeyed hunkeyed e body) hcues
    exact ⟨congrArg Outline.replies hlater, isExecuted_congr hlater⟩
  · rintro own rfl hown hexecuted
    refine getLast?_of_executed hown ?_ hexecuted
    rw [capacity_run]
    exact Nat.le_max_right config.replays.capacity 1

/-- Between two requests under one key there is one under the empty key. The second still gets the
reply to the first, as it would if nobody took the waiting changes. Under a blank key the reply to
the one in between is kept. -/
theorem unkeyed_request_takes_no_part_between :
    let e := (new narrow (.stemmed "id") 0).run [.answer .command createBox (some "k")]
    let unkeyed := (e.answer .commands deleteBoxAndMore (some "")).2
    let blank := (e.answer .commands deleteBoxAndMore (some " ")).2
    unkeyed.replies = e.replies ∧
      ¬ (Act.answer .command .null (some "k")).IsExecuted
        (unkeyed.run [.takePending, .advance 999]) ∧
      blank.replies.entries.getLast?.map Prod.fst = some "commands: " := by
  intro e unkeyed blank
  obtain ⟨hempty, -⟩ := unkeyed_request_takes_no_part narrow (.stemmed "id") 0
    [.answer .command createBox (some "k")] .commands deleteBoxAndMore (some "")
  obtain ⟨-, hblank⟩ := unkeyed_request_takes_no_part narrow (.stemmed "id") 0
    [.answer .command createBox (some "k")] .commands deleteBoxAndMore (some " ")
  obtain ⟨-, -, hreplies, hlater⟩ := hempty (.inr rfl)
  obtain ⟨-, hsame⟩ := hlater [.takePending, .advance 999] [.advance 999] rfl
  have hkept : ((e.run [.advance 999]).replies.get (CommandRoute.command.scopedKey (some "k"))
      (e.run [.advance 999]).now).1.isNone = false := by decide +kernel
  refine ⟨hreplies, fun hexecuted => ?_, ?_⟩
  · rw [show _ = none from (hsame .command .null .null (some "k")).mp hexecuted] at hkept
    cases hkept
  · exact congrArg (Option.map Prod.fst) (hblank " " rfl (by decide) rfl)

/-- A request to create a box, whatever the revision. -/
def createAnyBox : Json :=
  (CommandRequest.mk none (.obj [("op", .str "create"), ("parentPath", .arr []),
    ("className", .str "Part"), ("name", .str "Box")])).toJson

/-- Under a blank key a box is asked for twice: the reply to the first request is kept, and the
second gets that and does nothing. Under no key there would be a second box. -/
theorem blank_key_is_replayed :
    let first := (new {} (.stemmed "id") 0).answer .command createAnyBox (some " ")
    Text.isBlankText " " = true ∧
      first.2.replies.entries.map Prod.fst = ["command: "] ∧
      ¬ (Act.answer .command createAnyBox (some " ")).IsExecuted first.2 ∧
      first.2.answer .command createAnyBox (some " ") = first ∧ first.2.revision = 1 ∧
      (first.2.answer .command createAnyBox none).2.revision = 2 := by
  intro first
  have hkept : first.2.replies.get (CommandRoute.command.scopedKey (some " ")) first.2.now =
      (some ⟨200, first.1, 0⟩, first.2.replies) := rfl
  refine ⟨by decide +kernel, by decide +kernel, fun hexecuted => ?_,
    answer_of_kept createAnyBox hkept, by decide +kernel, by decide +kernel⟩
  cases (congrArg Prod.fst hkept).symm.trans hexecuted

end Engine

end SharedScene
