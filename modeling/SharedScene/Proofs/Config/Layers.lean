import Mathlib
import SharedScene.Config.Document
import SharedScene.Proofs.Success

/-!
# What layers come to

A layer names some fields of the configuration and not others. It is completed with the defaults
when it is read, and a field that was not written cannot be told from one that was given its
default; the overlay takes both for not written. So every field comes to the value of the last layer
that writes another value than the default there, and to the default when no layer does
(`layers_come_to`). A default that is written over a lower layer that says otherwise has no effect
(`written_default_has_no_effect`).

Every field is said once, by its place in a document and by where the configuration keeps it
(`Config.Field`). That a section which is read keeps what stands at a place, or the default, is one
law for all of them (`Decoder.Completes`), and goes inwards from the section to its parts.
-/

namespace SharedScene

open Json (Record Decoder)
open Success

/-! ## Parts of a document -/

namespace Json

/-- The part of a record in either layout: by name, or by its position in a list. -/
def partAt? (position : Nat) (name : String) : Json → Option Json
  | .obj members => (members.find? fun m => m.1 == name).map Prod.snd
  | .arr items => items[position]?
  | _ => none

/-- The part at a place, from the outermost record inwards. -/
def at? : List (Nat × String) → Json → Option Json
  | [], v => some v
  | (position, name) :: place, v => (v.partAt? position name).bind (at? place)

variable {α β γ : Type} {v : Json} {r : Record} {surplus : Record.Surplus} {parts position : Nat}
  {name : String} {part : Option Json}

/-- What a record says of a part is what stands there. -/
theorem partAt?_eq (hr : Record.ofJsonWith surplus parts v = .ok r) (hposition : position < parts)
    (hpart : r.part? position name = .ok part) : v.partAt? position name = part := by
  cases v with
  | obj members =>
    cases hr
    rw [partAt?, ← List.head?_filter]
    unfold Record.part? at hpart
    dsimp only at hpart
    split at hpart
    · next hnone => cases hpart; rw [hnone]; rfl
    · next hone => cases hpart; rw [hone]; rfl
    · cases hpart
  | arr items =>
    cases surplus with
    | refused =>
      simp only [Record.ofJsonWith, Record.ofJson, Record.bounded] at hr
      split at hr
      · cases hr
        exact Except.ok.inj hpart
      · cases hr
    | ignored =>
      cases hr
      rw [← Except.ok.inj hpart, List.getElem?_take_of_lt hposition]
      rfl
  | null => cases hr
  | bool b => cases hr
  | num n => cases hr
  | str s => cases hr
  | unreadable => cases hr

namespace Decoder

/-- What is read keeps one thing of the part at a place, or a default when there is no such part. -/
def Completes (d : Decoder α) (place : List (Nat × String)) (read : Decoder β) (get : α → β)
    (standard : β) : Prop :=
  ∀ v a, d v = .ok a →
    get a = ((v.at? place).bind fun w => (read w).toOption).getD standard

/-- What is read of a record has one of its parts from what stands there, or by default. -/
def Reads (d : Decoder α) (position : Nat) (name : String) (read : Decoder β) (get : α → β)
    (standard : β) : Prop :=
  ∀ v a, d v = .ok a → (v.partAt? position name = none ∧ get a = standard) ∨
    ∃ w, v.partAt? position name = some w ∧ read w = .ok (get a)

variable {d : Decoder α} {read : Decoder β} {get : α → β} {standard : β}

theorem Reads.of_withDefault (surplus : Record.Surplus) (hposition : position < parts)
    (h : ∀ v a, d v = .ok a → ∃ r, Record.ofJsonWith surplus parts v = .ok r ∧
      r.withDefault position name standard read = .ok (get a)) :
    d.Reads position name read get standard := by
  intro v a ha
  obtain ⟨r, hr, hget⟩ := h v a ha
  obtain ⟨part, hpart, hget⟩ := bind_eq_ok.mp hget
  rw [partAt?_eq hr hposition hpart]
  cases part with
  | none => exact .inl ⟨rfl, (Except.ok.inj hget).symm⟩
  | some w => exact .inr ⟨w, rfl, hget⟩

/-- A part of a part is completed when the outer one is read as the inner one completes it. -/
theorem Reads.within (h : d.Reads position name read get standard) (get' : β → γ)
    {place : List (Nat × String)} {inner : Decoder γ}
    (hinner : read.Completes place inner get' (get' standard)) :
    d.Completes ((position, name) :: place) inner (get' ∘ get) (get' standard) := by
  intro v a ha
  rcases h v a ha with ⟨hnone, hget⟩ | ⟨w, hsome, hget⟩
  · rw [at?, hnone, Function.comp_apply, hget]
    rfl
  · rw [at?, hsome]
    exact hinner w _ hget

theorem Completes.of_withDefault (surplus : Record.Surplus) (hposition : position < parts)
    (h : ∀ v a, d v = .ok a → ∃ r, Record.ofJsonWith surplus parts v = .ok r ∧
      r.withDefault position name standard read = .ok (get a)) :
    d.Completes [(position, name)] read get standard := by
  refine (Reads.of_withDefault surplus hposition h).within id fun w b hb => ?_
  rw [at?, Option.bind_some, hb]
  rfl

end Decoder

end Json

namespace Config

/-! ## Fields -/

/-- The fields of the configuration, with the type of their values. -/
inductive Field : Type → Type 1 where
  | leaseTtl : Field Nat
  | replayTtl : Field Nat
  | replayCapacity : Field Nat
  | historyLimit : Field Nat
  | timeout : Field Nat
  | maxRetries : Field Nat
  | retryDelay : Field Nat
  | backoffFactor : Field Float
  | maxRetryDelay : Field Nat
  | channelCapacity : Field Nat
  | logFilter : Field String

namespace Field

variable {α : Type}

/-- Where a document has a field: in each record on the way, its position and its name. -/
def place : Field α → List (Nat × String)
  | leaseTtl => [(0, "locks"), (0, "ttl_ms")]
  | replayTtl => [(1, "idempotency"), (0, "ttl_ms")]
  | replayCapacity => [(1, "idempotency"), (1, "capacity")]
  | historyLimit => [(2, "scheduler"), (0, "history_limit")]
  | timeout => [(2, "scheduler"), (1, "default_safety"), (0, "timeout_ms")]
  | maxRetries => [(2, "scheduler"), (1, "default_safety"), (1, "max_retries")]
  | retryDelay => [(2, "scheduler"), (1, "default_safety"), (2, "retry_delay_ms")]
  | backoffFactor => [(2, "scheduler"), (1, "default_safety"), (3, "backoff_factor")]
  | maxRetryDelay => [(2, "scheduler"), (1, "default_safety"), (4, "max_retry_delay_ms")]
  | channelCapacity => [(3, "events"), (0, "channel_capacity")]
  | logFilter => [(4, "log"), (0, "filter")]

/-- How the value of a field is read. -/
def read : Field α → Decoder α
  | leaseTtl => Json.Decode.nat64
  | replayTtl => Json.Decode.nat64
  | replayCapacity => Json.Decode.nat64
  | historyLimit => Json.Decode.nat64
  | timeout => Json.Decode.nat64
  | maxRetries => Json.Decode.nat32
  | retryDelay => Json.Decode.nat64
  | backoffFactor => Json.Decode.float
  | maxRetryDelay => Json.Decode.nat64
  | channelCapacity => Json.Decode.nat64
  | logFilter => Json.Decode.text

/-- Where the configuration keeps a field. -/
def get : Field α → Config → α
  | leaseTtl, c => c.leases.ttl
  | replayTtl, c => c.replays.ttl
  | replayCapacity, c => c.replays.capacity
  | historyLimit, c => c.scheduler.historyLimit
  | timeout, c => c.scheduler.safety.timeout
  | maxRetries, c => c.scheduler.safety.maxRetries
  | retryDelay, c => c.scheduler.safety.retryDelay
  | backoffFactor, c => c.scheduler.safety.backoffFactor
  | maxRetryDelay, c => c.scheduler.safety.maxRetryDelay
  | channelCapacity, c => c.events.channelCapacity
  | logFilter, c => c.log.filter

/-- The built-in default of a field. -/
def standard (f : Field α) : α := f.get {}

/-- Whether a value of a field is its default. -/
def isStandard : Field α → α → Bool
  | backoffFactor, x => x == standard backoffFactor
  | logFilter, text => text == standard logFilter
  | leaseTtl, n => n == standard leaseTtl
  | replayTtl, n => n == standard replayTtl
  | replayCapacity, n => n == standard replayCapacity
  | historyLimit, n => n == standard historyLimit
  | timeout, n => n == standard timeout
  | maxRetries, n => n == standard maxRetries
  | retryDelay, n => n == standard retryDelay
  | maxRetryDelay, n => n == standard maxRetryDelay
  | channelCapacity, n => n == standard channelCapacity

/-- The value that a document writes for a field. -/
def written? (f : Field α) (doc : Json) : Option α :=
  (doc.at? f.place).bind fun w => (f.read w).toOption

end Field

/-! ## What is read of a document -/

section Reading

variable {extra : Record.Surplus} {v : Json}

theorem safetyOfJson_eq_ok {p : SafetyPolicy} (h : safetyOfJson extra v = .ok p) :
    ∃ r, Record.ofJsonWith extra 5 v = .ok r ∧
      r.withDefault 0 "timeout_ms" (Field.standard .timeout) Json.Decode.nat64 = .ok p.timeout ∧
      r.withDefault 1 "max_retries" (Field.standard .maxRetries) Json.Decode.nat32 =
        .ok p.maxRetries ∧
      r.withDefault 2 "retry_delay_ms" (Field.standard .retryDelay) Json.Decode.nat64 =
        .ok p.retryDelay ∧
      r.withDefault 3 "backoff_factor" (Field.standard .backoffFactor) Json.Decode.float =
        .ok p.backoffFactor ∧
      r.withDefault 4 "max_retry_delay_ms" (Field.standard .maxRetryDelay) Json.Decode.nat64 =
        .ok p.maxRetryDelay := by
  simp only [safetyOfJson, bind_eq_ok, pure_eq_ok] at h
  obtain ⟨r, hr, _, htimeout, _, hretries, _, hdelay, _, hfactor, _, hmax, rfl⟩ := h
  exact ⟨r, hr, htimeout, hretries, hdelay, hfactor, hmax⟩

theorem schedulerOfJson_eq_ok {c : SchedulerConfig} (h : schedulerOfJson extra v = .ok c) :
    ∃ r, Record.ofJsonWith extra 2 v = .ok r ∧
      r.withDefault 0 "history_limit" (Field.standard .historyLimit) Json.Decode.nat64 =
        .ok c.historyLimit ∧
      r.withDefault 1 "default_safety" {} (safetyOfJson extra) = .ok c.safety := by
  simp only [schedulerOfJson, bind_eq_ok, pure_eq_ok] at h
  obtain ⟨r, hr, _, hlimit, _, hsafety, rfl⟩ := h
  exact ⟨r, hr, hlimit, hsafety⟩

theorem replaysOfJson_eq_ok {c : ReplayConfig} (h : replaysOfJson extra v = .ok c) :
    ∃ r, Record.ofJsonWith extra 2 v = .ok r ∧
      r.withDefault 0 "ttl_ms" (Field.standard .replayTtl) Json.Decode.nat64 = .ok c.ttl ∧
      r.withDefault 1 "capacity" (Field.standard .replayCapacity) Json.Decode.nat64 =
        .ok c.capacity := by
  simp only [replaysOfJson, bind_eq_ok, pure_eq_ok] at h
  obtain ⟨r, hr, _, httl, _, hcapacity, rfl⟩ := h
  exact ⟨r, hr, httl, hcapacity⟩

theorem ofJson_eq_ok {c : Config} (h : ofJson extra v = .ok c) :
    ∃ r, Record.ofJsonWith extra 5 v = .ok r ∧
      r.withDefault 0 "locks" {} (leasesOfJson extra) = .ok c.leases ∧
      r.withDefault 1 "idempotency" {} (replaysOfJson extra) = .ok c.replays ∧
      r.withDefault 2 "scheduler" {} (schedulerOfJson extra) = .ok c.scheduler ∧
      r.withDefault 3 "events" {} (eventsOfJson extra) = .ok c.events ∧
      r.withDefault 4 "log" {} (logOfJson extra) = .ok c.log := by
  simp only [ofJson, bind_eq_ok, pure_eq_ok] at h
  obtain ⟨r, hr, _, hleases, _, hreplays, _, hscheduler, _, hevents, _, hlog, rfl⟩ := h
  exact ⟨r, hr, hleases, hreplays, hscheduler, hevents, hlog⟩

theorem leasesOfJson_eq_ok {c : LeaseConfig} (h : leasesOfJson extra v = .ok c) :
    ∃ r, Record.ofJsonWith extra 1 v = .ok r ∧
      r.withDefault 0 "ttl_ms" (Field.standard .leaseTtl) Json.Decode.nat64 = .ok c.ttl := by
  simp only [leasesOfJson, bind_eq_ok, pure_eq_ok] at h
  obtain ⟨r, hr, _, httl, rfl⟩ := h
  exact ⟨r, hr, httl⟩

theorem eventsOfJson_eq_ok {c : EventConfig} (h : eventsOfJson extra v = .ok c) :
    ∃ r, Record.ofJsonWith extra 1 v = .ok r ∧
      r.withDefault 0 "channel_capacity" (Field.standard .channelCapacity) Json.Decode.nat64 =
        .ok c.channelCapacity := by
  simp only [eventsOfJson, bind_eq_ok, pure_eq_ok] at h
  obtain ⟨r, hr, _, hcapacity, rfl⟩ := h
  exact ⟨r, hr, hcapacity⟩

theorem logOfJson_eq_ok {c : LogConfig} (h : logOfJson extra v = .ok c) :
    ∃ r, Record.ofJsonWith extra 1 v = .ok r ∧
      r.withDefault 0 "filter" (Field.standard .logFilter) Json.Decode.text = .ok c.filter := by
  simp only [logOfJson, bind_eq_ok, pure_eq_ok] at h
  obtain ⟨r, hr, _, hfilter, rfl⟩ := h
  exact ⟨r, hr, hfilter⟩

/-- Every field of a configuration that is read is what the document writes there, or the
default. -/
theorem completes (extra : Record.Surplus) {α : Type} (f : Field α) :
    (ofJson extra).Completes f.place f.read f.get f.standard := by
  have hleases : (ofJson extra).Reads 0 "locks" (leasesOfJson extra) (·.leases) {} := by
    refine .of_withDefault extra (show 0 < 5 by decide) fun v c h => ?_
    obtain ⟨r, hr, hpart, _⟩ := ofJson_eq_ok h
    exact ⟨r, hr, hpart⟩
  have hreplays : (ofJson extra).Reads 1 "idempotency" (replaysOfJson extra) (·.replays) {} := by
    refine .of_withDefault extra (show 1 < 5 by decide) fun v c h => ?_
    obtain ⟨r, hr, _, hpart, _⟩ := ofJson_eq_ok h
    exact ⟨r, hr, hpart⟩
  have hscheduler :
      (ofJson extra).Reads 2 "scheduler" (schedulerOfJson extra) (·.scheduler) {} := by
    refine .of_withDefault extra (show 2 < 5 by decide) fun v c h => ?_
    obtain ⟨r, hr, _, _, hpart, _⟩ := ofJson_eq_ok h
    exact ⟨r, hr, hpart⟩
  have hevents : (ofJson extra).Reads 3 "events" (eventsOfJson extra) (·.events) {} := by
    refine .of_withDefault extra (show 3 < 5 by decide) fun v c h => ?_
    obtain ⟨r, hr, _, _, _, hpart, _⟩ := ofJson_eq_ok h
    exact ⟨r, hr, hpart⟩
  have hlog : (ofJson extra).Reads 4 "log" (logOfJson extra) (·.log) {} := by
    refine .of_withDefault extra (show 4 < 5 by decide) fun v c h => ?_
    obtain ⟨r, hr, _, _, _, _, hpart⟩ := ofJson_eq_ok h
    exact ⟨r, hr, hpart⟩
  have hsafety :
      (schedulerOfJson extra).Reads 1 "default_safety" (safetyOfJson extra) (·.safety) {} := by
    refine .of_withDefault extra (show 1 < 2 by decide) fun v c h => ?_
    obtain ⟨r, hr, _, hpart⟩ := schedulerOfJson_eq_ok h
    exact ⟨r, hr, hpart⟩
  have hlimits : ∀ {β : Type} {place : List (Nat × String)} {inner : Decoder β}
      (get : SafetyPolicy → β), (safetyOfJson extra).Completes place inner get (get {}) →
        (ofJson extra).Completes ((2, "scheduler") :: (1, "default_safety") :: place) inner
          (get ∘ (·.scheduler.safety)) (get {}) :=
    fun get h => hscheduler.within (get ∘ (·.safety)) (hsafety.within get h)
  cases f with
  | leaseTtl =>
    refine hleases.within (·.ttl) (.of_withDefault extra (show 0 < 1 by decide) ?_)
    exact fun _ _ => leasesOfJson_eq_ok
  | replayTtl =>
    refine hreplays.within (·.ttl) (.of_withDefault extra (show 0 < 2 by decide) ?_)
    intro v c h
    obtain ⟨r, hr, hpart, _⟩ := replaysOfJson_eq_ok h
    exact ⟨r, hr, hpart⟩
  | replayCapacity =>
    refine hreplays.within (·.capacity) (.of_withDefault extra (show 1 < 2 by decide) ?_)
    intro v c h
    obtain ⟨r, hr, _, hpart⟩ := replaysOfJson_eq_ok h
    exact ⟨r, hr, hpart⟩
  | historyLimit =>
    refine hscheduler.within (·.historyLimit) (.of_withDefault extra (show 0 < 2 by decide) ?_)
    intro v c h
    obtain ⟨r, hr, hpart, _⟩ := schedulerOfJson_eq_ok h
    exact ⟨r, hr, hpart⟩
  | timeout =>
    refine hlimits (·.timeout) (.of_withDefault extra (show 0 < 5 by decide) ?_)
    intro v p h
    obtain ⟨r, hr, hpart, _⟩ := safetyOfJson_eq_ok h
    exact ⟨r, hr, hpart⟩
  | maxRetries =>
    refine hlimits (·.maxRetries) (.of_withDefault extra (show 1 < 5 by decide) ?_)
    intro v p h
    obtain ⟨r, hr, _, hpart, _⟩ := safetyOfJson_eq_ok h
    exact ⟨r, hr, hpart⟩
  | retryDelay =>
    refine hlimits (·.retryDelay) (.of_withDefault extra (show 2 < 5 by decide) ?_)
    intro v p h
    obtain ⟨r, hr, _, _, hpart, _⟩ := safetyOfJson_eq_ok h
    exact ⟨r, hr, hpart⟩
  | backoffFactor =>
    refine hlimits (·.backoffFactor) (.of_withDefault extra (show 3 < 5 by decide) ?_)
    intro v p h
    obtain ⟨r, hr, _, _, _, hpart, _⟩ := safetyOfJson_eq_ok h
    exact ⟨r, hr, hpart⟩
  | maxRetryDelay =>
    refine hlimits (·.maxRetryDelay) (.of_withDefault extra (show 4 < 5 by decide) ?_)
    intro v p h
    obtain ⟨r, hr, _, _, _, _, hpart⟩ := safetyOfJson_eq_ok h
    exact ⟨r, hr, hpart⟩
  | channelCapacity =>
    refine hevents.within (·.channelCapacity) (.of_withDefault extra (show 0 < 1 by decide) ?_)
    exact fun _ _ => eventsOfJson_eq_ok
  | logFilter =>
    refine hlog.within (·.filter) (.of_withDefault extra (show 0 < 1 by decide) ?_)
    exact fun _ _ => logOfJson_eq_ok

end Reading

/-! ## Layer upon layer -/

namespace Field

variable {α : Type}

theorem isStandard_standard (f : Field α) : f.isStandard f.standard = true := by
  cases f <;> decide +kernel

theorem get_overlay (f : Field α) (a b : Config) :
    f.get (overlay a b) = if f.isStandard (f.get b) then f.get a else f.get b := by
  cases f <;> rfl

/-- The last of several values that is not the default, or the default. -/
def lastSet (f : Field α) (values : List α) : α :=
  ((values.filter fun a => !f.isStandard a).getLast?).getD f.standard

theorem lastSet_concat (f : Field α) (values : List α) (a : α) :
    f.lastSet (values ++ [a]) = if f.isStandard a then f.lastSet values else a := by
  unfold lastSet
  rw [List.filter_append]
  cases ha : f.isStandard a with
  | true => simp [ha]
  | false => simp [ha]

theorem get_ofLayers (f : Field α) (layers : List Config) :
    f.get (ofLayers layers) = f.lastSet (layers.map f.get) := by
  induction layers using List.reverseRecOn with
  | nil => rfl
  | append_singleton layers layer ih =>
    rw [List.map_append, List.map_singleton, lastSet_concat, ← ih, ofLayers, List.foldl_concat]
    exact f.get_overlay _ _

end Field

/-- A layer as it is given: the text of a file, or a value. -/
inductive Layer where
  | toml (text : String)
  | json (value : Json)

namespace Layer

variable {α : Type} {layer : Layer} {layers : List Layer} {c : Config} {configs : List Config}

/-- The configuration that a layer is completed to, or why it is none. -/
def parse : Layer → Except String Config
  | .toml text => ofToml text
  | .json value => (ofJson .refused value).mapError (·.message)

/-- The document that a layer holds. -/
def doc? : Layer → Option Json
  | .toml text => (Toml.read text).toOption
  | .json value => some value

/-- The value that a layer writes for a field. -/
def written? (f : Field α) (layer : Layer) : Option α := layer.doc?.bind f.written?

theorem get_of_parse (f : Field α) (h : layer.parse = .ok c) :
    f.get c = (layer.written? f).getD f.standard := by
  cases layer with
  | toml text =>
    simp only [parse, ofToml] at h
    split at h
    · cases h
    · next doc hread =>
      rw [written?, doc?, hread]
      exact completes .ignored f doc c (mapError_eq_ok.mp h)
  | json value => exact completes .refused f value c (mapError_eq_ok.mp h)

/-- What the completed layers say beyond the defaults is what the layers write beyond them. -/
theorem lastSet_of_parse (f : Field α) (h : layers.mapM parse = .ok configs) :
    f.lastSet (configs.map f.get) = f.lastSet (layers.filterMap (written? f)) := by
  suffices (configs.map f.get).filter (fun a => !f.isStandard a) =
      (layers.filterMap (written? f)).filter fun a => !f.isStandard a by
    rw [Field.lastSet, this]
    rfl
  induction layers generalizing configs with
  | nil =>
    cases h
    rfl
  | cons layer layers ih =>
    simp only [List.mapM_cons, bind_eq_ok, pure_eq_ok] at h
    obtain ⟨c, hc, rest, hrest, rfl⟩ := h
    rw [List.map_cons, List.filter_cons, ih hrest, get_of_parse f hc, List.filterMap_cons]
    cases layer.written? f with
    | none => rw [Option.getD_none, f.isStandard_standard]; rfl
    | some a => rw [Option.getD_some, List.filter_cons]

end Layer

/-- However many layers are put one over the other: when all of them can be read, every field comes
to the value of the last layer that writes another value than the default there, and to the default
when no layer does. -/
theorem layers_come_to {layers : List Layer} {configs : List Config}
    (h : layers.mapM Layer.parse = .ok configs) {α : Type} (f : Field α) :
    f.get (ofLayers configs) =
      (((layers.filterMap (Layer.written? f)).filter fun a => !f.isStandard a).getLast?).getD
        f.standard := by
  rw [f.get_ofLayers, Layer.lastSet_of_parse f h]
  rfl

/-- A value that sets how long a lease lasts. -/
def leasesLast (ms : Nat) : Layer := .json (.obj [("locks", .obj [("ttl_ms", .ofNat ms)])])

/-- Three layers: the second one writes two fields, one of them as a list and with its default, and
the third one writes nothing. -/
def stacked : List Layer :=
  [leasesLast 9000, .json (.obj [("locks", .arr [.ofNat 15000]),
    ("scheduler", .obj [("default_safety", .obj [("backoff_factor", .ofNat 3)])])]), .toml ""]

theorem layers_come_to_stacked : ∃ configs, stacked.mapM Layer.parse = .ok configs ∧
    (ofLayers configs).leases.ttl = 9000 ∧
    ((ofLayers configs).scheduler.safety.backoffFactor == 3.0) = true ∧
    (ofLayers configs).log.filter = "info" := by
  have hread : (stacked.mapM Layer.parse).isOk = true := by decide +kernel
  cases hconfigs : stacked.mapM Layer.parse with
  | error e =>
    rw [hconfigs] at hread
    cases hread
  | ok configs =>
    refine ⟨configs, rfl, ?_, ?_, ?_⟩
    · refine (layers_come_to hconfigs .leaseTtl).trans ?_
      decide +kernel
    · show (Field.get .backoffFactor (ofLayers configs) == 3.0) = true
      rw [layers_come_to hconfigs .backoffFactor]
      decide +kernel
    · refine (layers_come_to hconfigs .logFilter).trans ?_
      decide +kernel

/-- The last layer that writes a field does not always decide it: when it writes the default, the
value of a lower layer stays. -/
theorem written_default_has_no_effect :
    ¬ ∀ (layers : List Layer) (configs : List Config), layers.mapM Layer.parse = .ok configs →
      ∀ (α : Type) (f : Field α), f.get (ofLayers configs) =
        (layers.filterMap (Layer.written? f)).getLast?.getD f.standard := by
  intro h
  have hread : [leasesLast 9000, leasesLast 15000].mapM Layer.parse =
      .ok [{ leases := { ttl := 9000 } }, {}] := rfl
  have httl := h _ _ hread Nat .leaseTtl
  revert httl
  decide +kernel

end Config

end SharedScene
