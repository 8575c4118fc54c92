import FlowControl.Proofs.Duration.HumanNotation
import FlowControl.Proofs.Json.Overlay
import FlowControl.Settings.Text

/-!
# Settings laid over the standard ones

A text of settings lists what differs from the standard, section by section.  Whatever is left
out, in whatever order the rest stands and whatever else there is: the settings that are read are
those that were written, with the standard values for what was left out.
-/

namespace FlowControl

open Json

variable {t : List Char} {omitted : String → Bool}

/-! ## Single values -/

theorem Duration.takes_encode (d : Duration) : Takes Duration.read d.encode.toList d := by
  have hspells := spells_escaped (Human.format d)
  rw [encode, toList_stringText, String.toList_ofList]
  exact takes_spelled "a duration" hspells (Human.parse_format d)

theorem StatusCode.takes_name (c : StatusCode) :
    Takes StatusCode.read (stringText c.name).toList c := by
  rw [toList_stringText]
  exact takes_variant (spells_escaped _) (by cases c <;> rfl)

theorem Classification.takes_name (c : Classification) :
    Takes Classification.read (stringText c.name).toList c := by
  rw [toList_stringText]
  exact takes_variant (spells_escaped _) (by cases c <;> rfl)

/-- Is a text a list of the names of a set's codes, in any order? -/
def CodeSet.IsListed (s : CodeSet) (t : List Char) : Prop :=
  ∃ cs : List StatusCode, (∀ c, c ∈ cs ↔ s.contains c = true) ∧
    t = (listText (cs.map fun c => stringText c.name)).toList

/-- The codes of a set are what its list holds. -/
theorem CodeSet.ofList_eq {s : CodeSet} {cs : List StatusCode}
    (h : ∀ c, c ∈ cs ↔ s.contains c = true) : ofList cs = s := by
  refine CodeSet.ext ?_
  rw [← s.codes_eq]
  refine List.filter_congr fun c _ => ?_
  rw [Bool.eq_iff_iff, List.contains_iff_mem, h]
  rfl

theorem CodeSet.takes_isListed {s : CodeSet} (h : s.IsListed t) : Takes CodeSet.read t s := by
  obtain ⟨cs, hcs, rfl⟩ := h
  have hlist : Takes (Json.list StatusCode.read)
      (listText (cs.map fun c => stringText c.name)).toList cs := by
    rw [toList_listText, List.map_map]
    exact takes_list_map (fun c _ => isValue_stringText c.name) fun c _ => c.takes_name
  intro gap rest hgap hrest
  simp only [CodeSet.read, hlist gap rest hgap hrest, Except.map, ofList_eq hcs]

/-- The written list holds the codes in alphabetical order. -/
theorem CodeSet.isListed_encode (s : CodeSet) : s.IsListed s.encode.toList := by
  refine ⟨s.codes.mergeSort fun a b => decide (a.name ≤ b.name), fun c => ?_, ?_⟩
  · rw [List.mem_mergeSort, contains, List.contains_iff_mem]
  · have hnames : (s.codes.mergeSort fun a b => decide (a.name ≤ b.name)).map StatusCode.name =
        s.names := List.map_mergeSort fun _ _ _ _ => rfl
    rw [encode, ← hnames, List.map_map]
    rfl

theorem toList_toString (n : Nat) : (toString n).toList = Nat.toDigits 10 n := by
  rw [Nat.toString_eq_repr, Nat.toList_repr]

theorem takes_stringText (s : String) : Takes text (stringText s).toList s := by
  have htakes := takes_text (spells_escaped s.toList)
  rwa [String.ofList_toList, ← toList_stringText] at htakes

/-! ## Sections -/

namespace LimiterSettings

/-- The settings with the standard values for what is left out. -/
def without (s : LimiterSettings) (omitted : String → Bool) : LimiterSettings where
  capacity := if omitted "capacity" then standard.capacity else s.capacity
  refillInterval := if omitted "refill_interval" then standard.refillInterval else s.refillInterval
  ttlMultiplier :=
    if omitted "state_ttl_multiplier" then standard.ttlMultiplier else s.ttlMultiplier
  lockTtl := if omitted "lock_ttl" then standard.lockTtl else s.lockTtl
  lockAcquireTimeout :=
    if omitted "lock_acquire_timeout" then standard.lockAcquireTimeout else s.lockAcquireTimeout
  lockRetryInterval :=
    if omitted "lock_retry_interval" then standard.lockRetryInterval else s.lockRetryInterval

/-- The parts of the written settings. -/
def parts (s : LimiterSettings) : List Part := [
  ⟨"capacity", (· = Nat.toDigits 10 s.capacity)⟩,
  ⟨"refill_interval", (· = s.refillInterval.encode.toList)⟩,
  ⟨"state_ttl_multiplier", (· = Nat.toDigits 10 s.ttlMultiplier)⟩,
  ⟨"lock_ttl", (· = s.lockTtl.encode.toList)⟩,
  ⟨"lock_acquire_timeout", (· = s.lockAcquireTimeout.encode.toList)⟩,
  ⟨"lock_retry_interval", (· = s.lockRetryInterval.encode.toList)⟩]

/-- Do the numbers fit their words? -/
structure Fits (s : LimiterSettings) : Prop where
  capacity : s.capacity ≤ Word.maxNat
  ttlMultiplier : s.ttlMultiplier ≤ 4294967295

theorem takes_isObjectOf {s : LimiterSettings} (hs : s.Fits)
    (h : IsObjectOf s.parts omitted t) : Takes shape.read t (s.without omitted) := by
  have hmultiplier : s.ttlMultiplier ≤ Word.maxNat := Nat.le_trans hs.ttlMultiplier (by decide)
  refine Shape.takes_isObjectOf s.without h rfl rfl (fun o o' ho => ?_) nofun ?_
  · simp only [shape, List.forall_mem_cons, field_name] at ho
    simp only [without, ho]
  · simp only [shape, parts, List.zip_cons_cons, List.zip_nil_right, List.forall_mem_cons]
    refine ⟨field_lays (fun v hv => hv ▸ takes_natural hs.capacity hs.capacity "u64") fun o => ?_,
      field_lays (fun v hv => hv ▸ s.refillInterval.takes_encode) fun o => ?_,
      field_lays (fun v hv => hv ▸ takes_natural hs.ttlMultiplier hmultiplier "u32") fun o => ?_,
      field_lays (fun v hv => hv ▸ s.lockTtl.takes_encode) fun o => ?_,
      field_lays (fun v hv => hv ▸ s.lockAcquireTimeout.takes_encode) fun o => ?_,
      field_lays (fun v hv => hv ▸ s.lockRetryInterval.takes_encode) fun o => ?_, nofun⟩
    all_goals simp [without]

theorem isObjectOf_encode (s : LimiterSettings) :
    IsObjectOf s.parts (fun _ => false) s.encode.toList := by
  refine isObjectOf_objectText rfl (by simp) ?_
  simp only [parts, List.zip_cons_cons, List.zip_nil_right, List.forall_mem_cons]
  exact ⟨toList_toString _, trivial, toList_toString _, trivial, trivial, trivial, nofun⟩

end LimiterSettings

namespace RetrySettings

/-- The settings with the standard values for what is left out. -/
def without (s : RetrySettings) (omitted : String → Bool) : RetrySettings where
  maxAttempts := if omitted "max_attempts" then standard.maxAttempts else s.maxAttempts
  baseBackoff := if omitted "base_backoff" then standard.baseBackoff else s.baseBackoff
  maxBackoff := if omitted "max_backoff" then standard.maxBackoff else s.maxBackoff
  jitterFactor := if omitted "jitter_factor" then standard.jitterFactor else s.jitterFactor

/-- The parts of the written settings. -/
def parts (s : RetrySettings) : List Part := [
  ⟨"max_attempts", (· = Nat.toDigits 10 s.maxAttempts)⟩,
  ⟨"base_backoff", (· = s.baseBackoff.encode.toList)⟩,
  ⟨"max_backoff", (· = s.maxBackoff.encode.toList)⟩,
  ⟨"jitter_factor", (· = (Decimal.interchangeText s.jitterFactor).toList)⟩]

/-- Does the number fit its word, and is the factor read back from its text? -/
structure Fits (s : RetrySettings) : Prop where
  maxAttempts : s.maxAttempts ≤ Word.maxNat
  jitterFactor :
    Json.float (Decimal.interchangeText s.jitterFactor).toList = .ok (s.jitterFactor, [])

theorem takes_isObjectOf {s : RetrySettings} (hs : s.Fits)
    (h : IsObjectOf s.parts omitted t) : Takes shape.read t (s.without omitted) := by
  refine Shape.takes_isObjectOf s.without h rfl rfl (fun o o' ho => ?_) nofun ?_
  · simp only [shape, List.forall_mem_cons, field_name] at ho
    simp only [without, ho]
  · simp only [shape, parts, List.zip_cons_cons, List.zip_nil_right, List.forall_mem_cons]
    refine ⟨field_lays (fun v hv => hv ▸ takes_natural hs.maxAttempts hs.maxAttempts "usize")
        fun o => ?_,
      field_lays (fun v hv => hv ▸ s.baseBackoff.takes_encode) fun o => ?_,
      field_lays (fun v hv => hv ▸ s.maxBackoff.takes_encode) fun o => ?_,
      field_lays (fun v hv => hv ▸ takes_float hs.jitterFactor) fun o => ?_, nofun⟩
    all_goals simp [without]

theorem isObjectOf_encode (s : RetrySettings) :
    IsObjectOf s.parts (fun _ => false) s.encode.toList := by
  refine isObjectOf_objectText rfl (by simp) ?_
  simp only [parts, List.zip_cons_cons, List.zip_nil_right, List.forall_mem_cons]
  exact ⟨toList_toString _, trivial, trivial, trivial, nofun⟩

end RetrySettings

namespace Ratio

/-- The parts of a written ratio, none of which may be left out. -/
def parts (r : Ratio) : List Part := [
  ⟨"threshold", (· = Nat.toDigits 10 r.threshold)⟩,
  ⟨"of", (· = Nat.toDigits 10 r.capacity)⟩]

/-- Do the numbers fit their words? -/
structure Fits (r : Ratio) : Prop where
  threshold : r.threshold ≤ Word.maxNat
  capacity : r.capacity ≤ Word.maxNat

theorem takes_isObjectOf {r : Ratio} (hr : r.Fits)
    (h : IsObjectOf r.parts (fun _ => false) t) : Takes shape.read t r := by
  let partly (o : String → Bool) : Ratio :=
    ⟨if o "threshold" then 0 else r.threshold, if o "of" then 0 else r.capacity⟩
  refine Shape.takes_isObjectOf partly h rfl rfl (fun o o' ho => ?_) (fun _ _ _ => rfl) ?_
  · simp only [shape, List.forall_mem_cons, field_name] at ho
    simp only [partly, ho]
  · simp only [shape, parts, List.zip_cons_cons, List.zip_nil_right, List.forall_mem_cons]
    refine ⟨field_lays (fun v hv => hv ▸ takes_natural hr.threshold hr.threshold "usize")
        fun o => ?_,
      field_lays (fun v hv => hv ▸ takes_natural hr.capacity hr.capacity "usize") fun o => ?_,
      nofun⟩
    all_goals simp [partly]

theorem isObjectOf_encode (r : Ratio) :
    IsObjectOf r.parts (fun _ => false) r.encode.toList := by
  refine isObjectOf_objectText rfl (by simp) ?_
  simp only [parts, List.zip_cons_cons, List.zip_nil_right, List.forall_mem_cons]
  exact ⟨toList_toString _, toList_toString _, nofun⟩

end Ratio

namespace BreakerSettings

/-- The settings with the standard values for what is left out. -/
def without (s : BreakerSettings) (omitted : String → Bool) : BreakerSettings where
  failure := if omitted "failure_threshold" then standard.failure else s.failure
  success := if omitted "success_threshold" then standard.success else s.success
  openDelay := if omitted "open_delay" then standard.openDelay else s.openDelay

/-- The parts of the written settings. -/
def parts (s : BreakerSettings) : List Part := [
  ⟨"failure_threshold", IsObjectOf s.failure.parts fun _ => false⟩,
  ⟨"success_threshold", IsObjectOf s.success.parts fun _ => false⟩,
  ⟨"open_delay", (· = s.openDelay.encode.toList)⟩]

/-- Do the numbers fit their words? -/
structure Fits (s : BreakerSettings) : Prop where
  failure : s.failure.Fits
  success : s.success.Fits

theorem takes_isObjectOf {s : BreakerSettings} (hs : s.Fits)
    (h : IsObjectOf s.parts omitted t) : Takes shape.read t (s.without omitted) := by
  refine Shape.takes_isObjectOf s.without h rfl rfl (fun o o' ho => ?_) nofun ?_
  · simp only [shape, List.forall_mem_cons, field_name] at ho
    simp only [without, ho]
  · simp only [shape, parts, List.zip_cons_cons, List.zip_nil_right, List.forall_mem_cons]
    refine ⟨field_lays (fun v hv => Ratio.takes_isObjectOf hs.failure hv) fun o => ?_,
      field_lays (fun v hv => Ratio.takes_isObjectOf hs.success hv) fun o => ?_,
      field_lays (fun v hv => hv ▸ s.openDelay.takes_encode) fun o => ?_, nofun⟩
    all_goals simp [without]

theorem isObjectOf_encode (s : BreakerSettings) :
    IsObjectOf s.parts (fun _ => false) s.encode.toList := by
  refine isObjectOf_objectText rfl (by simp) ?_
  simp only [parts, List.zip_cons_cons, List.zip_nil_right, List.forall_mem_cons]
  exact ⟨s.failure.isObjectOf_encode, s.success.isObjectOf_encode, trivial, nofun⟩

end BreakerSettings

namespace ClassifierConfig

/-- The configuration with the standard values for what is left out. -/
def without (c : ClassifierConfig) (omitted : String → Bool) : ClassifierConfig where
  retryable := if omitted "retryable" then standard.retryable else c.retryable
  fatalTripsBreaker :=
    if omitted "fatal_trips_breaker" then standard.fatalTripsBreaker else c.fatalTripsBreaker
  timeout := if omitted "timeout" then standard.timeout else c.timeout
  unknownTripsBreaker :=
    if omitted "unknown_trips_breaker" then standard.unknownTripsBreaker else c.unknownTripsBreaker

/-- The parts of the written configuration; codes are listed in any order. -/
def parts (c : ClassifierConfig) : List Part := [
  ⟨"retryable", c.retryable.IsListed⟩,
  ⟨"fatal_trips_breaker", c.fatalTripsBreaker.IsListed⟩,
  ⟨"timeout", (· = (stringText c.timeout.name).toList)⟩,
  ⟨"unknown_trips_breaker", (· = (boolText c.unknownTripsBreaker).toList)⟩]

theorem takes_isObjectOf {c : ClassifierConfig} (h : IsObjectOf c.parts omitted t) :
    Takes shape.read t (c.without omitted) := by
  refine Shape.takes_isObjectOf c.without h rfl rfl (fun o o' ho => ?_) nofun ?_
  · simp only [shape, List.forall_mem_cons, field_name] at ho
    simp only [without, ho]
  · simp only [shape, parts, List.zip_cons_cons, List.zip_nil_right, List.forall_mem_cons]
    refine ⟨field_lays (fun v hv => CodeSet.takes_isListed hv) fun o => ?_,
      field_lays (fun v hv => CodeSet.takes_isListed hv) fun o => ?_,
      field_lays (fun v hv => hv ▸ c.timeout.takes_name) fun o => ?_,
      field_lays (fun v hv => hv ▸ takes_bool c.unknownTripsBreaker) fun o => ?_, nofun⟩
    all_goals simp [without]

theorem isObjectOf_encode (c : ClassifierConfig) :
    IsObjectOf c.parts (fun _ => false) c.encode.toList := by
  refine isObjectOf_objectText rfl (by simp) ?_
  simp only [parts, List.zip_cons_cons, List.zip_nil_right, List.forall_mem_cons]
  exact ⟨c.retryable.isListed_encode, c.fatalTripsBreaker.isListed_encode, trivial, trivial, nofun⟩

end ClassifierConfig

/-! ## All settings -/

namespace Settings

/-- What is left out of a text of settings: of the text itself, and of each of its sections. -/
structure Omission where
  own : String → Bool
  limiter : String → Bool
  retry : String → Bool
  breaker : String → Bool
  classifier : String → Bool

/-- Nothing is left out. -/
def Omission.none : Omission :=
  ⟨fun _ => false, fun _ => false, fun _ => false, fun _ => false, fun _ => false⟩

/-- The settings with the standard values for what is left out. -/
def without (s : Settings) (o : Omission) : Settings where
  servicePrefix := if o.own "service_prefix" then standard.servicePrefix else s.servicePrefix
  limiter := if o.own "rate_limit" then standard.limiter else s.limiter.without o.limiter
  retry := if o.own "retry" then standard.retry else s.retry.without o.retry
  breaker := if o.own "circuit_breaker" then standard.breaker else s.breaker.without o.breaker
  timeout := if o.own "timeout" then standard.timeout else s.timeout
  classifier :=
    if o.own "classifier" then standard.classifier else s.classifier.without o.classifier

/-- The parts of the written settings, with sections from which something is left out. -/
def parts (s : Settings) (o : Omission) : List Part := [
  ⟨"service_prefix", (· = (stringText s.servicePrefix).toList)⟩,
  ⟨"rate_limit", IsObjectOf s.limiter.parts o.limiter⟩,
  ⟨"retry", IsObjectOf s.retry.parts o.retry⟩,
  ⟨"circuit_breaker", IsObjectOf s.breaker.parts o.breaker⟩,
  ⟨"timeout", (· = s.timeout.encode.toList)⟩,
  ⟨"classifier", IsObjectOf s.classifier.parts o.classifier⟩]

/-- Do the numbers fit their words, and is the jitter factor read back from its text? -/
structure Fits (s : Settings) : Prop where
  limiter : s.limiter.Fits
  retry : s.retry.Fits
  breaker : s.breaker.Fits

theorem takes_isObjectOf {s : Settings} {o : Omission} (hs : s.Fits)
    (h : IsObjectOf (s.parts o) o.own t) : Takes shape.read t (s.without o) := by
  refine Shape.takes_isObjectOf (fun own => s.without { o with own }) h rfl rfl
    (fun o o' ho => ?_) nofun ?_
  · simp only [shape, List.forall_mem_cons, field_name] at ho
    simp only [without, ho]
  · simp only [shape, parts, List.zip_cons_cons, List.zip_nil_right, List.forall_mem_cons]
    refine ⟨field_lays (fun v hv => hv ▸ takes_stringText s.servicePrefix) fun o => ?_,
      field_lays (fun v hv => LimiterSettings.takes_isObjectOf hs.limiter hv) fun o => ?_,
      field_lays (fun v hv => RetrySettings.takes_isObjectOf hs.retry hv) fun o => ?_,
      field_lays (fun v hv => BreakerSettings.takes_isObjectOf hs.breaker hv) fun o => ?_,
      field_lays (fun v hv => hv ▸ s.timeout.takes_encode) fun o => ?_,
      field_lays (fun v hv => ClassifierConfig.takes_isObjectOf hv) fun o => ?_, nofun⟩
    all_goals simp [without]

/-- The text of the settings leaves nothing out. -/
theorem isObjectOf_encode (s : Settings) :
    IsObjectOf (s.parts .none) Omission.none.own s.encode.toList := by
  refine isObjectOf_objectText rfl (by simp) ?_
  simp only [parts, Omission.none, List.zip_cons_cons, List.zip_nil_right, List.forall_mem_cons]
  exact ⟨trivial, s.limiter.isObjectOf_encode, s.retry.isObjectOf_encode,
    s.breaker.isObjectOf_encode, trivial, s.classifier.isObjectOf_encode, nofun⟩

theorem without_none (s : Settings) : s.without .none = s := rfl

/-- Settings are read from any text that gives them, with the standard values for what the text
leaves out: in any order, with blanks and other members around.  Their own text gives all. -/
theorem overlay_read_back {s : Settings} (hs : s.Fits) (o : Omission) {before after : List Char}
    {text : String} (hbefore : IsGap before) (hafter : IsGap after)
    (ht : IsObjectOf (s.parts o) o.own t) (htext : text.toList = before ++ (t ++ after)) :
    parse text = .ok (s.without o) ∧ s.without .none = s ∧ parse s.encode = .ok s := by
  refine ⟨readText_of_takes (takes_isObjectOf hs ht) hbefore hafter htext, s.without_none, ?_⟩
  have hown := takes_isObjectOf hs s.isObjectOf_encode
  rw [without_none] at hown
  have hwhole : s.encode.toList = [] ++ (s.encode.toList ++ []) := by
    rw [List.nil_append, List.append_nil]
  exact readText_of_takes hown isGap_nil isGap_nil hwhole

/-- A text that gives the prefix and, behind a member nobody asked for, the jitter factor: all
else is standard, whatever the settings were. -/
theorem overlay_read_back_jitter :
    parse (" \x7b\"retry\":\x7b\"note\":null,\"jitter_factor\":0.5\x7d," ++
        "\"service_prefix\":\"orders\"\x7d") =
      .ok { standard with
        servicePrefix := "orders"
        retry := { RetrySettings.standard with jitterFactor := 0.5 } } := by
  let s : Settings := { standard with
    servicePrefix := "orders"
    retry := ⟨7, .ofMillis 250, .ofSecs 30, 0.5⟩
    timeout := .ofSecs 45 }
  let o : Omission := { Omission.none with
    own := fun name => name != "service_prefix" && name != "retry"
    retry := fun name => name != "jitter_factor" }
  let note : Entry := .bare "note" "null"
  let jitter : Entry := .bare "jitter_factor" "0.5"
  let retry : Entry := .bare "retry" "\x7b\"note\":null,\"jitter_factor\":0.5\x7d"
  let service : Entry := .bare "service_prefix" "\"orders\""
  have hjitter : Json.float (Decimal.interchangeText 0.5).toList = .ok (0.5, []) := by
    have htext : (Decimal.interchangeText 0.5).toList = ['0', '.', '5'] := by decide
    have hscaled : scaled 5 (-1) = .ok 0.5 := by
      rw [scaled, scaleDown, dif_neg (by decide)]
      rfl
    have hnumber : anyNumber "f64" ['0', '.', '5'] = .ok (.float 0.5, []) := by
      show (scaled 5 (-1)).map (fun f => (Number.float f, [])) = _
      rw [hscaled]
      rfl
    simp only [Json.float, htext, hnumber]
  have hs : s.Fits := ⟨⟨by decide, by decide⟩, ⟨by decide, hjitter⟩,
    ⟨⟨by decide, by decide⟩, ⟨by decide, by decide⟩⟩⟩
  have hretry : IsObjectOf s.retry.parts o.retry retry.value := by
    refine ⟨[], [note, jitter], isGap_nil, ⟨?_, ?_, ?_, ?_⟩, by decide⟩
    · simp only [List.forall_mem_cons]
      exact ⟨Entry.isWritten_bare .., Entry.isWritten_bare .., List.forall_mem_nil _⟩
    · simp only [List.forall_mem_cons]
      refine ⟨fun _ => .word (by decide), fun hother => ?_, List.forall_mem_nil _⟩
      exact absurd rfl (hother ⟨"jitter_factor", _⟩ (by simp [RetrySettings.parts]; rfl))
    · simp only [RetrySettings.parts, List.forall_mem_cons]
      exact ⟨fun _ => by decide, fun _ => by decide, fun _ => by decide,
        fun hown => absurd hown (by decide), List.forall_mem_nil _⟩
    · simp only [RetrySettings.parts, List.forall_mem_cons]
      exact ⟨fun hleft => absurd hleft (by decide), fun hleft => absurd hleft (by decide),
        fun hleft => absurd hleft (by decide), fun _ => ⟨jitter.value, by decide, by decide⟩,
        List.forall_mem_nil _⟩
  have hall : IsObjectOf (s.parts o) o.own (entriesText [] [retry, service]) := by
    refine ⟨[], [retry, service], isGap_nil, ⟨?_, ?_, ?_, ?_⟩, rfl⟩
    · simp only [List.forall_mem_cons]
      exact ⟨Entry.isWritten_bare .., Entry.isWritten_bare .., List.forall_mem_nil _⟩
    · simp only [List.forall_mem_cons]
      refine ⟨fun hother => ?_, fun hother => ?_, List.forall_mem_nil _⟩
      · exact absurd rfl (hother ⟨"retry", _⟩ (by simp [parts]; rfl))
      · exact absurd rfl (hother ⟨"service_prefix", _⟩ (by simp [parts]; rfl))
    · simp only [parts, List.forall_mem_cons]
      exact ⟨fun hown => absurd hown (by decide), fun _ => by decide,
        fun hown => absurd hown (by decide), fun _ => by decide, fun _ => by decide,
        fun _ => by decide, List.forall_mem_nil _⟩
    · simp only [parts, List.forall_mem_cons]
      exact ⟨fun _ => ⟨service.value, by decide, by decide⟩,
        fun hleft => absurd hleft (by decide), fun _ => ⟨retry.value, by decide, hretry⟩,
        fun hleft => absurd hleft (by decide), fun hleft => absurd hleft (by decide),
        fun hleft => absurd hleft (by decide), List.forall_mem_nil _⟩
  have hblank : IsGap [' '] := by simp [IsGap, isGap]
  exact (overlay_read_back hs o hblank isGap_nil hall (by decide)).1

end Settings

end FlowControl
