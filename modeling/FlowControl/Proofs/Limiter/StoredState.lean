import FlowControl.Proofs.Json.Objects
import FlowControl.Proofs.Limiter.StateText
import FlowControl.Proofs.Limiter.Visits

/-!
# What a bucket loads

A bucket saves a state as a text and loads it from there.  The text may as well have been written
by somebody else: any object is loaded that gives both numbers, each once and as digits, and any
object that does not is reported as corrupt.
-/

namespace FlowControl

open Json

namespace TokenState

/-- Are the numbers of a state what an object gives, each once and with its digits? -/
structure GivenBy (s : TokenState) (es : List Entry) : Prop where
  tokens : valuesOf "tokens" es = [Nat.toDigits 10 s.tokens.toNat]
  lastRefillAt : valuesOf "last_refill_at" es = [Nat.toDigits 10 s.lastRefillAt.toNat]

variable {v gap : List Char} {es : List Entry}

theorem takes_number (n : UInt64) : Takes number (Nat.toDigits 10 n.toNat) n := by
  intro gap rest hgap hrest
  have hn := Word.toNat_le_maxNat n
  simp only [number, takes_natural hn hn "u64" gap rest hgap hrest, Except.map, UInt64.ofNat_toNat]

/-- A value that is not the digits of a 64-bit number is refused. -/
theorem refuses_number (hv : IsValue v) (hother : ∀ n : UInt64, v ≠ Nat.toDigits 10 n.toNat) :
    Refuses number v := by
  have hnatural : Refuses (natural Word.maxNat "u64") v := by
    refine refuses_natural hv (fun n hn => ?_) "u64"
    have := hother (UInt64.ofNat n)
    rwa [UInt64.toNat_ofNat_of_lt' (Nat.lt_succ_of_le hn)] at this
  intro gap rest hgap hrest
  obtain ⟨e, he⟩ := hnatural gap rest hgap hrest
  exact ⟨e, by simp only [number, he, Except.map]⟩

/-- The state of which only some numbers are there yet. -/
def partly (s : TokenState) (seen : List String) : TokenState where
  tokens := if "tokens" ∈ seen then s.tokens else 0
  lastRefillAt := if "last_refill_at" ∈ seen then s.lastRefillAt else 0

/-- An object that gives both numbers is read as the state. -/
theorem takes_shape {s : TokenState} (hgap : IsGap gap) (hes : ∀ e ∈ es, e.IsWritten)
    (hvalues : ∀ e ∈ es, IsValue e.value) (h : s.GivenBy es) :
    Takes shape.read (entriesText gap es) s := by
  have htokens : "tokens" ∈ shape.given es :=
    Shape.mem_given.mpr ⟨by simp [h.tokens], by simp [shape]⟩
  have hlast : "last_refill_at" ∈ shape.given es :=
    Shape.mem_given.mpr ⟨by simp [h.lastRefillAt], by simp [shape]⟩
  have hgiven : s.partly (shape.given es) = s := by
    simp only [partly, htokens, hlast, if_true]
  rw [← hgiven]
  apply Shape.takes_entriesText s.partly hgap hes rfl
  · intro f hf
    simp only [shape, List.mem_cons, List.not_mem_nil, or_false] at hf
    rcases hf with rfl | rfl
    · exact .inr ⟨_, _, h.tokens, (takes_number _).field _ _, by simp [partly]⟩
    · exact .inr ⟨_, _, h.lastRefillAt, (takes_number _).field _ _, by simp [partly]⟩
  · rintro - f hf
    simp only [shape, List.mem_cons, List.not_mem_nil, or_false] at hf
    rcases hf with rfl | rfl
    · simp [h.tokens]
    · simp [h.lastRefillAt]
  · exact fun e he _ => hvalues e he

/-- A value is taken as a number by its digits, or refused. -/
theorem takes_or_refuses_number (hv : IsValue v) :
    (∃ n, Takes number v n) ∨ Refuses number v := by
  by_cases h : ∃ n : UInt64, v = Nat.toDigits 10 n.toNat
  · obtain ⟨n, rfl⟩ := h
    exact .inl ⟨n, takes_number n⟩
  · exact .inr (refuses_number hv fun n hn => h ⟨n, hn⟩)

/-- A field that holds a number takes no value but the digits of a number. -/
theorem not_takes_field (name : String) (set : UInt64 → TokenState → TokenState)
    (hvalues : ∀ e ∈ es, IsValue e.value)
    (hbad : ∀ n : UInt64, valuesOf name es ≠ [Nat.toDigits 10 n.toNat]) (v : List Char)
    (change : TokenState → TokenState) (hv : valuesOf name es = [v]) :
    ¬ Takes (field name number set).read v change := by
  have hmem : v ∈ valuesOf name es := by simp [hv]
  obtain ⟨e, he, -, rfl⟩ := exists_entry_of_mem_valuesOf hmem
  have hrefuses := refuses_number (hvalues e he) fun n hn => hbad n (hn ▸ hv)
  exact (hrefuses.field name set).not_takes

/-- An object that does not give both numbers is refused. -/
theorem refuses_shape (hgap : IsGap gap) (hes : ∀ e ∈ es, e.IsWritten)
    (hvalues : ∀ e ∈ es, IsValue e.value) (h : ∀ s : TokenState, ¬ s.GivenBy es) :
    Refuses shape.read (entriesText gap es) := by
  have hread : ∀ f ∈ shape.fields, ∀ v ∈ valuesOf f.name es,
      (∃ change, Takes f.read v change) ∨ Refuses f.read v := by
    intro f hf v hv
    obtain ⟨e, he, -, rfl⟩ := exists_entry_of_mem_valuesOf hv
    have hnumber := takes_or_refuses_number (hvalues e he)
    simp only [shape, List.mem_cons, List.not_mem_nil, or_false] at hf
    rcases hf with rfl | rfl <;>
      exact hnumber.imp (fun ⟨n, hn⟩ => ⟨_, hn.field _ _⟩) fun hr => hr.field _ _
  by_cases htokens : ∃ n : UInt64, valuesOf "tokens" es = [Nat.toDigits 10 n.toNat]
  · obtain ⟨n, hn⟩ := htokens
    have hlast : ∀ m : UInt64, valuesOf "last_refill_at" es ≠ [Nat.toDigits 10 m.toNat] :=
      fun m hm => h ⟨n, m⟩ ⟨hn, hm⟩
    exact Shape.refuses_entriesText
      (f := field "last_refill_at" number fun n s => { s with lastRefillAt := n })
      hgap hes hvalues rfl hread rfl (not_takes_field _ _ hvalues hlast)
  · exact Shape.refuses_entriesText
      (f := field "tokens" number fun n s => { s with tokens := n })
      hgap hes hvalues rfl hread rfl (not_takes_field _ _ hvalues fun n hn => htokens ⟨n, hn⟩)

end TokenState

namespace Bucket

open Limiter

variable {es : List Entry} {before gap after : List Char} {text : String}

/-- Is a text what the bucket stores when it saves a state? -/
def Saves (b : Bucket) (state : TokenState) (text : String) : Prop :=
  ∃ settle : Except StoreFault Unit → Except LimitError Unit, b.save state =
    (store (.set b.key.stateKey text b.config.stateTtl)).bind fun answer => .done (settle answer)

/-- Is this the result of loading whenever the store shows the text under the bucket's key? -/
def Loads (b : Bucket) (text : String) (result : Except LimitError (Option TokenState)) : Prop :=
  ∀ (σ : Type) (answer : (ask : Ask) → σ → ask.Answer × σ) (s s' : σ),
    answer (.store (.get b.key.stateKey)) s = (.ok (some text), s') →
      b.load.run answer s = (result, s')

theorem saves_encode (b : Bucket) (state : TokenState) : b.Saves state state.encode := by
  refine ⟨fun answer => answer.mapError .backend, ?_⟩
  refine congrArg (Routine.bind (store (.set b.key.stateKey state.encode b.config.stateTtl)))
    (funext ?_)
  rintro (fault | ⟨⟩) <;> rfl

theorem loads_reads (b : Bucket) (text : String) : b.Loads text (b.reads (some text)) := by
  intro σ answer s s' hanswer
  have hstore : (store (.get b.key.stateKey)).run answer s = (.ok (some text), s') := by
    show (answer (.store (.get b.key.stateKey)) s) = _
    exact hanswer
  rw [load_eq, Routine.run_bind, hstore]
  rfl

/-- What a bucket saves it loads as the same state, for all numbers of 64 bits.  It loads any
object that gives both numbers, each once and with its digits, wherever they stand, with blanks
and other members around them; and an object that does not give them so is corrupt: one that
lacks a number, repeats it, or has anything but the digits of a 64-bit number there. -/
theorem stored_state_read_back (b : Bucket) (hbefore : IsGap before) (hgap : IsGap gap)
    (hafter : IsGap after) (hes : ∀ e ∈ es, e.IsWritten) (hvalues : ∀ e ∈ es, IsValue e.value)
    (htext : text.toList = before ++ (entriesText gap es ++ after)) :
    (∀ state, ∃ saved, b.Saves state saved ∧ b.Loads saved (.ok (some state))) ∧
      (∀ state : TokenState, state.GivenBy es → b.Loads text (.ok (some state))) ∧
      ((∀ state : TokenState, ¬ state.GivenBy es) →
        ∃ reason, b.Loads text (.error (.backend (.corrupt b.key.stateKey reason)))) := by
  refine ⟨fun state => ⟨_, b.saves_encode state, ?_⟩, fun state hgiven => ?_, fun hbad => ?_⟩
  · have hloads := b.loads_reads state.encode
    simpa only [reads, TokenState.parse_encode] using hloads
  · have hloads := b.loads_reads text
    have hread :=
      readText_of_takes (TokenState.takes_shape hgap hes hvalues hgiven) hbefore hafter htext
    simpa only [reads, TokenState.parse, hread] using hloads
  · have hloads := b.loads_reads text
    obtain ⟨fault, hread⟩ :=
      readText_of_refuses (TokenState.refuses_shape hgap hes hvalues hbad) hbefore hafter htext
    refine ⟨fault.message, ?_⟩
    simpa only [reads, TokenState.parse, hread] using hloads

/-- A text of somebody else: the numbers in the other order, the largest one among them, a name
that is spelled with an escape, a member that nobody asked for, and blanks. -/
theorem stored_state_read_back_reordered :
    let b : Bucket := ⟨⟨"svc", "caller", "GET", "/movies"⟩, .standard⟩
    let text := " \x7b\"last_refill_at\" : 18446744073709551615,\"note\":[null], " ++
      "\"to\\u006bens\":7\x7d"
    b.Loads text (.ok (some ⟨7, 18446744073709551615⟩)) := by
  intro b text
  let last : Entry := ⟨"last_refill_at",
    [], "last_refill_at".toList, [' '], [' '], "18446744073709551615".toList, []⟩
  let note : Entry := ⟨"note", .bare "note".toList (listOf [] [.bare "null".toList])⟩
  let tokens : Entry := ⟨"tokens", [' '], "to\\u006bens".toList, [], .bare ['7']⟩
  have hblank : IsGap [' '] := by simp [IsGap, isGap]
  have hlast : last.IsWritten :=
    ⟨spells_of_all_plain (by decide), isGap_nil, hblank, hblank, isGap_nil⟩
  have hnote : note.IsWritten :=
    ⟨spells_of_all_plain (by decide), isGap_nil, isGap_nil, isGap_nil, isGap_nil⟩
  have htokens : tokens.IsWritten := by
    have hlater : Spells ['e', 'n', 's'] ['e', 'n', 's'] := spells_of_all_plain (by decide)
    have hescaped : Spells "\\u006bens".toList ['k', 'e', 'n', 's'] :=
      .unit (n := 0x6b) rfl rfl rfl hlater
    have hname : Spells "to\\u006bens".toList "tokens".toList := by
      rw [show "to\\u006bens".toList = 't' :: 'o' :: "\\u006bens".toList by decide,
        show "tokens".toList = ['t', 'o', 'k', 'e', 'n', 's'] by decide]
      exact .plain (by decide) (.plain (by decide) hescaped)
    exact ⟨hname, hblank, isGap_nil, isGap_nil, isGap_nil⟩
  have hlist : IsValue note.value := by
    refine .list isGap_nil (fun i hi => ?_) fun i hi => ?_
    · obtain rfl := List.mem_singleton.mp hi
      exact ⟨isGap_nil, isGap_nil⟩
    · obtain rfl := List.mem_singleton.mp hi
      exact .word (by decide)
  have hes : ∀ e ∈ [last, note, tokens], e.IsWritten := by simp [hlast, hnote, htokens]
  have hvalues : ∀ e ∈ [last, note, tokens], IsValue e.value := by
    simp only [List.forall_mem_cons]
    exact ⟨isValue_toDigits 18446744073709551615, hlist, isValue_toDigits 7,
      List.forall_mem_nil _⟩
  have hgiven : TokenState.GivenBy ⟨7, 18446744073709551615⟩ [last, note, tokens] :=
    ⟨by decide, by decide⟩
  have htext : text.toList = [' '] ++ (entriesText [] [last, note, tokens] ++ []) := by decide
  obtain ⟨-, hloads, -⟩ := stored_state_read_back b hblank isGap_nil isGap_nil hes hvalues htext
  exact hloads _ hgiven

end Bucket

end FlowControl
