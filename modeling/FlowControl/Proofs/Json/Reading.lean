import FlowControl.Json.Record
import FlowControl.Json.Writer
import FlowControl.Proofs.Json.Skipping

/-!
# What a reader takes and what it refuses

A reader takes a text as a value if it reads that value off the text, wherever the text stands:
behind blanks, and before anything that cannot belong to a number.  It refuses a text if it
reports a fault there.  Strings are taken by what they spell, numbers by their digits, and lists
by their items.
-/

namespace FlowControl.Json

variable {α : Type} {r : Reader α} {t body cs : List Char} {a : α}

/-- Is a text read as a value, wherever it stands? -/
def Takes (r : Reader α) (t : List Char) (a : α) : Prop :=
  ∀ gap rest, IsGap gap → EndsNumber rest → r (gap ++ (t ++ rest)) = .ok (a, rest)

/-- Is a text refused, wherever it stands? -/
def Refuses (r : Reader α) (t : List Char) : Prop :=
  ∀ gap rest, IsGap gap → EndsNumber rest → ∃ e, r (gap ++ (t ++ rest)) = .error e

/-- A text that is a value of its own may have blanks on both sides. -/
theorem readText_of_takes {text : String} {gap gap' : List Char} (h : Takes r t a)
    (hgap : IsGap gap) (hgap' : IsGap gap') (htext : text.toList = gap ++ (t ++ gap')) :
    readText r text = .ok a := by
  have hends : EndsNumber gap' := by
    have := endsNumber_gap hgap' (show EndsNumber [] from trivial)
    rwa [List.append_nil] at this
  simp [readText, htext, h gap gap' hgap hends, skipGap_gap hgap']

theorem readText_of_refuses {text : String} {gap gap' : List Char} (h : Refuses r t)
    (hgap : IsGap gap) (hgap' : IsGap gap') (htext : text.toList = gap ++ (t ++ gap')) :
    ∃ e, readText r text = .error e := by
  have hends : EndsNumber gap' := by
    have := endsNumber_gap hgap' (show EndsNumber [] from trivial)
    rwa [List.append_nil] at this
  obtain ⟨e, he⟩ := h gap gap' hgap hends
  exact ⟨e, by simp [readText, htext, he]⟩

/-- What is taken is not refused. -/
theorem Refuses.not_takes (h : Refuses r t) : ¬ Takes r t a := by
  intro htakes
  obtain ⟨e, he⟩ := h [] [] isGap_nil trivial
  cases (htakes [] [] isGap_nil trivial).symm.trans he

@[simp] theorem field_name {σ : Type} (name : String) (r : Reader α) (set : α → σ → σ) :
    (field name r set).name = name := rfl

/-- A field takes what its reader takes. -/
theorem Takes.field {σ : Type} (h : Takes r t a) (name : String) (set : α → σ → σ) :
    Takes (field name r set).read t (set a) := by
  intro gap rest hgap hrest
  simp only [Json.field, h gap rest hgap hrest, Except.map]

theorem Refuses.field {σ : Type} (h : Refuses r t) (name : String) (set : α → σ → σ) :
    Refuses (field name r set).read t := by
  intro gap rest hgap hrest
  obtain ⟨e, he⟩ := h gap rest hgap hrest
  exact ⟨e, by simp only [Json.field, he, Except.map]⟩

/-! ## Strings -/

theorem unitChar_append {a b c d : Char} {n : Nat} (hunit : hexUnit [a, b, c, d] = .ok (n, []))
    (hsingle : isLeading n = false) (hsingle' : isTrailing n = false) (rest : List Char) :
    unitChar (a :: b :: c :: d :: rest) = .ok (Char.ofNat n, rest) := by
  simp [unitChar, hexUnit_append hunit, hsingle, hsingle']

theorem isTrailing_of_isLeading {n : Nat} (h : isLeading n = true) : isTrailing n = false := by
  simp only [isLeading, isTrailing, Bool.and_eq_true, decide_eq_true_eq, Bool.and_eq_false_iff,
    decide_eq_false_iff_not] at h ⊢
  omega

theorem unitChar_pair {a b c d a' b' c' d' : Char} {n m : Nat}
    (hunit : hexUnit [a, b, c, d] = .ok (n, [])) (hleading : isLeading n = true)
    (hunit' : hexUnit [a', b', c', d'] = .ok (m, [])) (htrailing : isTrailing m = true)
    (rest : List Char) :
    unitChar (a :: b :: c :: d :: '\\' :: 'u' :: a' :: b' :: c' :: d' :: rest) =
      .ok (pairChar n m, rest) := by
  simp [unitChar, hexUnit_append hunit, hexUnit_append hunit', hleading, htrailing,
    isTrailing_of_isLeading hleading]

/-- What stands between quotes is read as the characters it spells. -/
theorem string_append (h : Spells body cs) (rest : List Char) :
    string (body ++ '"' :: rest) = .ok (cs, rest) := by
  -- An escape is read first, then what is behind it.
  have hescape {s more : List Char} {c : Char} {cs : List Char} (hs : escape s = .ok (c, more))
      (hmore : string more = .ok (cs, rest)) : string ('\\' :: s) = .ok (c :: cs, rest) := by
    rw [string]
    split
    · next e he =>
      rw [hs] at he
      cases he
    · next c' more' he =>
      rw [hs] at he
      cases he
      rw [hmore]
  induction h with
  | done => rw [List.nil_append, string]
  | @plain c body cs hc hbody ih =>
      obtain ⟨hquote, hslash, hcontrol⟩ := hc
      have hlow : ¬ c.toNat < 0x20 := by omega
      rw [List.cons_append, string]
      · simp [hlow, ih]
      · exact hquote
      · exact hslash
  | @letter c d body cs hc hbody ih =>
      refine hescape ?_ ih
      have hu : c ≠ 'u' := by
        rintro rfl
        cases hc
      simp [escape, hc]
  | unit hunit hsingle hsingle' hbody ih =>
      exact hescape (unitChar_append hunit hsingle hsingle' _) ih
  | pair hunit hleading hunit' htrailing hbody ih =>
      exact hescape (unitChar_pair hunit hleading hunit' htrailing _) ih

/-- What spells characters may stand between quotes. -/
theorem Spells.isBody (h : Spells body cs) : IsBody body := by
  induction h with
  | done => exact .done
  | plain hc hbody ih => exact .plain hc ih
  | letter hc hbody ih => exact .letter hc ih
  | unit hunit hsingle hsingle' hbody ih => exact .unit hunit ih
  | pair hunit hleading hunit' htrailing hbody ih => exact .unit hunit (.unit hunit' ih)

/-- Plain characters spell themselves. -/
theorem spells_of_plain (hcs : ∀ c ∈ cs, IsPlain c) : Spells cs cs := by
  induction cs with
  | nil => exact .done
  | cons c cs ih =>
      obtain ⟨hc, hcs⟩ := List.forall_mem_cons.mp hcs
      exact .plain hc (ih hcs)

theorem spells_of_all_plain (hcs : (cs.all fun c => decide (IsPlain c)) = true) : Spells cs cs :=
  spells_of_plain fun c hc => of_decide_eq_true (List.all_eq_true.mp hcs c hc)

theorem takes_chars (expected : String) (h : Spells body cs) :
    Takes (chars expected) ('"' :: (body ++ ['"'])) cs := by
  intro gap rest hgap hrest
  simp only [chars, skipGap_quoted hgap]
  exact string_append h rest

theorem takes_text (h : Spells body cs) :
    Takes text ('"' :: (body ++ ['"'])) (String.ofList cs) := by
  intro gap rest hgap hrest
  simp only [text, takes_chars _ h gap rest hgap hrest, Except.map]

theorem takes_spelled {decode : List Char → Option α} (expected : String) (h : Spells body cs)
    (hdecode : decode cs = some a) :
    Takes (spelled decode expected) ('"' :: (body ++ ['"'])) a := by
  intro gap rest hgap hrest
  simp only [spelled, takes_chars expected h gap rest hgap hrest, hdecode]

theorem takes_variant {known : List (String × α)} (h : Spells body cs)
    (hname : nameOf known cs = .ok a) : Takes (variant known) ('"' :: (body ++ ['"'])) a := by
  intro gap rest hgap hrest
  simp only [variant, skipGap_quoted hgap, string_append h, ok_bind, hname]

theorem takes_bool (b : Bool) : Takes bool (boolText b).toList b := by
  intro gap rest hgap hrest
  cases b with
  | true =>
      have hstart : skipGap (gap ++ ((boolText true).toList ++ rest)) =
          't' :: (['r', 'u', 'e'] ++ rest) := by
        rw [skipGap_append hgap]
        exact skipGap_cons (by decide) _
      simp only [bool, hstart]
      rfl
  | false =>
      have hstart : skipGap (gap ++ ((boolText false).toList ++ rest)) =
          'f' :: (['a', 'l', 's', 'e'] ++ rest) := by
        rw [skipGap_append hgap]
        exact skipGap_cons (by decide) _
      simp only [bool, hstart]
      rfl

/-! ## Numbers -/

theorem takes_natural {n bound : Nat} (hbound : n ≤ bound) (hn : n ≤ Word.maxNat)
    (expected : String) : Takes (natural bound expected) (Nat.toDigits 10 n) n := by
  intro gap rest hgap hrest
  have hnatural := natural_toDigits hbound hn expected hrest
  simp only [natural, anyNumber, skipGap_append hgap] at hnatural ⊢
  exact hnatural

theorem digitChar_of_isDigit {d : Char} (hd : d.isDigit = true) :
    (d.toNat - 48).digitChar = d := by
  obtain ⟨hlow, hhigh⟩ := Char.isDigit_iff_toNat.mp hd
  rw [show '0'.toNat = 48 from rfl] at hlow
  rw [show '9'.toNat = 57 from rfl] at hhigh
  apply Char.toNat_inj.mp
  rw [Nat.toNat_digitChar_of_lt_ten (by omega)]
  omega

/-- Digits behind those of a positive number go on with its digits. -/
theorem toDigits_ofDigitChars {ds : List Char} {acc : Nat} (hds : ∀ d ∈ ds, d.isDigit = true)
    (hacc : 0 < acc) :
    Nat.toDigits 10 (Nat.ofDigitChars 10 ds acc) = Nat.toDigits 10 acc ++ ds := by
  induction ds generalizing acc with
  | nil => rw [Nat.ofDigitChars_nil, List.append_nil]
  | cons d ds ih =>
      obtain ⟨hd, hds⟩ := List.forall_mem_cons.mp hds
      obtain ⟨hlow, hhigh⟩ := Char.isDigit_iff_toNat.mp hd
      rw [show '0'.toNat = 48 from rfl] at hlow
      rw [show '9'.toNat = 57 from rfl] at hhigh
      rw [Nat.ofDigitChars_cons, show '0'.toNat = 48 from rfl, ih hds (by omega),
        Nat.toDigits_eq_if (by decide), if_neg (by omega),
        show (10 * acc + (d.toNat - 48)) / 10 = acc by omega,
        show (10 * acc + (d.toNat - 48)) % 10 = d.toNat - 48 by omega, digitChar_of_isDigit hd,
        List.append_assoc, List.singleton_append]

/-- A whole number is written with the digits of its value. -/
theorem IsWhole.eq_toDigits {ds : List Char} (h : IsWhole ds) :
    ds = Nat.toDigits 10 (Nat.ofDigitChars 10 ds 0) := by
  obtain ⟨d, ds, rfl, hd, hzero⟩ := h.exists_cons
  obtain ⟨hlow, hhigh⟩ := Char.isDigit_iff_toNat.mp hd
  rw [show '9'.toNat = 57 from rfl] at hhigh
  have hfirst : Nat.toDigits 10 (d.toNat - 48) = [d] := by
    rw [Nat.toDigits_of_lt_base (by omega), digitChar_of_isDigit hd]
  rw [Nat.ofDigitChars_cons, Nat.mul_zero, Nat.zero_add, show '0'.toNat = 48 from rfl]
  rcases Nat.eq_zero_or_pos (d.toNat - 48) with hnone | hpos
  · obtain rfl := hzero (by rw [← digitChar_of_isDigit hd, hnone]; rfl)
    rw [Nat.ofDigitChars_nil, hfirst]
  · have hds : ∀ c ∈ ds, c.isDigit = true := fun c hc => h.1.2 c (List.mem_cons_of_mem d hc)
    rw [toDigits_ofDigitChars hds hpos, hfirst, List.singleton_append]

/-- Digits that are all kept make up the value. -/
theorem eq_ofDigitChars_of_absorb {ds : List Char} {acc n : Nat} (h : absorb acc ds = (n, [])) :
    n = Nat.ofDigitChars 10 ds acc := by
  induction ds generalizing acc with
  | nil =>
      cases h
      rfl
  | cons d ds ih =>
      rw [absorb] at h
      split at h
      · rw [ih h, Nat.ofDigitChars_cons, Nat.mul_comm]
        rfl
      · cases h

/-- The digits of a number are a value. -/
theorem isValue_toDigits (n : Nat) : IsValue (Nat.toDigits 10 n) := by
  have hwhole : IsWhole (Nat.toDigits 10 n) := by
    refine ⟨⟨Nat.toDigits_ne_nil, fun d hd =>
      Nat.isDigit_of_mem_toDigits (by decide) (by decide) hd⟩, fun hhead => ?_⟩
    rcases Nat.eq_zero_or_pos n with rfl | hpos
    · rfl
    · obtain ⟨c, cs, hdigits, hc⟩ := toDigits_eq_cons n hpos
      rw [hdigits] at hhead
      exact absurd (Option.some.inj hhead) hc
  have hnumber := IsNumber.of false hwhole .absent .absent
  rw [List.append_nil, List.append_nil] at hnumber
  exact .number hnumber

/-- A float never ends as a natural number. -/
theorem floatTail_ne_natural (negative : Bool) (digits : Nat) (e : Int) (s : List Char)
    (n : Nat) (rest : List Char) : floatTail negative digits e s ≠ .ok (.natural n, rest) := by
  have hfinish (e : Int) (rest' : List Char) : ((scaled digits e).map fun f =>
      (Number.float (if negative then -f else f), rest')) ≠ .ok (.natural n, rest) := by
    cases scaled digits e <;> simp [Except.map]
  unfold floatTail
  dsimp only
  split
  · split
    · exact nofun
    · exact hfinish _ _
  · split
    · exact nofun
    · exact hfinish _ _
  · exact hfinish _ _

/-- Behind its digits a natural number has nothing more, no digits were dropped and there was
no sign. -/
theorem numberTail_eq_natural {negative : Bool} {digits dropped n : Nat} {s rest : List Char}
    (h : numberTail negative digits dropped s = .ok (.natural n, rest)) :
    negative = false ∧ dropped = 0 ∧ n = digits ∧ ∀ c ∈ s.head?, c ≠ '.' ∧ c ≠ 'e' ∧ c ≠ 'E' := by
  unfold numberTail at h
  split at h
  · split at h
    · cases h
    · cases h
    · exact absurd h (floatTail_ne_natural _ _ _ _ _ _)
  · exact absurd h (floatTail_ne_natural _ _ _ _ _ _)
  · exact absurd h (floatTail_ne_natural _ _ _ _ _ _)
  · next hpoint hsmall hlarge =>
    have hhead : ∀ c ∈ s.head?, c ≠ '.' ∧ c ≠ 'e' ∧ c ≠ 'E' := by
      intro c hc
      obtain ⟨more, rfl⟩ := List.head?_eq_some_iff.mp hc
      refine ⟨?_, ?_, ?_⟩ <;> rintro rfl
      · exact hpoint _ rfl
      · exact hsmall _ rfl
      · exact hlarge _ rfl
    split at h
    · exact absurd h (floatTail_ne_natural _ _ _ _ _ _)
    · next hdropped =>
      split at h
      · next hsign =>
        cases h
        exact ⟨by simpa using hsign, by omega, rfl, hhead⟩
      · split at h <;> cases h

/-- Only digits alone are read as a natural number: no sign, no fraction and no exponent. -/
theorem eq_toDigits_of_number {negative : Bool} {whole fraction exponent rest rest' : List Char}
    {n : Nat} (hwhole : IsWhole whole) (hfraction : IsFraction fraction)
    (hexponent : IsExponent exponent) (hrest : EndsNumber rest)
    (h : number negative (whole ++ (fraction ++ (exponent ++ rest))) = .ok (.natural n, rest')) :
    negative = false ∧ fraction = [] ∧ exponent = [] ∧ whole = Nat.toDigits 10 n := by
  have hrun := digitRun_append hwhole.1.2 (hfraction.head_not_digit hexponent hrest)
  have htail : ∃ unread, absorb 0 whole = (n, unread) ∧ unread = [] ∧ negative = false ∧
      ∀ c ∈ (fraction ++ (exponent ++ rest)).head?, c ≠ '.' ∧ c ≠ 'e' ∧ c ≠ 'E' := by
    rw [number, hrun] at h
    split at h
    · cases h
    · cases h
    · cases h
    · next heq =>
      obtain ⟨rfl, rfl⟩ := Prod.mk.inj heq
      obtain ⟨hsign, hdropped, hn, hhead⟩ := numberTail_eq_natural h
      exact ⟨_, by rw [hn], List.eq_nil_of_length_eq_zero hdropped, hsign, hhead⟩
  obtain ⟨_, habsorb, rfl, hsign, hhead⟩ := htail
  have hwhole' : whole = Nat.toDigits 10 n := by
    rw [eq_ofDigitChars_of_absorb habsorb]
    exact hwhole.eq_toDigits
  cases hfraction with
  | present hds => exact absurd rfl (hhead '.' rfl).1
  | absent =>
      cases hexponent with
      | absent => exact ⟨hsign, rfl, rfl, hwhole'⟩
      | present hletter hsign' hds =>
          obtain ⟨-, hsmall, hlarge⟩ := hhead _ rfl
          exact (hletter.elim hsmall hlarge).elim

/-- A value of another kind than expected is a fault. -/
theorem mistyped_eq_error (expected : String) (s : List Char) :
    ∃ e, mistyped (α := α) expected s = .error e := by
  have hbind {β : Type} (x : Except Fault β) (fault : β → Fault) :
      ∃ e, (x >>= fun b => (.error (fault b) : Except Fault α)) = .error e := by
    cases x with
    | error e => exact ⟨e, rfl⟩
    | ok b => exact ⟨fault b, rfl⟩
  unfold mistyped
  split
  all_goals first | exact hbind _ _ | exact ⟨_, rfl⟩ | skip
  split
  · exact hbind _ _
  · exact ⟨_, rfl⟩

/-- What starts neither with a sign nor with a digit is no number. -/
theorem anyNumber_eq_mistyped {c : Char} {gap : List Char} (hgap : IsGap gap)
    (hc : isGap c = false) (hsign : c ≠ '-') (hdigit : c.isDigit = false) (expected : String)
    (s : List Char) : anyNumber expected (gap ++ c :: s) = mistyped expected (c :: s) := by
  have hstart : skipGap (gap ++ c :: s) = c :: s := by
    rw [skipGap_append hgap, skipGap_cons hc]
  simp only [anyNumber, hstart, hdigit, Bool.false_eq_true, if_false]

/-- A sign and digits are read as a number. -/
theorem anyNumber_append {negative : Bool} {gap whole s : List Char} (hgap : IsGap gap)
    (hwhole : IsWhole whole) (expected : String) :
    anyNumber expected (gap ++ (Decimal.sign negative ++ (whole ++ s))) =
      number negative (whole ++ s) := by
  obtain ⟨d, ds, rfl, hd, -⟩ := hwhole.exists_cons
  cases negative with
  | true =>
      have hstart : skipGap (gap ++ (Decimal.sign true ++ ((d :: ds) ++ s))) =
          '-' :: ((d :: ds) ++ s) := by
        rw [skipGap_append hgap]
        exact skipGap_cons (by decide) _
      simp only [anyNumber, hstart]
  | false =>
      have hstart : skipGap (gap ++ (Decimal.sign false ++ ((d :: ds) ++ s))) =
          d :: (ds ++ s) := by
        rw [skipGap_append hgap]
        exact skipGap_cons (isGap_of_isDigit hd) _
      simp only [anyNumber, hstart]
      split
      · next heq => cases heq
      · next heq => exact absurd (List.cons.inj heq).1 (ne_of_isDigit hd (by decide))
      · next heq =>
        obtain ⟨rfl, rfl⟩ := List.cons.inj heq
        rw [if_pos hd]
        rfl

/-- A value that is not a natural number within the bound is refused. -/
theorem refuses_natural {v : List Char} {bound : Nat} (hv : IsValue v)
    (hother : ∀ n ≤ bound, v ≠ Nat.toDigits 10 n) (expected : String) :
    Refuses (natural bound expected) v := by
  intro gap rest hgap hrest
  -- A value of another kind is refused as soon as its first character is seen.
  have hkind {c : Char} {s : List Char} (hc : isGap c = false) (hsign : c ≠ '-')
      (hdigit : c.isDigit = false) :
      ∃ e, natural bound expected (gap ++ ((c :: s) ++ rest)) = .error e := by
    obtain ⟨e, he⟩ := mistyped_eq_error (α := Number × List Char) expected (c :: (s ++ rest))
    refine ⟨e, ?_⟩
    rw [List.cons_append, natural, anyNumber_eq_mistyped hgap hc hsign hdigit, he]
  cases hv with
  | word hw =>
      simp only [words, List.mem_cons, List.not_mem_nil, or_false] at hw
      rcases hw with rfl | rfl | rfl <;> exact hkind (by decide) (by decide) (by decide)
  | string hbody => exact hkind (by decide) (by decide) (by decide)
  | list => exact hkind (by decide) (by decide) (by decide)
  | object => exact hkind (by decide) (by decide) (by decide)
  | number hs =>
      obtain ⟨negative, hwhole, hfraction, hexponent⟩ := hs
      simp only [natural, List.append_assoc, anyNumber_append hgap hwhole]
      split
      · exact ⟨_, rfl⟩
      · next n rest' heq =>
        split
        · next hn =>
          obtain ⟨rfl, rfl, rfl, rfl⟩ :=
            eq_toDigits_of_number hwhole hfraction hexponent hrest heq
          exact absurd (List.append_nil _) (hother n hn)
        · exact ⟨_, rfl⟩
      · exact ⟨_, rfl⟩
      · exact ⟨_, rfl⟩

end FlowControl.Json
