import FlowControl.Json.Skip
import FlowControl.Proofs.Json.Grammar

/-!
# Any value is passed over

A value that nobody asked for is passed over up to its last character, whatever it holds and
however deep it is nested: the steps that are allowed by the length of the text are enough.
-/

namespace FlowControl.Json

/-! ## Numbers -/

theorem IsExponent.head_not_digit {exponent rest : List Char} (h : IsExponent exponent)
    (hrest : EndsNumber rest) : ∀ c ∈ (exponent ++ rest).head?, c.isDigit = false := by
  cases h with
  | absent => exact hrest.head_not_digit
  | present hletter hsign hds =>
      rintro _ ⟨⟩
      rcases hletter with rfl | rfl <;> decide

theorem IsFraction.head_not_digit {fraction exponent rest : List Char} (h : IsFraction fraction)
    (hexponent : IsExponent exponent) (hrest : EndsNumber rest) :
    ∀ c ∈ (fraction ++ (exponent ++ rest)).head?, c.isDigit = false := by
  cases h with
  | absent => exact hexponent.head_not_digit hrest
  | present hds =>
      rintro _ ⟨⟩
      decide

/-- A whole number starts with a digit; if that is a zero, nothing follows it. -/
theorem IsWhole.exists_cons {whole : List Char} (h : IsWhole whole) :
    ∃ d ds, whole = d :: ds ∧ d.isDigit = true ∧ (d = '0' → ds = []) := by
  obtain ⟨d, ds, rfl⟩ := List.exists_cons_of_ne_nil h.1.1
  refine ⟨d, ds, rfl, h.1.2 d List.mem_cons_self, ?_⟩
  rintro rfl
  exact (List.cons.inj (h.2 rfl)).2

/-- Digits up to something else are passed over. -/
theorem skipDigits_append {ds rest : List Char} (hds : IsDigits ds)
    (hrest : ∀ c ∈ rest.head?, c.isDigit = false) : skipDigits (ds ++ rest) = .ok rest := by
  obtain ⟨d, more, rfl⟩ := List.exists_cons_of_ne_nil hds.1
  rw [skipDigits, digitRun_append hds.2 hrest]

/-- A sign is split off; digits have none. -/
theorem splitSign_append {sign ds : List Char} (hsign : sign = [] ∨ sign = ['+'] ∨ sign = ['-'])
    (hds : IsDigits ds) (rest : List Char) :
    (splitSign (sign ++ (ds ++ rest))).2 = ds ++ rest := by
  obtain ⟨d, more, rfl⟩ := List.exists_cons_of_ne_nil hds.1
  have hd := hds.2 d List.mem_cons_self
  rcases hsign with rfl | rfl | rfl
  · rw [List.nil_append, List.cons_append, splitSign]
    · exact fun _ heq => ne_of_isDigit hd (by decide) (List.cons.inj heq).1
    · exact fun _ heq => ne_of_isDigit hd (by decide) (List.cons.inj heq).1
  · rfl
  · rfl

theorem skipExponent_append {exponent rest : List Char} (h : IsExponent exponent)
    (hrest : EndsNumber rest) : skipExponent (exponent ++ rest) = .ok rest := by
  cases h with
  | absent =>
      rw [List.nil_append, skipExponent]
      · rintro s rfl
        exact hrest.2.2.1 rfl
      · rintro s rfl
        exact hrest.2.2.2 rfl
  | present hletter hsign hds =>
      have hdigits := skipDigits_append hds hrest.head_not_digit
      rcases hletter with rfl | rfl <;>
        rw [List.cons_append, List.append_assoc, skipExponent, splitSign_append hsign hds,
          hdigits]

theorem skipFraction_append {fraction exponent rest : List Char} (h : IsFraction fraction)
    (hexponent : IsExponent exponent) (hrest : EndsNumber rest) :
    skipFraction (fraction ++ (exponent ++ rest)) = .ok (exponent ++ rest) := by
  cases h with
  | absent =>
      rw [List.nil_append, skipFraction]
      intro s heq
      cases hexponent with
      | absent =>
          subst heq
          exact hrest.2.1 rfl
      | present hletter hsign hds =>
          obtain ⟨rfl, -⟩ := List.cons.inj heq
          exact hletter.elim (by decide) (by decide)
  | present hds => exact skipDigits_append hds (hexponent.head_not_digit hrest)

/-- A number without its sign is passed over. -/
theorem skipNumber_append {whole fraction exponent rest : List Char} (hwhole : IsWhole whole)
    (hfraction : IsFraction fraction) (hexponent : IsExponent exponent)
    (hrest : EndsNumber rest) :
    skipNumber (whole ++ (fraction ++ (exponent ++ rest))) = .ok rest := by
  have hrun := digitRun_append hwhole.1.2 (hfraction.head_not_digit hexponent hrest)
  have htail : (skipFraction (fraction ++ (exponent ++ rest)) >>= skipExponent) = .ok rest := by
    rw [skipFraction_append hfraction hexponent hrest]
    exact skipExponent_append hexponent hrest
  obtain ⟨d, ds, rfl, -, hzero⟩ := hwhole.exists_cons
  rw [skipNumber, hrun]
  split
  · next heq => cases (Prod.mk.inj heq).1
  · next heq =>
    obtain ⟨rfl, hds⟩ := List.cons.inj (Prod.mk.inj heq).1
    cases (hzero rfl).symm.trans hds
  · next heq =>
    rw [← (Prod.mk.inj heq).2]
    exact htail

/-! ## Strings -/

/-- Four hexadecimal digits are read as one unit, whatever follows them. -/
theorem hexUnit_append {a b c d : Char} {n : Nat} (h : hexUnit [a, b, c, d] = .ok (n, []))
    (rest : List Char) : hexUnit (a :: b :: c :: d :: rest) = .ok (n, rest) := by
  rw [hexUnit] at h ⊢
  split at h
  · cases h
    rfl
  · cases h

theorem ok_bind {α β : Type} (a : α) (next : α → Except Fault β) :
    (Except.ok a >>= next) = next a := rfl

/-- What stands between quotes is passed over with the closing quote. -/
theorem skipString_append {body : List Char} (h : IsBody body) (rest : List Char) :
    skipString (body ++ '"' :: rest) = .ok rest := by
  -- An escape is passed over first, then what is behind it.
  have hescape {s more : List Char} (hs : skipEscape s = .ok ((), more))
      (hmore : skipString more = .ok rest) : skipString ('\\' :: s) = .ok rest := by
    rw [skipString]
    split
    · next e he =>
      rw [hs] at he
      cases he
    · next more' he =>
      rw [hs] at he
      cases he
      exact hmore
  induction h with
  | done => rw [List.nil_append, skipString]
  | @plain c body hc hbody ih =>
      obtain ⟨hquote, hslash, hcontrol⟩ := hc
      have hlow : ¬ c.toNat < 0x20 := by omega
      rw [List.cons_append, skipString]
      · simp [hlow, ih]
      · exact hquote
      · exact hslash
  | @letter c d body hc hbody ih =>
      refine hescape ?_ ih
      have hu : c ≠ 'u' := by
        rintro rfl
        cases hc
      simp [skipEscape, hc]
  | @unit a b c d n body hunit hbody ih =>
      refine hescape ?_ ih
      show (hexUnit (a :: b :: c :: d :: (body ++ '"' :: rest))).map _ = _
      rw [hexUnit_append hunit]
      rfl

/-! ## Values -/

/-- A value starts with a character that is neither a blank nor a bracket that closes. -/
theorem IsValue.exists_cons {v : List Char} (h : IsValue v) :
    ∃ c s, v = c :: s ∧ isGap c = false ∧ c ≠ ']' := by
  cases h with
  | word hw =>
      simp only [words, List.mem_cons, List.not_mem_nil, or_false] at hw
      rcases hw with rfl | rfl | rfl <;> exact ⟨_, _, rfl, by decide, by decide⟩
  | number hs =>
      obtain ⟨negative, hwhole, -, -⟩ := hs
      obtain ⟨d, ds, rfl, hd, -⟩ := hwhole.exists_cons
      cases negative with
      | true => exact ⟨_, _, rfl, by decide, by decide⟩
      | false => exact ⟨_, _, rfl, isGap_of_isDigit hd, ne_of_isDigit hd (by decide)⟩
  | string hbody => exact ⟨_, _, rfl, by decide, by decide⟩
  | list hgap hspaced hvalues => exact ⟨_, _, rfl, by decide, by decide⟩
  | object hgap hspaced hnames hvalues => exact ⟨_, _, rfl, by decide, by decide⟩

theorem IsValue.length_pos {v : List Char} (h : IsValue v) : 0 < v.length := by
  obtain ⟨c, s, rfl, -, -⟩ := h.exists_cons
  exact Nat.succ_pos _

/-- Is a value passed over, whatever follows it, if so many steps are allowed? -/
def Skips (v : List Char) : Prop :=
  ∀ fuel gap rest, 2 * v.length ≤ fuel → IsGap gap → EndsNumber rest →
    skipValueWith fuel (gap ++ (v ++ rest)) = .ok rest

theorem Item.length_value_le (i : Item) : i.value.length ≤ i.text.length := by
  simp only [Item.text, List.length_append]
  omega

theorem Member.length_value_lt (m : Member) : m.item.value.length + 3 ≤ m.text.length := by
  simp only [Member.text, Item.text, List.length_append, List.length_cons]
  omega

variable {fuel : Nat} {later : Bool} {gap rest : List Char}

/-- One item is passed over. -/
theorem skipItemsWith_item {i : Item} (hvalue : IsValue i.value) (hspaced : i.IsSpaced)
    (hskips : Skips i.value) (hfuel : 2 * i.text.length ≤ fuel) (hgap : IsGap gap)
    (hrest : EndsNumber rest) :
    skipItemsWith (fuel + 1) later (gap ++ (separator later ++ (i.text ++ rest))) =
      skipItemsWith fuel true (i.after ++ rest) := by
  have hends := endsNumber_gap hspaced.2 hrest
  have hlength := i.length_value_le
  have htext : i.text ++ rest = i.before ++ (i.value ++ (i.after ++ rest)) := by simp [Item.text]
  rw [htext]
  cases later with
  | true =>
      have hcomma :
          skipGap (gap ++ (separator true ++ (i.before ++ (i.value ++ (i.after ++ rest))))) =
            ',' :: (i.before ++ (i.value ++ (i.after ++ rest))) := by
        rw [skipGap_append hgap]
        exact skipGap_cons (by decide) _
      have hpassed := hskips fuel i.before _ (by omega) hspaced.1 hends
      simp only [skipItemsWith, hcomma, hpassed]
      rfl
  | false =>
      have hpassed := hskips fuel [] _ (by omega) isGap_nil hends
      obtain ⟨c, v, hv, hc, hbracket⟩ := hvalue.exists_cons
      have hstart :
          skipGap (gap ++ (separator false ++ (i.before ++ (i.value ++ (i.after ++ rest))))) =
            c :: (v ++ (i.after ++ rest)) := by
        rw [skipGap_append hgap, separator, if_neg Bool.false_ne_true, List.nil_append,
          skipGap_append hspaced.1, hv]
        exact skipGap_cons hc _
      rw [List.nil_append, hv, List.cons_append] at hpassed
      simp only [skipItemsWith]
      split
      · next heq => cases hstart.symm.trans heq
      · next heq => exact absurd (List.cons.inj (hstart.symm.trans heq)).1 hbracket
      · next hfalse _ => cases hfalse
      · next hfalse _ _ _ => cases hfalse
      · rw [hstart, hpassed]
        rfl

/-- Items are passed over up to the bracket. -/
theorem skipItemsWith_joined {items : List Item} (hvalues : ∀ i ∈ items, IsValue i.value)
    (hspaced : ∀ i ∈ items, i.IsSpaced) (hskips : ∀ i ∈ items, Skips i.value)
    (hfuel : 2 * (joined later (items.map Item.text)).length < fuel) (hgap : IsGap gap) :
    skipItemsWith fuel later (gap ++ (joined later (items.map Item.text) ++ ']' :: rest)) =
      .ok rest := by
  obtain ⟨fuel, rfl⟩ := Nat.exists_eq_succ_of_ne_zero (Nat.ne_zero_of_lt hfuel)
  induction items generalizing fuel later gap with
  | nil =>
      have hclose : skipGap (gap ++ ']' :: rest) = ']' :: rest := by
        rw [skipGap_append hgap, skipGap_cons (by decide)]
      simp only [List.map_nil, joined, List.nil_append, skipItemsWith, hclose]
  | cons i items ih =>
      have hlength : (joined later ((i :: items).map Item.text)).length =
          (separator later).length +
            (i.text.length + (joined true (items.map Item.text)).length) := by
        simp [joined]
      obtain ⟨hvalue, hvalues⟩ := List.forall_mem_cons.mp hvalues
      obtain ⟨hspace, hspaced⟩ := List.forall_mem_cons.mp hspaced
      obtain ⟨hskip, hskips⟩ := List.forall_mem_cons.mp hskips
      have hpos := Nat.lt_of_lt_of_le hvalue.length_pos i.length_value_le
      rw [List.map_cons, joined, List.append_assoc, List.append_assoc]
      rw [skipItemsWith_item hvalue hspace hskip (by omega) hgap
        (endsNumber_joined _ (endsNumber_bracket rest))]
      obtain ⟨fuel, rfl⟩ := Nat.exists_eq_succ_of_ne_zero (show fuel ≠ 0 by omega)
      exact ih hvalues hspaced hskips hspace.2 fuel (by omega)

/-- One member is passed over. -/
theorem skipMembersWith_member {m : Member} (hname : IsBody m.name) (hspaced : m.IsSpaced)
    (hskips : Skips m.item.value) (hfuel : 2 * m.item.value.length ≤ fuel) (hgap : IsGap gap)
    (hrest : EndsNumber rest) :
    skipMembersWith (fuel + 2) later (gap ++ (separator later ++ (m.text ++ rest))) =
      skipMembersWith fuel true (m.item.after ++ rest) := by
  obtain ⟨hbefore, hafter, hitem⟩ := hspaced
  have hpassed := hskips fuel m.item.before _ hfuel hitem.1 (endsNumber_gap hitem.2 hrest)
  have hcolon (s : List Char) : skipGap (m.after ++ ':' :: s) = ':' :: s := by
    rw [skipGap_append hafter, skipGap_cons (by decide)]
  have hquote : skipGap (m.text ++ rest) = '"' :: (m.name ++ '"' :: (m.after ++
      ':' :: (m.item.before ++ (m.item.value ++ (m.item.after ++ rest))))) := by
    simp only [Member.text, Item.text, List.append_assoc, List.cons_append]
    rw [skipGap_append hbefore, skipGap_cons (by decide)]
  have hmember {s : List Char} (hs : skipGap s = skipGap (m.text ++ rest)) :
      skipMemberWith (fuel + 1) s = skipMembersWith fuel true (m.item.after ++ rest) := by
    simp only [skipMemberWith, hs, hquote, skipString_append hname, ok_bind, hcolon, hpassed]
  cases later with
  | true =>
      have hcomma : skipGap (gap ++ (separator true ++ (m.text ++ rest))) =
          ',' :: (m.text ++ rest) := by
        rw [skipGap_append hgap]
        exact skipGap_cons (by decide) _
      simp only [skipMembersWith, hcomma, hmember rfl]
  | false =>
      have hstart : skipGap (gap ++ (separator false ++ (m.text ++ rest))) =
          skipGap (m.text ++ rest) := skipGap_append hgap _
      rw [hquote] at hstart
      simp only [skipMembersWith, hstart]
      refine hmember ?_
      rw [skipGap_cons (by decide), hquote]

/-- Members are passed over up to the brace. -/
theorem skipMembersWith_joined {members : List Member} (hnames : ∀ m ∈ members, IsBody m.name)
    (hspaced : ∀ m ∈ members, m.IsSpaced) (hskips : ∀ m ∈ members, Skips m.item.value)
    (hfuel : 2 * (joined later (members.map Member.text)).length < fuel) (hgap : IsGap gap) :
    skipMembersWith fuel later (gap ++ (joined later (members.map Member.text) ++ '\x7d' :: rest)) =
      .ok rest := by
  obtain ⟨fuel, rfl⟩ := Nat.exists_eq_succ_of_ne_zero (Nat.ne_zero_of_lt hfuel)
  induction members generalizing fuel later gap with
  | nil =>
      have hclose : skipGap (gap ++ '\x7d' :: rest) = '\x7d' :: rest := by
        rw [skipGap_append hgap, skipGap_cons (by decide)]
      simp only [List.map_nil, joined, List.nil_append, skipMembersWith, hclose]
  | cons m members ih =>
      have hlength : (joined later ((m :: members).map Member.text)).length =
          (separator later).length +
            (m.text.length + (joined true (members.map Member.text)).length) := by
        simp [joined]
      obtain ⟨hname, hnames⟩ := List.forall_mem_cons.mp hnames
      obtain ⟨hspace, hspaced⟩ := List.forall_mem_cons.mp hspaced
      obtain ⟨hskip, hskips⟩ := List.forall_mem_cons.mp hskips
      have hpos := m.length_value_lt
      obtain ⟨fuel, rfl⟩ := Nat.exists_eq_succ_of_ne_zero (show fuel ≠ 0 by omega)
      rw [List.map_cons, joined, List.append_assoc, List.append_assoc]
      rw [skipMembersWith_member hname hspace hskip (by omega) hgap
        (endsNumber_joined _ (endsNumber_brace rest))]
      obtain ⟨fuel, rfl⟩ := Nat.exists_eq_succ_of_ne_zero (show fuel ≠ 0 by omega)
      exact ih hnames hspaced hskips hspace.2.2.2 fuel (by omega)

/-- What starts with a digit is passed over as a number. -/
theorem skipValueWith_digit {s more : List Char} {d : Char} (hs : skipGap s = d :: more)
    (hd : d.isDigit = true) : skipValueWith (fuel + 1) s = skipNumber (d :: more) := by
  have hne (c : Char) (hc : c.isDigit = false) (t : List Char) : skipGap s ≠ c :: t := by
    intro heq
    exact ne_of_isDigit hd hc (List.cons.inj (hs.symm.trans heq)).1
  simp only [skipValueWith]
  split
  · next heq => cases hs.symm.trans heq
  · next heq => exact absurd heq (hne 'n' (by decide) _)
  · next heq => exact absurd heq (hne 't' (by decide) _)
  · next heq => exact absurd heq (hne 'f' (by decide) _)
  · next heq => exact absurd heq (hne '-' (by decide) _)
  · next heq => exact absurd heq (hne '"' (by decide) _)
  · next heq => exact absurd heq (hne '[' (by decide) _)
  · next heq => exact absurd heq (hne '\x7b' (by decide) _)
  · next heq =>
    obtain ⟨rfl, rfl⟩ := List.cons.inj (hs.symm.trans heq)
    rw [if_pos hd]

/-- Every value is passed over. -/
theorem IsValue.skips {v : List Char} (h : IsValue v) : Skips v := by
  induction h with
  | word hw =>
      simp only [words, List.mem_cons, List.not_mem_nil, or_false] at hw
      intro fuel gap rest hfuel hgap hrest
      rcases hw with rfl | rfl | rfl
      all_goals
        obtain ⟨fuel, rfl⟩ := Nat.exists_eq_succ_of_ne_zero (Nat.ne_zero_of_lt hfuel)
        simp only [skipValueWith, skipGap_append hgap]
        rfl
  | @number s hs =>
      intro fuel gap rest hfuel hgap hrest
      have hpos := (IsValue.number hs).length_pos
      obtain ⟨fuel, rfl⟩ := Nat.exists_eq_succ_of_ne_zero (show fuel ≠ 0 by omega)
      obtain ⟨negative, hwhole, hfraction, hexponent⟩ := hs
      have hnumber := skipNumber_append hwhole hfraction hexponent hrest
      obtain ⟨d, ds, rfl, hd, -⟩ := hwhole.exists_cons
      simp only [List.append_assoc]
      cases negative with
      | true =>
          have hstart (s : List Char) : skipGap (gap ++ (Decimal.sign true ++ s)) = '-' :: s := by
            rw [skipGap_append hgap]
            exact skipGap_cons (by decide) _
          simp only [skipValueWith, hstart]
          exact hnumber
      | false =>
          rw [skipValueWith_digit _ hd]
          · exact hnumber
          · rw [skipGap_append hgap]
            exact skipGap_cons (isGap_of_isDigit hd) _
  | @string body hbody =>
      intro fuel gap rest hfuel hgap hrest
      obtain ⟨fuel, rfl⟩ := Nat.exists_eq_succ_of_ne_zero (Nat.ne_zero_of_lt hfuel)
      simp only [skipValueWith, skipGap_quoted hgap, skipString_append hbody]
  | @list gap' items hgap' hspaced hvalues ih =>
      intro fuel gap rest hfuel hgap hrest
      obtain ⟨before, hbefore, hinside⟩ := exists_inside_eq hgap' (items.map Item.text)
      rw [listOf, hinside] at hfuel ⊢
      have hstart : skipGap
          (gap ++ (('[' :: (before ++ joined false (items.map Item.text) ++ [']'])) ++ rest)) =
            '[' :: (before ++ (joined false (items.map Item.text) ++ ']' :: rest)) := by
        rw [skipGap_append hgap, List.cons_append, skipGap_cons (by decide)]
        simp
      simp only [List.length_cons, List.length_append] at hfuel
      obtain ⟨fuel, rfl⟩ := Nat.exists_eq_succ_of_ne_zero (show fuel ≠ 0 by omega)
      simp only [skipValueWith, hstart]
      exact skipItemsWith_joined hvalues hspaced ih (by omega) hbefore
  | @object gap' members hgap' hspaced hnames hvalues ih =>
      intro fuel gap rest hfuel hgap hrest
      obtain ⟨before, hbefore, hinside⟩ := exists_inside_eq hgap' (members.map Member.text)
      rw [objectOf, hinside] at hfuel ⊢
      have hstart : skipGap (gap ++ (('\x7b' :: (before ++ joined false (members.map Member.text) ++
          ['\x7d'])) ++ rest)) =
            '\x7b' :: (before ++ (joined false (members.map Member.text) ++ '\x7d' :: rest)) := by
        rw [skipGap_append hgap, List.cons_append, skipGap_cons (by decide)]
        simp
      simp only [List.length_cons, List.length_append] at hfuel
      obtain ⟨fuel, rfl⟩ := Nat.exists_eq_succ_of_ne_zero (show fuel ≠ 0 by omega)
      simp only [skipValueWith, hstart]
      exact skipMembersWith_joined hnames hspaced ih (by omega) hbefore

/-- A value that stands behind blanks is passed over. -/
theorem skipValue_append {v : List Char} (h : IsValue v) (hgap : IsGap gap)
    (hrest : EndsNumber rest) : skipValue (gap ++ (v ++ rest)) = .ok rest := by
  refine h.skips _ gap rest ?_ hgap hrest
  simp only [List.length_append]
  omega

end FlowControl.Json
