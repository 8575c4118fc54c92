import FlowControl.Proofs.Json.Objects

/-!
# What is written is read back

A quoted string spells the characters it was made of.  Lists and objects are written as their
parts without blanks.  A number that is read off its whole text is read off the front of a longer
one as well, if that goes on with something that belongs to no number.
-/

namespace FlowControl.Json

variable {α : Type}

/-! ## Strings -/

theorem hexDigit?_hexDigit : ∀ n < 16, Text.hexDigit? (hexDigit n) = some n := by
  decide

/-- A control character is written with the two digits of its number. -/
theorem hexUnit_control {n : Nat} (hn : n < 0x20) :
    hexUnit ['0', '0', hexDigit (n / 16), hexDigit (n % 16)] = .ok (n, []) := by
  have hzero : Text.hexDigit? '0' = some 0 := by decide
  have hhigh := hexDigit?_hexDigit (n / 16) (by omega)
  have hlow := hexDigit?_hexDigit (n % 16) (by omega)
  have hvalue : ((0 * 16 + 0) * 16 + n / 16) * 16 + n % 16 = n := by omega
  simp only [hexUnit, hzero, hhigh, hlow, hvalue]

/-- An escaped character spells the character, in front of what the rest spells. -/
theorem spells_escapedChar (c : Char) {body cs : List Char} (h : Spells body cs) :
    Spells (escapedChar c ++ body) (c :: cs) := by
  unfold escapedChar
  split
  · next hc =>
    subst hc
    exact .letter rfl h
  split
  · next hc =>
    subst hc
    exact .letter rfl h
  split
  · next hc =>
    subst hc
    exact .letter rfl h
  split
  · next hc =>
    subst hc
    exact .letter rfl h
  split
  · next hc =>
    subst hc
    exact .letter rfl h
  split
  · next hc =>
    subst hc
    exact .letter rfl h
  split
  · next hc =>
    subst hc
    exact .letter rfl h
  split
  · next hlow =>
    have hunit := hexUnit_control hlow
    have hspells := Spells.unit hunit (by simp [isLeading]; omega) (by simp [isTrailing]; omega) h
    rwa [Char.ofNat_toNat] at hspells
  · next hquote hslash _ _ _ _ _ hlow => exact .plain ⟨hquote, hslash, Nat.le_of_not_lt hlow⟩ h

/-- What stands between the quotes of a written string spells the string. -/
theorem spells_escaped (cs : List Char) : Spells (cs.flatMap escapedChar) cs := by
  induction cs with
  | nil => exact .done
  | cons c cs ih => exact spells_escapedChar c ih

theorem toList_stringText (s : String) :
    (stringText s).toList = '"' :: (s.toList.flatMap escapedChar ++ ['"']) := by
  simp [stringText]

theorem isValue_stringText (s : String) : IsValue (stringText s).toList := by
  rw [toList_stringText]
  exact .string (spells_escaped _).isBody

/-! ## Lists and objects -/

/-- Parts are written with commas between them. -/
theorem inside_eq_intercalate (parts : List (List Char)) :
    inside [] parts = [','].intercalate parts := by
  have hjoined (part : List Char) (parts : List (List Char)) :
      joined false (part :: parts) = [','].intercalate (part :: parts) := by
    induction parts generalizing part with
    | nil => simp [joined, separator]
    | cons next parts ih =>
        rw [List.intercalate_cons_cons, ← ih next]
        simp [joined, separator]
  cases parts with
  | nil => rfl
  | cons part parts => exact hjoined part parts

theorem toList_listText (items : List String) :
    (listText items).toList = listOf [] (items.map fun i => .bare i.toList) := by
  have htext : (Item.text ∘ fun i : String => Item.bare i.toList) = String.toList :=
    funext fun i => by simp [Item.text, Item.bare]
  rw [listOf, List.map_map, htext, inside_eq_intercalate]
  simp [listText]

/-- A member without blanks, whose name is written as a string is. -/
def Entry.bare (name value : String) : Entry :=
  ⟨name, .bare (name.toList.flatMap escapedChar) value.toList⟩

theorem Entry.isWritten_bare (name value : String) : (Entry.bare name value).IsWritten :=
  ⟨spells_escaped _, isGap_nil, isGap_nil, isGap_nil, isGap_nil⟩

theorem toList_objectText (members : List (String × String)) :
    (objectText members).toList = entriesText [] (members.map fun m => .bare m.1 m.2) := by
  have htext : ((Member.text ∘ Entry.member) ∘ fun m : String × String => Entry.bare m.1 m.2) =
      fun m => (stringText m.1 ++ ":" ++ m.2).toList :=
    funext fun m => by
      simp [Member.text, Member.bare, Entry.bare, Item.text, Item.bare, toList_stringText]
  rw [entriesText, objectOf, List.map_map, List.map_map, htext, inside_eq_intercalate]
  simp [objectText, Function.comp_def]

/-! ## Lists of values -/

/-- The next item is found behind blanks and its comma. -/
theorem nextItem_append {i : Item} {later : Bool} {gap rest : List Char} (hvalue : IsValue i.value)
    (hspaced : i.IsSpaced) (hgap : IsGap gap) :
    nextItem later (gap ++ (separator later ++ (i.text ++ rest))) =
      .ok (some (i.value ++ (i.after ++ rest))) := by
  obtain ⟨c, s, hcons, hc, hbracket⟩ := hvalue.exists_cons
  have hstart : skipGap (i.text ++ rest) = c :: (s ++ (i.after ++ rest)) := by
    simp only [Item.text, List.append_assoc]
    rw [skipGap_append hspaced.1, hcons, List.cons_append, skipGap_cons hc]
  rw [hcons, List.cons_append]
  cases later with
  | true =>
      have hcomma : skipGap (gap ++ (separator true ++ (i.text ++ rest))) =
          ',' :: (i.text ++ rest) := by
        rw [skipGap_append hgap]
        exact skipGap_cons (by decide) _
      simp only [nextItem, hcomma, hstart]
      split
      · next heq => cases heq
      · next heq => exact absurd (List.cons.inj heq).1 hbracket
      · rfl
  | false =>
      have hfirst : skipGap (gap ++ (separator false ++ (i.text ++ rest))) =
          c :: (s ++ (i.after ++ rest)) := by
        rw [skipGap_append hgap]
        exact hstart
      simp only [nextItem, hfirst]
      split
      · next heq => cases heq
      · next heq => exact absurd (List.cons.inj heq).1 hbracket
      · next hfalse _ => cases hfalse
      · next hfalse _ _ _ => cases hfalse
      · rfl

/-- The items of a list are read up to its bracket. -/
theorem itemsWith_joined {r : Reader α} {ps : List (Item × α)} {fuel : Nat} {later : Bool}
    {gap rest : List Char} (hspaced : ∀ p ∈ ps, p.1.IsSpaced)
    (hvalues : ∀ p ∈ ps, IsValue p.1.value) (htakes : ∀ p ∈ ps, Takes r p.1.value p.2)
    (hfuel : ps.length < fuel) (hgap : IsGap gap) :
    itemsWith r fuel later (gap ++ (joined later (ps.map fun p => p.1.text) ++ ']' :: rest)) =
      .ok (ps.map Prod.snd, rest) := by
  obtain ⟨fuel, rfl⟩ := Nat.exists_eq_succ_of_ne_zero (Nat.ne_zero_of_lt hfuel)
  induction ps generalizing fuel later gap with
  | nil =>
      have hclose : skipGap (gap ++ ']' :: rest) = ']' :: rest := by
        rw [skipGap_append hgap, skipGap_cons (by decide)]
      simp only [List.map_nil, joined, List.nil_append, itemsWith, nextItem, listEnd, hclose]
      rfl
  | cons p ps ih =>
      obtain ⟨hspace, hspaced⟩ := List.forall_mem_cons.mp hspaced
      obtain ⟨hvalue, hvalues⟩ := List.forall_mem_cons.mp hvalues
      obtain ⟨htake, htakes⟩ := List.forall_mem_cons.mp htakes
      rw [List.length_cons] at hfuel
      obtain ⟨fuel, rfl⟩ := Nat.exists_eq_succ_of_ne_zero (show fuel ≠ 0 by omega)
      have hends := endsNumber_joined (ps.map fun p => p.1.text) (endsNumber_bracket rest)
      have hread := htake [] _ isGap_nil (endsNumber_gap hspace.2 hends)
      have hlater := @ih true p.1.after hspaced hvalues htakes hspace.2 fuel (by omega)
      rw [List.map_cons, joined, List.append_assoc, List.append_assoc, itemsWith,
        nextItem_append hvalue hspace hgap]
      simp only [List.nil_append] at hread
      simp only [hread, hlater]
      rfl

/-- A list takes its items. -/
theorem takes_list {r : Reader α} {ps : List (Item × α)} {gap : List Char} (hgap : IsGap gap)
    (hspaced : ∀ p ∈ ps, p.1.IsSpaced) (hvalues : ∀ p ∈ ps, IsValue p.1.value)
    (htakes : ∀ p ∈ ps, Takes r p.1.value p.2) :
    Takes (list r) (listOf gap (ps.map Prod.fst)) (ps.map Prod.snd) := by
  intro gap' rest hgap' hrest
  obtain ⟨before, hbefore, hinside⟩ := exists_inside_eq hgap (ps.map fun p => p.1.text)
  have hstart : skipGap (gap' ++ (listOf gap (ps.map Prod.fst) ++ rest)) = '[' :: (before ++
      (joined false (ps.map fun p => p.1.text) ++ ']' :: rest)) := by
    rw [skipGap_append hgap', listOf, List.map_map]
    show skipGap ('[' :: _) = _
    rw [skipGap_cons (by decide)]
    show '[' :: (inside gap (ps.map fun p => p.1.text) ++ [']'] ++ rest) = _
    simp [hinside]
  simp only [list, hstart]
  refine itemsWith_joined hspaced hvalues htakes ?_ hbefore
  have hlength : ps.length ≤ (joined false (ps.map fun p => p.1.text)).length := by
    have hparts := @length_le_joined (ps.map fun p => p.1.text) false fun part hp => by
      obtain ⟨q, hq, rfl⟩ := List.mem_map.mp hp
      exact Nat.lt_of_lt_of_le (hvalues q hq).length_pos q.1.length_value_le
    rwa [List.length_map] at hparts
  simp only [List.length_append]
  omega

/-- A list that is written value by value takes the values. -/
theorem takes_list_map {r : Reader α} {as : List α} {text : α → List Char}
    (hvalues : ∀ a ∈ as, IsValue (text a)) (htakes : ∀ a ∈ as, Takes r (text a) a) :
    Takes (list r) (listOf [] (as.map fun a => .bare (text a))) as := by
  let written (a : α) : Item × α := (.bare (text a), a)
  have hitems : Takes (list r) (listOf [] ((as.map written).map Prod.fst))
      ((as.map written).map Prod.snd) := by
    refine takes_list isGap_nil ?_ ?_ ?_
    all_goals
      intro p hp
      obtain ⟨a, ha, rfl⟩ := List.mem_map.mp hp
    · exact ⟨isGap_nil, isGap_nil⟩
    · exact hvalues a ha
    · exact htakes a ha
  have hvalues : (as.map written).map Prod.snd = as := by
    rw [List.map_map]
    exact List.map_id as
  rw [hvalues, List.map_map] at hitems
  exact hitems

/-! ## Floats

What a number is depends on its text alone: reading a longer text gives the same number, and
leaves what was left before and the rest. -/

variable {s out rest : List Char}

theorem digitRun_frame (hrest : EndsNumber rest) :
    digitRun (s ++ rest) = ((digitRun s).1, (digitRun s).2 ++ rest) := by
  induction s with
  | nil => exact @digitRun_append [] rest nofun hrest.head_not_digit
  | cons c s ih =>
      obtain ⟨hfst, hsnd⟩ := Prod.mk.inj ih
      simp only [digitRun] at hfst hsnd
      by_cases hc : c.isDigit = true
      · simp [digitRun, hc, hfst, hsnd]
      · simp [digitRun, hc]

/-- Digits that are there are read on their own as well as in front of something else. -/
theorem digitRun_cons_frame {d : Char} {ds tail : List Char} (hrest : EndsNumber rest)
    (h : digitRun s = (d :: ds, tail)) : digitRun (s ++ rest) = (d :: ds, tail ++ rest) := by
  rw [digitRun_frame hrest, h]

/-- A sign is read on its own as well as in front of something else. -/
theorem splitSign_frame (hs : s ≠ []) :
    splitSign (s ++ rest) = ((splitSign s).1, (splitSign s).2 ++ rest) := by
  obtain ⟨c, s, rfl⟩ := List.exists_cons_of_ne_nil hs
  by_cases hplus : c = '+'
  · subst hplus
    rfl
  by_cases hminus : c = '-'
  · subst hminus
    rfl
  have hnone (t : List Char) : splitSign (c :: t) = (false, c :: t) := by
    rw [splitSign]
    · exact fun _ heq => hplus (List.cons.inj heq).1
    · exact fun _ heq => hminus (List.cons.inj heq).1
  rw [List.cons_append, hnone, hnone]
  rfl

theorem exponent_frame {x : Int} (hrest : EndsNumber rest) (h : exponent s = .ok (x, out)) :
    exponent (s ++ rest) = .ok (x, out ++ rest) := by
  have hs : s ≠ [] := by
    rintro rfl
    cases h
  rw [exponent] at h ⊢
  rw [splitSign_frame hs]
  split at h
  · cases h
  · cases h
  · next ds tail _ hne heq =>
    cases ds with
    | nil => exact absurd rfl hne
    | cons d ds =>
        cases h
        rw [digitRun_cons_frame hrest heq]

/-- What a text does not start with, it does not start with in front of the rest either. -/
theorem ne_cons_append {c : Char} (hrest : ∀ t, rest ≠ c :: t) (hs : ∀ t, s ≠ c :: t)
    (t : List Char) : s ++ rest ≠ c :: t := by
  cases s with
  | nil => exact hrest t
  | cons d s =>
      rintro heq
      obtain ⟨rfl, -⟩ := List.cons.inj heq
      exact hs s rfl

theorem EndsNumber.ne_cons (hrest : EndsNumber rest) {c : Char}
    (hc : c = '.' ∨ c = 'e' ∨ c = 'E') (t : List Char) : rest ≠ c :: t := by
  rintro rfl
  obtain ⟨-, hpoint, hsmall, hlarge⟩ := hrest
  rcases hc with rfl | rfl | rfl
  · exact hpoint rfl
  · exact hsmall rfl
  · exact hlarge rfl

theorem floatTail_exponent {negative : Bool} {digits : Nat} {e x : Int} {c : Char}
    {mid : List Char} (hc : c = 'e' ∨ c = 'E') (hs : exponent s = .ok (x, mid)) :
    floatTail negative digits e (c :: s) = (scaled digits (e + x)).map fun f =>
      (Number.float (if negative then -f else f), mid) := by
  rcases hc with rfl | rfl <;> simp only [floatTail, hs]

theorem floatTail_frame {negative : Bool} {digits : Nat} {e : Int} {a : Number}
    (hrest : EndsNumber rest) (h : floatTail negative digits e s = .ok (a, out)) :
    floatTail negative digits e (s ++ rest) = .ok (a, out ++ rest) := by
  have hfinish {e : Int} {mid : List Char} (h : ((scaled digits e).map fun f =>
      (Number.float (if negative then -f else f), mid)) = .ok (a, out)) : ((scaled digits e).map
        fun f => (Number.float (if negative then -f else f), mid ++ rest)) =
          .ok (a, out ++ rest) := by
    cases hscaled : scaled digits e with
    | error fault =>
        rw [hscaled] at h
        cases h
    | ok f =>
        rw [hscaled] at h
        cases h
        rfl
  have hexponent {c : Char} {s : List Char} {p : Int × List Char} (hc : c = 'e' ∨ c = 'E')
      (hs : exponent s = .ok p) (h : ((scaled digits (e + p.1)).map fun f =>
        (Number.float (if negative then -f else f), p.2)) = .ok (a, out)) :
      floatTail negative digits e (c :: s ++ rest) = .ok (a, out ++ rest) := by
    rw [List.cons_append, floatTail_exponent hc (exponent_frame hrest hs)]
    exact hfinish h
  unfold floatTail at h
  dsimp only at h
  split at h
  · next s =>
    cases hs : exponent s with
    | error fault =>
        rw [hs] at h
        cases h
    | ok p =>
        rw [hs] at h
        exact hexponent (.inl rfl) hs h
  · next s =>
    cases hs : exponent s with
    | error fault =>
        rw [hs] at h
        cases h
    | ok p =>
        rw [hs] at h
        exact hexponent (.inr rfl) hs h
  · next hsmall hlarge =>
    unfold floatTail
    dsimp only
    split
    · next heq => exact absurd heq (ne_cons_append (hrest.ne_cons (by simp)) hsmall _)
    · next heq => exact absurd heq (ne_cons_append (hrest.ne_cons (by simp)) hlarge _)
    · exact hfinish h

theorem numberTail_frame {negative : Bool} {digits dropped : Nat} {a : Number}
    (hrest : EndsNumber rest) (h : numberTail negative digits dropped s = .ok (a, out)) :
    numberTail negative digits dropped (s ++ rest) = .ok (a, out ++ rest) := by
  unfold numberTail at h ⊢
  split at h
  · next s =>
    split at h
    · cases h
    · cases h
    · next ds tail _ hne heq =>
      cases ds with
      | nil => exact absurd rfl hne
      | cons d ds =>
          have hrun := digitRun_cons_frame hrest heq
          simp only [List.cons_append, hrun]
          exact floatTail_frame hrest h
  · next s => exact floatTail_frame (s := 'e' :: s) hrest h
  · next s => exact floatTail_frame (s := 'E' :: s) hrest h
  · next hpoint hsmall hlarge =>
    split
    · next heq => exact absurd heq (ne_cons_append (hrest.ne_cons (by simp)) hpoint _)
    · next heq => exact absurd heq (ne_cons_append (hrest.ne_cons (by simp)) hsmall _)
    · next heq => exact absurd heq (ne_cons_append (hrest.ne_cons (by simp)) hlarge _)
    · by_cases hdropped : 0 < dropped
      · rw [if_pos hdropped] at h ⊢
        exact floatTail_frame hrest h
      · simp only [hdropped, if_false] at h ⊢
        by_cases hsign : (!negative) = true
        · rw [if_pos hsign] at h ⊢
          cases h
          rfl
        · rw [if_neg hsign] at h ⊢
          by_cases hfits : 0 < digits ∧ digits ≤ 9223372036854775808
          · rw [if_pos hfits] at h ⊢
            cases h
            rfl
          · rw [if_neg hfits] at h ⊢
            cases h
            rfl

theorem number_frame {negative : Bool} {a : Number} (hrest : EndsNumber rest)
    (h : number negative s = .ok (a, out)) :
    number negative (s ++ rest) = .ok (a, out ++ rest) := by
  rw [number] at h ⊢
  split at h
  · cases h
  · cases h
  · cases h
  · next ds tail _ hne hzero heq =>
    cases ds with
    | nil => exact absurd rfl hne
    | cons d ds =>
        rw [digitRun_cons_frame hrest heq]
        split
        · next heq => cases (Prod.mk.inj heq).1
        · next heq => cases (Prod.mk.inj heq).1
        · next heq => exact absurd (Prod.mk.inj heq).1 (hzero _ _)
        · next heq =>
          obtain ⟨rfl, rfl⟩ := Prod.mk.inj heq
          exact numberTail_frame hrest h

theorem anyNumber_frame {expected : String} {gap : List Char} {a : Number} (hgap : IsGap gap)
    (hrest : EndsNumber rest) (h : anyNumber expected s = .ok (a, out)) :
    anyNumber expected (gap ++ (s ++ rest)) = .ok (a, out ++ rest) := by
  have hstart : skipGap s ≠ [] → skipGap (gap ++ (s ++ rest)) = skipGap s ++ rest := by
    intro hne
    rw [skipGap_append hgap]
    simp only [skipGap] at hne ⊢
    rw [List.dropWhile_append, if_neg (by simpa using hne)]
  simp only [anyNumber] at h ⊢
  split at h
  · cases h
  · next heq =>
    rw [hstart (by simp [heq]), heq, List.cons_append]
    exact number_frame hrest h
  · next c s hminus heq =>
    rw [hstart (by simp [heq]), heq, List.cons_append]
    split at h
    · next hdigit =>
      split
      · next heq => cases heq
      · next heq => exact absurd (List.cons.inj heq).1 hminus
      · next heq =>
        obtain ⟨rfl, rfl⟩ := List.cons.inj heq
        rw [if_pos hdigit]
        exact number_frame hrest h
    · obtain ⟨e, he⟩ := mistyped_eq_error (α := Number × List Char) expected (c :: s)
      cases he.symm.trans h

/-- A text that is read as a float with nothing left over is taken as that float. -/
theorem takes_float {t : List Char} {x : Float} (h : float t = .ok (x, [])) : Takes float t x := by
  intro gap rest hgap hrest
  simp only [float] at h ⊢
  split at h
  · cases h
  all_goals
    next hnumber =>
    cases h
    simp only [anyNumber_frame hgap hrest hnumber, List.nil_append]

end FlowControl.Json
