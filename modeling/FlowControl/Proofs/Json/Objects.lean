import FlowControl.Proofs.Json.Reading

/-!
# Records read off any object

An object gives a record its fields in any order, with members of other names between them and
blanks anywhere.  What it gives a field is the list of values that stand under the field's name.
One value that the field takes is what it should be; more than one, or one that is refused, is
a fault, and so is none if all fields are required.
-/

namespace FlowControl.Json

/-- A member with the name that is spelled between its quotes. -/
structure Entry where
  name : String
  member : Member

namespace Entry

/-- The value of a member. -/
def value (e : Entry) : List Char := e.member.item.value

/-- Is the name spelled in the member, with blanks only around name and value? -/
structure IsWritten (e : Entry) : Prop where
  spells : Spells e.member.name e.name.toList
  spaced : e.member.IsSpaced

end Entry

/-- The values that stand under a name, in order. -/
def valuesOf (name : String) (es : List Entry) : List (List Char) :=
  (es.filter fun e => e.name = name).map Entry.value

/-- The text of an object with these members. -/
def entriesText (gap : List Char) (es : List Entry) : List Char :=
  objectOf gap (es.map Entry.member)

variable {e : Entry} {es : List Entry} {name : String} {gap gap' rest : List Char}

theorem valuesOf_cons_self (h : e.name = name) :
    valuesOf name (e :: es) = e.value :: valuesOf name es := by
  simp [valuesOf, h]

theorem valuesOf_cons_of_ne (h : e.name ≠ name) : valuesOf name (e :: es) = valuesOf name es := by
  simp [valuesOf, h]

theorem valuesOf_subset_cons : valuesOf name es ⊆ valuesOf name (e :: es) := by
  by_cases h : e.name = name
  · rw [valuesOf_cons_self h]
    exact List.subset_cons_self _ _
  · rw [valuesOf_cons_of_ne h]
    exact List.Subset.refl _

theorem exists_entry_of_mem_valuesOf {v : List Char} (h : v ∈ valuesOf name es) :
    ∃ e ∈ es, e.name = name ∧ e.value = v := by
  simpa [valuesOf, and_assoc] using h

namespace Shape

variable {σ : Type} {shape : Shape σ} {f : Field σ} {fuel : Nat} {later : Bool}
  {seen : List String} {record : σ}

/-! ## One member -/

/-- A field found under a member's name has this name. -/
theorem name_of_find?_eq_some
    (hfield : shape.fields.find? (fun f => f.name.toList == e.name.toList) = some f) :
    f ∈ shape.fields ∧ f.name = e.name := by
  have hname := List.find?_some hfield
  exact ⟨List.mem_of_find?_eq_some hfield, String.toList_inj.mp (beq_iff_eq.mp hname)⟩

theorem ne_name_of_find?_eq_none
    (hunknown : shape.fields.find? (fun f => f.name.toList == e.name.toList) = none)
    (hf : f ∈ shape.fields) : e.name ≠ f.name := by
  rintro hname
  exact List.find?_eq_none.mp hunknown f hf (by simp [hname])

/-- Reading members starts with the name of the first one. -/
theorem readMembersWith_entry (he : e.IsWritten) (hgap : IsGap gap) :
    shape.readMembersWith (fuel + 1) later seen record
        (gap ++ (separator later ++ (e.member.text ++ rest))) =
      shape.readMember e.name.toList seen (e.member.after ++
        ':' :: (e.member.item.before ++ (e.value ++ (e.member.item.after ++ rest)))) >>=
      fun p => shape.readMembersWith fuel true (p.1.1.toList ++ seen) (p.1.2 record) p.2 := by
  have hquote : skipGap (e.member.text ++ rest) = '"' :: (e.member.name ++ '"' ::
      (e.member.after ++ ':' :: (e.member.item.before ++
        (e.value ++ (e.member.item.after ++ rest))))) := by
    simp only [Member.text, Item.text, Entry.value, List.append_assoc, List.cons_append]
    rw [skipGap_append he.spaced.1, skipGap_cons (by decide)]
  have hnext : nextName later (gap ++ (separator later ++ (e.member.text ++ rest))) =
      .ok (some (e.member.name ++ '"' :: (e.member.after ++ ':' :: (e.member.item.before ++
        (e.value ++ (e.member.item.after ++ rest)))))) := by
    cases later with
    | true =>
        have hcomma : skipGap (gap ++ (separator true ++ (e.member.text ++ rest))) =
            ',' :: (e.member.text ++ rest) := by
          rw [skipGap_append hgap]
          exact skipGap_cons (by decide) _
        simp only [nextName, hcomma, hquote]
    | false =>
        have hstart : skipGap (gap ++ (separator false ++ (e.member.text ++ rest))) =
            skipGap (e.member.text ++ rest) := skipGap_append hgap _
        simp only [nextName, hstart, hquote]
  rw [readMembersWith, hnext]
  simp only [string_append he.spells, ok_bind]

/-- Behind a name its colon is found. -/
theorem colon_entry (he : e.IsWritten) (s : List Char) :
    colon (e.member.after ++ ':' :: s) = .ok ((), s) := by
  have hstart : skipGap (e.member.after ++ ':' :: s) = ':' :: s := by
    rw [skipGap_append he.spaced.2.1, skipGap_cons (by decide)]
  simp only [colon, hstart]

/-- A member of an unknown name changes nothing. -/
theorem readMembersWith_unknown (he : e.IsWritten) (hgap : IsGap gap) (hrest : EndsNumber rest)
    (hunknown : shape.fields.find? (fun f => f.name.toList == e.name.toList) = none)
    (hvalue : IsValue e.value) :
    shape.readMembersWith (fuel + 1) later seen record
        (gap ++ (separator later ++ (e.member.text ++ rest))) =
      shape.readMembersWith fuel true seen record (e.member.item.after ++ rest) := by
  have hskip := skipValue_append hvalue he.spaced.2.2.1 (endsNumber_gap he.spaced.2.2.2 hrest)
  rw [readMembersWith_entry he hgap]
  simp only [readMember, hunknown, colon_entry he, ok_bind, hskip]
  rfl

/-- A member that a field takes changes the record. -/
theorem readMembersWith_taken {change : σ → σ} (he : e.IsWritten) (hgap : IsGap gap)
    (hrest : EndsNumber rest)
    (hfield : shape.fields.find? (fun f => f.name.toList == e.name.toList) = some f)
    (hnew : f.name ∉ seen) (htakes : Takes f.read e.value change) :
    shape.readMembersWith (fuel + 1) later seen record
        (gap ++ (separator later ++ (e.member.text ++ rest))) =
      shape.readMembersWith fuel true (f.name :: seen) (change record)
        (e.member.item.after ++ rest) := by
  have hread := htakes e.member.item.before (e.member.item.after ++ rest) he.spaced.2.2.1
    (endsNumber_gap he.spaced.2.2.2 hrest)
  rw [readMembersWith_entry he hgap]
  simp only [readMember, hfield, hnew, if_false, colon_entry he, ok_bind, hread]
  rfl

/-- A member of a name that came before, or one that its field refuses, is a fault. -/
theorem readMembersWith_refused (he : e.IsWritten) (hgap : IsGap gap) (hrest : EndsNumber rest)
    (hfield : shape.fields.find? (fun f => f.name.toList == e.name.toList) = some f)
    (hbad : f.name ∈ seen ∨ Refuses f.read e.value) :
    ∃ fault, shape.readMembersWith (fuel + 1) later seen record
      (gap ++ (separator later ++ (e.member.text ++ rest))) = .error fault := by
  rw [readMembersWith_entry he hgap]
  by_cases hseen : f.name ∈ seen
  · refine ⟨.duplicateField f.name, ?_⟩
    simp only [readMember, hfield, hseen, if_true]
    rfl
  · obtain ⟨fault, hread⟩ := (hbad.resolve_left hseen) e.member.item.before
      (e.member.item.after ++ rest) he.spaced.2.2.1 (endsNumber_gap he.spaced.2.2.2 hrest)
    refine ⟨fault, ?_⟩
    simp only [readMember, hfield, hseen, if_false, colon_entry he, ok_bind, hread]
    rfl

/-- Behind the last member the brace is found. -/
theorem readMembersWith_close (hgap : IsGap gap) :
    shape.readMembersWith (fuel + 1) later seen record (gap ++ '\x7d' :: rest) =
      (shape.finish seen record).map fun r => (r, rest) := by
  have hclose : skipGap (gap ++ '\x7d' :: rest) = '\x7d' :: rest := by
    rw [skipGap_append hgap, skipGap_cons (by decide)]
  simp only [readMembersWith, nextName, hclose]
  rfl

/-! ## All members -/

/-- The names of fields that an object gives, the last one in front. -/
def given (shape : Shape σ) (es : List Entry) : List String :=
  ((es.map Entry.name).filter fun name => shape.fields.any fun f => f.name = name).reverse

theorem mem_given : name ∈ shape.given es ↔
    valuesOf name es ≠ [] ∧ ∃ f ∈ shape.fields, f.name = name := by
  simp [given, valuesOf, List.filter_eq_nil_iff]

theorem given_cons_known (hf : f ∈ shape.fields) (hname : f.name = e.name) :
    shape.given (e :: es) = shape.given es ++ [f.name] := by
  have hany : (shape.fields.any fun f => f.name = e.name) = true :=
    List.any_eq_true.mpr ⟨f, hf, by simp [hname]⟩
  simp [given, hany, hname]

theorem given_cons_unknown (hunknown : ∀ f ∈ shape.fields, e.name ≠ f.name) :
    shape.given (e :: es) = shape.given es := by
  have hany : (shape.fields.any fun f => f.name = e.name) = false :=
    List.any_eq_false.mpr fun f hf => by simpa using (hunknown f hf).symm
  simp [given, hany]

/-- The record stands if every field was seen that has to be. -/
theorem finish_eq_ok
    (hcomplete : shape.complete = true → ∀ f ∈ shape.fields, f.name ∈ seen) :
    shape.finish seen record = .ok record := by
  unfold finish
  split
  · next h =>
    have hnone : shape.fields.find? (fun f => !seen.contains f.name) = none :=
      List.find?_eq_none.mpr fun f hf => by simpa using hcomplete h f hf
    rw [hnone]
  · rfl

theorem finish_eq_error (hcomplete : shape.complete = true) (hf : f ∈ shape.fields)
    (hmissing : f.name ∉ seen) : ∃ fault, shape.finish seen record = .error fault := by
  cases hfind : shape.fields.find? (fun f => !seen.contains f.name) with
  | none => exact absurd (by simpa using hmissing) (List.find?_eq_none.mp hfind f hf)
  | some g => exact ⟨.missingField g.name, by simp only [finish, hcomplete, hfind, if_true]⟩

/-- Members that their fields take, each field one at most, lead to the target record of the
names that are given. -/
theorem readMembersWith_joined {target : List String → σ} (hes : ∀ e ∈ es, e.IsWritten)
    (hread : ∀ f ∈ shape.fields, valuesOf f.name es = [] ∨ f.name ∉ seen ∧ ∃ v change,
      valuesOf f.name es = [v] ∧ Takes f.read v change ∧
        ∀ seen, change (target seen) = target (f.name :: seen))
    (hcomplete : shape.complete = true →
      ∀ f ∈ shape.fields, f.name ∈ seen ∨ valuesOf f.name es ≠ [])
    (hothers : ∀ e ∈ es, (∀ f ∈ shape.fields, f.name ≠ e.name) → IsValue e.value)
    (hfuel : es.length < fuel) (hgap : IsGap gap) :
    shape.readMembersWith fuel later seen (target seen)
        (gap ++ (joined later (es.map fun e => e.member.text) ++ '\x7d' :: rest)) =
      .ok (target (shape.given es ++ seen), rest) := by
  obtain ⟨fuel, rfl⟩ := Nat.exists_eq_succ_of_ne_zero (Nat.ne_zero_of_lt hfuel)
  induction es generalizing fuel later seen gap with
  | nil =>
      have hseen : shape.complete = true → ∀ f ∈ shape.fields, f.name ∈ seen := fun h f hf =>
        (hcomplete h f hf).resolve_right fun hne => hne rfl
      rw [List.map_nil, joined, List.nil_append, readMembersWith_close hgap, finish_eq_ok hseen]
      rfl
  | cons e es ih =>
      obtain ⟨he, hes⟩ := List.forall_mem_cons.mp hes
      obtain ⟨hother, hothers⟩ := List.forall_mem_cons.mp hothers
      have hends := endsNumber_joined (es.map fun e => e.member.text) (endsNumber_brace rest)
      obtain ⟨fuel, rfl⟩ := Nat.exists_eq_succ_of_ne_zero
        (Nat.ne_zero_of_lt (Nat.lt_of_succ_lt_succ hfuel))
      rw [List.length_cons] at hfuel
      rw [List.map_cons, joined, List.append_assoc, List.append_assoc]
      cases hfield : shape.fields.find? (fun f => f.name.toList == e.name.toList) with
      | none =>
          have hne := fun f hf => ne_name_of_find?_eq_none hfield (f := f) hf
          have hvalue := hother fun f hf => (hne f hf).symm
          rw [readMembersWith_unknown he hgap hends hfield hvalue, given_cons_unknown hne]
          refine ih hes (fun f hf => ?_) (fun h f hf => ?_) hothers he.spaced.2.2.2 fuel (by omega)
          · have := hread f hf
            rwa [valuesOf_cons_of_ne (hne f hf)] at this
          · have := hcomplete h f hf
            rwa [valuesOf_cons_of_ne (hne f hf)] at this
      | some g =>
          obtain ⟨hg, hname⟩ := name_of_find?_eq_some hfield
          obtain ⟨hnew, v, change, hvalues, htakes, htarget⟩ :=
            (hread g hg).resolve_left (by simp [valuesOf_cons_self hname.symm])
          rw [valuesOf_cons_self hname.symm] at hvalues
          obtain ⟨rfl, hnone⟩ := List.cons.inj hvalues
          rw [readMembersWith_taken he hgap hends hfield hnew htakes, htarget,
            given_cons_known hg hname, List.append_assoc, List.singleton_append]
          refine ih hes (fun f hf => ?_) (fun h f hf => ?_) hothers he.spaced.2.2.2 fuel (by omega)
          · by_cases hsame : f.name = g.name
            · exact .inl (hsame ▸ hnone)
            · have hne : e.name ≠ f.name := fun h => hsame (h.symm.trans hname.symm)
              have := hread f hf
              rw [valuesOf_cons_of_ne hne] at this
              exact this.imp_right fun h => ⟨by simpa [hsame] using h.1, h.2⟩
          · by_cases hsame : f.name = g.name
            · exact .inl (by simp [hsame])
            · have hne : e.name ≠ f.name := fun h => hsame (h.symm.trans hname.symm)
              have := hcomplete h f hf
              rw [valuesOf_cons_of_ne hne] at this
              exact this.imp_left fun h => List.mem_cons_of_mem _ h

/-- If all fields are required, then a field that is not given just one value that it takes is a
fault. -/
theorem readMembersWith_bad (hes : ∀ e ∈ es, e.IsWritten)
    (hvalues : ∀ e ∈ es, IsValue e.value) (hcomplete : shape.complete = true)
    (hread : ∀ f ∈ shape.fields, ∀ v ∈ valuesOf f.name es,
      (∃ change, Takes f.read v change) ∨ Refuses f.read v)
    (hf : shape.fields.find? (fun g => g.name.toList == f.name.toList) = some f)
    (hbad : f.name ∈ seen ∧ valuesOf f.name es ≠ [] ∨
      f.name ∉ seen ∧ ∀ v change, valuesOf f.name es = [v] → ¬ Takes f.read v change)
    (hgap : IsGap gap) :
    ∃ fault, shape.readMembersWith fuel later seen record
      (gap ++ (joined later (es.map fun e => e.member.text) ++ '\x7d' :: rest)) =
        .error fault := by
  induction es generalizing fuel later seen record gap with
  | nil =>
      cases fuel with
      | zero => exact ⟨_, rfl⟩
      | succ fuel =>
          have hmissing := hbad.resolve_left fun h => h.2 rfl
          obtain ⟨fault, hfinish⟩ : ∃ fault, shape.finish seen record = .error fault :=
            finish_eq_error hcomplete (List.mem_of_find?_eq_some hf) hmissing.1
          refine ⟨fault, ?_⟩
          rw [List.map_nil, joined, List.nil_append, readMembersWith_close hgap, hfinish]
          rfl
  | cons e es ih =>
      cases fuel with
      | zero => exact ⟨_, rfl⟩
      | succ fuel =>
          obtain ⟨he, hes⟩ := List.forall_mem_cons.mp hes
          obtain ⟨hvalue, hvalues⟩ := List.forall_mem_cons.mp hvalues
          have hends := endsNumber_joined (es.map fun e => e.member.text) (endsNumber_brace rest)
          have hlater : ∀ f ∈ shape.fields, ∀ v ∈ valuesOf f.name es,
              (∃ change, Takes f.read v change) ∨ Refuses f.read v :=
            fun f hf v hv => hread f hf v (valuesOf_subset_cons hv)
          rw [List.map_cons, joined, List.append_assoc, List.append_assoc]
          cases hfield : shape.fields.find? (fun f => f.name.toList == e.name.toList) with
          | none =>
              have hne := ne_name_of_find?_eq_none hfield (List.mem_of_find?_eq_some hf)
              rw [valuesOf_cons_of_ne hne] at hbad
              rw [readMembersWith_unknown he hgap hends hfield hvalue]
              exact ih hes hvalues hlater hbad he.spaced.2.2.2
          | some g =>
              obtain ⟨hg, hname⟩ := name_of_find?_eq_some hfield
              rcases hread g hg e.value (by simp [valuesOf_cons_self hname.symm]) with
                ⟨change, htakes⟩ | hrefuses
              · by_cases hnew : g.name ∈ seen
                · exact readMembersWith_refused he hgap hends hfield (.inl hnew)
                · rw [readMembersWith_taken he hgap hends hfield hnew htakes]
                  refine ih hes hvalues hlater ?_ he.spaced.2.2.2
                  by_cases hsame : e.name = f.name
                  · -- The field has its value now, so another one is one too many.
                    obtain rfl : g = f := Option.some.inj (hfield.symm.trans (hsame ▸ hf))
                    rw [valuesOf_cons_self hsame] at hbad
                    refine .inl ⟨List.mem_cons_self, fun hnone => ?_⟩
                    rw [hnone] at hbad
                    exact (hbad.resolve_left fun h => hnew h.1).2 e.value change rfl htakes
                  · rw [valuesOf_cons_of_ne hsame] at hbad
                    have hseen : f.name ∈ g.name :: seen ↔ f.name ∈ seen := by
                      simp [show f.name ≠ g.name from fun h => hsame (hname.symm.trans h.symm)]
                    rwa [hseen]
              · exact readMembersWith_refused he hgap hends hfield (.inr hrefuses)

/-! ## The whole object -/

/-- A record is read off an object from behind its brace. -/
theorem read_entriesText (hgap : IsGap gap) (hgap' : IsGap gap') :
    ∃ before fuel, IsGap before ∧ es.length < fuel ∧
      shape.read (gap ++ (entriesText gap' es ++ rest)) =
        shape.readMembersWith fuel false [] shape.base
          (before ++ (joined false (es.map fun e => e.member.text) ++ '\x7d' :: rest)) := by
  obtain ⟨before, hbefore, hinside⟩ := exists_inside_eq hgap' (es.map fun e => e.member.text)
  have hstart : skipGap (gap ++ (entriesText gap' es ++ rest)) = '\x7b' :: (before ++
      (joined false (es.map fun e => e.member.text) ++ '\x7d' :: rest)) := by
    rw [skipGap_append hgap, entriesText, objectOf, List.map_map]
    show skipGap ('\x7b' :: _) = _
    rw [skipGap_cons (by decide)]
    show '\x7b' :: (inside gap' (es.map fun e => e.member.text) ++ ['\x7d'] ++ rest) = _
    simp [hinside]
  refine ⟨before, _, hbefore, ?_, by simp only [read, hstart]; rfl⟩
  have hlength : es.length ≤ (joined false (es.map fun e => e.member.text)).length := by
    have hparts := @length_le_joined (es.map fun e => e.member.text) false fun part hp => by
      obtain ⟨e, -, rfl⟩ := List.mem_map.mp hp
      have := e.member.length_value_lt
      omega
    rwa [List.length_map] at hparts
  simp only [List.length_append]
  omega

/-- A record takes an object in which each field is given one value at most, which it takes, and
one if all are required. -/
theorem takes_entriesText (target : List String → σ) (hgap : IsGap gap)
    (hes : ∀ e ∈ es, e.IsWritten) (hbase : target [] = shape.base)
    (hread : ∀ f ∈ shape.fields, valuesOf f.name es = [] ∨ ∃ v change,
      valuesOf f.name es = [v] ∧ Takes f.read v change ∧
        ∀ seen, change (target seen) = target (f.name :: seen))
    (hcomplete : shape.complete = true → ∀ f ∈ shape.fields, valuesOf f.name es ≠ [])
    (hothers : ∀ e ∈ es, (∀ f ∈ shape.fields, f.name ≠ e.name) → IsValue e.value) :
    Takes shape.read (entriesText gap es) (target (shape.given es)) := by
  intro gap' rest hgap' hrest
  obtain ⟨before, fuel, hbefore, hfuel, hstart⟩ := read_entriesText hgap' hgap
  rw [hstart, ← hbase, readMembersWith_joined hes (fun f hf => ?_) (fun h f hf => ?_) hothers hfuel
    hbefore,
    List.append_nil]
  · exact (hread f hf).imp_right fun h => ⟨List.not_mem_nil, h⟩
  · exact .inr (hcomplete h f hf)

/-- A record all of whose fields are required refuses an object in which a field is not given
just one value that it takes. -/
theorem refuses_entriesText (hgap : IsGap gap) (hes : ∀ e ∈ es, e.IsWritten)
    (hvalues : ∀ e ∈ es, IsValue e.value) (hcomplete : shape.complete = true)
    (hread : ∀ f ∈ shape.fields, ∀ v ∈ valuesOf f.name es,
      (∃ change, Takes f.read v change) ∨ Refuses f.read v)
    (hf : shape.fields.find? (fun g => g.name.toList == f.name.toList) = some f)
    (hbad : ∀ v change, valuesOf f.name es = [v] → ¬ Takes f.read v change) :
    Refuses shape.read (entriesText gap es) := by
  intro gap' rest hgap' hrest
  obtain ⟨before, fuel, hbefore, -, hstart⟩ := read_entriesText hgap' hgap
  rw [hstart]
  exact readMembersWith_bad hes hvalues hcomplete hread hf (.inr ⟨List.not_mem_nil, hbad⟩) hbefore

end Shape

end FlowControl.Json
