import FlowControl.Proofs.Json.Writing

/-!
# Records over their base

A record whose fields may be left out is read as its base record with the given fields laid over
it.  Which ones are given is all that counts: not their order, and not what else the object has.
-/

namespace FlowControl.Json

/-- A name in an object, and which texts are right for its value. -/
structure Part where
  name : String
  texts : List Char → Prop

/-- Are these the members of an object that gives each part once, in any order, but for those
left out?  Members of other names may hold any value. -/
structure Gives (parts : List Part) (omitted : String → Bool) (es : List Entry) : Prop where
  written : ∀ e ∈ es, e.IsWritten
  others : ∀ e ∈ es, (∀ p ∈ parts, p.name ≠ e.name) → IsValue e.value
  absent : ∀ p ∈ parts, omitted p.name = true → valuesOf p.name es = []
  present : ∀ p ∈ parts, omitted p.name = false → ∃ v, valuesOf p.name es = [v] ∧ p.texts v

/-- Is a text an object that gives the parts, but for those left out? -/
def IsObjectOf (parts : List Part) (omitted : String → Bool) (t : List Char) : Prop :=
  ∃ gap es, IsGap gap ∧ Gives parts omitted es ∧ t = entriesText gap es

/-- Lists of the same names have an element for each other's elements. -/
theorem exists_mem_zip {α β : Type} {name : α → String} {name' : β → String} {as : List α}
    {bs : List β} (h : as.map name = bs.map name') {a : α} (ha : a ∈ as) :
    ∃ b ∈ bs, name' b = name a ∧ (a, b) ∈ as.zip bs := by
  induction as generalizing bs with
  | nil => cases ha
  | cons a' as ih =>
      cases bs with
      | nil => cases h
      | cons b bs =>
          obtain ⟨hname, hnames⟩ := List.cons.inj h
          rcases List.mem_cons.mp ha with rfl | ha
          · exact ⟨b, List.mem_cons_self, hname.symm, List.mem_cons_self⟩
          · obtain ⟨b', hb', hname', hzip⟩ := ih hnames ha
            exact ⟨b', List.mem_cons_of_mem _ hb', hname', List.mem_cons_of_mem _ hzip⟩

/-- Among members of different names each name has its own value. -/
theorem valuesOf_bare {members : List (String × String)} {m : String × String}
    (hdistinct : (members.map Prod.fst).Pairwise fun a b => a ≠ b) (hm : m ∈ members) :
    valuesOf m.1 (members.map fun m => .bare m.1 m.2) = [m.2.toList] := by
  induction members with
  | nil => cases hm
  | cons m' members ih =>
      obtain ⟨hother, hdistinct⟩ := List.pairwise_cons.mp hdistinct
      rw [List.map_cons]
      rcases List.mem_cons.mp hm with rfl | hm
      · have hnone : valuesOf m.1 (members.map fun m => .bare m.1 m.2) = [] := by
          simp only [valuesOf, List.map_eq_nil_iff, List.filter_eq_nil_iff, List.mem_map]
          rintro _ ⟨m', hm', rfl⟩
          exact fun hname => hother m'.1 (List.mem_map_of_mem hm') (of_decide_eq_true hname).symm
        rw [valuesOf_cons_self (show (Entry.bare m.1 m.2).name = m.1 from rfl), hnone]
        rfl
      · have hne : (Entry.bare m'.1 m'.2).name ≠ m.1 := hother m.1 (List.mem_map_of_mem hm)
        rw [valuesOf_cons_of_ne hne, ih hdistinct hm]

/-- Written parts in their order are an object that gives them all. -/
theorem isObjectOf_objectText {parts : List Part} {members : List (String × String)}
    (hnames : parts.map Part.name = members.map Prod.fst)
    (hdistinct : (members.map Prod.fst).Pairwise fun a b => a ≠ b)
    (htexts : ∀ q ∈ parts.zip members, q.1.texts q.2.2.toList) :
    IsObjectOf parts (fun _ => false) (objectText members).toList := by
  refine ⟨[], members.map fun m => .bare m.1 m.2, isGap_nil, ⟨?_, ?_, nofun, ?_⟩,
    toList_objectText members⟩
  · intro e he
    obtain ⟨m, -, rfl⟩ := List.mem_map.mp he
    exact Entry.isWritten_bare m.1 m.2
  · -- There are no other members.
    intro e he hother
    obtain ⟨m, hm, rfl⟩ := List.mem_map.mp he
    obtain ⟨p, hp, hname, -⟩ := exists_mem_zip hnames.symm hm
    exact absurd hname (hother p hp)
  · intro p hp _
    obtain ⟨m, hm, hname, hzip⟩ := exists_mem_zip hnames hp
    exact ⟨m.2.toList, hname ▸ valuesOf_bare hdistinct hm, htexts (p, m) hzip⟩

/-- A field lays the value of its part over a record. -/
theorem field_lays {α σ : Type} {r : Reader α} {a : α} {texts : List Char → Prop}
    {name : String} {set : α → σ → σ} {target : (String → Bool) → σ}
    (htakes : ∀ v, texts v → Takes r v a)
    (hset : ∀ o, set a (target o) = target fun other => o other && other != name) :
    ∀ v, texts v → ∃ change, Takes (field name r set).read v change ∧
      ∀ o, change (target o) = target fun other => o other && other != (field name r set).name :=
  fun v hv => ⟨set a, (htakes v hv).field name set, hset⟩

namespace Shape

variable {σ : Type} {shape : Shape σ}

/-- A record takes an object that gives its fields, but for some left out, as the record with these
fields as in the base. -/
theorem takes_isObjectOf (target : (String → Bool) → σ) {parts : List Part}
    {omitted : String → Bool} {t : List Char} (h : IsObjectOf parts omitted t)
    (hnames : shape.fields.map Field.name = parts.map Part.name)
    (hbase : target (fun _ => true) = shape.base)
    (hcongr : ∀ o o', (∀ f ∈ shape.fields, o f.name = o' f.name) → target o = target o')
    (hcomplete : shape.complete = true → ∀ f ∈ shape.fields, omitted f.name = false)
    (hfields : ∀ q ∈ shape.fields.zip parts, ∀ v, q.2.texts v → ∃ change,
      Takes q.1.read v change ∧
        ∀ o, change (target o) = target fun name => o name && name != q.1.name) :
    Takes shape.read t (target omitted) := by
  obtain ⟨gap, es, hgap, hgives, rfl⟩ := h
  have hgiven : target omitted = target fun name => !(shape.given es).contains name := by
    refine hcongr _ _ fun f hf => ?_
    obtain ⟨p, hp, hname, -⟩ := exists_mem_zip hnames hf
    have hmem : f.name ∈ shape.given es ↔ valuesOf f.name es ≠ [] :=
      mem_given.trans ⟨And.left, fun h => ⟨h, f, hf, rfl⟩⟩
    rw [← hname] at hmem ⊢
    cases homitted : omitted p.name with
    | true => simp [hmem, hgives.absent p hp homitted]
    | false =>
        obtain ⟨v, hv, -⟩ := hgives.present p hp homitted
        simp [hmem, hv]
  rw [hgiven]
  refine takes_entriesText (fun seen => target fun name => !seen.contains name) hgap
    hgives.written hbase (fun f hf => ?_) (fun h f hf => ?_) fun e he hunknown => ?_
  · obtain ⟨p, hp, hname, hzip⟩ := exists_mem_zip hnames hf
    cases homitted : omitted p.name with
    | true => exact .inl (hname ▸ hgives.absent p hp homitted)
    | false =>
        obtain ⟨v, hv, htexts⟩ := hgives.present p hp homitted
        obtain ⟨change, htakes, hchange⟩ := hfields (f, p) hzip v htexts
        refine .inr ⟨v, change, hname ▸ hv, htakes, fun seen => (hchange _).trans ?_⟩
        refine congrArg target (funext fun name => ?_)
        rw [List.contains_cons, Bool.not_or, Bool.and_comm]
        rfl
  · obtain ⟨p, hp, hname, -⟩ := exists_mem_zip hnames hf
    obtain ⟨v, hv, -⟩ := hgives.present p hp (hname ▸ hcomplete h f hf)
    simp [← hname, hv]
  · refine hgives.others e he fun p hp hname => ?_
    obtain ⟨f, hf, hname', -⟩ := exists_mem_zip hnames.symm hp
    exact hunknown f hf (hname'.trans hname)

end Shape

end FlowControl.Json
