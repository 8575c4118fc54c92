import FlowControl.Proofs.Json.Member

/-!
# The notation of values

Which texts are values: the three words, numbers, strings between quotes, and lists and objects
of values, with blanks between all parts.  Lists and objects are given by their parts, so that a
statement can speak of the members of an object; their names are kept as they were written,
with escapes.

Nesting is not limited, and a number may have any size.
-/

namespace FlowControl.Json

/-- Are these nothing but blanks? -/
def IsGap (s : List Char) : Prop := ∀ c ∈ s, isGap c = true

/-! ## Numbers -/

/-- Is this a run of digits, one at least? -/
def IsDigits (ds : List Char) : Prop := ds ≠ [] ∧ ∀ d ∈ ds, d.isDigit = true

/-- Are these the digits of a whole number, with a zero in front only if it stands alone? -/
def IsWhole (ds : List Char) : Prop := IsDigits ds ∧ (ds.head? = some '0' → ds = ['0'])

/-- A fraction with its point, or nothing. -/
inductive IsFraction : List Char → Prop
  | absent : IsFraction []
  | present {ds : List Char} (hds : IsDigits ds) : IsFraction ('.' :: ds)

/-- An exponent with its letter and perhaps a sign, or nothing. -/
inductive IsExponent : List Char → Prop
  | absent : IsExponent []
  | present {letter : Char} {sign ds : List Char} (hletter : letter = 'e' ∨ letter = 'E')
      (hsign : sign = [] ∨ sign = ['+'] ∨ sign = ['-']) (hds : IsDigits ds) :
      IsExponent (letter :: (sign ++ ds))

/-- A number: perhaps a minus sign, a whole number, perhaps a fraction, perhaps an exponent. -/
inductive IsNumber : List Char → Prop
  | of (negative : Bool) {whole fraction exponent : List Char} (hwhole : IsWhole whole)
      (hfraction : IsFraction fraction) (hexponent : IsExponent exponent) :
      IsNumber (Decimal.sign negative ++ (whole ++ (fraction ++ exponent)))

/-! ## Strings -/

/-- What may stand between the quotes of a string. -/
inductive IsBody : List Char → Prop
  | done : IsBody []
  | plain {c : Char} {body : List Char} (hc : IsPlain c) (hbody : IsBody body) :
      IsBody (c :: body)
  | letter {c d : Char} {body : List Char} (hc : letterEscape? c = some d)
      (hbody : IsBody body) : IsBody ('\\' :: c :: body)
  | unit {a b c d : Char} {n : Nat} {body : List Char} (hunit : hexUnit [a, b, c, d] = .ok (n, []))
      (hbody : IsBody body) : IsBody ('\\' :: 'u' :: a :: b :: c :: d :: body)

/-- The characters that the text between two quotes stands for.  Half a surrogate pair stands for
none. -/
inductive Spells : (body : List Char) → (cs : List Char) → Prop
  | done : Spells [] []
  | plain {c : Char} {body cs : List Char} (hc : IsPlain c) (hbody : Spells body cs) :
      Spells (c :: body) (c :: cs)
  | letter {c d : Char} {body cs : List Char} (hc : letterEscape? c = some d)
      (hbody : Spells body cs) : Spells ('\\' :: c :: body) (d :: cs)
  | unit {a b c d : Char} {n : Nat} {body cs : List Char}
      (hunit : hexUnit [a, b, c, d] = .ok (n, [])) (hsingle : isLeading n = false)
      (hsingle' : isTrailing n = false) (hbody : Spells body cs) :
      Spells ('\\' :: 'u' :: a :: b :: c :: d :: body) (Char.ofNat n :: cs)
  | pair {a b c d a' b' c' d' : Char} {n m : Nat} {body cs : List Char}
      (hunit : hexUnit [a, b, c, d] = .ok (n, [])) (hleading : isLeading n = true)
      (hunit' : hexUnit [a', b', c', d'] = .ok (m, [])) (htrailing : isTrailing m = true)
      (hbody : Spells body cs) :
      Spells ('\\' :: 'u' :: a :: b :: c :: d :: '\\' :: 'u' :: a' :: b' :: c' :: d' :: body)
        (pairChar n m :: cs)

/-! ## Values -/

/-- A value and the blanks around it. -/
structure Item where
  before : List Char
  value : List Char
  after : List Char

namespace Item

/-- The text of an item. -/
def text (i : Item) : List Char := i.before ++ (i.value ++ i.after)

/-- Are there only blanks around the value? -/
def IsSpaced (i : Item) : Prop := IsGap i.before ∧ IsGap i.after

/-- A value without blanks around it. -/
def bare (value : List Char) : Item := ⟨[], value, []⟩

end Item

/-- A name between quotes, with blanks around it, and what stands behind its colon. -/
structure Member where
  before : List Char
  name : List Char
  after : List Char
  item : Item

namespace Member

/-- The text of a member. -/
def text (m : Member) : List Char :=
  m.before ++ '"' :: (m.name ++ '"' :: (m.after ++ ':' :: m.item.text))

/-- Are there only blanks around the name and around the value? -/
def IsSpaced (m : Member) : Prop := IsGap m.before ∧ IsGap m.after ∧ m.item.IsSpaced

/-- A member without blanks. -/
def bare (name value : List Char) : Member := ⟨[], name, [], .bare value⟩

end Member

/-- Parts with commas between them, and one in front if something came before. -/
def joined : (later : Bool) → List (List Char) → List Char
  | _, [] => []
  | later, part :: parts => separator later ++ (part ++ joined true parts)

/-- What stands between brackets or braces: parts with commas between them, or blanks. -/
def inside (gap : List Char) : List (List Char) → List Char
  | [] => gap
  | parts => joined false parts

/-- The text of a list. -/
def listOf (gap : List Char) (items : List Item) : List Char :=
  '[' :: (inside gap (items.map Item.text) ++ [']'])

/-- The text of an object. -/
def objectOf (gap : List Char) (members : List Member) : List Char :=
  '\x7b' :: (inside gap (members.map Member.text) ++ ['\x7d'])

/-- The words that are values. -/
def words : List (List Char) :=
  [['n', 'u', 'l', 'l'], ['t', 'r', 'u', 'e'], ['f', 'a', 'l', 's', 'e']]

/-- Is a text a value? -/
inductive IsValue : List Char → Prop
  | word {w : List Char} (hw : w ∈ words) : IsValue w
  | number {s : List Char} (hs : IsNumber s) : IsValue s
  | string {body : List Char} (hbody : IsBody body) : IsValue ('"' :: (body ++ ['"']))
  | list {gap : List Char} {items : List Item} (hgap : IsGap gap)
      (hspaced : ∀ i ∈ items, i.IsSpaced) (hvalues : ∀ i ∈ items, IsValue i.value) :
      IsValue (listOf gap items)
  | object {gap : List Char} {members : List Member} (hgap : IsGap gap)
      (hspaced : ∀ m ∈ members, m.IsSpaced) (hnames : ∀ m ∈ members, IsBody m.name)
      (hvalues : ∀ m ∈ members, IsValue m.item.value) : IsValue (objectOf gap members)

/-! ## Small facts -/

theorem isGap_nil : IsGap [] := nofun

theorem skipGap_append {gap : List Char} (hgap : IsGap gap) (s : List Char) :
    skipGap (gap ++ s) = skipGap s :=
  List.dropWhile_append_of_pos hgap

theorem skipGap_cons {c : Char} (hc : isGap c = false) (s : List Char) :
    skipGap (c :: s) = c :: s := by
  simp [skipGap, hc]

/-- Behind blanks a string begins with its quote. -/
theorem skipGap_quoted {gap : List Char} (hgap : IsGap gap) (body rest : List Char) :
    skipGap (gap ++ (('"' :: (body ++ ['"'])) ++ rest)) = '"' :: (body ++ '"' :: rest) := by
  rw [skipGap_append hgap, List.cons_append, skipGap_cons (by decide), List.append_assoc]
  rfl

theorem skipGap_gap {gap : List Char} (hgap : IsGap gap) : skipGap gap = [] := by
  have h := skipGap_append hgap []
  rwa [List.append_nil] at h

/-- A blank belongs to no number. -/
theorem endsNumber_gap {gap rest : List Char} (hgap : IsGap gap) (hrest : EndsNumber rest) :
    EndsNumber (gap ++ rest) := by
  cases gap with
  | nil => exact hrest
  | cons c gap =>
      have hc := hgap c List.mem_cons_self
      simp only [isGap, Bool.or_eq_true, beq_iff_eq] at hc
      rcases hc with ((rfl | rfl) | rfl) | rfl <;>
        exact ⟨by decide, by decide, by decide, by decide⟩

theorem endsNumber_comma (s : List Char) : EndsNumber (',' :: s) := endsNumber_separator s

theorem endsNumber_bracket (s : List Char) : EndsNumber (']' :: s) := by simp [EndsNumber]

/-- Behind a part there is a comma, or what closes the list or object. -/
theorem endsNumber_joined {s : List Char} (parts : List (List Char)) (hs : EndsNumber s) :
    EndsNumber (joined true parts ++ s) := by
  cases parts with
  | nil => exact hs
  | cons part parts => exact endsNumber_comma _

/-- There is room for each part. -/
theorem length_le_joined {parts : List (List Char)} (later : Bool)
    (hparts : ∀ part ∈ parts, 0 < part.length) : parts.length ≤ (joined later parts).length := by
  induction parts generalizing later with
  | nil => exact Nat.zero_le _
  | cons part parts ih =>
      obtain ⟨hpart, hparts⟩ := List.forall_mem_cons.mp hparts
      have hlater := ih true hparts
      simp only [joined, List.length_append, List.length_cons]
      omega

/-- Blanks may come before the parts only if there are none. -/
theorem exists_inside_eq {gap : List Char} (hgap : IsGap gap) (parts : List (List Char)) :
    ∃ before, IsGap before ∧ inside gap parts = before ++ joined false parts := by
  cases parts with
  | nil => exact ⟨gap, hgap, (List.append_nil gap).symm⟩
  | cons part parts => exact ⟨[], isGap_nil, rfl⟩

/-- A digit is neither a blank nor any of the marks that values start with. -/
theorem ne_of_isDigit {c d : Char} (hc : c.isDigit = true) (hd : d.isDigit = false) : c ≠ d := by
  rintro rfl
  exact Bool.noConfusion (hc.symm.trans hd)

theorem isGap_of_isDigit {c : Char} (hc : c.isDigit = true) : isGap c = false := by
  rw [Bool.eq_false_iff]
  intro hgap
  simp only [isGap, Bool.or_eq_true, beq_iff_eq] at hgap
  rcases hgap with ((rfl | rfl) | rfl) | rfl <;> exact absurd hc (by decide)

/-- Digits, then a text that does not go on with one, are split where the digits end. -/
theorem digitRun_append {ds rest : List Char} (hds : ∀ d ∈ ds, d.isDigit = true)
    (hrest : ∀ c ∈ rest.head?, c.isDigit = false) : digitRun (ds ++ rest) = (ds, rest) := by
  unfold digitRun
  rw [List.takeWhile_append_of_pos hds, List.dropWhile_append_of_pos hds]
  cases rest with
  | nil => simp
  | cons c rest => simp [hrest c rfl]

theorem EndsNumber.head_not_digit {rest : List Char} (hrest : EndsNumber rest) :
    ∀ c ∈ rest.head?, c.isDigit = false := by
  cases rest with
  | nil => exact nofun
  | cons c rest =>
      rintro _ ⟨⟩
      exact hrest.1

end FlowControl.Json
