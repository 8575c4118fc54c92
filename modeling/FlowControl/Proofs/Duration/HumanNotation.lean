import FlowControl.Duration.Human
import FlowControl.Proofs.Json.Natural

/-!
# Spans of time read back from their notation

A span is written as its parts from years to nanoseconds, and the parts add up to the span again.
No sum on the way is larger than the span, so none leaves its 64 bits.
-/

namespace FlowControl.Duration.Human

/-! ## Sums -/

theorem fits_of_le {n : Nat} (h : n ≤ Word.maxNat) : fits n = some n := if_pos h

/-- Seconds and nanoseconds are added up. -/
theorem addParts_eq {sum : Duration} {secs nanos : Nat} (hnanos : nanos ≤ 1000000000)
    (h : sum.nanos + secs * 1000000000 + nanos ≤ maxNanos) :
    addParts sum secs nanos = some (ofNanos (sum.nanos + secs * 1000000000 + nanos)) := by
  have hparts := sum.secs_subsecNanos.symm
  have hrest : sum.subsecNanos < 1000000000 := Nat.mod_lt _ (by decide)
  have hmax : maxNanos = 18446744073709551615999999999 := rfl
  have hword : Word.maxNat = 18446744073709551615 := rfl
  have hfits : fits (sum.subsecNanos + nanos) = some (sum.subsecNanos + nanos) :=
    fits_of_le (by omega)
  have hfits' : fits (sum.secs + secs + (sum.subsecNanos + nanos) / 1000000000) =
      some (sum.secs + secs + (sum.subsecNanos + nanos) / 1000000000) := fits_of_le (by omega)
  have htotal : sum.nanos + secs * 1000000000 + nanos =
      (sum.secs + secs + (sum.subsecNanos + nanos) / 1000000000) * 1000000000 +
        (sum.subsecNanos + nanos) % 1000000000 := by
    omega
  simp only [addParts, hfits, hfits', Option.bind_eq_bind, Option.bind_some, ← htotal,
    Option.pure_def]

/-- A unit is whole seconds, or else a part of one. -/
theorem Scale.nanos_eq {unit : Scale} (h : unit.isSubsecond = false) :
    unit.nanos = unit.seconds * 1000000000 := by
  cases unit with
  | nanosecond | microsecond | millisecond => cases h
  | _ => simp only [nanos]

/-- Whole units of a second or more are added up. -/
theorem addWhole_seconds {sum : Duration} {n : Nat} {unit : Scale}
    (hunit : unit.isSubsecond = false) (h : sum.nanos + n * unit.nanos ≤ maxNanos) :
    addWhole sum n unit = some (ofNanos (sum.nanos + n * unit.nanos)) := by
  have hmax : maxNanos = 18446744073709551615999999999 := rfl
  have hword : Word.maxNat = 18446744073709551615 := rfl
  rw [Scale.nanos_eq hunit, ← Nat.mul_assoc] at h ⊢
  have hfits : fits (n * unit.seconds) = some (n * unit.seconds) := fits_of_le (by omega)
  have hsum : addParts sum (n * unit.seconds) 0 =
      some (ofNanos (sum.nanos + n * unit.seconds * 1000000000)) := by
    rw [addParts_eq (Nat.zero_le _) (by rwa [Nat.add_zero]), Nat.add_zero]
  simp only [addWhole, hunit, Bool.false_eq_true, if_false, hfits, Option.bind_eq_bind,
    Option.bind_some, hsum]

/-- Parts of a second are added up. -/
theorem addWhole_subsecond {sum : Duration} {n : Nat} {unit : Scale}
    (hunit : unit.isSubsecond = true) (hsmall : n * unit.nanos ≤ 1000000000)
    (h : sum.nanos + n * unit.nanos ≤ maxNanos) :
    addWhole sum n unit = some (ofNanos (sum.nanos + n * unit.nanos)) := by
  have hword : Word.maxNat = 18446744073709551615 := rfl
  have hfits : fits (n * unit.nanos) = some (n * unit.nanos) := fits_of_le (by omega)
  have hsum : addParts sum 0 (n * unit.nanos) = some (ofNanos (sum.nanos + n * unit.nanos)) := by
    rw [addParts_eq hsmall (by rwa [Nat.zero_mul, Nat.add_zero]), Nat.zero_mul, Nat.add_zero]
  simp only [addWhole, hunit, if_true, hfits, Option.bind_eq_bind, Option.bind_some, hsum]

/-! ## Groups -/

/-- A number and its unit, and how many nanoseconds that is. -/
inductive IsPart : (text : List Char) → (nanos : Nat) → Prop
  | of {n : Nat} {unit : Scale} {spelling : List Char} (hunit : Scale.ofChars? spelling = some unit)
      (hspelling : ∀ c ∈ spelling, isUnitChar c = true) (hn : n ≤ Word.maxNat)
      (hsmall : unit.isSubsecond = true → n * unit.nanos ≤ 1000000000) :
      IsPart (Nat.toDigits 10 n ++ spelling) (n * unit.nanos)

theorem isBlank_of_isDigit {d : Char} (hd : d.isDigit = true) : Text.isBlank d = false := by
  obtain ⟨hlow, hhigh⟩ := Char.isDigit_iff_toNat.mp hd
  rw [show '0'.toNat = 48 from rfl] at hlow
  rw [show '9'.toNat = 57 from rfl] at hhigh
  simp only [Text.isBlank, Bool.or_eq_false_iff, Bool.and_eq_false_iff, decide_eq_false_iff_not,
    beq_eq_false_iff_ne]
  omega

/-- A character of a unit is neither a digit nor a blank nor a point. -/
theorem not_stays_of_isUnitChar {c : Char} (hc : isUnitChar c = true) :
    (c.isDigit || Text.isBlank c) = false ∧ c ≠ '.' := by
  have hvalue : 65 ≤ c.toNat ∧ c.toNat ≤ 90 ∨ 97 ≤ c.toNat ∧ c.toNat ≤ 122 ∨ c.toNat = 181 := by
    have hspelled : ((decide (c.val ≥ 'A'.val ∧ c.val ≤ 'Z'.val) ||
        (decide (c.val ≥ 'a'.val) && decide (c.val ≤ 'z'.val))) || c == 'µ') = true := hc
    simp only [Bool.or_eq_true, beq_iff_eq, Bool.and_eq_true, decide_eq_true_eq, ge_iff_le,
      UInt32.le_iff_toNat_le] at hspelled
    rcases hspelled with (⟨hlow, hhigh⟩ | ⟨hlow, hhigh⟩) | rfl
    · exact .inl ⟨hlow, hhigh⟩
    · exact .inr (.inl ⟨hlow, hhigh⟩)
    · exact .inr (.inr rfl)
  refine ⟨?_, ?_⟩
  · have hdigit : c.isDigit = false := by
      rw [Bool.eq_false_iff]
      intro hd
      obtain ⟨-, hhigh⟩ := Char.isDigit_iff_toNat.mp hd
      rw [show '9'.toNat = 57 from rfl] at hhigh
      omega
    simp only [hdigit, Bool.false_or, Text.isBlank, Bool.or_eq_false_iff, Bool.and_eq_false_iff,
      decide_eq_false_iff_not, beq_eq_false_iff_ne]
    omega
  · rintro rfl
    exact absurd hvalue (by decide)

/-- The unit of a part is not empty, and no digit, blank or point stands in front. -/
theorem exists_cons_of_ofChars? {spelling : List Char} {unit : Scale}
    (hunit : Scale.ofChars? spelling = some unit)
    (hspelling : ∀ c ∈ spelling, isUnitChar c = true) :
    ∃ c cs, spelling = c :: cs ∧ (c.isDigit || Text.isBlank c) = false ∧ c ≠ '.' := by
  cases spelling with
  | nil => cases hunit
  | cons c cs => exact ⟨c, cs, rfl, not_stays_of_isUnitChar (hspelling c List.mem_cons_self)⟩

/-- The number of a part is read up to its unit. -/
theorem amount_toDigits {n : Nat} {spelling rest : List Char} {unit : Scale}
    (hunit : Scale.ofChars? spelling = some unit)
    (hspelling : ∀ c ∈ spelling, isUnitChar c = true) (hn : n ≤ Word.maxNat) :
    amount (Nat.toDigits 10 n ++ (spelling ++ rest)) = some (n, none, spelling ++ rest) := by
  obtain ⟨c, cs, rfl, hc, hpoint⟩ := exists_cons_of_ofChars? hunit hspelling
  have hdigits : ∀ d ∈ Nat.toDigits 10 n, d.isDigit = true := fun d hd =>
    Nat.isDigit_of_mem_toDigits (by decide) (by decide) hd
  have hstays : ∀ d ∈ Nat.toDigits 10 n, (d.isDigit || Text.isBlank d) = true := fun d hd => by
    rw [hdigits d hd, Bool.true_or]
  have hrun : digitsAndBlanks (Nat.toDigits 10 n ++ c :: (cs ++ rest)) =
      (Nat.toDigits 10 n, c :: (cs ++ rest)) := by
    unfold digitsAndBlanks
    dsimp only
    rw [List.takeWhile_append_of_pos hstays, List.dropWhile_append_of_pos hstays]
    simp [hc, List.filter_eq_self.mpr hdigits]
  have hvalue : Nat.ofDigitChars 10 (Nat.toDigits 10 n) 0 = n := Nat.ofDigitChars_ten_toDigits
  simp only [amount, List.cons_append, hrun, hvalue, fits_of_le hn, Option.bind_eq_bind,
    Option.bind_some]
  split
  · next heq => exact absurd (List.cons.inj heq).1 hpoint
  · rfl

variable {text tail blanks : List Char} {nanos fuel : Nat} {sum : Duration}

/-- A part is added to the sum; it ends with the text, or reading goes on behind a blank. -/
theorem groups_part (h : IsPart text nanos) (hblanks : ∀ c ∈ blanks, Text.isBlank c = true)
    (hsum : sum.nanos + nanos ≤ maxNanos) (htail : tail = [] ∨ ∃ rest, tail = ' ' :: rest) :
    groups (fuel + 1) sum (blanks ++ (text ++ tail)) =
      if tail = [] then some (ofNanos (sum.nanos + nanos))
      else groups fuel (ofNanos (sum.nanos + nanos)) tail := by
  obtain @⟨n, unit, spelling, hunit, hspelling, hn, hsmall⟩ := h
  have hamount : amount (Nat.toDigits 10 n ++ (spelling ++ tail)) =
      some (n, none, spelling ++ tail) := amount_toDigits hunit hspelling hn
  have hadded : addGroup sum n none spelling = some (ofNanos (sum.nanos + n * unit.nanos)) := by
    have hwhole : addWhole sum n unit = some (ofNanos (sum.nanos + n * unit.nanos)) := by
      cases hscale : unit.isSubsecond with
      | true => exact addWhole_subsecond hscale (hsmall hscale) hsum
      | false => exact addWhole_seconds hscale hsum
    simp only [addGroup, hunit, hwhole, Option.bind_eq_bind, Option.bind_some]
  obtain ⟨d, ds, hdigits⟩ := List.exists_cons_of_ne_nil (Nat.toDigits_ne_nil (b := 10) (n := n))
  have hd : d.isDigit = true :=
    Nat.isDigit_of_mem_toDigits (by decide) (by decide) (n := n) (hdigits ▸ List.mem_cons_self)
  have hblank : Text.isBlank d = false := isBlank_of_isDigit hd
  have hhead : ∀ c ∈ tail.head?, isUnitChar c = false := by
    rcases htail with rfl | ⟨rest, rfl⟩
    · exact nofun
    · rintro c ⟨⟩
      decide
  have htake : (spelling ++ tail).takeWhile isUnitChar = spelling := by
    rw [List.takeWhile_append_of_pos hspelling]
    cases tail with
    | nil => rw [List.takeWhile_nil, List.append_nil]
    | cons c s => rw [List.takeWhile_cons_of_neg (by simp [hhead c rfl]), List.append_nil]
  have hdrop : (spelling ++ tail).dropWhile isUnitChar = tail := by
    rw [List.dropWhile_append_of_pos hspelling]
    cases tail with
    | nil => rfl
    | cons c s => rw [List.dropWhile_cons_of_neg (by simp [hhead c rfl])]
  have hstart : (blanks ++ ((Nat.toDigits 10 n ++ spelling) ++ tail)).dropWhile Text.isBlank =
      d :: (ds ++ (spelling ++ tail)) := by
    rw [List.dropWhile_append_of_pos hblanks, hdigits]
    simp [hblank]
  rw [hdigits, List.cons_append] at hamount
  simp only [groups, hstart, hd, if_true, hamount, Option.bind_eq_bind, Option.bind_some, htake,
    hadded, hdrop]
  rcases htail with rfl | ⟨rest, rfl⟩
  · rfl
  · rfl

/-! ## Parts -/

/-- Texts of parts that add up to so many nanoseconds. -/
inductive AddsUp : List (List Char) → Nat → Prop
  | nil : AddsUp [] 0
  | cons {text : List Char} {texts : List (List Char)} {n m : Nat} (hpart : IsPart text n)
      (hparts : AddsUp texts m) : AddsUp (text :: texts) (n + m)

theorem AddsUp.append {first second : List (List Char)} {n m : Nat} (h : AddsUp first n)
    (h' : AddsUp second m) : AddsUp (first ++ second) (n + m) := by
  induction h with
  | nil => rwa [Nat.zero_add]
  | cons hpart hparts ih =>
      rw [Nat.add_assoc]
      exact .cons hpart ih

/-- A part starts with a digit, and that is not all. -/
theorem IsPart.exists_cons (h : IsPart text nanos) :
    ∃ c c' cs, text = c :: c' :: cs ∧ Text.isBlank c = false := by
  obtain @⟨n, unit, spelling, hunit, hspelling, -, -⟩ := h
  obtain ⟨c, cs, rfl, -⟩ := exists_cons_of_ofChars? hunit hspelling
  obtain ⟨d, ds, hdigits⟩ := List.exists_cons_of_ne_nil (Nat.toDigits_ne_nil (b := 10) (n := n))
  have hd : d.isDigit = true :=
    Nat.isDigit_of_mem_toDigits (by decide) (by decide) (n := n) (hdigits ▸ List.mem_cons_self)
  rw [hdigits]
  cases ds with
  | nil => exact ⟨_, _, _, rfl, isBlank_of_isDigit hd⟩
  | cons d' ds => exact ⟨_, _, _, rfl, isBlank_of_isDigit hd⟩

/-- The text of parts starts as its first part does, and has room for each of them. -/
theorem AddsUp.exists_cons {texts : List (List Char)} (h : AddsUp texts nanos)
    (hne : texts ≠ []) : ∃ c c' cs, [' '].intercalate texts = c :: c' :: cs ∧
      Text.isBlank c = false ∧ texts.length ≤ ([' '].intercalate texts).length := by
  induction h with
  | nil => exact absurd rfl hne
  | @cons text texts n m hpart hparts ih =>
      obtain ⟨c, c', cs, rfl, hc⟩ := hpart.exists_cons
      cases texts with
      | nil =>
          rw [List.intercalate_singleton]
          exact ⟨c, c', cs, rfl, hc, by simp⟩
      | cons next texts =>
          obtain ⟨-, -, -, -, -, hlength⟩ := ih (List.cons_ne_nil _ _)
          rw [List.intercalate_cons_cons]
          refine ⟨c, c', _, rfl, hc, ?_⟩
          simp only [List.length_append, List.length_cons] at hlength ⊢
          omega

/-- Parts with blanks between them are added up. -/
theorem groups_intercalate {texts : List (List Char)} (hparts : AddsUp texts nanos)
    (hne : texts ≠ []) (hblanks : ∀ c ∈ blanks, Text.isBlank c = true)
    (hfuel : texts.length ≤ fuel) (hsum : sum.nanos + nanos ≤ maxNanos) :
    groups fuel sum (blanks ++ [' '].intercalate texts) = some (ofNanos (sum.nanos + nanos)) := by
  induction hparts generalizing fuel sum blanks with
  | nil => exact absurd rfl hne
  | @cons text texts n m hpart hparts ih =>
      obtain ⟨fuel, rfl⟩ := Nat.exists_eq_succ_of_ne_zero
        (Nat.ne_zero_of_lt (Nat.lt_of_lt_of_le (Nat.succ_pos _) hfuel))
      have hle : sum.nanos + n ≤ maxNanos := by omega
      cases texts with
      | nil =>
          cases hparts
          have hgroups : groups (fuel + 1) sum (blanks ++ (text ++ [])) =
              some (ofNanos (sum.nanos + n)) := groups_part hpart hblanks hle (.inl rfl)
          rw [List.append_nil] at hgroups
          rw [List.intercalate_singleton, Nat.add_zero]
          exact hgroups
      | cons next texts =>
          rw [List.intercalate_cons_cons, List.append_assoc, List.singleton_append,
            groups_part hpart hblanks hle (.inr ⟨_, rfl⟩), if_neg (List.cons_ne_nil _ _)]
          have hnanos : (ofNanos (sum.nanos + n)).nanos = sum.nanos + n := nanos_ofNanos_of_le hle
          have hblank : ∀ c ∈ [' '], Text.isBlank c = true :=
            List.forall_mem_singleton.mpr (by decide)
          have hlater := @ih [' '] fuel (ofNanos (sum.nanos + n)) (List.cons_ne_nil _ _) hblank
            (Nat.le_of_succ_le_succ hfuel) (by rw [hnanos]; omega)
          rwa [hnanos, Nat.add_assoc] at hlater

/-- One part with a plural is what it counts. -/
theorem addsUp_counted {n : Nat} {unit : String} {scale : Scale}
    (hunit : Scale.ofChars? unit.toList = some scale)
    (hplural : Scale.ofChars? (unit.toList ++ ['s']) = some scale)
    (hspelling : unit.toList.all isUnitChar = true) (hn : n ≤ Word.maxNat)
    (hscale : scale.isSubsecond = false) : AddsUp (counted n unit) (n * scale.nanos) := by
  have hsmall : scale.isSubsecond = true → n * scale.nanos ≤ 1000000000 := fun h =>
    absurd (h.symm.trans hscale) Bool.noConfusion
  unfold counted
  split
  · next hzero =>
    rw [hzero, Nat.zero_mul]
    exact .nil
  · refine .cons (m := 0) ?_ .nil
    rw [List.append_assoc]
    split
    · refine .of hplural (fun c hc => ?_) hn hsmall
      rcases List.mem_append.mp hc with hc | hc
      · exact List.all_eq_true.mp hspelling c hc
      · obtain rfl := List.mem_singleton.mp hc
        decide
    · rw [List.append_nil]
      exact .of hunit (List.all_eq_true.mp hspelling) hn hsmall

theorem addsUp_part {n : Nat} {unit : String} {scale : Scale}
    (hunit : Scale.ofChars? unit.toList = some scale)
    (hspelling : unit.toList.all isUnitChar = true) (hn : n ≤ Word.maxNat)
    (hsmall : scale.isSubsecond = true → n * scale.nanos ≤ 1000000000) :
    AddsUp (part n unit) (n * scale.nanos) := by
  unfold part
  split
  · next hzero =>
    rw [hzero, Nat.zero_mul]
    exact .nil
  · exact .cons (m := 0) (.of hunit (List.all_eq_true.mp hspelling) hn hsmall) .nil

/-- The parts of a span add up to it. -/
theorem addsUp_parts (d : Duration) : AddsUp (parts d) d.nanos := by
  have hword : Word.maxNat = 18446744073709551615 := rfl
  have hsecs := d.secs_le
  have hnanos : d.subsecNanos < 1000000000 := Nat.mod_lt _ (by decide)
  have hyears : AddsUp (counted (d.secs / 31557600) "year") (_ * Scale.year.nanos) :=
    addsUp_counted rfl rfl (by decide) (by omega) rfl
  have hmonths : AddsUp (counted (d.secs % 31557600 / 2630016) "month") (_ * Scale.month.nanos) :=
    addsUp_counted rfl rfl (by decide) (by omega) rfl
  have hdays : AddsUp (counted (d.secs % 31557600 % 2630016 / 86400) "day") (_ * Scale.day.nanos) :=
    addsUp_counted rfl rfl (by decide) (by omega) rfl
  have hhours : AddsUp (part (d.secs % 31557600 % 2630016 % 86400 / 3600) "h")
      (_ * Scale.hour.nanos) := addsUp_part rfl (by decide) (by omega) nofun
  have hminutes : AddsUp (part (d.secs % 31557600 % 2630016 % 86400 % 3600 / 60) "m")
      (_ * Scale.minute.nanos) := addsUp_part rfl (by decide) (by omega) nofun
  have hseconds : AddsUp (part (d.secs % 31557600 % 2630016 % 86400 % 60) "s")
      (_ * Scale.second.nanos) := addsUp_part rfl (by decide) (by omega) nofun
  have hmillis : AddsUp (part (d.subsecNanos / 1000000) "ms") (_ * Scale.millisecond.nanos) :=
    addsUp_part rfl (by decide) (by omega) fun _ => by
      show _ * 1000000 ≤ _
      omega
  have hmicros : AddsUp (part (d.subsecNanos / 1000 % 1000) "us") (_ * Scale.microsecond.nanos) :=
    addsUp_part rfl (by decide) (by omega) fun _ => by
      show _ * 1000 ≤ _
      omega
  have hrest : AddsUp (part (d.subsecNanos % 1000) "ns") (_ * Scale.nanosecond.nanos) :=
    addsUp_part rfl (by decide) (by omega) fun _ => by
      show _ * 1 ≤ _
      omega
  have hall := (((((((hyears.append hmonths).append hdays).append hhours).append hminutes).append
    hseconds).append hmillis).append hmicros).append hrest
  have hparts := d.secs_subsecNanos.symm
  simp only [Scale.nanos, Scale.seconds] at hall
  refine (congrArg (AddsUp (parts d)) ?_).mp hall
  omega

/-- A span is read back from its notation. -/
theorem parse_format (d : Duration) : parse (format d) = some d := by
  unfold format
  split
  · next hzero =>
    have hd : d = zero := Duration.ext ((isZero_iff d).mp hzero)
    rw [hd]
    decide
  · next hzero =>
    have hparts := addsUp_parts d
    have hne : parts d ≠ [] := by
      intro hnone
      rw [hnone] at hparts
      have hnothing {n : Nat} (h : AddsUp [] n) : n = 0 := by
        cases h
        rfl
      exact hzero ((isZero_iff d).mpr (hnothing hparts))
    obtain ⟨c, c', cs, htext, hblank, hlength⟩ := hparts.exists_cons hne
    have hgroups : groups (([' '].intercalate (parts d)).length + 1) zero
        ([] ++ [' '].intercalate (parts d)) = some (ofNanos (zero.nanos + d.nanos)) :=
      groups_intercalate hparts hne nofun (by omega) (by simpa using d.nanos_le)
    have hsum : ofNanos (zero.nanos + d.nanos) = d := by
      refine Duration.ext ?_
      rw [nanos_zero, Nat.zero_add, nanos_ofNanos_of_le d.nanos_le]
    rw [hsum, List.nil_append, htext] at hgroups
    rw [htext, parse, if_neg (by simp), if_neg (by simp [hblank]), hgroups]

end FlowControl.Duration.Human
