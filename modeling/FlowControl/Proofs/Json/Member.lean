import FlowControl.Proofs.Json.Natural

/-!
# Members of an object as they are written

A writer puts each name between quotes, a colon behind it, then the value, and a
comma between two members.  Reading one such member changes the record by its
value and goes on behind it.  Names are plain here: no escapes are needed.
-/

namespace FlowControl.Json

/-- A character that stands for itself between quotes. -/
def IsPlain (c : Char) : Prop := c ≠ '"' ∧ c ≠ '\\' ∧ 0x20 ≤ c.toNat

instance (c : Char) : Decidable (IsPlain c) := inferInstanceAs (Decidable (_ ∧ _ ∧ _))

/-- Plain characters up to the closing quote are read as they are. -/
theorem string_of_plain (cs rest : List Char) (hcs : ∀ c ∈ cs, IsPlain c) :
    string (cs ++ '"' :: rest) = .ok (cs, rest) := by
  induction cs with
  | nil => rw [List.nil_append, string]
  | cons c cs ih =>
      obtain ⟨hquote, hslash, hcontrol⟩ := hcs c List.mem_cons_self
      have hrest := ih fun d hd => hcs d (List.mem_cons_of_mem c hd)
      have hlow : ¬ c.toNat < 0x20 := by omega
      rw [List.cons_append, string]
      · simp [hlow, hrest]
      · exact hquote
      · exact hslash

/-- What stands before a member: nothing, or a comma if one was there before. -/
def separator (later : Bool) : List Char := if later then [','] else []

theorem endsNumber_separator (s : List Char) : EndsNumber (separator true ++ s) := by
  simp [EndsNumber, separator]

theorem nextName_quote (later : Bool) (s : List Char) :
    Shape.nextName later (separator later ++ '"' :: s) = .ok (some s) := by
  cases later <;> rfl

namespace Shape

variable {σ : Type}

/-- A member of a known name that was not there before changes the record. -/
theorem readMembersWith_member (shape : Shape σ) {f : Field σ} {change : σ → σ}
    (name value rest : List Char) (fuel : Nat) (later : Bool) (seen : List String) (record : σ)
    (hfield : shape.fields.find? (fun f => f.name.toList == name) = some f)
    (hplain : ∀ c ∈ name, IsPlain c) (hnew : f.name ∉ seen)
    (hvalue : f.read (value ++ rest) = .ok (change, rest)) :
    shape.readMembersWith (fuel + 1) later seen record
        (separator later ++ '"' :: (name ++ '"' :: ':' :: (value ++ rest))) =
      shape.readMembersWith fuel true (f.name :: seen) (change record) rest := by
  have hcolon : colon (':' :: (value ++ rest)) = .ok ((), value ++ rest) := rfl
  have hmember : shape.readMember name seen (':' :: (value ++ rest)) =
      .ok ((some f.name, change), rest) := by
    unfold readMember
    simp only [hfield, hnew, if_false, hcolon]
    rw [show ((Except.ok ((), value ++ rest) : Except Fault (Unit × List Char)) >>= fun p =>
      f.read p.2 >>= fun q => Except.ok ((some f.name, q.1), q.2)) =
        (f.read (value ++ rest) >>= fun q => Except.ok ((some f.name, q.1), q.2)) from rfl, hvalue]
    rfl
  rw [readMembersWith, nextName_quote]
  simp only [string_of_plain name _ hplain]
  show (shape.readMember name seen (':' :: (value ++ rest)) >>= _) = _
  rw [hmember]
  rfl

theorem readMembersWith_end (shape : Shape σ) (fuel : Nat) (seen : List String) (record : σ)
    (rest : List Char) :
    shape.readMembersWith (fuel + 1) true seen record ('\x7d' :: rest) =
      (shape.finish seen record).map fun r => (r, rest) := rfl

end Shape

end FlowControl.Json
