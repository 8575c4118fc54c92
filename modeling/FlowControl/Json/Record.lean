import FlowControl.Json.Leaf

/-!
# Reading lists and records

A record of a known shape is read from an object, whose members may come in any
order and may be unknown, or from a list of its fields in order.  A field given
twice is refused before its second value is looked at.  Fields that are left out
keep the base record's value, or are reported if the shape must be complete.
-/

namespace FlowControl.Json

/-! ## Lists -/

/-- The start of the next item of a list, or nothing at its end; `later` once one was read. -/
def nextItem (later : Bool) (s : List Char) : Except Fault (Option (List Char)) :=
  match later, skipGap s with
  | _, [] => .error .endsInList
  | _, ']' :: _ => .ok none
  | true, ',' :: s =>
    match skipGap s with
    | [] => .error .endsInValue
    | ']' :: _ => .error .trailingComma
    | s => .ok (some s)
  | true, _ => .error .expectedListEnd
  | false, s => .ok (some s)

/-- The end of a list all of whose items were wanted. -/
def listEnd (s : List Char) : Except Fault (List Char) :=
  match skipGap s with
  | [] => .error .endsInList
  | ']' :: rest => .ok rest
  | ',' :: s =>
    match skipGap s with
    | ']' :: _ => .error .trailingComma
    | _ => .error .trailingCharacters
  | _ => .error .trailingCharacters

/-- The items of a list up to its end. -/
def itemsWith {α : Type} (item : Reader α) : Nat → Bool → Reader (List α)
  | 0, _, _ => .error .endsInList
  | fuel + 1, later, s =>
    match nextItem later s with
    | .error e => .error e
    | .ok none => (listEnd s).map fun rest => ([], rest)
    | .ok (some s) =>
      match item s with
      | .error e => .error e
      | .ok (a, s) => (itemsWith item fuel true s).map fun (as, rest) => (a :: as, rest)

/-- A list of any length. -/
def list {α : Type} (item : Reader α) : Reader (List α) := fun s =>
  match skipGap s with
  | [] => .error .endsInValue
  | '[' :: s => itemsWith item (s.length + 1) false s
  | s => mistyped "a sequence" s

/-! ## Records -/

/-- A named field of a record: its value is read as a change of the record. -/
structure Field (σ : Type) where
  name : String
  read : Reader (σ → σ)

/-- A field whose value is set by `set`. -/
def field {σ α : Type} (name : String) (value : Reader α) (set : α → σ → σ) : Field σ :=
  ⟨name, fun s => (value s).map fun (a, rest) => (set a, rest)⟩

/-- A record's name, its fields in order, what it starts from, and whether all are required. -/
structure Shape (σ : Type) where
  name : String
  fields : List (Field σ)
  base : σ
  complete : Bool

namespace Shape

variable {σ : Type}

/-- How a record is named where one was expected. -/
def expected (shape : Shape σ) : String := s!"struct {shape.name}"

/-- How a record's length is named where too few values came. -/
def expectedLength (shape : Shape σ) : String :=
  let n := shape.fields.length
  s!"struct {shape.name} with {n} element" ++ (if n = 1 then "" else "s")

/-- The fields from an index on, read from the items of a list. -/
def readItems (shape : Shape σ) : List (Field σ) → Nat → σ → Reader σ
  | [], _, record, s => .ok (record, s)
  | f :: fs, index, record, s =>
    match nextItem (0 < index) s with
    | .error e => .error e
    | .ok none =>
      if shape.complete then .error (.invalidLength index shape.expectedLength)
      else .ok (record, s)
    | .ok (some s) =>
      match f.read s with
      | .error e => .error e
      | .ok (change, s) => readItems shape fs (index + 1) (change record) s

/-- The next name of an object, from behind its quote, or nothing at its end. -/
def nextName (later : Bool) (s : List Char) : Except Fault (Option (List Char)) :=
  match later, skipGap s with
  | _, [] => .error .endsInObject
  | _, '\x7d' :: _ => .ok none
  | true, ',' :: s =>
    match skipGap s with
    | [] => .error .endsInValue
    | '"' :: s => .ok (some s)
    | '\x7d' :: _ => .error .trailingComma
    | _ => .error .keyMustBeString
  | true, _ => .error .expectedObjectEnd
  | false, '"' :: s => .ok (some s)
  | false, _ => .error .keyMustBeString

/-- The value of one named member: a change of the record, or no change for an unknown name. -/
def readMember (shape : Shape σ) (name : List Char) (seen : List String) :
    Reader (Option String × (σ → σ)) := fun s =>
  match shape.fields.find? (fun f => f.name.toList == name) with
  | none => do
    let (_, s) ← colon s
    let rest ← skipValue s
    .ok ((none, id), rest)
  | some f =>
    if f.name ∈ seen then .error (.duplicateField f.name)
    else do
      let (_, s) ← colon s
      let (change, rest) ← f.read s
      .ok ((some f.name, change), rest)

/-- The record at the end of an object, once every required field was seen. -/
def finish (shape : Shape σ) (seen : List String) (record : σ) : Except Fault σ :=
  if shape.complete then
    match shape.fields.find? (fun f => !seen.contains f.name) with
    | some f => .error (.missingField f.name)
    | none => .ok record
  else .ok record

/-- The members of an object up to its end. -/
def readMembersWith (shape : Shape σ) : Nat → Bool → List String → σ → Reader σ
  | 0, _, _, _, _ => .error .endsInObject
  | fuel + 1, later, seen, record, s =>
    match nextName later s with
    | .error e => .error e
    | .ok none => (shape.finish seen record).map fun r => (r, (skipGap s).drop 1)
    | .ok (some s) => do
      let (name, s) ← string s
      let ((known, change), s) ← shape.readMember name seen s
      readMembersWith shape fuel true (known.toList ++ seen) (change record) s

/-- A record of this shape. -/
def read (shape : Shape σ) : Reader σ := fun s =>
  match skipGap s with
  | [] => .error .endsInValue
  | '[' :: s => do
    let (record, s) ← shape.readItems shape.fields 0 shape.base s
    let rest ← listEnd s
    .ok (record, rest)
  | '\x7b' :: s => shape.readMembersWith (s.length + 1) false [] shape.base s
  | s => mistyped shape.expected s

end Shape

/-- A whole text that holds one value and nothing else. -/
def readText {α : Type} (value : Reader α) (s : String) : Except Fault α :=
  match value s.toList with
  | .error e => .error e
  | .ok (a, rest) => if skipGap rest = [] then .ok a else .error .trailingCharacters

end FlowControl.Json
