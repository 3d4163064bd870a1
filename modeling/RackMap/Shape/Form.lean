/-
Forms: records with named fields.

A record is written as an object, or (if every key has to be a field) as the array of its fields in order. Faults are
found in the order of the text: a key that is no field, a field given twice, a wrong value or the end of the text first;
a missing field shows at the end. An array ends behind its last field: in a text, whatever else stands there is a fault
of the text.
-/
import RackMap.Shape.Reader

namespace RackMap.Shape

open RackMap.Json (Excerpt Ending)

/-- one field of a record of type `σ` -/
structure Field (σ : Type) where
  name : String
  /-- the keys it goes by -/
  spellings : List String
  /-- takes the value of the field into the record -/
  read : Excerpt → σ → Except Fault σ
  /-- whether an object may lack it -/
  mayLack : Bool
  /-- whether an array may lack it -/
  hasDefault : Bool

namespace Field

variable {σ α : Type}

/-- a field that is always given -/
def required (name : String) (read : Reader α) (put : σ → α → σ) : Field σ :=
  { name := name, spellings := [name], read := fun e s => (read e).map (put s), mayLack := false,
    hasDefault := false }

/-- a field that may be `null` or absent -/
def optional (name : String) (read : Reader α) (put : σ → Option α → σ) : Field σ :=
  { name := name, spellings := [name], read := fun e s => (Reader.nullable read e).map (put s),
    mayLack := true, hasDefault := false }

/-- a field that keeps its initial value if it is absent -/
def withDefault (name : String) (read : Reader α) (put : σ → α → σ) : Field σ :=
  { name := name, spellings := [name], read := fun e s => (read e).map (put s), mayLack := true,
    hasDefault := true }

/-- the field under several keys -/
def spelled (f : Field σ) (spellings : List String) : Field σ := { f with spellings := spellings }

/-- the field, which may be absent from an array too -/
def defaulted (f : Field σ) : Field σ := { f with hasDefault := true }

end Field

/-- what becomes of the keys that are no fields -/
inductive Others (σ : Type) where
  | refuse
  | ignore
  /-- they are kept; the record can then only be written as an object -/
  | keep (put : σ → String → Json → σ)

/-- a kind of record -/
structure Form (σ : Type) where
  typeName : String
  fields : List (Field σ)
  /-- the record before any field is read -/
  start : σ
  others : Others σ

namespace Form

variable {σ : Type}

/-- the keys of all fields -/
def spellings (form : Form σ) : List String := form.fields.flatMap (·.spellings)

/-- the members taken in one after the other; `seen` are the fields given so far -/
def takeMembers (form : Form σ) : List (String × Excerpt) → List String → σ → Except Fault (List String × σ)
  | [], seen, s => .ok (seen, s)
  | (key, e) :: rest, seen, s =>
    match form.fields.find? (·.spellings.contains key) with
    | some field =>
      if seen.contains field.name then .error (.duplicateField field.name)
      else do takeMembers form rest (field.name :: seen) (← field.read e s)
    | none =>
      match form.others with
      | .refuse => .error (.unknownField key form.spellings)
      | .ignore => do
        let _ ← Reader.tree e
        takeMembers form rest seen s
      | .keep put => do takeMembers form rest seen (put s key (← Reader.tree e))

/-- the first field that should have been given -/
def missing? (form : Form σ) (seen : List String) : Option (Field σ) :=
  form.fields.find? fun field => !field.mayLack && !seen.contains field.name

/-- the record that an object denotes -/
def ofMembers (form : Form σ) (members : List (String × Excerpt)) (ending : Ending) : Except Fault σ := do
  let (seen, s) ← form.takeMembers members [] form.start
  Reader.close ending
  match form.missing? seen with
  | some field => .error (.missingField field.name)
  | none => return s

/-- the items taken in as the fields from the one at `index` on, and the items left over -/
def takeItems (form : Form σ) (ending : Ending) :
    List (Field σ) → Nat → List Excerpt → σ → Except Fault (List Excerpt × σ)
  | [], _, items, s => .ok (items, s)
  | field :: fields, index, [], s => do
    Reader.close ending
    if field.hasDefault then takeItems form ending fields (index + 1) [] s
    else .error (.invalidLength index s!"struct {form.typeName} with {form.fields.length} elements")
  | field :: fields, index, e :: items, s => do takeItems form ending fields (index + 1) items (← field.read e s)

/-- the record that an array denotes -/
def ofItems (form : Form σ) (items : List Excerpt) (ending : Ending) : Except Fault σ := do
  let (left, s) ← form.takeItems ending form.fields 0 items form.start
  Reader.endItems items.length left ending
  return s

/-- the record that an excerpt denotes -/
def read (form : Form σ) : Reader σ
  | .obj members ending => form.ofMembers members ending
  | .arr items ending =>
    match form.others with
    | .keep _ => Reader.mismatch s!"struct {form.typeName}" (.arr items ending)
    | _ => form.ofItems items ending
  | e => Reader.mismatch s!"struct {form.typeName}" e

end Form

end RackMap.Shape
