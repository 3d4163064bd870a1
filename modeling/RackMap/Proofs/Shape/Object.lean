/-
Which objects are read as a record, and what the record has then.

The fields of a `Plain` form go by one key each, and whether a value can be read for a field does not depend on the
fields before it. So an object is judged member by member.
- `exists_takeMembers_iff`: its members are taken in iff they are `Takeable`: no field comes up twice, all values can be
  read, and there are no other keys where these are refused;
- `exists_ofTree_iff`: an object is read as a record iff it is takeable and lacks no field that has to be there;
- `required_of_ofTree`, `optional_of_ofTree`: the record has what is written under the key of a field;
- `ofTree_arr_iff`: an array is read as a record iff it has one item for each field.
-/
import Mathlib.Tactic
import RackMap.Proofs.Shape.Form
import RackMap.Proofs.Table

namespace RackMap.Shape

open RackMap.Json (Excerpt)

variable {σ α β : Type} {form : Form σ} {field other : Field σ} {part : σ → β} {members : Table String Json}
  {seen seen' : List String} {s s' : σ} {key : String} {json : Json}

namespace Field

/-- reading the field puts what `read` gives into the record -/
def Puts (field : Field σ) (read : Reader α) (put : σ → α → σ) : Prop :=
  ∀ e s, field.read e s = (read e).map (put s)

/-- whether a value can be read for the field does not depend on the fields before it -/
def Steady (field : Field σ) : Prop := ∀ e s₁ s₂, field.read e s₁ = .ok s₂ → ∀ t₁, ∃ t₂, field.read e t₁ = .ok t₂

/-- reading the field leaves a part of the record as it is -/
def Keeps (field : Field σ) (part : σ → β) : Prop := ∀ e s s', field.read e s = .ok s' → part s' = part s

/-- a value that can be read for the field -/
def Readable (field : Field σ) (json : Json) : Prop := ∃ s s', field.read (.ofJson json) s = .ok s'

theorem puts_required {name : String} {read : Reader α} {put : σ → α → σ} :
    (required name read put).Puts read put := fun _ _ => rfl

theorem puts_optional {name : String} {read : Reader α} {put : σ → Option α → σ} :
    (optional name read put).Puts (Reader.nullable read) put := fun _ _ => rfl

namespace Puts

variable {read : Reader α} {put : σ → α → σ} {e : Excerpt} {a : α}

theorem read_eq_ok_iff (h : field.Puts read put) : field.read e s = .ok s' ↔ ∃ a, read e = .ok a ∧ put s a = s' := by
  rw [h, map_eq_ok_iff]

theorem steady (h : field.Puts read put) : field.Steady := by
  intro e s₁ s₂ hread t₁
  obtain ⟨a, ha, -⟩ := h.read_eq_ok_iff.1 hread
  exact ⟨put t₁ a, h.read_eq_ok_iff.2 ⟨a, ha, rfl⟩⟩

theorem keeps (h : field.Puts read put) (hpart : ∀ s a, part (put s a) = part s) : field.Keeps part := by
  intro e s s' hread
  obtain ⟨a, -, rfl⟩ := h.read_eq_ok_iff.1 hread
  exact hpart s a

theorem readable (h : field.Puts read put) (start : σ) (ha : read.ofTree json = .ok a) : field.Readable json :=
  ⟨start, put start a, h.read_eq_ok_iff.2 ⟨a, ha, rfl⟩⟩

end Puts

end Field

namespace Form

/-- the keys of the fields, where each field goes by its name -/
def names (form : Form σ) : List String := form.fields.map Field.name

/-- fields go by one key each, and are read independently of each other; other members are not kept -/
structure Plain (form : Form σ) : Prop where
  unkept : ∀ put, form.others ≠ .keep put
  spelled : ∀ field ∈ form.fields, field.spellings = [field.name]
  distinct : form.names.Nodup
  steady : ∀ field ∈ form.fields, field.Steady

theorem Plain.find?_name (h : form.Plain) (hfield : field ∈ form.fields) :
    form.fields.find? (·.spellings.contains field.name) = some field := by
  cases hfind : form.fields.find? (·.spellings.contains field.name) with
  | none =>
    have hnot := List.find?_eq_none.1 hfind field hfield
    simp [h.spelled field hfield] at hnot
  | some other =>
    have hother := List.mem_of_find?_eq_some hfind
    have hname : field.name = other.name := by
      have hspelled := List.find?_some hfind
      simpa [h.spelled other hother] using hspelled
    rw [List.inj_on_of_nodup_map h.distinct hfield hother hname]

theorem Plain.find?_other (h : form.Plain) (hkey : key ∉ form.names) :
    form.fields.find? (·.spellings.contains key) = none := by
  refine List.find?_eq_none.2 fun field hfield hspelled => hkey (List.mem_map.2 ⟨field, hfield, ?_⟩)
  have hname : key = field.name := by simpa [h.spelled field hfield] using hspelled
  exact hname.symm

/-- a field owns a part that the others leave alone -/
theorem Plain.owns (h : form.Plain) (hfield : field ∈ form.fields)
    (hkept : ∀ other ∈ form.fields, other ≠ field → other.Keeps part) : form.Owns field part where
  unkept := h.unkept
  found key hkey := by
    obtain rfl : key = field.name := by simpa [h.spelled field hfield] using hkey
    exact h.find?_name hfield
  kept other hother hne := by
    refine ⟨fun hname => hne ?_, hkept other hother hne⟩
    exact List.inj_on_of_nodup_map h.distinct hother hfield hname

/-! ## Members -/

/-- members that can be taken in when the fields `seen` were given before -/
structure Takeable (form : Form σ) (seen : List String) (members : Table String Json) : Prop where
  known : form.others = .refuse → members.keys ⊆ form.names
  once : (members.keys.filter fun key => key ∈ form.names).Nodup
  unseen : ∀ key ∈ members.keys, key ∈ form.names → key ∉ seen
  readable : ∀ field ∈ form.fields, ∀ json, members.lookup? field.name = some json → field.Readable json

theorem takeable_nil : form.Takeable seen [] :=
  ⟨fun _ => List.nil_subset _, List.nodup_nil, by simp [Table.keys], by simp⟩

theorem lookup?_cons_self : Table.lookup? ((key, json) :: members) key = some json := if_pos rfl

theorem lookup?_cons_of_ne {name : String} (h : key ≠ name) :
    Table.lookup? ((key, json) :: members) name = members.lookup? name := if_neg h

/-- where other keys are refused, no key comes up twice -/
theorem takeable_iff_of_refuse (hrefuse : form.others = .refuse) :
    form.Takeable [] members ↔ members.keys.Nodup ∧ members.keys ⊆ form.names ∧
      ∀ field ∈ form.fields, ∀ json, members.lookup? field.name = some json → field.Readable json := by
  have hfilter (hknown : members.keys ⊆ form.names) :
      (members.keys.filter fun key => key ∈ form.names) = members.keys :=
    List.filter_eq_self.2 fun key hkey => by simpa using hknown hkey
  constructor
  · intro htake
    have hknown := htake.known hrefuse
    exact ⟨hfilter hknown ▸ htake.once, hknown, htake.readable⟩
  · rintro ⟨honce, hknown, hreadable⟩
    exact ⟨fun _ => hknown, (hfilter hknown).symm ▸ honce, by simp, hreadable⟩

/-- where other keys are ignored, they may come up twice -/
theorem takeable_iff_of_ignore (hignore : form.others = .ignore) :
    form.Takeable [] members ↔ (members.keys.filter fun key => key ∈ form.names).Nodup ∧
      ∀ field ∈ form.fields, ∀ json, members.lookup? field.name = some json → field.Readable json := by
  constructor
  · intro htake
    exact ⟨htake.once, htake.readable⟩
  · rintro ⟨honce, hreadable⟩
    refine ⟨fun hrefuse => ?_, honce, by simp, hreadable⟩
    rw [hignore] at hrefuse
    cases hrefuse

/-- one member for a field, and more for others -/
theorem takeable_cons_field_iff (h : form.Plain) (hfield : field ∈ form.fields) :
    form.Takeable seen ((field.name, json) :: members) ↔
      field.name ∉ seen ∧ field.Readable json ∧ form.Takeable (field.name :: seen) members := by
  have hname : field.name ∈ form.names := List.mem_map_of_mem hfield
  constructor
  · intro htake
    have honce := htake.once
    rw [Table.keys, List.map_cons, List.filter_cons_of_pos (by simpa using hname), List.nodup_cons] at honce
    refine ⟨htake.unseen _ List.mem_cons_self hname, htake.readable field hfield json lookup?_cons_self, ?_⟩
    constructor
    · intro hrefuse
      exact (List.cons_subset.1 (htake.known hrefuse)).2
    · exact honce.2
    · intro key hkey hin hseen
      rcases List.mem_cons.1 hseen with rfl | hseen
      · exact honce.1 (List.mem_filter.2 ⟨hkey, by simpa using hin⟩)
      · exact htake.unseen key (List.mem_cons_of_mem _ hkey) hin hseen
    · intro other hother json' hlookup
      have hne : field.name ≠ other.name := by
        intro heq
        have hkey : field.name ∈ members.keys := by
          rw [heq]
          exact Table.mem_keys_of_lookup? hlookup
        exact honce.1 (List.mem_filter.2 ⟨hkey, by simpa using hname⟩)
      exact htake.readable other hother json' ((lookup?_cons_of_ne hne).trans hlookup)
  · rintro ⟨hnew, hread, hrest⟩
    constructor
    · intro hrefuse
      exact List.cons_subset.2 ⟨hname, hrest.known hrefuse⟩
    · rw [Table.keys, List.map_cons, List.filter_cons_of_pos (by simpa using hname), List.nodup_cons]
      refine ⟨fun hin => ?_, hrest.once⟩
      exact hrest.unseen _ (List.mem_filter.1 hin).1 hname List.mem_cons_self
    · intro key hkey hin hseen
      rcases List.mem_cons.1 hkey with rfl | hkey
      · exact hnew hseen
      · exact hrest.unseen key hkey hin (List.mem_cons_of_mem _ hseen)
    · intro other hother json' hlookup
      by_cases hsame : field.name = other.name
      · obtain rfl := List.inj_on_of_nodup_map h.distinct hfield hother hsame
        obtain rfl : json = json' := Option.some.inj (lookup?_cons_self.symm.trans hlookup)
        exact hread
      · exact hrest.readable other hother json' ((lookup?_cons_of_ne hsame).symm.trans hlookup)

/-- one member that is no field -/
theorem takeable_cons_other_iff (hkey : key ∉ form.names) :
    form.Takeable seen ((key, json) :: members) ↔ form.others ≠ .refuse ∧ form.Takeable seen members := by
  have hfilter : (Table.keys ((key, json) :: members)).filter (fun key => key ∈ form.names) =
      (Table.keys members).filter fun key => key ∈ form.names := List.filter_cons_of_neg (by simpa using hkey)
  have hne : ∀ field ∈ form.fields, key ≠ field.name := by
    rintro field hfield rfl
    exact hkey (List.mem_map_of_mem hfield)
  constructor
  · intro htake
    refine ⟨fun hrefuse => hkey (htake.known hrefuse List.mem_cons_self), ?_, hfilter ▸ htake.once, ?_, ?_⟩
    · intro hrefuse
      exact (List.cons_subset.1 (htake.known hrefuse)).2
    · intro other hother
      exact htake.unseen other (List.mem_cons_of_mem _ hother)
    · intro field hfield json' hlookup
      exact htake.readable field hfield json' ((lookup?_cons_of_ne (hne field hfield)).trans hlookup)
  · rintro ⟨hothers, hrest⟩
    refine ⟨fun hrefuse => absurd hrefuse hothers, hfilter.symm ▸ hrest.once, ?_, ?_⟩
    · intro other hother hin
      rcases List.mem_cons.1 hother with rfl | hother
      · exact absurd hin hkey
      · exact hrest.unseen other hother hin
    · intro field hfield json' hlookup
      exact hrest.readable field hfield json' ((lookup?_cons_of_ne (hne field hfield)).symm.trans hlookup)

/-- **Members that are taken in.** They are those whose fields come up once and can be read. -/
theorem exists_takeMembers_iff (h : form.Plain) (s : σ) :
    (∃ seen' s', form.takeMembers (Excerpt.ofMembers members) seen s = .ok (seen', s')) ↔
      form.Takeable seen members := by
  induction members generalizing seen s with
  | nil => exact iff_of_true ⟨seen, s, rfl⟩ takeable_nil
  | cons member rest ih =>
    obtain ⟨key, json⟩ := member
    rw [Excerpt.ofMembers, takeMembers]
    by_cases hkey : key ∈ form.names
    · obtain ⟨field, hfield, rfl⟩ := List.mem_map.1 hkey
      rw [takeable_cons_field_iff h hfield]
      simp only [h.find?_name hfield, List.contains_iff_mem]
      split
      · rename_i hseen
        exact iff_of_false (by rintro ⟨_, _, hbad⟩; cases hbad) fun hno => hno.1 hseen
      · rename_i hnew
        simp only [bind_eq_ok_iff]
        constructor
        · rintro ⟨seen', s', after, hread, hrest⟩
          exact ⟨hnew, ⟨s, after, hread⟩, (ih after).1 ⟨seen', s', hrest⟩⟩
        · rintro ⟨-, ⟨t, t', hread⟩, hrest⟩
          -- the value can be read into some record, hence into the one made of the members before
          obtain ⟨after, hread⟩ := h.steady field hfield _ t t' hread s
          obtain ⟨seen', s', hrest⟩ := (ih after).2 hrest
          exact ⟨seen', s', after, hread, hrest⟩
    · rw [takeable_cons_other_iff hkey]
      simp only [h.find?_other hkey]
      cases hothers : form.others with
      | refuse => exact iff_of_false (by rintro ⟨_, _, hbad⟩; cases hbad) fun hno => hno.1 rfl
      | ignore =>
        have htree : Reader.tree (Excerpt.ofJson json) = .ok json := by rw [Reader.tree, Excerpt.tree_ofJson]; rfl
        simp only [htree, ok_bind, ih, ne_eq, reduceCtorEq, not_false_eq_true, true_and]
      | keep put => exact absurd hothers (h.unkept put)

/-- the fields given are those that come up -/
theorem mem_seen_of_takeMembers (h : form.Plain) (hfield : field ∈ form.fields)
    (htake : form.takeMembers (Excerpt.ofMembers members) seen s = .ok (seen', s')) :
    field.name ∈ seen' ↔ field.name ∈ seen ∨ field.name ∈ members.keys := by
  induction members generalizing seen s with
  | nil =>
    cases htake
    simp [Table.keys]
  | cons member rest ih =>
    obtain ⟨key, json⟩ := member
    rw [Excerpt.ofMembers, takeMembers] at htake
    by_cases hkey : key ∈ form.names
    · obtain ⟨other, hother, rfl⟩ := List.mem_map.1 hkey
      simp only [h.find?_name hother] at htake
      split at htake
      · cases htake
      · obtain ⟨after, -, hrest⟩ := bind_eq_ok_iff.1 htake
        rw [ih hrest]
        simp [Table.keys, or_assoc, or_left_comm]
    · have hne : field.name ≠ key := fun heq => hkey (heq ▸ List.mem_map_of_mem hfield)
      simp only [h.find?_other hkey] at htake
      cases hothers : form.others with
      | refuse =>
        simp only [hothers] at htake
        cases htake
      | ignore =>
        simp only [hothers] at htake
        obtain ⟨-, -, hrest⟩ := bind_eq_ok_iff.1 htake
        rw [ih hrest]
        simp [Table.keys, hne]
      | keep put => exact absurd hothers (h.unkept put)

/-! ## Records -/

/-- **Objects that are read.** -/
theorem exists_ofTree_iff (h : form.Plain) :
    (∃ s, form.read.ofTree (.obj members) = .ok s) ↔
      form.Takeable [] members ∧ ∀ field ∈ form.fields, field.mayLack = false → field.name ∈ members.keys := by
  have hread : form.read.ofTree (.obj members) = form.ofMembers (Excerpt.ofMembers members) .whole := rfl
  rw [hread, ofMembers, ← exists_takeMembers_iff h form.start]
  have hmissing : ∀ seen' s', form.takeMembers (Excerpt.ofMembers members) [] form.start = .ok (seen', s') →
      (form.missing? seen' = none ↔
        ∀ field ∈ form.fields, field.mayLack = false → field.name ∈ members.keys) := by
    intro seen' s' htake
    rw [missing?, List.find?_eq_none]
    refine forall₂_congr fun field hfield => ?_
    have hgiven := mem_seen_of_takeMembers h hfield htake
    simp only [List.not_mem_nil, false_or] at hgiven
    simp [← hgiven]
  constructor
  · rintro ⟨s, hs⟩
    obtain ⟨⟨seen', s'⟩, htake, hs⟩ := bind_eq_ok_iff.1 hs
    obtain ⟨-, -, hs⟩ := bind_eq_ok_iff.1 hs
    refine ⟨⟨seen', s', htake⟩, (hmissing seen' s' htake).1 ?_⟩
    split at hs
    · cases hs
    · assumption
  · rintro ⟨⟨seen', s', htake⟩, hgiven⟩
    refine ⟨s', ?_⟩
    rw [htake, ok_bind]
    simp only [(hmissing seen' s' htake).2 hgiven]
    rfl

theorem find?_ofMembers (members : Table String Json) (name : String) :
    (Excerpt.ofMembers members).find? (·.1 ∈ [name]) =
      (members.lookup? name).map fun json => (name, Excerpt.ofJson json) := by
  induction members with
  | nil => rfl
  | cons member rest ih =>
    obtain ⟨key, json⟩ := member
    rw [Excerpt.ofMembers, Table.lookup?]
    by_cases hkey : key = name
    · simp [hkey]
    · rw [List.find?_cons_of_neg (by simpa using hkey), ih, if_neg hkey]

/-- the part that a field owns is what is written under its key, or else what it was -/
theorem part_of_ofTree (own : form.Owns field part) (hspelled : field.spellings = [field.name])
    (h : form.read.ofTree (.obj members) = .ok s) :
    match members.lookup? field.name with
    | some json => ∃ before after, field.read (.ofJson json) before = .ok after ∧ part s = part after
    | none => part s = part form.start := by
  have hread : form.ofMembers (Excerpt.ofMembers members) .whole = .ok s := h
  obtain ⟨⟨seen', s'⟩, htake, hs⟩ := bind_eq_ok_iff.1 hread
  obtain ⟨-, -, hs⟩ := bind_eq_ok_iff.1 hs
  obtain rfl : s' = s := by
    split at hs
    · cases hs
    · exact Except.ok.inj hs
  obtain ⟨-, hpart⟩ := part_of_takeMembers own htake
  rw [hspelled, find?_ofMembers] at hpart
  cases hlookup : members.lookup? field.name with
  | some json => simpa [hlookup] using hpart
  | none =>
    simp only [hlookup, Option.map_none] at hpart
    exact hpart.1

/-- a field that has to be there is written under its key -/
theorem required_of_ofTree {name : String} {read : Reader α} {put : σ → α → σ} {part : σ → α}
    (own : form.Owns (.required name read put) part) (hfield : .required name read put ∈ form.fields)
    (hput : ∀ s a, part (put s a) = a) (hplain : form.Plain) (h : form.read.ofTree (.obj members) = .ok s) :
    ∃ json, members.lookup? name = some json ∧ read.ofTree json = .ok (part s) := by
  obtain ⟨json, hjson⟩ : ∃ json, members.lookup? name = some json :=
    Table.exists_lookup? (((exists_ofTree_iff hplain).1 ⟨s, h⟩).2 _ hfield rfl)
  have hpart := part_of_ofTree own rfl h
  rw [show (Field.required name read put).name = name from rfl, hjson] at hpart
  obtain ⟨before, after, hread, hsame⟩ := hpart
  obtain ⟨a, ha, rfl⟩ := map_eq_ok_iff.1 hread
  refine ⟨json, hjson, ?_⟩
  rw [hsame, hput]
  exact ha

/-- a field that may be open is written under its key, or open -/
theorem optional_of_ofTree {name : String} {read : Reader α} {put : σ → Option α → σ} {part : σ → Option α}
    (own : form.Owns (.optional name read put) part) (hput : ∀ s a?, part (put s a?) = a?)
    (hopen : part form.start = none) (h : form.read.ofTree (.obj members) = .ok s) :
    match members.lookup? name with
    | some json => (Reader.nullable read).ofTree json = .ok (part s)
    | none => part s = none := by
  have hpart := part_of_ofTree own rfl h
  rw [show (Field.optional name read put).name = name from rfl] at hpart
  cases hlookup : members.lookup? name with
  | none =>
    rw [hlookup, hopen] at hpart
    exact hpart
  | some json =>
    rw [hlookup] at hpart
    obtain ⟨before, after, hread, hsame⟩ := hpart
    obtain ⟨a?, ha, rfl⟩ := map_eq_ok_iff.1 hread
    simp only
    rw [hsame, hput]
    exact ha

/-! ## Arrays -/

/-- items that the fields take one each, in order -/
def TakesAll : List (Field σ) → List Json → σ → σ → Prop
  | [], [], s, s' => s = s'
  | field :: fields, json :: items, s, s' =>
    ∃ after, field.read (.ofJson json) s = .ok after ∧ TakesAll fields items after s'
  | _, _, _, _ => False

theorem takesAll_nil_iff : TakesAll [] [] s s' ↔ s = s' := Iff.rfl

theorem takesAll_cons_iff {read : Reader α} {put : σ → α → σ} {fields : List (Field σ)} {items : List Json}
    (h : field.Puts read put) :
    TakesAll (field :: fields) (json :: items) s s' ↔
      ∃ a, read.ofTree json = .ok a ∧ TakesAll fields items (put s a) s' := by
  constructor
  · rintro ⟨after, hread, hrest⟩
    obtain ⟨a, ha, rfl⟩ := h.read_eq_ok_iff.1 hread
    exact ⟨a, ha, hrest⟩
  · rintro ⟨a, ha, hrest⟩
    exact ⟨put s a, h.read_eq_ok_iff.2 ⟨a, ha, rfl⟩, hrest⟩

theorem takeItems_iff {fields : List (Field σ)} {index : Nat} {items : List Json}
    (h : ∀ field ∈ fields, field.hasDefault = false) :
    form.takeItems .whole fields index (Excerpt.ofItems items) s = .ok ([], s') ↔ TakesAll fields items s s' := by
  induction fields generalizing index items s with
  | nil => cases items <;> simp [takeItems, Excerpt.ofItems, TakesAll]
  | cons field fields ih =>
    obtain ⟨hfirst, hrest⟩ := List.forall_mem_cons.1 h
    cases items with
    | nil =>
      refine iff_of_false (fun htake => ?_) id
      obtain ⟨-, -, htake⟩ := bind_eq_ok_iff.1 htake
      rw [if_neg (by simp [hfirst])] at htake
      cases htake
    | cons json items => simp only [Excerpt.ofItems, takeItems, bind_eq_ok_iff, ih hrest, TakesAll]

/-- **Arrays that are read.** They have one item for each field. -/
theorem ofTree_arr_iff {items : List Json} (hunkept : ∀ put, form.others ≠ .keep put)
    (h : ∀ field ∈ form.fields, field.hasDefault = false) :
    form.read.ofTree (.arr items) = .ok s ↔ TakesAll form.fields items form.start s := by
  have hread : form.read.ofTree (.arr items) = form.ofItems (Excerpt.ofItems items) .whole := by
    rw [Reader.ofTree, Excerpt.ofJson, read]
    split
    · rename_i put hkeep
      exact absurd hkeep (hunkept put)
    · rfl
  rw [hread, ofItems, ← takeItems_iff h, bind_eq_ok_iff]
  constructor
  · rintro ⟨⟨left, s'⟩, htake, hend⟩
    obtain ⟨_, hleft, hs⟩ := bind_eq_ok_iff.1 hend
    cases hs
    cases left with
    | nil => exact htake
    | cons e left => cases hleft
  · intro htake
    exact ⟨([], s), htake, rfl⟩

end Form

end RackMap.Shape
