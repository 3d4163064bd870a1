/-
The places of a nested connectivity: the keys that lead to a value, and the order in which places are written.

`Leads` goes down a document key by key and stops at leaves. `Precedes` compares two places at the keys where they part.
`InOrder` lists the ends of all paths by these two, whatever function may list them.
- `inOrder_ends`: the ends, listed object by object, are in order;
- `InOrder.unique`: in a document that repeats no key there is no other such list;
- `leavesOfRoot_eq_map_ends`: the leaves of a document are its ends, with dots between the keys that lead to them.
-/
import Mathlib.Tactic
import RackMap.Proofs.Json.Collapse
import RackMap.Proofs.Wiring.Firsts
import RackMap.Proofs.Wiring.Walk

namespace RackMap.Wiring

/-- an object that holds `portclock_configs` -/
def IsLeaf (json : Json) : Prop := ∃ members, json = .obj members ∧ leafKey ∈ Table.keys members

/-- a leaf, or a value that is no object: no key leads on from here -/
def IsEnd (json : Json) : Prop := IsLeaf json ∨ ∀ members, json ≠ .obj members

/-- the keys lead from the members of an object to a value, through objects that are no leaves -/
inductive Leads : List (String × Json) → List String → Json → Prop
  | last {members : List (String × Json)} {key : String} {json : Json} :
      (key, json) ∈ members → Leads members [key] json
  | onward {members inner : List (String × Json)} {key : String} {keys : List String} {json : Json} :
      (key, .obj inner) ∈ members → ¬IsLeaf (.obj inner) → Leads inner keys json → Leads members (key :: keys) json

/-- one place is written before another: of the keys where they part, its own stands first -/
inductive Precedes : List (String × Json) → List String → List String → Prop
  | apart {members : List (String × Json)} {key other : String} {keys others : List String} :
      [key, other].Sublist (Table.keys members) → Precedes members (key :: keys) (other :: others)
  | within {members inner : List (String × Json)} {key : String} {keys others : List String} :
      (key, .obj inner) ∈ members → Precedes inner keys others → Precedes members (key :: keys) (key :: others)

/-- the ends of all paths of a document with the keys that lead to them, in the order in which they are written -/
structure InOrder (root : List (String × Json)) (ends : List (List String × Json)) : Prop where
  each : ∀ keys json, (keys, json) ∈ ends ↔ Leads root keys json ∧ IsEnd json
  order : ends.Pairwise fun a b => Precedes root a.1 b.1

mutual

/-- the ends of the paths that go on from a value -/
def endsOf : Json → List (List String × Json)
  | .obj members => if members.any (·.1 = leafKey) then [([], .obj members)] else ends members
  | json => [([], json)]

/-- the ends of the paths below the members of an object, in the order of the members -/
def ends : List (String × Json) → List (List String × Json)
  | [] => []
  | (key, child) :: rest => (endsOf child).map (fun p => (key :: p.1, p.2)) ++ ends rest

end

variable {root members rest inner : List (String × Json)} {key : String} {keys others : List String}
  {json child : Json} {p : List String × Json} {listed listed' : List (List String × Json)}

/-! ## Keys -/

theorem isLeaf_obj_iff : IsLeaf (.obj members) ↔ members.any (·.1 = leafKey) = true := by
  simp [IsLeaf, Table.keys]

theorem isEnd_obj_iff : IsEnd (.obj members) ↔ IsLeaf (.obj members) := by
  simp [IsEnd]

/-- the first key leads to the first member, or on from it; all other places are below the other members -/
theorem leads_cons_iff :
    Leads ((key, child) :: rest) keys json ↔
      (∃ others, keys = key :: others ∧
        (others = [] ∧ json = child ∨ ∃ inner, child = .obj inner ∧ ¬IsLeaf child ∧ Leads inner others json)) ∨
      Leads rest keys json := by
  constructor
  · intro h
    cases h with
    | last hmember =>
      rcases List.mem_cons.1 hmember with heq | hmember
      · cases heq
        exact Or.inl ⟨[], rfl, Or.inl ⟨rfl, rfl⟩⟩
      · exact Or.inr (.last hmember)
    | onward hmember hinner hleads =>
      rcases List.mem_cons.1 hmember with heq | hmember
      · cases heq
        exact Or.inl ⟨_, rfl, Or.inr ⟨_, rfl, hinner, hleads⟩⟩
      · exact Or.inr (.onward hmember hinner hleads)
  · rintro (⟨others, rfl, ⟨rfl, rfl⟩ | ⟨inner, rfl, hinner, hleads⟩⟩ | h)
    · exact .last List.mem_cons_self
    · exact .onward List.mem_cons_self hinner hleads
    · cases h with
      | last hmember => exact .last (List.mem_cons_of_mem _ hmember)
      | onward hmember hinner hleads => exact .onward (List.mem_cons_of_mem _ hmember) hinner hleads

theorem Leads.exists_key (h : Leads members keys json) : ∃ key others, keys = key :: others ∧ key ∈ Table.keys members := by
  cases h with
  | last hmember => exact ⟨_, _, rfl, List.mem_map_of_mem hmember⟩
  | onward hmember _ _ => exact ⟨_, _, rfl, List.mem_map_of_mem hmember⟩

mutual

theorem mem_endsOf : (value : Json) → ∀ {keys json}, (keys, json) ∈ endsOf value ↔
    (keys = [] ∧ json = value ∨ ∃ inner, value = .obj inner ∧ ¬IsLeaf value ∧ Leads inner keys json) ∧ IsEnd json
  | .obj members, keys, json => by
    have hbelow := @mem_ends members keys json
    rw [endsOf]
    by_cases hleaf : IsLeaf (.obj members)
    · rw [if_pos (isLeaf_obj_iff.1 hleaf), List.mem_singleton, Prod.mk.injEq]
      constructor
      · rintro ⟨rfl, rfl⟩
        exact ⟨Or.inl ⟨rfl, rfl⟩, Or.inl hleaf⟩
      · rintro ⟨h | ⟨_, _, hnot, _⟩, -⟩
        · exact h
        · exact absurd hleaf hnot
    · rw [if_neg (mt isLeaf_obj_iff.2 hleaf), hbelow]
      constructor
      · rintro ⟨hleads, hend⟩
        exact ⟨Or.inr ⟨members, rfl, hleaf, hleads⟩, hend⟩
      · rintro ⟨⟨-, rfl⟩ | ⟨inner, heq, -, hleads⟩, hend⟩
        · exact absurd (isEnd_obj_iff.1 hend) hleaf
        · cases heq
          exact ⟨hleads, hend⟩
  | .null, _, _ | .bool _, _, _ | .int _, _, _ | .float _, _, _ | .str _, _, _ | .arr _, _, _ => by
    simp +contextual [endsOf, IsEnd]

theorem mem_ends : (members : List (String × Json)) → ∀ {keys json},
    (keys, json) ∈ ends members ↔ Leads members keys json ∧ IsEnd json
  | [], keys, json => by
    refine iff_of_false List.not_mem_nil ?_
    rintro ⟨hleads, -⟩
    obtain ⟨_, _, -, hkey⟩ := hleads.exists_key
    exact List.not_mem_nil hkey
  | (key, child) :: rest, keys, json => by
    have hchild := fun keys => @mem_endsOf child keys json
    rw [ends, List.mem_append, mem_ends rest, leads_cons_iff, or_and_right]
    refine or_congr_left ?_
    simp only [List.mem_map, Prod.mk.injEq, Prod.exists]
    constructor
    · rintro ⟨others, value, hin, rfl, rfl⟩
      obtain ⟨hway, hend⟩ := (hchild others).1 hin
      exact ⟨⟨others, rfl, hway⟩, hend⟩
    · rintro ⟨⟨others, rfl, hway⟩, hend⟩
      exact ⟨others, json, (hchild others).2 ⟨hway, hend⟩, rfl, rfl⟩

end

/-! ## Order -/

theorem Precedes.cons (h : Precedes rest keys others) : Precedes ((key, child) :: rest) keys others := by
  cases h with
  | apart hkeys => exact .apart (hkeys.cons key)
  | within hmember h => exact .within (List.mem_cons_of_mem _ hmember) h

mutual

theorem pairwise_endsOf : (value : Json) → ∀ {key rest},
    (endsOf value).Pairwise fun a b => Precedes ((key, value) :: rest) (key :: a.1) (key :: b.1)
  | .obj members, key, rest => by
    rw [endsOf]
    split
    · exact List.pairwise_singleton _ _
    · exact (pairwise_ends members).imp fun h => .within List.mem_cons_self h
  | .null, _, _ | .bool _, _, _ | .int _, _, _ | .float _, _, _ | .str _, _, _ | .arr _, _, _ =>
    List.pairwise_singleton _ _

theorem pairwise_ends : (members : List (String × Json)) → (ends members).Pairwise fun a b => Precedes members a.1 b.1
  | [] => List.Pairwise.nil
  | (key, child) :: rest => by
    rw [ends, List.pairwise_append, List.pairwise_map]
    refine ⟨pairwise_endsOf child, (pairwise_ends rest).imp Precedes.cons, ?_⟩
    rintro a ha ⟨keys, json⟩ hb
    obtain ⟨_, -, rfl⟩ := List.mem_map.1 ha
    obtain ⟨other, others, rfl, hother⟩ := ((mem_ends rest).1 hb).1.exists_key
    exact .apart ((List.singleton_sublist.2 hother).cons_cons key)

end

/-- **The ends of a document.** -/
theorem inOrder_ends (root : List (String × Json)) : InOrder root (ends root) where
  each _ _ := mem_ends root
  order := pairwise_ends root

/-- among different keys not both can stand before the other -/
theorem not_sublist_swap {keys : List String} {a b : String} (hkeys : keys.Nodup) (h : [a, b].Sublist keys) :
    ¬[b, a].Sublist keys := by
  intro h'
  have hplaces := pairwise_idxOf_firsts keys
  rw [firsts_of_nodup hkeys] at hplaces
  have hab : keys.idxOf a < keys.idxOf b := by simpa using hplaces.sublist h
  have hba : keys.idxOf b < keys.idxOf a := by simpa using hplaces.sublist h'
  exact Nat.lt_asymm hab hba

theorem Precedes.asymm (h : Precedes members keys others) (hunrepeated : (Json.obj members).isUnrepeated = true) :
    ¬Precedes members others keys := by
  induction h with
  | apart hsublist =>
    rw [Json.isUnrepeated, Bool.and_eq_true, decide_eq_true_eq] at hunrepeated
    intro h'
    cases h' with
    | apart hsublist' => exact not_sublist_swap hunrepeated.1 hsublist hsublist'
    | within _ _ => exact not_sublist_swap hunrepeated.1 hsublist hsublist
  | within hmember _ ih =>
    have hinner := hunrepeated
    rw [Json.isUnrepeated, Bool.and_eq_true, decide_eq_true_eq] at hinner
    intro h'
    cases h' with
    | apart hsublist => exact not_sublist_swap hinner.1 hsublist hsublist
    | within hmember' h' =>
      have hsame := List.inj_on_of_nodup_map hinner.1 hmember hmember' rfl
      cases hsame
      exact ih (Json.isUnrepeated_of_mem hinner.2 _ hmember) h'

theorem InOrder.nodup_keys (h : InOrder root listed) (hroot : (Json.obj root).isUnrepeated = true) :
    (listed.map Prod.fst).Nodup := by
  rw [List.Nodup, List.pairwise_map]
  refine h.order.imp fun hprecedes heq => ?_
  rw [heq] at hprecedes
  exact hprecedes.asymm hroot hprecedes

/-- **One order.** The ends of a document that repeats no key are listed in one way only. -/
theorem InOrder.unique (h : InOrder root listed) (h' : InOrder root listed')
    (hroot : (Json.obj root).isUnrepeated = true) : listed = listed' := by
  have hperm : listed.Perm listed' := by
    rw [List.perm_ext_iff_of_nodup (h.nodup_keys hroot).of_map (h'.nodup_keys hroot).of_map]
    intro p
    rw [h.each, h'.each]
  exact hperm.eq_of_pairwise (fun a b _ _ hab hba => absurd hba (hab.asymm hroot)) h.order h'.order

/-! ## Paths -/

/-- the leaf at the end of a path -/
def leafAt (p : List String × Json) : Leaf := ⟨.ofSegments p.1, p.2⟩

theorem foldl_dot (a s : String) (keys : List String) :
    keys.foldl (fun path key => path ++ "." ++ key) (a ++ s) =
      a ++ keys.foldl (fun path key => path ++ "." ++ key) s := by
  induction keys generalizing s with
  | nil => rfl
  | cons key keys ih => rw [List.foldl_cons, List.foldl_cons, ← ih, String.append_assoc, String.append_assoc,
      String.append_assoc]

/-- texts with dots between them, put together from the first one on -/
theorem join_cons (s : String) (keys : List String) :
    Text.join "." (s :: keys) = keys.foldl (fun path key => path ++ "." ++ key) s := by
  induction keys generalizing s with
  | nil => rfl
  | cons key keys ih => rw [Text.join, ih, List.foldl_cons, foldl_dot]

mutual

theorem leaves_eq : (value : Json) → ∀ path, leaves path value =
    (endsOf value).map fun p => ⟨⟨p.1.foldl (fun path key => path ++ "." ++ key) path⟩, p.2⟩
  | .obj members, path => by
    rw [leaves, endsOf]
    split
    · rfl
    · exact leavesOfMembers_eq members path
  | .null, _ | .bool _, _ | .int _, _ | .float _, _ | .str _, _ | .arr _, _ => rfl

theorem leavesOfMembers_eq : (members : List (String × Json)) → ∀ path, leavesOfMembers path members =
    (ends members).map fun p => ⟨⟨p.1.foldl (fun path key => path ++ "." ++ key) path⟩, p.2⟩
  | [], _ => rfl
  | (key, child) :: rest, path => by
    rw [leavesOfMembers, ends, leaves_eq child, leavesOfMembers_eq rest, List.map_append, List.map_map]
    rfl

end

/-- **Leaves and places.** The path of a leaf is made of the keys that lead to it. -/
theorem leavesOfRoot_eq_map_ends (root : Table String Json) : leavesOfRoot root = (ends root).map leafAt := by
  induction root with
  | nil => rfl
  | cons member rest ih =>
    rw [leavesOfRoot] at ih ⊢
    rw [List.flatMap_cons, ih, ends, List.map_append, List.map_map, leaves_eq]
    refine congrArg (· ++ _) (List.map_congr_left fun p _ => ?_)
    rw [Function.comp_apply, leafAt, ChannelPath.ofSegments, join_cons]

end RackMap.Wiring
