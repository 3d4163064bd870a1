/-
The connectivity of a config, told from its text.

`writtenConnectivity?` is the tree that a text holds in the place of the connectivity, with every member that is
written, repeated keys included. `connectivity_of_ofText` says that the connectivity of a config is read from this tree
and from nothing else in the text, and `ofJson_obj` that an object is read as a map of its members. `ofText_ofList`
reads a text from its characters, which is how a text can be evaluated.
-/
import Mathlib.Tactic
import RackMap.Document.Config
import RackMap.Proofs.Outcome
import RackMap.Proofs.Shape.Form

namespace RackMap

open RackMap.Json (Excerpt Ending)
open RackMap.Shape

namespace Connectivity

/-- a connectivity is read from the tree of an excerpt -/
theorem exists_tree_of_read {e : Excerpt} {connectivity : Connectivity} (h : read e = .ok connectivity) :
    ∃ json, e.tree.toOption = some json ∧ ofJson json = .ok connectivity := by
  obtain ⟨json, hjson, hread⟩ := bind_eq_ok_iff.1 h
  cases htree : e.tree with
  | error fault =>
    rw [Reader.tree, htree] at hjson
    cases hjson
  | ok tree =>
    rw [Reader.tree, htree] at hjson
    cases hjson
    exact ⟨json, rfl, hread⟩

theorem any_ofJson (json : Json) : Reader.any (Excerpt.ofJson json) = .ok json.collapse := by
  rw [Reader.any, Reader.tree, Excerpt.tree_ofJson]
  rfl

theorem mapM_entry_ofMembers (members : List (String × Json)) :
    (Excerpt.ofMembers members).mapM (Reader.entry Reader.any) = .ok (Json.collapseMembers members) := by
  induction members with
  | nil => rfl
  | cons member rest ih =>
    obtain ⟨key, json⟩ := member
    rw [Excerpt.ofMembers, List.mapM_cons, ih, Reader.entry, any_ofJson]
    rfl

/-- an object is read as a map: of the members with one key the last one counts -/
theorem ofJson_obj (members : List (String × Json)) :
    ofJson (.obj members) = .ok (.paths (Table.ofPairs (Json.collapseMembers members))) := by
  have hmap : (Reader.map Reader.any).ofTree (.obj members) = .ok (Table.ofPairs (Json.collapseMembers members)) := by
    rw [Reader.ofTree, Excerpt.ofJson, Reader.map, Reader.entries, mapM_entry_ofMembers]
    rfl
  simp only [ofJson, hmap]
  rfl

end Connectivity

namespace Config

variable {s : String} {config : Config} {items : List Excerpt} {members : List (String × Excerpt)} {ending : Ending}
  {e : Excerpt}

/-- the last field of a config -/
def connectivityField : Shape.Field Config :=
  .required "connectivity" Connectivity.read fun c v => { c with connectivity := v }

theorem owns_connectivity : form.Owns connectivityField connectivity where
  unkept _ := by simp [form]
  found key hkey := by
    obtain rfl : key = "connectivity" := by simpa [connectivityField, Field.required] using hkey
    rfl
  kept other hother hne := by
    simp only [form, List.mem_cons, List.not_mem_nil, or_false] at hother
    rcases hother with rfl | rfl | rfl | rfl
    · refine ⟨by decide, fun e s s' hread => ?_⟩
      obtain ⟨backend, -, rfl⟩ := map_eq_ok_iff.1 hread
      rfl
    · refine ⟨by decide, fun e s s' hread => ?_⟩
      obtain ⟨description, -, rfl⟩ := map_eq_ok_iff.1 hread
      rfl
    · refine ⟨by decide, fun e s s' hread => ?_⟩
      obtain ⟨options?, -, rfl⟩ := map_eq_ok_iff.1 hread
      rfl
    · exact absurd rfl hne

/-- a config that is written as an object has its connectivity under that key -/
theorem exists_connectivity_of_ofMembers (h : form.ofMembers members ending = .ok config) :
    ∃ p, members.find? (·.1 = "connectivity") = some p ∧ Connectivity.read p.2 = .ok config.connectivity := by
  obtain ⟨p, hfind, before, after, hfield, hpart⟩ :=
    Form.part_of_ofMembers owns_connectivity (by simp [form, connectivityField]) rfl h
  obtain ⟨connectivity, hread, rfl⟩ := map_eq_ok_iff.1 hfield
  refine ⟨p, by simpa [connectivityField, Field.required] using hfind, ?_⟩
  rw [hpart]
  exact hread

/-- a config that is written as an array has all four fields -/
theorem exists_connectivity_of_ofItems (h : form.ofItems items ending = .ok config) :
    ∃ e, items[3]? = some e ∧ Connectivity.read e = .ok config.connectivity := by
  obtain ⟨⟨left, c⟩, htake, h⟩ := bind_eq_ok_iff.1 h
  obtain ⟨-, -, h⟩ := bind_eq_ok_iff.1 h
  cases h
  -- the connectivity has no default, so the array cannot end before it
  match items with
  | [] | [_] | [_, _] | [_, _, _] =>
    simp [form, Form.takeItems, Field.required, Field.withDefault, Field.optional, bind_eq_ok_iff] at htake
  | _ :: _ :: _ :: e :: rest =>
    simp only [form, Form.takeItems, Field.required, Field.withDefault, Field.optional, bind_eq_ok_iff,
      map_eq_ok_iff] at htake
    obtain ⟨_, ⟨_, -, rfl⟩, _, ⟨_, -, rfl⟩, _, ⟨_, -, rfl⟩, _, ⟨connectivity, hread, rfl⟩, heq⟩ := htake
    cases heq
    exact ⟨e, rfl, hread⟩

/-- the tree in the place of the connectivity, of a config that is written as an object or as an array -/
def connectivityTree? : Excerpt → Option Json
  | .obj members _ => (members.find? (·.1 = "connectivity")).bind fun p => p.2.tree.toOption
  | .arr items _ => items[3]?.bind fun e => e.tree.toOption
  | _ => none

theorem connectivity_of_read (h : read e = .ok config) :
    ∃ json, connectivityTree? e = some json ∧ Connectivity.ofJson json = .ok config.connectivity := by
  cases e with
  | obj members ending =>
    obtain ⟨p, hfind, hread⟩ := exists_connectivity_of_ofMembers h
    obtain ⟨json, htree, hjson⟩ := Connectivity.exists_tree_of_read hread
    exact ⟨json, by simp only [connectivityTree?, hfind, Option.bind_some, htree], hjson⟩
  | arr items ending =>
    obtain ⟨e, hitem, hread⟩ := exists_connectivity_of_ofItems h
    obtain ⟨json, htree, hjson⟩ := Connectivity.exists_tree_of_read hread
    exact ⟨json, by simp only [connectivityTree?, hitem, Option.bind_some, htree], hjson⟩
  | _ => cases h

/-- the connectivity as a text has it, with all members that are written -/
def writtenConnectivity? (s : String) : Option Json :=
  connectivityTree? (Json.excerpt (fun key => form.spellings.contains key) s).1

/-- **The connectivity of a text.** It is read from the tree that is written in its place. -/
theorem connectivity_of_ofText (h : ofText s = .ok config) :
    ∃ json, writtenConnectivity? s = some json ∧ Connectivity.ofJson json = .ok config.connectivity := by
  unfold ofText Document.ofMembersOfText at h
  unfold writtenConnectivity?
  cases hexcerpt : Json.excerpt (fun key => form.spellings.contains key) s with
  | mk e rest =>
    simp only [hexcerpt] at h
    obtain ⟨document, hread, h⟩ := bind_eq_ok_iff.1 h
    obtain ⟨-, -, h⟩ := bind_eq_ok_iff.1 h
    cases h
    exact connectivity_of_read hread

end Config

/-! ## Texts by their characters -/

/-- what `excerpt` gives for the text of these characters -/
def Json.excerptOfChars (wanted : String → Bool) (cs : List Char) : Excerpt × Rest :=
  let cs := skipBlanks cs
  let fuel := 2 * cs.length + 2
  match cs with
  | '\x7b' :: rest =>
    let (ms, rest) := members fuel (maxDepth - 1) wanted true rest
    (.obj ms rest.ending, rest)
  | _ => value fuel maxDepth cs

theorem Json.excerpt_ofList (wanted : String → Bool) (cs : List Char) :
    excerpt wanted (String.ofList cs) = excerptOfChars wanted cs := by
  rw [excerpt, String.toList_ofList]
  rfl

namespace Config

/-- the config that these characters hold -/
def ofChars (cs : List Char) : Except Fault Config := do
  let (e, rest) := Json.excerptOfChars (fun key => form.spellings.contains key) cs
  let config ← read e
  rest.finish.mapError .text
  return config

theorem ofText_ofList (cs : List Char) : ofText (String.ofList cs) = ofChars cs := by
  rw [ofText, Document.ofMembersOfText, Json.excerpt_ofList]
  rfl

/-- the connectivity as these characters have it -/
def connectivityOfChars? (cs : List Char) : Option Json :=
  connectivityTree? (Json.excerptOfChars (fun key => form.spellings.contains key) cs).1

theorem writtenConnectivity?_ofList (cs : List Char) :
    writtenConnectivity? (String.ofList cs) = connectivityOfChars? cs := by
  rw [writtenConnectivity?, Json.excerpt_ofList, connectivityOfChars?]

end Config

end RackMap
