/-
In which order the keys of an option table stand, and the warnings for those that are unused.

`writtenKeys` lists the keys of a document in the order of its text, `keysByKind` those of the options that are read of
it, kind by kind in the order of the table. `InOrderOf written listed`: the keys of a list stand in the order in which
they first come up.
- `Reads` says how categories are read one after the other, each for a kind of its own; `reads_of_read` finds the kinds
  of a document, be it written as an object or as an array;
- `goesByKind_of_pairwise`: a list that goes kind by kind is in the order of the text as far as the kinds bring its keys
  up in that order;
- `keys_go_by_kind`: the keys of a table go kind by kind, and so do the warnings of a compilation. They are in the order
  of the text if the categories are written in the order of the kinds;
- `attenuationFirst_unordered`: otherwise they need not be.
-/
import Mathlib.Tactic
import RackMap.Proofs.OptionTable.Written
import RackMap.Proofs.UnusedOptions

namespace RackMap

open RackMap.Json (Excerpt Ending)
open RackMap.Shape (Form Reader)
open RackMap.Wiring (firsts mem_firsts pairwise_idxOf_firsts)

namespace OptionTable

/-! ## Orders -/

/-- the keys under one category, without the blanks around them -/
def keysUnder : Excerpt → List String
  | .obj members _ => members.map fun member => Text.trim member.1
  | _ => []

/-- the categories of a document in the order of the text -/
def writtenCategories : Excerpt → List Excerpt
  | .obj members _ => members.map Prod.snd
  | .arr items _ => items
  | _ => []

/-- the keys of a document in the order of the text, over all categories -/
def writtenKeys (e : Excerpt) : List String := (writtenCategories e).flatMap keysUnder

/-- the keys of all options, kind by kind -/
def keysByKind (options : HardwareOptions) : List String := OptionKind.all.flatMap (keysOf options)

/-- the keys on a list stand in the order in which they first come up in `written` -/
def InOrderOf (written listed : List String) : Prop :=
  ∀ a ∈ listed, ∀ b ∈ listed, written.idxOf a < written.idxOf b → listed.idxOf a < listed.idxOf b

/-- the categories are written in the order of the kinds; in an array they always are -/
def Straight : Excerpt → Prop
  | .obj members _ => (members.map Prod.fst).Sublist (OptionKind.all.map fun kind => kind.category.name)
  | _ => True

variable {e : Excerpt} {s s₁ s' options : HardwareOptions} {kind : OptionKind} {kinds : List OptionKind}
  {categories items left : List Excerpt} {members : List (String × Excerpt)} {ending : Ending}
  {seen seen' listed written : List String} {t : OptionTable}

/-! ## Reading categories -/

/-- the categories, read one after the other, are for these kinds, and tell of no other -/
structure Reads (s : HardwareOptions) (categories : List Excerpt) (kinds : List OptionKind) (s' : HardwareOptions) :
    Prop where
  written : categories.flatMap keysUnder = kinds.flatMap (keysOf s')
  kept : ∀ kind, kind ∉ kinds → keysOf s' kind = keysOf s kind

theorem keysOf_set (kind : OptionKind) (options : HardwareOptions) (entries? : Option (Entries kind.Value)) :
    keysOf (kind.set options entries?) kind = (entries?.getD []).map fun entry => Text.trim entry.1 := by
  rw [keysOf, OptionKind.given_set]

theorem keysOf_set_of_ne {other : OptionKind} (h : other ≠ kind) (options : HardwareOptions)
    (entries? : Option (Entries kind.Value)) : keysOf (kind.set options entries?) other = keysOf options other := by
  rw [keysOf, OptionKind.given_set_of_ne h, keysOf]

theorem keys_of_mapM {α : Type} {read : Reader α} {entries : List (String × α)}
    (h : members.mapM (Reader.entry read) = .ok entries) : entries.map Prod.fst = members.map Prod.fst := by
  induction members generalizing entries with
  | nil =>
    cases h
    rfl
  | cons member rest ih =>
    rw [List.mapM_cons] at h
    obtain ⟨first, hfirst, h⟩ := bind_eq_ok_iff.1 h
    obtain ⟨later, hlater, h⟩ := bind_eq_ok_iff.1 h
    obtain ⟨value, -, hmade⟩ := bind_eq_ok_iff.1 hfirst
    cases h
    cases hmade
    rw [List.map_cons, List.map_cons, ih hlater]

/-- entries have the keys of the members they are read from -/
theorem keys_of_entries {α : Type} {read : Reader α} {wanted : String} {entries : List (String × α)}
    (h : Reader.entries wanted read e = .ok entries) : entries.map (fun entry => Text.trim entry.1) = keysUnder e := by
  cases e with
  | obj members ending =>
    obtain ⟨listed, hlisted, h⟩ := bind_eq_ok_iff.1 h
    obtain ⟨-, -, h⟩ := bind_eq_ok_iff.1 h
    cases h
    calc entries.map (fun entry => Text.trim entry.1)
        = (entries.map Prod.fst).map Text.trim := by rw [List.map_map]; rfl
      _ = (members.map Prod.fst).map Text.trim := by rw [keys_of_mapM hlisted]
      _ = keysUnder (.obj members ending) := by rw [List.map_map]; rfl
  | _ => cases h

theorem eq_null_of_nullable {α : Type} {read : Reader α} (h : Reader.nullable read e = .ok none) : e = .null := by
  cases e with
  | null => rfl
  | _ =>
    obtain ⟨a, -, hsome⟩ := map_eq_ok_iff.1 h
    cases hsome

/-- a category that is read has the keys of its kind -/
theorem category_eq_ok {name : String} (h : (HardwareOptions.category name kind.read kind.set).read e s = .ok s₁) :
    keysOf s₁ kind = keysUnder e ∧ ∀ other, other ≠ kind → keysOf s₁ other = keysOf s other := by
  obtain ⟨entries?, hentries, rfl⟩ := map_eq_ok_iff.1 h
  refine ⟨?_, fun other hother => keysOf_set_of_ne hother s entries?⟩
  rw [keysOf_set]
  cases entries? with
  | some entries => exact keys_of_entries (Reader.eq_ok_of_nullable hentries)
  | none =>
    rw [eq_null_of_nullable hentries]
    rfl

theorem reads_nil (s : HardwareOptions) : Reads s [] [] s := ⟨rfl, fun _ _ => rfl⟩

/-- one category before others that are for other kinds -/
theorem Reads.cons {name : String} (hread : (HardwareOptions.category name kind.read kind.set).read e s = .ok s₁)
    (hrest : Reads s₁ categories kinds s') (hnew : kind ∉ kinds) : Reads s (e :: categories) (kind :: kinds) s' := by
  obtain ⟨hkeys, hothers⟩ := category_eq_ok hread
  constructor
  · rw [List.flatMap_cons, List.flatMap_cons, hrest.written, hrest.kept kind hnew, hkeys]
  · intro other hother
    obtain ⟨hne, hother⟩ := not_or.1 (mt List.mem_cons.2 hother)
    rw [hrest.kept other hother, hothers other hne]

theorem exists_kind_of_find {key : String} {field : Shape.Field HardwareOptions}
    (h : HardwareOptions.form.fields.find? (·.spellings.contains key) = some field) :
    ∃ kind : OptionKind, key = kind.category.name ∧
      field = HardwareOptions.category kind.category.name kind.read kind.set := by
  have hfield := List.mem_of_find?_eq_some h
  rw [HardwareOptions.fields_form] at hfield
  obtain ⟨kind, -, rfl⟩ := List.mem_map.1 hfield
  have hspelled := List.find?_some h
  refine ⟨kind, ?_, rfl⟩
  change [kind.category.name].contains key = true at hspelled
  simpa using hspelled

/-- the categories of an object are for the kinds that they name, each named once -/
theorem reads_of_takeMembers (h : HardwareOptions.form.takeMembers members seen s = .ok (seen', s')) :
    ∃ kinds : List OptionKind, members.map Prod.fst = kinds.map (fun kind => kind.category.name) ∧
      (∀ kind ∈ kinds, kind.category.name ∉ seen) ∧ Reads s (members.map Prod.snd) kinds s' := by
  induction members generalizing seen s with
  | nil =>
    cases h
    exact ⟨[], rfl, by simp, reads_nil _⟩
  | cons member rest ih =>
    obtain ⟨key, value⟩ := member
    rw [Form.takeMembers] at h
    cases hfind : HardwareOptions.form.fields.find? (·.spellings.contains key) with
    | none =>
      simp only [hfind] at h
      cases h
    | some field =>
      obtain ⟨kind, rfl, rfl⟩ := exists_kind_of_find hfind
      simp only [hfind] at h
      split at h
      · cases h
      · rename_i hseen
        have hunseen : kind.category.name ∉ seen := fun hin => hseen (List.contains_iff_mem.2 hin)
        obtain ⟨after, hread, hrest⟩ := bind_eq_ok_iff.1 h
        obtain ⟨kinds, hnames, hnew, hreads⟩ := ih hrest
        have hname : ∀ other ∈ kinds, other.category.name ∉ kind.category.name :: seen := hnew
        refine ⟨kind :: kinds, by rw [List.map_cons, List.map_cons, hnames], ?_, ?_⟩
        · intro other hother
          rcases List.mem_cons.1 hother with rfl | hother
          · exact hunseen
          · exact fun hin => hname other hother (List.mem_cons_of_mem _ hin)
        · exact hreads.cons hread fun hin => hname kind hin List.mem_cons_self

theorem reads_of_takeItems {index : Nat} (hnodup : kinds.Nodup)
    (h : HardwareOptions.form.takeItems ending
      (kinds.map fun kind => HardwareOptions.category kind.category.name kind.read kind.set) index items s =
        .ok ([], s')) :
    ∃ taken : List OptionKind, taken.Sublist kinds ∧ Reads s items taken s' := by
  induction kinds generalizing index items s with
  | nil =>
    cases h
    exact ⟨[], List.Sublist.slnil, reads_nil _⟩
  | cons kind rest ih =>
    obtain ⟨hnew, hrest⟩ := List.nodup_cons.1 hnodup
    rw [List.map_cons] at h
    cases items with
    | nil =>
      obtain ⟨-, -, h⟩ := bind_eq_ok_iff.1 h
      obtain ⟨taken, htaken, hreads⟩ := ih hrest h
      exact ⟨taken, htaken.cons kind, hreads⟩
    | cons e items =>
      obtain ⟨after, hread, h⟩ := bind_eq_ok_iff.1 h
      obtain ⟨taken, htaken, hreads⟩ := ih hrest h
      exact ⟨kind :: taken, htaken.cons_cons kind, hreads.cons hread fun hin => hnew (htaken.subset hin)⟩

theorem left_of_endItems {length : Nat} (h : Reader.endItems length left ending = .ok ()) : left = [] := by
  unfold Reader.endItems at h
  split at h
  · rfl
  · rfl
  · cases h
  · cases h
  · cases h
  · cases h

/-- **The categories of a document.** They are read for kinds of their own, which stand in the order of all kinds if the
categories do. -/
theorem reads_of_read (h : HardwareOptions.read e = .ok options) :
    ∃ kinds : List OptionKind, Reads HardwareOptions.form.start (writtenCategories e) kinds options ∧
      (Straight e → kinds.Sublist OptionKind.all) := by
  cases e with
  | obj members ending =>
    obtain ⟨⟨seen, s⟩, htake, h⟩ := bind_eq_ok_iff.1 h
    obtain ⟨-, -, h⟩ := bind_eq_ok_iff.1 h
    obtain ⟨kinds, hnames, -, hreads⟩ := reads_of_takeMembers htake
    have hs : s = options := by
      split at h
      · cases h
      · exact Except.ok.inj h
    subst hs
    refine ⟨kinds, hreads, fun hstraight => ?_⟩
    obtain ⟨sorted, hsorted, hsame⟩ := List.sublist_map_iff.1 hstraight
    have hkinds : kinds = sorted := List.map_injective_iff.2 OptionKind.name_inj (hnames.symm.trans hsame)
    rw [hkinds]
    exact hsorted
  | arr items ending =>
    obtain ⟨⟨left, s⟩, htake, h⟩ := bind_eq_ok_iff.1 h
    obtain ⟨⟨⟩, hend, h⟩ := bind_eq_ok_iff.1 h
    cases h
    obtain rfl := left_of_endItems hend
    obtain ⟨taken, htaken, hreads⟩ := reads_of_takeItems OptionKind.nodup_all htake
    exact ⟨taken, hreads, fun _ => htaken⟩
  | _ => cases h

theorem keysOf_start (kind : OptionKind) : keysOf HardwareOptions.form.start kind = [] := by cases kind <;> rfl

/-- no key is lost or made up by reading -/
theorem mem_writtenKeys_iff {key : String} (h : HardwareOptions.read e = .ok options) :
    key ∈ writtenKeys e ↔ key ∈ keysByKind options := by
  obtain ⟨kinds, hreads, -⟩ := reads_of_read h
  rw [writtenKeys, hreads.written, keysByKind, List.mem_flatMap, List.mem_flatMap]
  constructor
  · rintro ⟨kind, -, hkey⟩
    exact ⟨kind, by cases kind <;> decide, hkey⟩
  · rintro ⟨kind, -, hkey⟩
    refine ⟨kind, ?_, hkey⟩
    by_contra hother
    rw [hreads.kept kind hother, keysOf_start] at hkey
    cases hkey

/-- items that bring up nothing may be left out -/
theorem flatMap_eq_of_sublist {α β : Type} {f : α → List β} {some all : List α} (h : some.Sublist all)
    (hnodup : all.Nodup) (hnone : ∀ a ∈ all, a ∉ some → f a = []) : some.flatMap f = all.flatMap f := by
  induction h with
  | slnil => rfl
  | cons a h ih =>
    obtain ⟨hnew, hrest⟩ := List.nodup_cons.1 hnodup
    have ha : f a = [] := hnone a List.mem_cons_self fun hin => hnew (h.subset hin)
    rw [List.flatMap_cons, ha, List.nil_append]
    exact ih hrest fun b hb => hnone b (List.mem_cons_of_mem _ hb)
  | cons_cons a h ih =>
    obtain ⟨hnew, hrest⟩ := List.nodup_cons.1 hnodup
    rw [List.flatMap_cons, List.flatMap_cons, ih hrest]
    intro b hb hout
    refine hnone b (List.mem_cons_of_mem _ hb) fun hin => ?_
    rcases List.mem_cons.1 hin with rfl | hin
    · exact hnew hb
    · exact hout hin

/-- categories that stand in the order of the kinds bring up the keys as the kinds do -/
theorem writtenKeys_of_straight (h : HardwareOptions.read e = .ok options) (hstraight : Straight e) :
    writtenKeys e = keysByKind options := by
  obtain ⟨kinds, hreads, hsorted⟩ := reads_of_read h
  rw [writtenKeys, hreads.written, keysByKind]
  refine flatMap_eq_of_sublist (hsorted hstraight) OptionKind.nodup_all fun kind _ hother => ?_
  rw [hreads.kept kind hother, keysOf_start]

/-! ## Lists that go kind by kind -/

/-- on a list in the order of the places of `items`, places on the list and among the items compare alike -/
theorem idxOf_lt_iff {items : List String} {a b : String}
    (h : listed.Pairwise fun a b => items.idxOf a < items.idxOf b) (ha : a ∈ listed) (hb : b ∈ listed) :
    listed.idxOf a < listed.idxOf b ↔ items.idxOf a < items.idxOf b := by
  have hordered := List.pairwise_iff_getElem.1 h
  have hbefore : ∀ {a b : String}, a ∈ listed → b ∈ listed → listed.idxOf a < listed.idxOf b →
      items.idxOf a < items.idxOf b := by
    intro a b ha hb hlt
    have hplaces := hordered _ _ (List.idxOf_lt_length_of_mem ha) (List.idxOf_lt_length_of_mem hb) hlt
    rwa [List.getElem_idxOf, List.getElem_idxOf] at hplaces
  constructor
  · exact hbefore ha hb
  · intro hlt
    rcases Nat.lt_trichotomy (listed.idxOf a) (listed.idxOf b) with hab | hsame | hba
    · exact hab
    · have heq : a = b := (List.idxOf_inj ha).1 hsame
      rw [heq] at hlt
      exact absurd hlt (Nat.lt_irrefl _)
    · exact absurd hlt (Nat.lt_asymm (hbefore hb ha hba))

/-- a list of keys that goes kind by kind: it is in the order of the text as far as the kinds bring its keys up in that
order, and all of it is if the categories are written in the order of the kinds -/
structure GoesByKind (e : Excerpt) (options : HardwareOptions) (listed : List String) : Prop where
  byKind : InOrderOf (keysByKind options) listed
  document : InOrderOf (writtenKeys e) listed ↔ ∀ a ∈ listed, ∀ b ∈ listed,
    (writtenKeys e).idxOf a < (writtenKeys e).idxOf b → (keysByKind options).idxOf a < (keysByKind options).idxOf b
  straight : Straight e → InOrderOf (writtenKeys e) listed

theorem goesByKind_of_pairwise (h : HardwareOptions.read e = .ok options)
    (hlisted : listed.Pairwise fun a b => (keysByKind options).idxOf a < (keysByKind options).idxOf b) :
    GoesByKind e options listed := by
  have hbyKind : InOrderOf (keysByKind options) listed := fun a ha b hb hlt => (idxOf_lt_iff hlisted ha hb).2 hlt
  refine ⟨hbyKind, ?_, fun hstraight => ?_⟩
  · constructor
    · intro hordered a ha b hb hlt
      exact (idxOf_lt_iff hlisted ha hb).1 (hordered a ha b hb hlt)
    · intro hkinds a ha b hb hlt
      exact hbyKind a ha b hb (hkinds a ha b hb hlt)
  · rw [writtenKeys_of_straight h hstraight]
    exact hbyKind

/-- **The order of the keys.** The keys of a table are those of the document, and go kind by kind. So do those that the
unused options of a compilation are warned about. -/
theorem keys_go_by_kind (h : HardwareOptions.read e = .ok options) (ht : build options = .ok t) :
    (∀ key, key ∈ t.keys ↔ key ∈ writtenKeys e) ∧ GoesByKind e options t.keys ∧
      ∀ (config : Config) (settings : Settings) (m : CompiledMap), config.options? = some options →
        compile config settings = .ok m → settings.sanitize.2.unusedOptions = .warn →
        ∃ keys, m.warnings = keys.map Crosscheck.unusedWarning ∧ keys.Sublist t.keys ∧
          GoesByKind e options keys := by
  have hkeys : t.keys = firsts (keysByKind options) := keys_eq_firsts ht
  have hordered : t.keys.Pairwise fun a b => (keysByKind options).idxOf a < (keysByKind options).idxOf b := by
    rw [hkeys]
    exact pairwise_idxOf_firsts _
  refine ⟨fun key => ?_, goesByKind_of_pairwise h hordered, ?_⟩
  · rw [hkeys, mem_firsts, mem_writtenKeys_iff h]
  · intro config settings m hoptions hm hpolicy
    obtain ⟨p, warnings, r, hp, hvalidate, -, hmap⟩ := compile_eq_ok_iff.1 hm
    obtain ⟨-, -, -, hbuilt, -, hsettings⟩ := Parsed.ofConfig_eq_ok_iff.1 hp
    have hsame : p.options = t := by
      rw [Parsed.optionsOf, hoptions, Option.getD_some, ht] at hbuilt
      exact (Except.ok.inj hbuilt).symm
    have hwarn : p.settings.unusedOptions = .warn := by rw [hsettings]; exact hpolicy
    have hwarnings : m.warnings = (Crosscheck.unusedKeys t p.wiring).map Crosscheck.unusedWarning := by
      rw [(Compile.map_eq_ok_iff_clear.1 hmap).2, ← hsame, ← Crosscheck.warnings_eq_map hwarn]
      exact (Crosscheck.validate_eq_ok_iff.1 hvalidate).2.2.2
    have hsub : (Crosscheck.unusedKeys t p.wiring).Sublist t.keys := List.filter_sublist
    exact ⟨_, hwarnings, hsub, goesByKind_of_pairwise h (hordered.sublist hsub)⟩

/-- two options of two port-clocks, in this order -/
def twoOptions (first second : String × Json) : Json := .obj [first, second]

/-- an option of the first category -/
def latencyMember : String × Json := ("latency_corrections", .obj [("q0:mw-q0.01", .int 0)])

/-- an option of a later category -/
def attenuationMember : String × Json := ("output_att", .obj [("q1:mw-q1.01", .int 10)])

/-- a rack that connects nothing -/
def bareConfig (options : HardwareOptions) : Config where
  backend := "qblox"
  description := [("pulsar0", { (default : InstrumentDescription) with type := "Pulsar_QCM" })]
  options? := some options
  connectivity := .paths []

/-- with the latency first, the keys are in the order of the text -/
theorem latencyFirst_ordered :
    ∃ options t m keys, HardwareOptions.read (.ofJson (twoOptions latencyMember attenuationMember)) = .ok options ∧
      build options = .ok t ∧ t.keys = ["q0:mw-q0.01", "q1:mw-q1.01"] ∧
      GoesByKind (.ofJson (twoOptions latencyMember attenuationMember)) options t.keys ∧
      compile (bareConfig options) {} = .ok m ∧ m.warnings = keys.map Crosscheck.unusedWarning ∧
      GoesByKind (.ofJson (twoOptions latencyMember attenuationMember)) options keys := by
  obtain ⟨options, hoptions, hmade⟩ := exists_eq_ok
    (x := HardwareOptions.read (.ofJson (twoOptions latencyMember attenuationMember)))
    (c := fun options => (build options).toOption.any (fun t => t.keys = ["q0:mw-q0.01", "q1:mw-q1.01"]) &&
      (compile (bareConfig options) {}).toOption.any fun _ => true) (by decide +kernel)
  obtain ⟨hbuilt, hcompiled⟩ := Bool.and_eq_true_iff.1 hmade
  obtain ⟨t, ht, hkeys⟩ := exists_eq_ok hbuilt
  obtain ⟨m, hm, -⟩ := exists_eq_ok hcompiled
  obtain ⟨-, hlisted, hwarned⟩ := keys_go_by_kind hoptions ht
  obtain ⟨keys, hwarnings, -, hkinds⟩ := hwarned (bareConfig options) {} m rfl hm rfl
  exact ⟨options, t, m, keys, hoptions, ht, of_decide_eq_true hkeys, hlisted, hm, hwarnings, hkinds⟩

/-- **Not in the order of the text.** With the attenuation first, the key of the latency is still listed first, and
warned about first. -/
theorem attenuationFirst_unordered :
    ∃ options t m, HardwareOptions.read (.ofJson (twoOptions attenuationMember latencyMember)) = .ok options ∧
      build options = .ok t ∧
      ¬InOrderOf (writtenKeys (.ofJson (twoOptions attenuationMember latencyMember))) t.keys ∧
      compile (bareConfig options) {} = .ok m ∧
      m.warnings = ["q0:mw-q0.01", "q1:mw-q1.01"].map Crosscheck.unusedWarning ∧
      writtenKeys (.ofJson (twoOptions attenuationMember latencyMember)) = ["q1:mw-q1.01", "q0:mw-q0.01"] := by
  obtain ⟨options, hoptions, hmade⟩ := exists_eq_ok
    (x := HardwareOptions.read (.ofJson (twoOptions attenuationMember latencyMember)))
    (c := fun options => (build options).toOption.any (fun t => t.keys = ["q0:mw-q0.01", "q1:mw-q1.01"]) &&
      (compile (bareConfig options) {}).toOption.any fun m =>
        m.warnings = ["q0:mw-q0.01", "q1:mw-q1.01"].map Crosscheck.unusedWarning) (by decide +kernel)
  obtain ⟨hbuilt, hcompiled⟩ := Bool.and_eq_true_iff.1 hmade
  obtain ⟨t, ht, hkeys⟩ := exists_eq_ok hbuilt
  obtain ⟨m, hm, hwarnings⟩ := exists_eq_ok hcompiled
  have hwritten : writtenKeys (.ofJson (twoOptions attenuationMember latencyMember)) =
      ["q1:mw-q1.01", "q0:mw-q0.01"] := by
    decide +kernel
  refine ⟨options, t, m, hoptions, ht, fun hordered => ?_, hm, of_decide_eq_true hwarnings, hwritten⟩
  rw [of_decide_eq_true hkeys, hwritten] at hordered
  exact absurd (hordered "q1:mw-q1.01" (by decide) "q0:mw-q0.01" (by decide) (by decide)) (by decide)

end OptionTable

end RackMap
