/-
What a connectivity says, member by member.

A leaf of the nested shape lists port-clocks under `portclock_configs` and may name an oscillator under `lo_name`; a
channel field of a device has a `port` and a `clock` and may have a `mode` and a `local_oscillator`. `WrittenAs` says so
of a tree, without the forms that read it.
- `PortClockEntry.ofTree_iff`, `ChannelWiring.ofJson_iff`, `DeviceChannel.ofJson_iff`: trees are read iff they are
  written in this way, and as what is written;
- `Connectivity.mem_edges_paths_iff`, `Connectivity.mem_edges_devices_iff`: the edges of a connectivity are those that
  its leaves and channel fields are written with.
-/
import Mathlib.Tactic
import RackMap.Proofs.Shape.Object
import RackMap.Proofs.Wiring.Document

namespace RackMap

open RackMap.Json (Excerpt)
open RackMap.Shape

/-! ## Texts and lists -/

namespace Shape.Reader

variable {α : Type} {read : Reader α} {json : Json} {s : String} {s? : Option String}

theorem text_ofTree_iff : Reader.text.ofTree json = .ok s ↔ json = .str s := by
  constructor
  · intro h
    cases json with
    | str t =>
      cases h
      rfl
    | _ => cases h
  · rintro rfl
    rfl

theorem nullable_text_ofTree_iff : (Reader.nullable Reader.text).ofTree json = .ok s? ↔ json = .ofOption .str s? := by
  constructor
  · intro h
    cases json with
    | null =>
      cases h
      rfl
    | str t =>
      cases h
      rfl
    | _ => cases h
  · rintro rfl
    cases s? <;> rfl

/-- the written forms of different texts differ -/
theorem ofOption_str_inj {s?' : Option String} (h : Json.ofOption .str s? = Json.ofOption .str s?') : s? = s?' :=
  Except.ok.inj ((nullable_text_ofTree_iff.2 rfl).symm.trans (nullable_text_ofTree_iff.2 h))

theorem ofItems_eq_map (items : List Json) : Excerpt.ofItems items = items.map Excerpt.ofJson := by
  induction items with
  | nil => rfl
  | cons item rest ih => rw [Excerpt.ofItems, ih, List.map_cons]

theorem list_ofTree_iff {values : List α} :
    (Reader.list read).ofTree json = .ok values ↔
      ∃ items, json = .arr items ∧ List.Forall₂ (fun item value => read.ofTree item = .ok value) items values := by
  have hitems : ∀ items : List Json, (Excerpt.ofItems items).mapM read = .ok values ↔
      List.Forall₂ (fun item value => read.ofTree item = .ok value) items values := by
    intro items
    rw [mapM_eq_ok_iff_forall₂, ofItems_eq_map, List.forall₂_map_left_iff]
    rfl
  constructor
  · intro h
    cases json with
    | arr items =>
      obtain ⟨values', hvalues, h⟩ := bind_eq_ok_iff.1 h
      obtain ⟨-, -, h⟩ := bind_eq_ok_iff.1 h
      cases h
      exact ⟨items, rfl, (hitems items).1 hvalues⟩
    | _ => cases h
  · rintro ⟨items, rfl, hall⟩
    rw [Reader.ofTree, Excerpt.ofJson, Reader.list, (hitems items).2 hall]
    rfl

end Shape.Reader

/-- a text under a key, which may be `null` or absent -/
def OpenText (json? : Option Json) (s? : Option String) : Prop := json? = s?.map .str ∨ json? = some .null ∧ s? = none

theorem openText_iff {json? : Option Json} {s? : Option String} :
    OpenText json? s? ↔
      match json? with
      | some json => (Reader.nullable Reader.text).ofTree json = .ok s?
      | none => s? = none := by
  cases json? with
  | none => cases s? <;> simp [OpenText]
  | some json =>
    simp only [Reader.nullable_text_ofTree_iff, OpenText]
    cases s? <;> simp [Json.ofOption]

theorem OpenText.unique {json? : Option Json} {s? s?' : Option String} (h : OpenText json? s?)
    (h' : OpenText json? s?') : s? = s?' := by
  rw [openText_iff] at h h'
  cases json? with
  | none => exact h.trans h'.symm
  | some json => exact Except.ok.inj (h.symm.trans h')

theorem OpenText.readable {σ : Type} {json? : Option Json} {json : Json} {s? : Option String} {name : String}
    {put : σ → Option String → σ} (h : OpenText json? s?) (start : σ) (hjson : json? = some json) :
    (Field.optional name Reader.text put).Readable json := by
  rw [openText_iff, hjson] at h
  exact Field.puts_optional.readable start h

/-! ## Port-clocks -/

namespace PortClockEntry

variable {entry entry' : PortClockEntry} {members : Table String Json} {items : List Json} {json : Json}

/-- an object with both texts and nothing else, or an array of both texts -/
def WrittenAs (entry : PortClockEntry) : Json → Prop
  | .obj members => (Table.keys members).Nodup ∧ Table.keys members ⊆ ["port", "clock"] ∧
      Table.lookup? members "port" = some (.str entry.port) ∧ Table.lookup? members "clock" = some (.str entry.clock)
  | .arr items => items = [.str entry.port, .str entry.clock]
  | _ => False

/-- the field for the port -/
def portField : Shape.Field PortClockEntry := .required "port" Reader.text fun e v => { e with port := v }

/-- the field for the clock -/
def clockField : Shape.Field PortClockEntry := .required "clock" Reader.text fun e v => { e with clock := v }

theorem mem_fields_iff {field : Shape.Field PortClockEntry} :
    field ∈ form.fields ↔ field = portField ∨ field = clockField := List.mem_pair

theorem plain_form : form.Plain where
  unkept put := by simp [form]
  spelled field hfield := by rcases mem_fields_iff.1 hfield with rfl | rfl <;> rfl
  distinct := by decide
  steady field hfield := by rcases mem_fields_iff.1 hfield with rfl | rfl <;> exact Field.puts_required.steady

theorem owns_port : form.Owns portField port := by
  refine plain_form.owns (mem_fields_iff.2 (.inl rfl)) fun other hother hne => ?_
  rcases mem_fields_iff.1 hother with rfl | rfl
  · exact absurd rfl hne
  · exact Field.puts_required.keeps fun _ _ => rfl

theorem owns_clock : form.Owns clockField clock := by
  refine plain_form.owns (mem_fields_iff.2 (.inr rfl)) fun other hother hne => ?_
  rcases mem_fields_iff.1 hother with rfl | rfl
  · exact Field.puts_required.keeps fun _ _ => rfl
  · exact absurd rfl hne

theorem writtenAs_of_ofTree_obj (h : form.read.ofTree (.obj members) = .ok entry) : entry.WrittenAs (.obj members) := by
  obtain ⟨htake, -⟩ := (Form.exists_ofTree_iff plain_form).1 ⟨entry, h⟩
  obtain ⟨hnodup, hknown, -⟩ := (Form.takeable_iff_of_refuse rfl).1 htake
  obtain ⟨port, hport, htext⟩ :=
    Form.required_of_ofTree owns_port (mem_fields_iff.2 (.inl rfl)) (fun _ _ => rfl) plain_form h
  obtain ⟨clock, hclock, htext'⟩ :=
    Form.required_of_ofTree owns_clock (mem_fields_iff.2 (.inr rfl)) (fun _ _ => rfl) plain_form h
  rw [Reader.text_ofTree_iff] at htext htext'
  exact ⟨hnodup, hknown, htext ▸ hport, htext' ▸ hclock⟩

/-- a tree is written as one entry at most -/
theorem WrittenAs.unique (h : entry.WrittenAs json) (h' : entry'.WrittenAs json) : entry = entry' := by
  obtain ⟨port, clock⟩ := entry
  obtain ⟨port', clock'⟩ := entry'
  rw [PortClockEntry.mk.injEq]
  cases json with
  | obj members =>
    obtain ⟨-, -, hport, hclock⟩ := h
    obtain ⟨-, -, hport', hclock'⟩ := h'
    have hports := Option.some.inj (hport.symm.trans hport')
    have hclocks := Option.some.inj (hclock.symm.trans hclock')
    exact ⟨Json.str.inj hports, Json.str.inj hclocks⟩
  | arr items =>
    have heq := h.symm.trans h'
    simpa only [List.cons.injEq, Json.str.injEq, and_true] using heq
  | _ => exact h.elim

theorem ofTree_obj_iff : form.read.ofTree (.obj members) = .ok entry ↔ entry.WrittenAs (.obj members) := by
  refine ⟨writtenAs_of_ofTree_obj, fun hwritten => ?_⟩
  have ⟨hnodup, hknown, hport, hclock⟩ := hwritten
  -- some entry is read, and it can only be the one that is written
  obtain ⟨e, he⟩ : ∃ e, form.read.ofTree (.obj members) = .ok e := by
    refine (Form.exists_ofTree_iff plain_form).2 ⟨(Form.takeable_iff_of_refuse rfl).2 ⟨hnodup, hknown, ?_⟩, ?_⟩
    · intro field hfield json hlookup
      rcases mem_fields_iff.1 hfield with rfl | rfl
      · obtain rfl := Option.some.inj (hport.symm.trans hlookup)
        exact Field.puts_required.readable form.start rfl
      · obtain rfl := Option.some.inj (hclock.symm.trans hlookup)
        exact Field.puts_required.readable form.start rfl
    · intro field hfield _
      rcases mem_fields_iff.1 hfield with rfl | rfl
      · exact Table.mem_keys_of_lookup? hport
      · exact Table.mem_keys_of_lookup? hclock
  rw [he, (writtenAs_of_ofTree_obj he).unique hwritten]

theorem ofTree_arr_iff : form.read.ofTree (.arr items) = .ok entry ↔ entry.WrittenAs (.arr items) := by
  rw [Form.ofTree_arr_iff plain_form.unkept
    fun field hfield => by rcases mem_fields_iff.1 hfield with rfl | rfl <;> rfl]
  match items with
  | [] | [_] | _ :: _ :: _ :: _ => simp [WrittenAs, Form.TakesAll, form]
  | [port, clock] =>
    simp only [form, Form.takesAll_cons_iff Field.puts_required, Form.takesAll_nil_iff, Reader.text_ofTree_iff,
      WrittenAs, List.cons.injEq, and_true]
    constructor
    · rintro ⟨_, rfl, _, rfl, rfl⟩
      exact ⟨rfl, rfl⟩
    · rintro ⟨rfl, rfl⟩
      exact ⟨_, rfl, _, rfl, rfl⟩

/-- **Reading a port-clock.** -/
theorem ofTree_iff : form.read.ofTree json = .ok entry ↔ entry.WrittenAs json := by
  cases json with
  | obj members => exact ofTree_obj_iff
  | arr items => exact ofTree_arr_iff
  | _ => exact iff_of_false (fun h => by cases h) id

end PortClockEntry

/-! ## Leaves -/

namespace ChannelWiring

variable {wiring wiring' : ChannelWiring} {members : Table String Json} {items : List Json} {json : Json}

/-- a list of port-clocks -/
def ListedAs (entries : List PortClockEntry) (json : Json) : Prop :=
  ∃ items, json = .arr items ∧ List.Forall₂ (fun item entry => PortClockEntry.WrittenAs entry item) items entries

/-- an object that lists port-clocks and may name an oscillator, with nothing else; or an array of both -/
def WrittenAs (wiring : ChannelWiring) : Json → Prop
  | .obj members => (Table.keys members).Nodup ∧ Table.keys members ⊆ ["portclock_configs", "lo_name"] ∧
      (∃ json, Table.lookup? members "portclock_configs" = some json ∧ ListedAs wiring.portClocks json) ∧
      OpenText (Table.lookup? members "lo_name") wiring.lo?
  | .arr items => ∃ json, items = [json, .ofOption .str wiring.lo?] ∧ ListedAs wiring.portClocks json
  | _ => False

/-- the field for the port-clocks -/
def portClocksField : Shape.Field ChannelWiring :=
  .required "portclock_configs" (Reader.list PortClockEntry.form.read) fun c v => { c with portClocks := v }

/-- the field for the oscillator -/
def loField : Shape.Field ChannelWiring := .optional "lo_name" Reader.text fun c v => { c with lo? := v }

theorem mem_fields_iff {field : Shape.Field ChannelWiring} :
    field ∈ form.fields ↔ field = portClocksField ∨ field = loField := List.mem_pair

theorem listedAs_iff {entries : List PortClockEntry} :
    (Reader.list PortClockEntry.form.read).ofTree json = .ok entries ↔ ListedAs entries json := by
  simp only [Reader.list_ofTree_iff, PortClockEntry.ofTree_iff, ListedAs]

theorem plain_form : form.Plain where
  unkept put := by simp [form]
  spelled field hfield := by rcases mem_fields_iff.1 hfield with rfl | rfl <;> rfl
  distinct := by decide
  steady field hfield := by
    rcases mem_fields_iff.1 hfield with rfl | rfl
    · exact Field.puts_required.steady
    · exact Field.puts_optional.steady

theorem owns_portClocks : form.Owns portClocksField portClocks := by
  refine plain_form.owns (mem_fields_iff.2 (.inl rfl)) fun other hother hne => ?_
  rcases mem_fields_iff.1 hother with rfl | rfl
  · exact absurd rfl hne
  · exact Field.puts_optional.keeps fun _ _ => rfl

theorem owns_lo : form.Owns loField lo? := by
  refine plain_form.owns (mem_fields_iff.2 (.inr rfl)) fun other hother hne => ?_
  rcases mem_fields_iff.1 hother with rfl | rfl
  · exact Field.puts_required.keeps fun _ _ => rfl
  · exact absurd rfl hne

theorem ListedAs.unique {entries entries' : List PortClockEntry} (h : ListedAs entries json)
    (h' : ListedAs entries' json) : entries = entries' :=
  Except.ok.inj ((listedAs_iff.2 h).symm.trans (listedAs_iff.2 h'))

theorem writtenAs_of_ofJson_obj (h : ofJson (.obj members) = .ok wiring) : wiring.WrittenAs (.obj members) := by
  obtain ⟨htake, -⟩ := (Form.exists_ofTree_iff plain_form).1 ⟨wiring, h⟩
  obtain ⟨hnodup, hknown, -⟩ := (Form.takeable_iff_of_refuse rfl).1 htake
  obtain ⟨json, hlist, hread⟩ :=
    Form.required_of_ofTree owns_portClocks (mem_fields_iff.2 (.inl rfl)) (fun _ _ => rfl) plain_form h
  exact ⟨hnodup, hknown, ⟨json, hlist, listedAs_iff.1 hread⟩,
    openText_iff.2 (Form.optional_of_ofTree owns_lo (fun _ _ => rfl) rfl h)⟩

/-- a tree is written as one leaf at most -/
theorem WrittenAs.unique (h : wiring.WrittenAs json) (h' : wiring'.WrittenAs json) : wiring = wiring' := by
  obtain ⟨entries, lo?⟩ := wiring
  obtain ⟨entries', lo?'⟩ := wiring'
  cases json with
  | obj members =>
    obtain ⟨-, -, ⟨json, hjson, hlisted⟩, hlo⟩ := h
    obtain ⟨-, -, ⟨json', hjson', hlisted'⟩, hlo'⟩ := h'
    obtain rfl : json = json' := Option.some.inj (hjson.symm.trans hjson')
    rw [ChannelWiring.mk.injEq]
    exact ⟨hlisted.unique hlisted', hlo.unique hlo'⟩
  | arr items =>
    obtain ⟨json, hitems, hlisted⟩ := h
    obtain ⟨json', hitems', hlisted'⟩ := h'
    obtain ⟨rfl, hlo⟩ : json = json' ∧ Json.ofOption .str lo? = Json.ofOption .str lo?' := by
      simpa using hitems.symm.trans hitems'
    rw [ChannelWiring.mk.injEq]
    exact ⟨hlisted.unique hlisted', Reader.ofOption_str_inj hlo⟩
  | _ => exact h.elim

theorem ofJson_obj_iff : ofJson (.obj members) = .ok wiring ↔ wiring.WrittenAs (.obj members) := by
  refine ⟨writtenAs_of_ofJson_obj, fun hwritten => ?_⟩
  have ⟨hnodup, hknown, ⟨listed, hlisted, hentries⟩, hlo⟩ := hwritten
  obtain ⟨w, hw⟩ : ∃ w, ofJson (.obj members) = .ok w := by
    refine (Form.exists_ofTree_iff plain_form).2 ⟨(Form.takeable_iff_of_refuse rfl).2 ⟨hnodup, hknown, ?_⟩, ?_⟩
    · intro field hfield json hlookup
      rcases mem_fields_iff.1 hfield with rfl | rfl
      · obtain rfl := Option.some.inj (hlisted.symm.trans hlookup)
        exact Field.puts_required.readable form.start (listedAs_iff.2 hentries)
      · exact hlo.readable form.start hlookup
    · intro field hfield hneeded
      rcases mem_fields_iff.1 hfield with rfl | rfl
      · exact Table.mem_keys_of_lookup? hlisted
      · cases hneeded
  rw [hw, (writtenAs_of_ofJson_obj hw).unique hwritten]

theorem ofJson_arr_iff : ofJson (.arr items) = .ok wiring ↔ wiring.WrittenAs (.arr items) := by
  rw [ofJson, Form.ofTree_arr_iff plain_form.unkept
    fun field hfield => by rcases mem_fields_iff.1 hfield with rfl | rfl <;> rfl]
  match items with
  | [] | [_] | _ :: _ :: _ :: _ => simp [WrittenAs, Form.TakesAll, form]
  | [listed, lo] =>
    simp only [form, Form.takesAll_cons_iff Field.puts_required, Form.takesAll_cons_iff Field.puts_optional,
      Form.takesAll_nil_iff, listedAs_iff, Reader.nullable_text_ofTree_iff, WrittenAs, List.cons.injEq, and_true]
    constructor
    · rintro ⟨entries, hentries, lo?, rfl, rfl⟩
      exact ⟨listed, ⟨rfl, rfl⟩, hentries⟩
    · rintro ⟨_, ⟨rfl, rfl⟩, hentries⟩
      exact ⟨wiring.portClocks, hentries, wiring.lo?, rfl, rfl⟩

/-- **Reading a leaf.** -/
theorem ofJson_iff : ofJson json = .ok wiring ↔ wiring.WrittenAs json := by
  cases json with
  | obj members => exact ofJson_obj_iff
  | arr items => exact ofJson_arr_iff
  | _ => exact iff_of_false (fun h => by cases h) id

end ChannelWiring

/-! ## Channel fields of devices -/

namespace DeviceChannel

variable {c c' : DeviceChannel} {members : Table String Json} {items : List Json} {json : Json}

/-- an object with a port and a clock, and perhaps a mode and an oscillator, none of them twice, whatever else it has;
or an array of the four -/
def WrittenAs (c : DeviceChannel) : Json → Prop
  | .obj members =>
      ((Table.keys members).filter fun key => key ∈ ["port", "clock", "mode", "local_oscillator"]).Nodup ∧
      Table.lookup? members "port" = some (.str c.port) ∧ Table.lookup? members "clock" = some (.str c.clock) ∧
      OpenText (Table.lookup? members "mode") c.mode? ∧ OpenText (Table.lookup? members "local_oscillator") c.lo?
  | .arr items => items = [.str c.port, .str c.clock, .ofOption .str c.mode?, .ofOption .str c.lo?]
  | _ => False

/-- the field for the port -/
def portField : Shape.Field DeviceChannel := .required "port" Reader.text fun c v => { c with port := v }

/-- the field for the clock -/
def clockField : Shape.Field DeviceChannel := .required "clock" Reader.text fun c v => { c with clock := v }

/-- the field for the mode -/
def modeField : Shape.Field DeviceChannel := .optional "mode" Reader.text fun c v => { c with mode? := v }

/-- the field for the oscillator -/
def loField : Shape.Field DeviceChannel := .optional "local_oscillator" Reader.text fun c v => { c with lo? := v }

theorem mem_fields_iff {field : Shape.Field DeviceChannel} :
    field ∈ form.fields ↔ field = portField ∨ field = clockField ∨ field = modeField ∨ field = loField := by
  rw [form, List.mem_cons, List.mem_cons, List.mem_pair]
  rfl

theorem plain_form : form.Plain where
  unkept put := by simp [form]
  spelled field hfield := by rcases mem_fields_iff.1 hfield with rfl | rfl | rfl | rfl <;> rfl
  distinct := by decide
  steady field hfield := by
    rcases mem_fields_iff.1 hfield with rfl | rfl | rfl | rfl
    · exact Field.puts_required.steady
    · exact Field.puts_required.steady
    · exact Field.puts_optional.steady
    · exact Field.puts_optional.steady

theorem owns_port : form.Owns portField port := by
  refine plain_form.owns (mem_fields_iff.2 (by simp)) fun other hother hne => ?_
  rcases mem_fields_iff.1 hother with rfl | rfl | rfl | rfl
  · exact absurd rfl hne
  · exact Field.puts_required.keeps fun _ _ => rfl
  · exact Field.puts_optional.keeps fun _ _ => rfl
  · exact Field.puts_optional.keeps fun _ _ => rfl

theorem owns_clock : form.Owns clockField clock := by
  refine plain_form.owns (mem_fields_iff.2 (by simp)) fun other hother hne => ?_
  rcases mem_fields_iff.1 hother with rfl | rfl | rfl | rfl
  · exact Field.puts_required.keeps fun _ _ => rfl
  · exact absurd rfl hne
  · exact Field.puts_optional.keeps fun _ _ => rfl
  · exact Field.puts_optional.keeps fun _ _ => rfl

theorem owns_mode : form.Owns modeField mode? := by
  refine plain_form.owns (mem_fields_iff.2 (by simp)) fun other hother hne => ?_
  rcases mem_fields_iff.1 hother with rfl | rfl | rfl | rfl
  · exact Field.puts_required.keeps fun _ _ => rfl
  · exact Field.puts_required.keeps fun _ _ => rfl
  · exact absurd rfl hne
  · exact Field.puts_optional.keeps fun _ _ => rfl

theorem owns_lo : form.Owns loField lo? := by
  refine plain_form.owns (mem_fields_iff.2 (by simp)) fun other hother hne => ?_
  rcases mem_fields_iff.1 hother with rfl | rfl | rfl | rfl
  · exact Field.puts_required.keeps fun _ _ => rfl
  · exact Field.puts_required.keeps fun _ _ => rfl
  · exact Field.puts_optional.keeps fun _ _ => rfl
  · exact absurd rfl hne

theorem writtenAs_of_ofJson_obj (h : ofJson (.obj members) = .ok c) : c.WrittenAs (.obj members) := by
  obtain ⟨htake, -⟩ := (Form.exists_ofTree_iff plain_form).1 ⟨c, h⟩
  obtain ⟨hnodup, -⟩ := (Form.takeable_iff_of_ignore rfl).1 htake
  obtain ⟨port, hport, htext⟩ :=
    Form.required_of_ofTree owns_port (mem_fields_iff.2 (.inl rfl)) (fun _ _ => rfl) plain_form h
  obtain ⟨clock, hclock, htext'⟩ :=
    Form.required_of_ofTree owns_clock (mem_fields_iff.2 (.inr (.inl rfl))) (fun _ _ => rfl) plain_form h
  rw [Reader.text_ofTree_iff] at htext htext'
  exact ⟨hnodup, htext ▸ hport, htext' ▸ hclock,
    openText_iff.2 (Form.optional_of_ofTree owns_mode (fun _ _ => rfl) rfl h),
    openText_iff.2 (Form.optional_of_ofTree owns_lo (fun _ _ => rfl) rfl h)⟩

/-- a tree is written as one channel at most -/
theorem WrittenAs.unique (h : c.WrittenAs json) (h' : c'.WrittenAs json) : c = c' := by
  obtain ⟨port, clock, mode?, lo?⟩ := c
  obtain ⟨port', clock', mode?', lo?'⟩ := c'
  rw [DeviceChannel.mk.injEq]
  cases json with
  | obj members =>
    obtain ⟨-, hport, hclock, hmode, hlo⟩ := h
    obtain ⟨-, hport', hclock', hmode', hlo'⟩ := h'
    have hports := Option.some.inj (hport.symm.trans hport')
    have hclocks := Option.some.inj (hclock.symm.trans hclock')
    exact ⟨Json.str.inj hports, Json.str.inj hclocks, hmode.unique hmode', hlo.unique hlo'⟩
  | arr items =>
    have heq := h.symm.trans h'
    simp only [List.cons.injEq, Json.str.injEq, and_true] at heq
    obtain ⟨hports, hclocks, hmodes, hlos⟩ := heq
    exact ⟨hports, hclocks, Reader.ofOption_str_inj hmodes, Reader.ofOption_str_inj hlos⟩
  | _ => exact h.elim

theorem ofJson_obj_iff : ofJson (.obj members) = .ok c ↔ c.WrittenAs (.obj members) := by
  refine ⟨writtenAs_of_ofJson_obj, fun hwritten => ?_⟩
  have ⟨hnodup, hport, hclock, hmode, hlo⟩ := hwritten
  obtain ⟨d, hd⟩ : ∃ d, ofJson (.obj members) = .ok d := by
    refine (Form.exists_ofTree_iff plain_form).2 ⟨(Form.takeable_iff_of_ignore rfl).2 ⟨hnodup, ?_⟩, ?_⟩
    · intro field hfield json hlookup
      rcases mem_fields_iff.1 hfield with rfl | rfl | rfl | rfl
      · obtain rfl := Option.some.inj (hport.symm.trans hlookup)
        exact Field.puts_required.readable form.start rfl
      · obtain rfl := Option.some.inj (hclock.symm.trans hlookup)
        exact Field.puts_required.readable form.start rfl
      · exact hmode.readable form.start hlookup
      · exact hlo.readable form.start hlookup
    · intro field hfield hneeded
      rcases mem_fields_iff.1 hfield with rfl | rfl | rfl | rfl
      · exact Table.mem_keys_of_lookup? hport
      · exact Table.mem_keys_of_lookup? hclock
      · cases hneeded
      · cases hneeded
  rw [hd, (writtenAs_of_ofJson_obj hd).unique hwritten]

theorem ofJson_arr_iff : ofJson (.arr items) = .ok c ↔ c.WrittenAs (.arr items) := by
  rw [ofJson, Form.ofTree_arr_iff plain_form.unkept
    fun field hfield => by rcases mem_fields_iff.1 hfield with rfl | rfl | rfl | rfl <;> rfl]
  match items with
  | [] | [_] | [_, _] | [_, _, _] | _ :: _ :: _ :: _ :: _ :: _ => simp [WrittenAs, Form.TakesAll, form]
  | [port, clock, mode, lo] =>
    simp only [form, Form.takesAll_cons_iff Field.puts_required, Form.takesAll_cons_iff Field.puts_optional,
      Form.takesAll_nil_iff, Reader.text_ofTree_iff, Reader.nullable_text_ofTree_iff, WrittenAs, List.cons.injEq,
      and_true]
    constructor
    · rintro ⟨_, rfl, _, rfl, _, rfl, _, rfl, rfl⟩
      exact ⟨rfl, rfl, rfl, rfl⟩
    · rintro ⟨rfl, rfl, rfl, rfl⟩
      exact ⟨_, rfl, _, rfl, _, rfl, _, rfl, rfl⟩

/-- **Reading a channel field.** -/
theorem ofJson_iff : ofJson json = .ok c ↔ c.WrittenAs json := by
  cases json with
  | obj members => exact ofJson_obj_iff
  | arr items => exact ofJson_arr_iff
  | _ => exact iff_of_false (fun h => by cases h) id

end DeviceChannel

/-! ## Edges -/

namespace Wiring

variable {leaf : Leaf} {wiring : ChannelWiring} {device : Device} {field : String × Json} {index : Nat} {e : Edge}

/-- the edge of a port-clock of a leaf -/
def edgeOn (leaf : Leaf) (wiring : ChannelWiring) (entry : PortClockEntry) : Edge :=
  ⟨⟨entry.port, entry.clock⟩, leaf.path, wiring.lo?, none, leaf.location⟩

/-- the edge of a channel field of the device at `index` -/
def edgeIn (index : Nat) (device : Device) (name : String) (c : DeviceChannel) : Edge :=
  ⟨⟨c.port, c.clock⟩, .ofSegments [device.name, name], c.lo?, c.mode?.bind ChannelKind.ofMode?,
    fieldLocation index name⟩

/-- an object that is written as a leaf has an edge for each port-clock that it lists -/
theorem leafEdges_of_writtenAs {members : Table String Json} (hobject : leaf.value = .obj members)
    (h : wiring.WrittenAs (.obj members)) : leafEdges leaf = wiring.portClocks.map (edgeOn leaf wiring) := by
  rw [leafEdges, hobject]
  simp only [ChannelWiring.ofJson_iff.2 h]
  rfl

theorem mem_leafEdges_iff : e ∈ leafEdges leaf ↔
    ∃ members wiring, leaf.value = .obj members ∧ ChannelWiring.WrittenAs wiring (.obj members) ∧
      ∃ entry ∈ wiring.portClocks, e = edgeOn leaf wiring entry := by
  constructor
  · intro he
    unfold leafEdges at he
    split at he
    · rename_i members hobject
      split at he
      · rename_i wiring hwiring
        obtain ⟨entry, hentry, rfl⟩ := List.mem_map.1 he
        exact ⟨members, wiring, hobject, ChannelWiring.ofJson_iff.1 hwiring, entry, hentry, rfl⟩
      · cases he
    · cases he
  · rintro ⟨members, wiring, hobject, hwritten, entry, hentry, rfl⟩
    rw [leafEdges_of_writtenAs hobject hwritten]
    exact List.mem_map_of_mem hentry

theorem fieldEdge?_eq_some_iff : fieldEdge? index device field = some e ↔
    ∃ c, DeviceChannel.WrittenAs c field.2 ∧ e = edgeIn index device field.1 c := by
  simp only [← DeviceChannel.ofJson_iff]
  unfold fieldEdge?
  constructor
  · intro he
    split at he
    · rename_i c hc
      cases he
      exact ⟨c, hc, rfl⟩
    · cases he
  · rintro ⟨c, hc, rfl⟩
    simp only [hc]
    rfl

end Wiring

namespace Connectivity

open RackMap.Wiring (Draft edgeIn edgeOn leavesOfRoot)

variable {root : Table String Json} {listed : List Device} {e : Edge}

/-- **Edges of a nested connectivity.** They are those of the port-clocks that its leaves are written with. -/
theorem mem_edges_paths_iff : e ∈ (paths root).edges ↔
    ∃ leaf ∈ leavesOfRoot root, ∃ members wiring, leaf.value = .obj members ∧
      ChannelWiring.WrittenAs wiring (.obj members) ∧ ∃ entry ∈ wiring.portClocks, e = edgeOn leaf wiring entry := by
  simp only [edges, List.mem_flatMap, Wiring.mem_leafEdges_iff]

/-- **Edges of a list of devices.** They are those of its channel fields, as they are written. -/
theorem mem_edges_devices_iff : e ∈ (devices listed).edges ↔
    ∃ index device, listed[index]? = some device ∧ ∃ field ∈ Draft.channelFields device, ∃ c,
      DeviceChannel.WrittenAs c field.2 ∧ e = edgeIn index device field.1 c := by
  simp only [edges, List.mem_flatMap, Wiring.deviceEdges, List.mem_filterMap, Wiring.fieldEdge?_eq_some_iff]
  constructor
  · rintro ⟨⟨device, index⟩, hdevice, hfield⟩
    exact ⟨index, device, List.mem_zipIdx_iff_getElem?.1 hdevice, hfield⟩
  · rintro ⟨index, device, hdevice, hfield⟩
    exact ⟨(device, index), List.mem_zipIdx_iff_getElem?.2 hdevice, hfield⟩

end Connectivity

end RackMap
