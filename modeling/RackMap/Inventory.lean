/-
The inventory: what the hardware description declares.

It holds the type of every instrument, the units that provide channels (instruments without slots, and modules), the
channels by path and the standalone oscillators by name. Building it goes on after a problem, so that all problems of
the description are reported together:
- `describeUnit` says which channels a unit has and what is wrong with their descriptions;
- `Draft.addInstrument` enters one instrument; `Inventory.build` enters them all in the order of the document.
-/
import RackMap.Document.Description
import RackMap.Failure
import RackMap.Journal

namespace RackMap

open RackMap.Decimal (Double)

/-- a described channel -/
structure Channel where
  path : ChannelPath
  kind : ChannelKind
  direction : Direction
  /-- the type of the unit that provides it -/
  unitType : String
  /-- the integrated oscillator that feeds it -/
  oscillator? : Option OscillatorRef
  mixLo? : Option Bool
  downconverter? : Option Double
  markerDebug? : Option Bool
deriving DecidableEq, Repr, Inhabited

/-- a described oscillator that is an instrument of its own -/
structure Oscillator where
  name : String
  /-- in dBm -/
  power? : Option Double
  instrumentName? : Option String
  iccName? : Option String
  frequencyParam? : Option String
  powerParam? : Option String
deriving DecidableEq, Repr, Inhabited

/-- what a hardware description declares -/
structure Inventory where
  backend : Backend
  /-- the type of each instrument -/
  instruments : Table String String
  /-- the units with channels, by path -/
  units : Table String UnitType
  channels : Table ChannelPath Channel
  oscillators : Table String Oscillator
deriving Repr

/-! ## Channels of a unit -/

/-- the channel descriptions among the fields of a unit; each must name a channel of the unit's type -/
def declaredChannels (type : UnitType) (fields : Table String Json) (location : String) :
    Report × Table String ChannelDescription :=
  let entries := List.filter (fun p => Catalogue.isChannelName p.1) fields
  let results : List (String × Except Cause ChannelDescription) := entries.map fun p =>
    (p.1,
      if (type.channel? p.1).isNone then .error (.noSuchChannel type.name p.1 (type.channels.map ChannelSlot.name))
      else (ChannelDescription.ofJson p.2).mapError .shape)
  (results.filterMap fun r =>
      match r.2 with
      | .error cause => some ⟨s!"{location}.{r.1}", cause⟩
      | .ok _ => none,
    results.filterMap fun r =>
      match r.2 with
      | .error _ => none
      | .ok description => some (r.1, description))

/-- the mode that a description declares, if any -/
def declaredMode : Option String → Except Cause (Option ChannelKind)
  | none => .ok none
  | some mode =>
    match ChannelKind.ofMode? mode with
    | some kind => .ok (some kind)
    | none => .error (.invalidMode mode)

/-- the kind of a channel, `none` for a channel that is not in use: the fixed kind, or else the declared mode -/
def kindOf (slot : ChannelSlot) (description? : Option ChannelDescription) : Except Cause (Option ChannelKind) := do
  match slot.kind?, ← declaredMode (description?.bind ChannelDescription.mode?) with
  | some fixed, some mode => if fixed = mode then return some fixed else .error (.fixedKind fixed mode)
  | some fixed, none => return some fixed
  | none, some mode => return some mode
  | none, none => if description?.isSome then .error .modeMissing else return none

/-- what is wrong with a description for a channel of this kind -/
def descriptionCauses (kind : ChannelKind) (d : ChannelDescription) : List Cause :=
  (if kind ≠ .complex ∧ (d.mixLo?.isSome ∨ d.downconverter?.isSome) then [.complexOnly] else []) ++
    (d.downconverter?.toList.filter (fun f => !f.isFinite)).map .downconverterNotFinite

/-- one channel of a unit: what is wrong with it, and the channel if it is in use -/
def describeChannel (unitPath : String) (type : UnitType) (location : String) (slot : ChannelSlot)
    (description? : Option ChannelDescription) : Report × Option Channel :=
  let location := s!"{location}.{slot.name}"
  match kindOf slot description? with
  | .error cause => ([⟨location, cause⟩], none)
  | .ok none => ([], none)
  | .ok (some kind) =>
    let d := description?.getD {}
    (Report.located location (descriptionCauses kind d),
      some {
        path := ChannelPath.ofSegments [unitPath, slot.name]
        kind := kind
        direction := slot.direction
        unitType := type.name
        oscillator? := slot.oscillator?.map (.integrated unitPath)
        mixLo? := d.mixLo?
        downconverter? := d.downconverter?
        markerDebug? := d.markerDebug? })

/-- the channels of a unit with these fields, and all that is wrong with their descriptions -/
def describeUnit (unitPath : String) (type : UnitType) (fields : Table String Json) (location : String) :
    Report × List Channel :=
  let (report, declared) := declaredChannels type fields location
  let slots := type.channels.map fun slot =>
    describeChannel unitPath type location slot (Table.lookup? declared slot.name)
  (report ++ slots.flatMap Prod.fst, slots.filterMap Prod.snd)

/-! ## Instruments -/

/-- the path segment of a slot, `module` and its number without leading zeros; the slot may be written `1` or
`module1` -/
def moduleName? (slot : String) : Option String :=
  let index := (Text.dropStart? "module" slot).getD slot
  if Text.isDigits index then
    let digits := index.toList.dropWhile (· = '0')
    some ("module" ++ if digits.isEmpty then "0" else String.ofList digits)
  else none

/-- an inventory in the making with the problems found so far -/
structure Draft where
  inventory : Inventory
  report : Report

namespace Draft

def note (d : Draft) (location : String) (cause : Cause) : Draft := { d with report := d.report ++ [⟨location, cause⟩] }

def noteAll (d : Draft) (report : Report) : Draft := { d with report := d.report ++ report }

/-- a unit with its channels -/
def addUnit (d : Draft) (path : String) (type : UnitType) (fields : Table String Json) (location : String) : Draft :=
  let (report, channels) := describeUnit path type fields location
  { inventory := { d.inventory with
      units := d.inventory.units.put path type
      channels := channels.foldl (fun t c => t.put c.path c) d.inventory.channels }
    report := d.report ++ report }

/-- the type of a module, if a slot of the composite instrument takes it -/
def slotType? (backend : Backend) (composite : UnitType) (type : String) : Option UnitType :=
  if composite.moduleTypes.contains type then backend.unitType? type else none

/-- a module in a slot of a composite instrument -/
def addModule (name : String) (composite : UnitType) (location : String) (d : Draft)
    (entry : String × ModuleDescription) : Draft :=
  let location := s!"{location}.modules.{entry.1}"
  match moduleName? entry.1 with
  | none => d.note location .badSlot
  | some moduleName =>
    match slotType? d.inventory.backend composite entry.2.type with
    | none => d.note location (.unknownModuleType entry.2.type composite.name composite.moduleTypes)
    | some type =>
      let path := s!"{name}.{moduleName}"
      if d.inventory.units.has path then d.note location (.slotTaken moduleName)
      else d.addUnit path type entry.2.fields location

/-- what is wrong with a standalone oscillator -/
def oscillatorCauses (i : InstrumentDescription) : List Cause :=
  (i.power?.toList.filter (fun p => !p.isFinite)).map .powerNotFinite ++
    (if i.modules?.isSome ∨ i.reference?.isSome then [.notForOscillators] else []) ++
    (i.fields.keys.map .unknownOscillatorField)

def addOscillator (d : Draft) (name : String) (i : InstrumentDescription) (location : String) : Draft :=
  let oscillator : Oscillator := ⟨name, i.power?, i.instrumentName?, i.iccName?, i.frequencyParam?, i.powerParam?⟩
  { inventory := { d.inventory with oscillators := d.inventory.oscillators.put name oscillator }
    report := d.report ++ Report.located location (oscillatorCauses i) }

/-- what is wrong with the settings of an instrument of this type, its channels and modules apart -/
def settingCauses (type : UnitType) (i : InstrumentDescription) : List Cause :=
  (match i.reference? with
    | none => []
    | some reference =>
      if type.referenceSources.isEmpty then [.referenceNotApplicable]
      else if type.referenceSources.contains reference then []
      else [.unknownReference reference type.referenceSources]) ++
    (if i.power?.isSome then [.powerNotApplicable] else [])

/-- an instrument of a known type -/
def addTyped (d : Draft) (name : String) (type : UnitType) (i : InstrumentDescription) (location : String) : Draft :=
  let d := d.noteAll (Report.located location (settingCauses type i))
  if type.isComposite then
    let outside := i.fields.keys.filter Catalogue.isChannelName
    let d := d.noteAll (outside.map fun key => ⟨s!"{location}.{key}", .channelOutsideModule type.name⟩)
    (i.modules?.getD []).foldl (addModule name type location) d
  else
    let d := if i.modules?.isSome then d.note location (.noSlots type.name) else d
    d.addUnit name type i.fields location

/-- one instrument of the description -/
def addInstrument (d : Draft) (entry : String × InstrumentDescription) : Draft :=
  let (name, i) := entry
  let location := s!"hardware_description.{name}"
  let d := { d with inventory := { d.inventory with instruments := d.inventory.instruments.put name i.type } }
  if i.type = Catalogue.oscillatorType then d.addOscillator name i location
  else
    match d.inventory.backend.unitType? i.type with
    | none => d.note location (.unknownType i.type d.inventory.backend)
    | some type =>
      if d.inventory.backend.isModuleType type.name then d.note location (.moduleOutsideSlot type.name)
      else d.addTyped name type i location

end Draft

namespace Inventory

def empty (backend : Backend) : Inventory := ⟨backend, [], [], [], []⟩

/-- all instruments entered in the order of the description -/
def draft (description : HardwareDescription) (backend : Backend) : Draft :=
  description.foldl Draft.addInstrument ⟨empty backend, []⟩

/-- the inventory of a description without problems -/
def build (description : HardwareDescription) (backend : Backend) : Except Failure Inventory :=
  let d := draft description backend
  if d.report.isEmpty then .ok d.inventory else .error (.schema d.report)

def channel? (inv : Inventory) (path : ChannelPath) : Option Channel := inv.channels.lookup? path

def oscillator? (inv : Inventory) (name : String) : Option Oscillator := inv.oscillators.lookup? name

def instrumentType? (inv : Inventory) (name : String) : Option String := inv.instruments.lookup? name

/-- the type of the unit at a path -/
def unit? (inv : Inventory) (path : String) : Option UnitType := inv.units.lookup? path

/-- what is written once an inventory is built -/
def journal (diagnostics : Bool) (inv : Inventory) : Journal :=
  Journal.diagnostic diagnostics .description
    (s!"Hardware description: {inv.instruments.length} instruments, {inv.channels.length} channels, " ++
      s!"{inv.oscillators.length} local oscillators")

end Inventory

end RackMap
