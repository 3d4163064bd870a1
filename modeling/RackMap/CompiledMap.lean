/-
The compiled map: all that is known of every connected channel, by channel path.
-/
import RackMap.Crosscheck
import RackMap.Frequencies
import RackMap.Json.Printer

namespace RackMap

open RackMap.Decimal (Double)

/-- the oscillator that feeds a channel -/
structure CompiledOscillator where
  lo : OscillatorRef
  /-- open while `none` -/
  frequency? : Option Double
  /-- the described power of an external oscillator -/
  power? : Option Double
deriving DecidableEq, Repr

/-- a port-clock on a channel -/
structure CompiledPortClock where
  portClock : PortClock
  frequencies : Split
  corrections : CorrectionSet
deriving Repr, Inhabited

/-- a connected channel -/
structure CompiledChannel where
  /-- the type of the unit that provides it -/
  unitType : String
  kind : ChannelKind
  direction : Direction
  oscillator? : Option CompiledOscillator
  mixLo? : Option Bool
  downconverter? : Option Double
  markerDebug? : Option Bool
  /-- in document order -/
  portClocks : List CompiledPortClock
deriving Repr

/-- every connected channel, in the order of the paths -/
structure CompiledMap where
  backend : Backend
  channels : Table ChannelPath CompiledChannel
  unresolved : List OpenFrequency
  warnings : List String
deriving Repr

/-! ## JSON form -/

namespace CompiledOscillator

def toJson (o : CompiledOscillator) : Json :=
  .obj (o.lo.members ++ [("frequency", .ofOption .ofDouble o.frequency?)] ++
    Json.member? "power" .ofDouble o.power?)

end CompiledOscillator

namespace CompiledPortClock

def toJson (p : CompiledPortClock) : Json :=
  .obj ([("port_clock", p.portClock.toJson), ("frequencies", p.frequencies.toJson)] ++
    if p.corrections.isEmpty then [] else [("corrections", p.corrections.toJson)])

end CompiledPortClock

namespace CompiledChannel

def toJson (c : CompiledChannel) : Json :=
  .obj ([("instrument_type", .str c.unitType), ("kind", c.kind.toJson), ("direction", c.direction.toJson)] ++
    Json.member? "local_oscillator" CompiledOscillator.toJson c.oscillator? ++
    Json.member? "mix_lo" .bool c.mixLo? ++
    Json.member? "downconverter_freq" .ofDouble c.downconverter? ++
    Json.member? "marker_debug_mode_enable" .bool c.markerDebug? ++
    [("port_clocks", .arr (c.portClocks.map CompiledPortClock.toJson))])

end CompiledChannel

namespace CompiledMap

def toJson (m : CompiledMap) : Json :=
  .obj [("backend", m.backend.toJson),
    ("channels", .obj (List.map (fun p => (p.1.text, p.2.toJson)) m.channels)),
    ("unresolved", .arr (m.unresolved.map OpenFrequency.toJson)),
    ("warnings", .ofStrings m.warnings)]

/-- the map as an indented text -/
def text (m : CompiledMap) : String := m.toJson.pretty

def channel? (m : CompiledMap) (path : ChannelPath) : Option CompiledChannel := m.channels.lookup? path

/-- the channel that carries a port-clock, and its entry there -/
def find? (m : CompiledMap) (pc : PortClock) : Option (ChannelPath × CompiledPortClock) :=
  List.findSome? (fun p => (p.2.portClocks.find? (·.portClock = pc)).map fun entry => (p.1, entry)) m.channels

end CompiledMap

/-! ## Compiling -/

namespace Compile

/-- the first intermediate frequency that is asked for twice, and all port-clocks that ask for it -/
def clash? : List CompiledPortClock → Option (Double × List PortClock)
  | [] => none
  | entry :: rest =>
    match entry.frequencies.interm? with
    | none => clash? rest
    | some frequency =>
      let same := rest.filter fun other => other.frequencies.interm?.any (·.same frequency)
      if same.isEmpty then clash? rest
      else some (frequency, (entry :: same).map CompiledPortClock.portClock)

/-- the oscillator of a channel with its frequency, and its power if it is external -/
def oscillator (inv : Inventory) (r : Resolution) (lo : OscillatorRef) : CompiledOscillator :=
  { lo := lo
    frequency? := r.frequency? lo
    power? :=
      match lo with
      | .external name => (inv.oscillator? name).bind Oscillator.power?
      | .integrated _ _ => none }

/-- the port-clocks on a channel with their frequencies and corrections -/
def entries (options : OptionTable) (wiring : Wiring) (r : Resolution) (path : ChannelPath) :
    List CompiledPortClock :=
  (wiring.portClocksOn path).map fun pc => ⟨pc, r.split pc, options.corrections pc⟩

/-- a connected channel with all its port-clocks; the oscillator is that of the first one -/
def channel (inv : Inventory) (options : OptionTable) (wiring : Wiring) (settings : Settings) (r : Resolution)
    (path : ChannelPath) : Except Failure (ChannelPath × CompiledChannel) :=
  match inv.channel? path with
  | none => .error (.undescribed path none)
  | some described =>
    match Crosscheck.overload? inv wiring path with
    | some violation => .error (.duplicates [violation])
    | none =>
      let entries := entries options wiring r path
      match if settings.distinctIntermediate then clash? entries else none with
      | some (frequency, pcs) => .error (.conflict (.intermediate path frequency pcs))
      | none =>
        .ok (path, {
          unitType := described.unitType
          kind := described.kind
          direction := described.direction
          oscillator? := ((wiring.portClocksOn path).head?.bind r.lo?).map (oscillator inv r)
          mixLo? := described.mixLo?
          downconverter? := described.downconverter?
          markerDebug? := described.markerDebug?
          portClocks := entries })

/-- the compiled map of resolved documents -/
def map (inv : Inventory) (options : OptionTable) (wiring : Wiring) (settings : Settings) (r : Resolution)
    (warnings : List String) : Except Failure CompiledMap := do
  let channels ← wiring.channels.mapM (channel inv options wiring settings r)
  return ⟨inv.backend, Table.sortedOfPairs channels, r.unresolved, warnings⟩

/-- what is written once the map is compiled -/
def journal (diagnostics : Bool) (m : CompiledMap) : Journal :=
  Journal.diagnostic diagnostics .compiledMap s!"Compiled {m.channels.length} channels"

end Compile

end RackMap
