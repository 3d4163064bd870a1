/-
The connectivity: which port-clocks are wired to which channel, in one of two shapes.

Either a list of devices whose fields `channel_N` hold one port-clock each, or objects nested along the path of a
channel, with a leaf that lists the port-clocks.
-/
import RackMap.Shape.Form

namespace RackMap

open RackMap.Shape

/-- a device of the list; fields that are no channels play no part here -/
structure Device where
  name : String
  fields : Table String Json
  distinct : fields.keys.Nodup
deriving Repr

instance : Inhabited Device := ⟨⟨"", [], by simp [Table.keys]⟩⟩

/-- the wiring as written -/
inductive Connectivity where
  | devices (devices : List Device)
  | paths (root : Table String Json)
deriving Repr, Inhabited

/-- a port and a clock as written -/
structure PortClockEntry where
  port : String
  clock : String
deriving DecidableEq, Repr, Inhabited

/-- a leaf of the nested shape -/
structure ChannelWiring where
  portClocks : List PortClockEntry
  /-- the external oscillator that feeds the channel -/
  lo? : Option String
deriving DecidableEq, Repr, Inhabited

/-- a channel field of a device -/
structure DeviceChannel where
  port : String
  clock : String
  mode? : Option String
  lo? : Option String
deriving DecidableEq, Repr, Inhabited

namespace PortClockEntry

def form : Form PortClockEntry where
  typeName := "PortClockConfig"
  fields := [
    .required "port" Reader.text fun e v => { e with port := v },
    .required "clock" Reader.text fun e v => { e with clock := v }]
  start := ⟨"", ""⟩
  others := .refuse

end PortClockEntry

namespace ChannelWiring

def form : Form ChannelWiring where
  typeName := "ChannelConnection"
  fields := [
    .required "portclock_configs" (Reader.list PortClockEntry.form.read) fun c v => { c with portClocks := v },
    .optional "lo_name" Reader.text fun c v => { c with lo? := v }]
  start := ⟨[], none⟩
  others := .refuse

def ofJson : Json → Except Fault ChannelWiring := form.read.ofTree

end ChannelWiring

namespace DeviceChannel

def form : Form DeviceChannel where
  typeName := "DeviceChannelConnection"
  fields := [
    .required "port" Reader.text fun c v => { c with port := v },
    .required "clock" Reader.text fun c v => { c with clock := v },
    .optional "mode" Reader.text fun c v => { c with mode? := v },
    .optional "local_oscillator" Reader.text fun c v => { c with lo? := v }]
  start := ⟨"", "", none, none⟩
  others := .ignore

def ofJson : Json → Except Fault DeviceChannel := form.read.ofTree

end DeviceChannel

namespace Device

def form : Form Device where
  typeName := "DeviceConnection"
  fields := [.required "name" Reader.text fun d v => { d with name := v }]
  start := default
  others := .keep fun d key json =>
    { d with fields := d.fields.put key json.collapse, distinct := Table.nodup_keys_put d.distinct key json.collapse }

end Device

namespace Connectivity

/-- an array of devices, or any object -/
def ofJson (json : Json) : Except Fault Connectivity :=
  let shape? : Except Fault Connectivity :=
    match json with
    | .obj _ => ((Reader.map Reader.any).ofTree json).map paths
    | json => ((Reader.list Device.form.read).ofTree json).map devices
  shape?.mapError fun _ => .noVariant "Connectivity"

/-- the text is read to the end of the connectivity before its shape is looked at -/
def read : Reader Connectivity := fun e => do ofJson (← Reader.tree e)

end Connectivity

end RackMap
