/-
The wiring: which port-clock is connected to which channel.

Both shapes of the connectivity come down to one list of edges, in the order of the document:
- `Draft.walk` goes through the nested shape, and `Draft.addLeaf` reads one leaf of it;
- `Draft.addDevice` reads one device of the list shape;
- `EdgeIndex.ofEdges` goes through the edges once and keeps where port-clocks and channels are found;
- `Wiring.ofEdges` takes edges whose port-clocks are pairwise different and reports all others together.
-/
import RackMap.Document.Connectivity
import RackMap.Catalogue
import RackMap.Failure
import RackMap.Journal

namespace RackMap

/-- a port-clock on a channel -/
structure Edge where
  portClock : PortClock
  channel : ChannelPath
  /-- the name of the external oscillator that feeds the channel -/
  lo? : Option String
  /-- the mode declared next to the edge -/
  mode? : Option ChannelKind
  /-- where it is declared -/
  location : String
deriving DecidableEq, Repr, Inhabited

/-- where port-clocks and channels are found in a list of edges -/
structure EdgeIndex where
  /-- the place of the edge of each port-clock -/
  byPortClock : Table PortClock Nat
  /-- the places of the edges on each channel -/
  byChannel : Table ChannelPath (List Nat)
  /-- the channels of all edges of a port-clock, once it comes up again -/
  repeated : Table PortClock (List ChannelPath)
deriving Repr

namespace EdgeIndex

/-- one more edge, with its place in the list `edges`; behind the first edge of a port-clock it is only repeated -/
def add (edges : List Edge) (index : EdgeIndex) : Edge × Nat → EdgeIndex
  | (e, place) =>
    match index.byPortClock.lookup? e.portClock with
    | some first =>
      let known := (index.repeated.lookup? e.portClock).getD (edges[first]?.map Edge.channel).toList
      { index with repeated := index.repeated.put e.portClock (known ++ [e.channel]) }
    | none =>
      let known := (index.byChannel.lookup? e.channel).getD []
      { index with
        byPortClock := index.byPortClock.put e.portClock place
        byChannel := index.byChannel.put e.channel (known ++ [place]) }

/-- the index of a list of edges, made in one pass -/
def ofEdges (edges : List Edge) : EdgeIndex := edges.zipIdx.foldl (add edges) ⟨[], [], []⟩

end EdgeIndex

/-- edges in document order with their index, no two of them with the same port-clock -/
structure Wiring where
  edges : List Edge
  index : EdgeIndex
  indexed : index = EdgeIndex.ofEdges edges
  unrepeated : index.repeated = []
deriving Repr

instance : Inhabited Wiring := ⟨⟨[], EdgeIndex.ofEdges [], rfl, rfl⟩⟩

namespace Wiring

/-! ## Lists of edges -/

/-- the wiring with these edges; all port-clocks with more than one edge are reported together -/
def ofEdges (edges : List Edge) : Except Failure Wiring :=
  let index := EdgeIndex.ofEdges edges
  if h : index.repeated = [] then .ok ⟨edges, index, rfl, h⟩
  else .error (.duplicates (List.map (fun p => .portClock p.1 p.2) index.repeated))

/-- the edge of a port-clock -/
def edge? (w : Wiring) (pc : PortClock) : Option Edge := (w.index.byPortClock.lookup? pc).bind fun i => w.edges[i]?

def channelFor? (w : Wiring) (pc : PortClock) : Option ChannelPath := (w.edge? pc).map Edge.channel

/-- the external oscillator connected to a port-clock -/
def loFor? (w : Wiring) (pc : PortClock) : Option String := (w.edge? pc).bind Edge.lo?

/-- the port-clocks on a channel, in document order -/
def portClocksOn (w : Wiring) (path : ChannelPath) : List PortClock :=
  ((w.index.byChannel.lookup? path).getD []).filterMap fun i => w.edges[i]?.map Edge.portClock

/-- the connected channels, each once, by first appearance -/
def channels (w : Wiring) : List ChannelPath := w.index.byChannel.keys

/-! ## Port-clocks as written -/

/-- the port-clock of an entry: a port `element:line` with both parts, and a clock -/
def portClockOf (entry : PortClockEntry) : Except Cause PortClock :=
  match Text.cutFirst ':' entry.port.toList with
  | some (_ :: _, _ :: _) => if entry.clock = "" then .error (.emptyClock entry.port) else .ok ⟨entry.port, entry.clock⟩
  | _ => .error (.badPort entry.port)

/-! ## The nested shape -/

/-- a value of the nested document that is not taken apart any further -/
structure Leaf where
  path : ChannelPath
  value : Json
deriving Repr

/-- the key that marks a leaf -/
def leafKey : String := "portclock_configs"

/-- edges in the making with the problems found so far -/
structure Draft where
  /-- the paths of the leaves that were read -/
  seen : List ChannelPath
  edges : List Edge
  report : Report

namespace Draft

/-- the port-clocks of a leaf on its channel -/
def addWiring (d : Draft) (path : ChannelPath) (location : String) (wiring : ChannelWiring) : Draft :=
  let entries := wiring.portClocks.map portClockOf
  { seen := path :: d.seen
    edges := d.edges ++ entries.filterMap fun entry =>
      match entry with
      | .ok pc => some ⟨pc, path, wiring.lo?, none, location⟩
      | .error _ => none
    report := d.report ++ entries.filterMap fun entry =>
      match entry with
      | .ok _ => none
      | .error cause => some ⟨location, cause⟩ }

/-- one leaf; a path that was read before is refused -/
def addLeaf (d : Draft) (leaf : Leaf) : Draft :=
  let location := s!"connectivity.{leaf.path.text}"
  let note (cause : Cause) : Draft := { d with report := d.report ++ [⟨location, cause⟩] }
  match leaf.value with
  | .obj members =>
    match ChannelWiring.ofJson (.obj members) with
    | .error fault => note (.shape fault)
    | .ok wiring => if leaf.path ∈ d.seen then note .channelTwice else d.addWiring leaf.path location wiring
  | _ => note .noObject

mutual

/-- all leaves below a value in document order, `segments` being those of the path so far; a key may hold several -/
def walk (segments : List String) (d : Draft) : Json → Draft
  | .obj members =>
    if members.any (·.1 = leafKey) then d.addLeaf ⟨.ofSegments segments, .obj members⟩
    else walkMembers segments d members
  | json => d.addLeaf ⟨.ofSegments segments, json⟩

def walkMembers (segments : List String) (d : Draft) : List (String × Json) → Draft
  | [] => d
  | (key, child) :: rest => walkMembers segments (walk (segments ++ Text.split '.' key) d child) rest

end

/-! ## The list shape -/

/-- the edge of a channel field -/
def deviceEdge (name : String) (location : String) (field : String × Json) : Except Cause Edge := do
  let channel ← (DeviceChannel.ofJson field.2).mapError .shape
  let mode? ←
    match channel.mode? with
    | none => pure none
    | some mode =>
      match ChannelKind.ofMode? mode with
      | some kind => pure (some kind)
      | none => .error (.invalidMode mode)
  let pc ← portClockOf ⟨channel.port, channel.clock⟩
  return ⟨pc, .ofSegments [name, field.1], channel.lo?, mode?, location⟩

/-- one channel field of a device -/
def addField (name : String) (location : String) (d : Draft) (field : String × Json) : Draft :=
  let location := s!"{location}.{field.1}"
  match deviceEdge name location field with
  | .ok edge => { d with edges := d.edges ++ [edge] }
  | .error cause => { d with report := d.report ++ [⟨location, cause⟩] }

/-- the fields `channel_N` of a device -/
def channelFields (device : Device) : List (String × Json) :=
  List.filter (fun p => (Text.dropStart? "channel_" p.1).isSome && Catalogue.isChannelName p.1) device.fields

/-- the devices from the one at `index` on; `names` are those of the devices before -/
def addDevices (d : Draft) : Nat → List String → List Device → Draft
  | _, _, [] => d
  | index, names, device :: rest =>
    let location := s!"connectivity[{index}]"
    if device.name ∈ names then
      addDevices { d with report := d.report ++ [⟨location, .deviceTwice device.name⟩] } (index + 1) names rest
    else
      addDevices ((channelFields device).foldl (addField device.name location) d) (index + 1) (device.name :: names)
        rest

end Draft

/-- all edges of a connectivity, and all its problems -/
def draft : Connectivity → Draft
  | .paths root => root.foldl (fun d p => d.walk [p.1] p.2) ⟨[], [], []⟩
  | .devices devices => Draft.addDevices ⟨[], [], []⟩ 0 [] devices

/-- the wiring of a connectivity -/
def build (connectivity : Connectivity) : Except Failure Wiring :=
  let d := draft connectivity
  if d.report.isEmpty then ofEdges d.edges else .error (.schema d.report)

/-- what is written once a wiring is built from a document -/
def journal (diagnostics : Bool) (w : Wiring) : Journal :=
  Journal.diagnostic diagnostics .connectivity
    s!"Connectivity: {w.index.byPortClock.length} port-clocks on {w.index.byChannel.length} channels"

end Wiring

end RackMap
