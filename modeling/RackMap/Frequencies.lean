/-
Frequencies of the local oscillators.

The port-clocks that one oscillator feeds form a group and must agree on its frequency. A group takes the first
frequency that a member asks for and hands it to the members that left it open. Intermediate frequencies are never
derived; what is not given stays open and is listed.
-/
import RackMap.Inventory
import RackMap.OptionTable
import RackMap.Wiring

namespace RackMap

open RackMap.Decimal (Double)

/-- the frequencies of a port-clock in Hz, as far as they are known -/
structure Split where
  interm? : Option Double
  lo? : Option Double
deriving DecidableEq, Repr, Inhabited

namespace Split

def none : Split := ⟨.none, .none⟩

def toJson (s : Split) : Json :=
  .obj [("interm_freq", .ofOption .ofDouble s.interm?), ("lo_freq", .ofOption .ofDouble s.lo?)]

end Split

/-- one of the two frequencies of a port-clock -/
inductive FrequencySlot where
  | intermediate
  | oscillator
deriving DecidableEq, Repr

namespace FrequencySlot

def text : FrequencySlot → String
  | intermediate => "intermediate frequency"
  | oscillator => "LO frequency"

def toJson : FrequencySlot → Json
  | intermediate => .str "intermediate_frequency"
  | oscillator => .str "lo_frequency"

end FrequencySlot

/-- a frequency that nobody gives; what becomes of it is not decided here -/
structure OpenFrequency where
  portClock : PortClock
  /-- the oscillator that feeds the port-clock -/
  lo? : Option OscillatorRef
  slot : FrequencySlot
deriving DecidableEq, Repr

namespace OpenFrequency

def text (u : OpenFrequency) : String :=
  match u.lo? with
  | some lo => s!"The {u.slot.text} of '{u.portClock.text}' (local oscillator '{lo.text}') is unresolved"
  | none => s!"The {u.slot.text} of '{u.portClock.text}' is unresolved"

def toJson (u : OpenFrequency) : Json :=
  .obj ([("port_clock", u.portClock.toJson)] ++ Json.member? "lo" OscillatorRef.toJson u.lo? ++
    [("slot", u.slot.toJson)])

end OpenFrequency

/-- the port-clocks that one oscillator feeds, or a single port-clock that none feeds -/
structure LoGroup where
  lo? : Option OscillatorRef
  /-- in document order -/
  members : List PortClock
  frequency? : Option Double
deriving DecidableEq, Repr

namespace LoGroup

/-- the members that ask for a frequency, with what they ask for -/
def explicit (options : OptionTable) (g : LoGroup) : List (PortClock × Double) :=
  g.members.filterMap fun pc => (options.modulation pc).lo?.map fun f => (pc, f)

/-- the group with the frequency that its members agree on -/
def settle (options : OptionTable) (g : LoGroup) : Except Failure LoGroup :=
  let requests := g.explicit options
  match requests with
  | [] => .ok { g with frequency? := none }
  | (_, frequency) :: _ =>
    if requests.all fun r => r.2.same frequency then .ok { g with frequency? := some frequency }
    else
      match g.lo? with
      | some lo => .error (.conflict (.oscillator lo requests))
      | none => .error .looseConflict

/-- the frequencies of a member -/
def split (options : OptionTable) (g : LoGroup) (pc : PortClock) : Split :=
  let requested := options.modulation pc
  ⟨requested.interm?, requested.lo?.or g.frequency?⟩

/-- the frequencies of a member that stay open -/
def openOf (options : OptionTable) (g : LoGroup) (pc : PortClock) : List OpenFrequency :=
  let split := g.split options pc
  (if g.lo?.isSome ∧ split.lo? = none then [⟨pc, g.lo?, .oscillator⟩] else []) ++
    (if split.interm? = none then [⟨pc, g.lo?, .intermediate⟩] else [])

end LoGroup

/-- the settled groups, the frequencies of their members and what stays open -/
structure Resolution where
  groups : List LoGroup
  /-- the frequencies of each member, with the place of its group -/
  splits : Table PortClock (Split × Nat)
  unresolved : List OpenFrequency
deriving Repr, Inhabited

namespace Frequencies

/-- the oscillator that feeds an edge: the one built in, or else the one connected -/
def effectiveLo? (channel : Channel) (edge : Edge) : Option OscillatorRef :=
  channel.oscillator?.or (edge.lo?.map .external)

/-- a port-clock in the group of its oscillator, or in a group of its own -/
def addMember (pc : PortClock) (lo? : Option OscillatorRef) : List LoGroup → List LoGroup
  | [] => [⟨lo?, [pc], none⟩]
  | g :: groups =>
    if lo?.isSome ∧ g.lo? = lo? then { g with members := g.members ++ [pc] } :: groups
    else g :: addMember pc lo? groups

/-- the groups with one more edge; marker channels have no frequencies -/
def addEdge (inv : Inventory) (groups : List LoGroup) (edge : Edge) : Except Failure (List LoGroup) :=
  match inv.channel? edge.channel with
  | none => .error (.undescribed edge.channel (some edge.portClock))
  | some channel =>
    if channel.kind.carriesFrequencies then .ok (addMember edge.portClock (effectiveLo? channel edge) groups)
    else .ok groups

/-- the groups of all edges, by first member -/
def groups (inv : Inventory) (wiring : Wiring) : Except Failure (List LoGroup) := wiring.edges.foldlM (addEdge inv) []

/-- the resolution of settled groups -/
def ofGroups (options : OptionTable) (groups : List LoGroup) : Resolution :=
  { groups := groups
    splits := groups.zipIdx.flatMap fun (g, index) => g.members.map fun pc => (pc, g.split options pc, index)
    unresolved := groups.flatMap fun g => g.members.flatMap (g.openOf options) }

/-- every group settled; the first that its members do not agree on is the failure -/
def resolve (inv : Inventory) (options : OptionTable) (wiring : Wiring) : Except Failure Resolution := do
  let groups ← groups inv wiring
  return ofGroups options (← groups.mapM (LoGroup.settle options))

/-- what is written once the frequencies are resolved -/
def journal (diagnostics : Bool) (r : Resolution) : Journal :=
  r.unresolved.flatMap (fun u => Journal.warning .frequencies u.text) ++
    Journal.diagnostic diagnostics .frequencies
      s!"Resolved {r.groups.length} LO groups, {r.unresolved.length} frequencies left unresolved"

end Frequencies

namespace Resolution

/-- the frequencies of a port-clock, all open if it has none -/
def split (r : Resolution) (pc : PortClock) : Split := ((r.splits.lookup? pc).map Prod.fst).getD .none

/-- the place of the group that a port-clock belongs to -/
def groupIndex? (r : Resolution) (pc : PortClock) : Option Nat := (r.splits.lookup? pc).map Prod.snd

/-- the oscillator that feeds a port-clock -/
def lo? (r : Resolution) (pc : PortClock) : Option OscillatorRef :=
  ((r.groupIndex? pc).bind fun i => r.groups[i]?).bind LoGroup.lo?

/-- the frequency of an oscillator -/
def frequency? (r : Resolution) (lo : OscillatorRef) : Option Double :=
  (r.groups.find? (·.lo? = some lo)).bind LoGroup.frequency?

end Resolution

end RackMap
