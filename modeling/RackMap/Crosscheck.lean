/-
Checks of the documents against each other.

Every check runs to its end, and all problems are reported together:
- options should belong to connected port-clocks (`unusedKeys`);
- an edge must name a described channel, agree with its kind, and name an oscillator only where one can be connected
  (`edgeCauses`);
- no channel may carry more port-clocks than its kind allows (`overloads`).
-/
import RackMap.Document.Settings
import RackMap.Inventory
import RackMap.OptionTable
import RackMap.Wiring

namespace RackMap.Crosscheck

/-- the options that are for no connected port-clock -/
def unusedKeys (options : OptionTable) (wiring : Wiring) : List String :=
  let connected := wiring.edges.map fun edge => edge.portClock.text
  options.keys.filter (· ∉ connected)

/-- where the options of a key stand -/
def optionsLocation (key : String) : String := s!"hardware_options.{key}"

/-- the warnings about unused options -/
def warnings (options : OptionTable) (wiring : Wiring) (settings : Settings) : List String :=
  match settings.unusedOptions with
  | .warn => (unusedKeys options wiring).map fun key => s!"{optionsLocation key}: {Cause.notConnectedMessage}"
  | _ => []

/-- the issues about unused options -/
def unusedReport (options : OptionTable) (wiring : Wiring) (settings : Settings) : Report :=
  match settings.unusedOptions with
  | .error => (unusedKeys options wiring).map fun key => ⟨optionsLocation key, .notConnected⟩
  | _ => []

/-- what a path to no described channel gets wrong: the channel, the module or the instrument -/
def missingChannelCause (inv : Inventory) (path : ChannelPath) : Cause :=
  let unit := path.parent?.getD ""
  match inv.unit? unit with
  | some type => .noChannelOnUnit unit type.name path.name
  | none =>
    if (inv.instrumentType? path.instrument).isSome then .channelNotDescribed path
    else .instrumentNotDescribed path.instrument

/-- what is wrong with the oscillator that an edge names for a described channel -/
def oscillatorCauses (inv : Inventory) (channel : Channel) (name : String) : List Cause :=
  (match channel.oscillator? with
    | some builtIn => [.oscillatorBuiltIn builtIn name]
    | none => if channel.kind = .digital then [.oscillatorOnDigital name] else []) ++
    (if (inv.oscillator? name).isSome then []
      else
        match inv.instrumentType? name with
        | some type => [.notAnOscillator name type]
        | none => [.unknownOscillator name])

/-- what is wrong with an edge; of a channel that is not described nothing else is said -/
def edgeCauses (inv : Inventory) (edge : Edge) : List Cause :=
  match inv.channel? edge.channel with
  | none => [missingChannelCause inv edge.channel]
  | some channel =>
    (match edge.mode? with
      | some mode => if mode = channel.kind then [] else [.modeDisagrees mode edge.portClock channel.kind]
      | none => []) ++
      (match edge.lo? with
        | some name => oscillatorCauses inv channel name
        | none => [])

def edgesReport (inv : Inventory) (wiring : Wiring) : Report :=
  wiring.edges.flatMap fun edge => Report.located edge.location (edgeCauses inv edge)

/-- the violation of a channel with more port-clocks than its kind carries -/
def overload? (inv : Inventory) (wiring : Wiring) (path : ChannelPath) : Option Violation :=
  match inv.channel? path with
  | none => none
  | some channel =>
    match channel.kind.capacity? with
    | none => none
    | some capacity =>
      let pcs := wiring.portClocksOn path
      if capacity < pcs.length then some (.capacity path channel.kind capacity pcs) else none

/-- the overloaded channels, in the order they are connected -/
def overloads (inv : Inventory) (wiring : Wiring) : List Violation := wiring.channels.filterMap (overload? inv wiring)

/-- the warnings, if the documents fit together; overloaded channels are a failure of their own only if nothing else
is wrong -/
def validate (inv : Inventory) (options : OptionTable) (wiring : Wiring) (settings : Settings) :
    Except Failure (List String) :=
  let report := unusedReport options wiring settings ++ edgesReport inv wiring
  let overloaded := overloads inv wiring
  if !report.isEmpty then .error (.referential (report ++ overloaded.map Issue.ofViolation))
  else if !overloaded.isEmpty then .error (.duplicates overloaded)
  else .ok (warnings options wiring settings)

/-- what is written while the documents are checked -/
def journal (diagnostics : Bool) (inv : Inventory) (options : OptionTable) (wiring : Wiring) (settings : Settings) :
    Journal :=
  (warnings options wiring settings).flatMap (Journal.warning .crosscheck) ++
    (match validate inv options wiring settings with
      | .ok ws =>
        Journal.diagnostic diagnostics .crosscheck s!"Referential validation passed with {ws.length} warnings"
      | .error _ => [])

end RackMap.Crosscheck
