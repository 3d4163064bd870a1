/-
Assignments beyond what the hardware allows: a port-clock on two channels, or too many port-clocks on one.
-/
import RackMap.Signal.ChannelKind
import RackMap.Signal.ChannelPath
import RackMap.Signal.PortClock

namespace RackMap

/-- the items between single quotes, separated by commas -/
def quotedList (items : List String) : String := Text.join ", " (items.map fun item => s!"'{item}'")

/-- an assignment beyond what the hardware allows -/
inductive Violation where
  /-- a port-clock that is connected more than once, with the channels of all its edges -/
  | portClock (portClock : PortClock) (channels : List ChannelPath)
  /-- a channel with more port-clocks than its kind carries -/
  | capacity (channel : ChannelPath) (kind : ChannelKind) (capacity : Nat) (portClocks : List PortClock)
deriving DecidableEq, Repr

namespace Violation

/-- the entry of the connectivity that the assignment is made in -/
def location : Violation → String
  | portClock pc _ => s!"connectivity.{pc.text}"
  | capacity channel _ _ _ => s!"connectivity.{channel.text}"

def message : Violation → String
  | portClock pc channels =>
    s!"Port-clock '{pc.text}' is connected more than once: {quotedList (channels.map ChannelPath.text)}"
  | capacity channel kind limit pcs =>
    s!"Channel '{channel.text}' of kind '{kind.text}' carries at most {limit} port-clock(s), but {pcs.length} are " ++
      s!"connected: {quotedList (pcs.map PortClock.text)}"

end Violation

end RackMap
