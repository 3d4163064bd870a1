/-
Failures of a compilation.

Schema problems lie within one document, referential ones between documents; violations are assignments beyond what
the hardware allows; a conflict is two requests that cannot both be met. The last two failures cannot follow on a
successful validation.
-/
import RackMap.Report

namespace RackMap

open RackMap.Decimal (Double)

/-- requests that cannot all be met -/
inductive Conflict where
  /-- the members of the group of an oscillator that ask for a frequency, with what they ask for -/
  | oscillator (lo : OscillatorRef) (members : List (PortClock × Double))
  /-- port-clocks on one channel that ask for the same intermediate frequency -/
  | intermediate (channel : ChannelPath) (frequency : Double) (portClocks : List PortClock)
deriving DecidableEq, Repr

namespace Conflict

def portClocks : Conflict → List PortClock
  | oscillator _ members => members.map Prod.fst
  | intermediate _ _ pcs => pcs

def message : Conflict → String
  | oscillator lo members =>
    s!"Local oscillator '{lo.text}' cannot take multiple frequencies: " ++
      Text.join ", " (members.map fun m => s!"'{m.1.text}' requests {m.2.plain} Hz")
  | intermediate channel frequency pcs =>
    s!"Port-clocks {quotedList (pcs.map PortClock.text)} on channel '{channel.text}' share the LO and the " ++
      s!"intermediate frequency {frequency.plain} Hz"

end Conflict

/-- why a compilation fails -/
inductive Failure where
  | schema (report : Report)
  | referential (report : Report)
  | duplicates (violations : List Violation)
  | conflict (conflict : Conflict)
  /-- a channel that an edge names, but the description lacks -/
  | undescribed (channel : ChannelPath) (portClock? : Option PortClock)
  /-- a conflict between port-clocks that no oscillator feeds -/
  | looseConflict

namespace Failure

def message : Failure → String
  | schema report => "Invalid hardware compilation config:\n" ++ report.text
  | referential report => "Inconsistent hardware compilation config:\n" ++ report.text
  | duplicates violations => Text.join "\n" (violations.map Violation.message)
  | conflict c => c.message
  | undescribed channel none => s!"Channel '{channel.text}' is not described"
  | undescribed channel (some pc) => s!"Channel '{channel.text}' of '{pc.text}' is not described"
  | looseConflict => "Conflict in a group without LO"

end Failure

namespace Report

/-- nothing if there is no issue, otherwise the report as a failure -/
def check (failure : Report → Failure) (report : Report) : Except Failure Unit :=
  if report.isEmpty then .ok () else .error (failure report)

end Report

end RackMap
