/-
Channel paths: dotted paths `instrument[.module].channel` of physical channels.
-/
import RackMap.Json.Value
import RackMap.Text.Cut

namespace RackMap

/-- a dotted path -/
structure ChannelPath where
  text : String
deriving DecidableEq, Repr, Inhabited

namespace ChannelPath

instance : LT ChannelPath := ⟨fun a b => a.text < b.text⟩

instance (a b : ChannelPath) : Decidable (a < b) := inferInstanceAs (Decidable (a.text < b.text))

def le (a b : ChannelPath) : Bool := a.text ≤ b.text

def toJson (path : ChannelPath) : Json := .str path.text

/-- the segments with dots between them -/
def ofSegments (segments : List String) : ChannelPath := ⟨Text.join "." segments⟩

/-- the last segment -/
def name (path : ChannelPath) : String := ((Text.cutLast? '.' path.text).map Prod.snd).getD path.text

/-- all but the last segment: the instrument or module that has the channel -/
def parent? (path : ChannelPath) : Option String := (Text.cutLast? '.' path.text).map Prod.fst

/-- the first segment -/
def instrument (path : ChannelPath) : String := ((Text.cutFirst? '.' path.text).map Prod.fst).getD path.text

end ChannelPath

end RackMap
