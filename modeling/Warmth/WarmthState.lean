import Warmth.Bytes

namespace Warmth

open Codec

inductive WarmthState
  | cold | discovered | preparing | partiallyWarm | warm | hot | stale | invalidated | evicted
  | failed
deriving DecidableEq, Repr

instance : ByteEnum WarmthState where
  values := [.cold, .discovered, .preparing, .partiallyWarm, .warm, .hot, .stale, .invalidated,
    .evicted, .failed]
  toByte
    | .cold => 0 | .discovered => 1 | .preparing => 2 | .partiallyWarm => 3 | .warm => 4
    | .hot => 5 | .stale => 6 | .invalidated => 7 | .evicted => 8 | .failed => 9
  get_toByte := by intro s; cases s <;> rfl

def isExecutionReady (s : WarmthState) : Bool := s == .warm || s == .hot

inductive WarmthLevel
  | none | discovered | preparing | partialLevel | ready | hot
deriving DecidableEq, Repr

/-- The enumerator's underlying value, in which levels are compared. -/
def WarmthLevel.value : WarmthLevel → Nat
  | .none => 0 | .discovered => 1 | .preparing => 2 | .partialLevel => 3 | .ready => 4 | .hot => 5

def toLevel : WarmthState → WarmthLevel
  | .cold => .none
  | .discovered => .discovered
  | .preparing => .preparing
  | .partiallyWarm => .partialLevel
  | .warm => .ready
  | .hot => .hot
  | .stale | .invalidated | .evicted | .failed => .none

def isLiveWarmState (s : WarmthState) : Bool := s == .partiallyWarm || s == .warm || s == .hot

/-- The explicit transition table: a state is only entered through a listed edge. -/
def transitionAllowed (source target : WarmthState) : Bool :=
  match source with
  | .cold => target == .cold || target == .discovered || target == .preparing ||
      target == .evicted || target == .invalidated || target == .failed
  | .discovered => target == .cold || target == .discovered || target == .preparing ||
      target == .partiallyWarm || target == .warm ||
      target == .invalidated || target == .evicted || target == .failed
  | .preparing => target == .discovered || target == .preparing || target == .partiallyWarm ||
      target == .warm || target == .hot || target == .stale ||
      target == .invalidated || target == .evicted || target == .failed
  | .partiallyWarm => target == .preparing || target == .partiallyWarm || target == .warm ||
      target == .stale || target == .invalidated || target == .evicted ||
      target == .failed || target == .cold
  | .warm => target == .hot || target == .warm || target == .partiallyWarm ||
      target == .stale || target == .invalidated || target == .evicted ||
      target == .failed || target == .discovered
  | .hot => target == .warm || target == .hot || target == .stale ||
      target == .invalidated || target == .evicted || target == .failed
  | .stale => target == .warm || target == .stale || target == .invalidated ||
      target == .cold || target == .evicted || target == .failed || target == .discovered
  | .invalidated => target == .cold || target == .discovered || target == .preparing ||
      target == .invalidated || target == .failed || target == .evicted
  | .evicted => target == .cold || target == .discovered || target == .preparing ||
      target == .evicted
  | .failed => target == .cold || target == .discovered || target == .invalidated ||
      target == .failed

end Warmth
