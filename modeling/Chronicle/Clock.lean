/-! Clocks as issuers and lease holders see them. -/

namespace Chronicle

/-- A millisecond clock. Within a call it moves during a pause, and may move before the call looks at it again. -/
class Clock (γ : Type) where
  now : γ → Int64
  pause : γ → γ
  elapse : γ → γ

structure SteppingClock where
  millis : Int64
  step : Int64
deriving DecidableEq, Repr

namespace SteppingClock

def advance (c : SteppingClock) (delta : Int64) : SteppingClock := { c with millis := c.millis + delta }

instance : Clock SteppingClock where
  now c := c.millis
  pause c := c.advance c.step
  elapse c := c

end SteppingClock

end Chronicle
