import FlowEngine.Node.Registry
/-!
# `FlowEngine.Node.Wait` — the node that waits

An amount of seconds, minutes or hours; a unit that is none of them counts as seconds, and an amount
that is not positive as five.  A duration is rounded to the nearest nanosecond, ties to even, and the
wait ends at the next full millisecond.  Durations of `2^64` seconds or more cannot be waited for.
-/

namespace FlowEngine.Wait

def unitSeconds (unit : String) : Float :=
  if ["minutes", "minute", "m"].contains unit then 60.0
  else if ["hours", "hour", "h"].contains unit then 3600.0
  else 1.0

/-- A quotient rounded to the nearest whole number, ties to even. -/
def roundToEven (numerator denominator : Nat) : Nat :=
  let below := numerator / denominator
  let twice := 2 * (numerator % denominator)
  if twice < denominator || (twice == denominator && below % 2 == 0) then below else below + 1

def nanoseconds (seconds : Float) : Nat :=
  let d := Dyadic.ofBits seconds.toBits.toNat
  let scaled := d.mantissa * 1000000000
  if 0 ≤ d.exponent then scaled * Nat.pow 2 d.exponent.natAbs
  else roundToEven scaled (Nat.pow 2 d.exponent.natAbs)

/-- The milliseconds to wait for a positive number of seconds, if it can be waited for. -/
def milliseconds? (seconds : Float) : Option Nat :=
  if seconds < 18446744073709551616.0 then some ((nanoseconds seconds + 999999) / 1000000)
  else none

def tooLong : String :=
  "cannot convert float seconds to Duration: value is either too big or NaN"

def amount (ctx : NodeContext) : Except NodeError Float :=
  match ctx.float? "amount" with
  | .error e => .error e
  | .ok (some x) => .ok (if 0.0 < x then x else 5.0)
  | .ok none => .ok 5.0

def execute (ctx : NodeContext) : Program (Except NodeError NodeOutput) := do
  match amount ctx with
  | .error e => return .error e
  | .ok amount =>
    let unit := (ctx.text? "unit").getD "seconds"
    match milliseconds? (amount * unitSeconds unit) with
    | none => return .error (.invalidConfig "amount" tooLong)
    | some millis =>
      ctx.notify (.info ("Delaying for " ++ Decimal.Layout.plain.text amount ++ " " ++ unit))
      Program.sleep millis
      return .ok { output := ctx.data }

def handler : Handler :=
  { kind := "util.delay"
    metadata := { description := "Wait before continuing the flow", category := "time" }
    execute }

end FlowEngine.Wait
