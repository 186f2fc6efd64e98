import Zrpc.Go

/-!
# The timeout header (`protocol/timeout.go`)

Durations are nanoseconds in an `int64`.
-/

namespace Zrpc

def timeoutHeader : GoString := str "zrpc-timeout"

def maxTimeoutValue : Int := 100000000 - 1

def nanosecond : Int := 1
def microsecond : Int := 1000 * nanosecond
def millisecond : Int := 1000 * microsecond
def second : Int := 1000 * millisecond
def minute : Int := 60 * second
def hour : Int := 60 * minute

def timeoutUnitToDuration (u : UInt8) : Option Int :=
  if u = 72 then some hour
  else if u = 77 then some minute
  else if u = 83 then some second
  else if u = 109 then some millisecond
  else if u = 117 then some microsecond
  else if u = 110 then some nanosecond
  else none

/-- `div` rounds up; Go's `/` and `%` truncate towards zero. -/
def div (d r : Int) : Int :=
  if 0 < d.tmod r then int64 (d.tdiv r + 1) else d.tdiv r

def encodeTimeout (t : Int) : GoString :=
  if t ≤ 0 then str "0n"
  else if div t nanosecond ≤ maxTimeoutValue then str (toString (div t nanosecond)) ++ str "n"
  else if div t microsecond ≤ maxTimeoutValue then str (toString (div t microsecond)) ++ str "u"
  else if div t millisecond ≤ maxTimeoutValue then str (toString (div t millisecond)) ++ str "m"
  else if div t second ≤ maxTimeoutValue then str (toString (div t second)) ++ str "S"
  else if div t minute ≤ maxTimeoutValue then str (toString (div t minute)) ++ str "M"
  else str (toString (div t hour)) ++ str "H"

/-- `strconv.ParseUint(s, 10, 64)`. -/
def parseUint (E : Env) (s : GoString) : Except GoString Nat :=
  if s = [] ∨ s.any (fun c => c < 48 || 57 < c) then
    .error (str "strconv.ParseUint: parsing " ++ E.quote s ++ str ": invalid syntax")
  else
    let n := s.foldl (fun n c => 10 * n + (c.toNat - 48)) 0
    if n < 2 ^ 64 then .ok n
    else .error (str "strconv.ParseUint: parsing " ++ E.quote s ++ str ": value out of range")

def maxHours : Int := (2 ^ 63 - 1) / hour

def decodeTimeout (E : Env) (s : GoString) : Go Int := do
  let size := s.length
  if size < 2 then fail (str "timeout string is too short: " ++ E.quote s)
  if 9 < size then fail (str "timeout string is too long: " ++ E.quote s)
  let unit ← index s (size - 1)
  match timeoutUnitToDuration unit with
  | none => fail (str "timeout unit is not recognized: " ++ E.quote s)
  | some d =>
    let digits ← slice s 0 (size - 1)
    match parseUint E digits with
    | .error e => fail e
    | .ok t =>
      if d = hour ∧ maxHours < t then return 2 ^ 63 - 1
      return int64 (d * int64 t)

end Zrpc
